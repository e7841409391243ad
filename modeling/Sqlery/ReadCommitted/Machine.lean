import Mathlib.Data.List.FinRange
import Mathlib.Logic.Function.Basic

/-!
# A machine for transactions under READ COMMITTED

Sessions run programs made of SQL statements against one committed database.
A statement that takes locks has two moments: it takes its snapshot of the
committed data (together with the session's own uncommitted writes), and it
takes effect later, when the locks it needs are free.  Other sessions may
commit in between, so a statement sees the rows it selected in its snapshot
and the current version of each of them, which is what PostgreSQL does when
it re-checks a row it had to wait for.  Writes stay private to the session
until it commits.

The machine knows neither tables nor columns.  A schema says what a write
does to the database, which locks it needs and which locks exclude each
other.
-/

namespace Sqlery.ReadCommitted

/-- The sessions of small systems go by numerals. -/
instance oneSession : @NeZero Nat .ofOfNat0 1 := ⟨Nat.succ_ne_zero 0⟩

instance twoSessions : @NeZero Nat .ofOfNat0 2 := ⟨Nat.succ_ne_zero 1⟩

/-- What the machine has to know about the stored data. -/
structure Schema (Db Write Lock : Type) where
  apply : Write → Db → Db
  /-- Locks a transaction must hold on the rows it writes. -/
  guards : Write → List Lock
  conflicts : Lock → Lock → Bool
  conflicts_symm : ∀ left right,
    conflicts left right = conflicts right left

namespace Schema

variable {Db Write Lock : Type} (S : Schema Db Write Lock)

def applyAll (writes : List Write) (db : Db) : Db :=
  writes.foldl (fun db write => S.apply write db) db

@[simp] theorem applyAll_nil (db : Db) : S.applyAll [] db = db := rfl

@[simp] theorem applyAll_cons (write : Write) (writes : List Write) (db : Db) :
    S.applyAll (write :: writes) db =
      S.applyAll writes (S.apply write db) := rfl

theorem applyAll_append (first second : List Write) (db : Db) :
    S.applyAll (first ++ second) db =
      S.applyAll second (S.applyAll first db) :=
  List.foldl_append

end Schema

/-- The other open transactions, as a statement meets them. -/
structure Others (Lock : Type) where
  /-- Another transaction holds a lock that excludes this one. -/
  busy : Lock → Bool
  /-- Another transaction has an uncommitted write under such a lock. -/
  dirty : Lock → Bool

/-- What a statement does when it takes effect.  Writes made `atOnce` are not
transactional: they are visible immediately and survive a rollback, like the
advance of a sequence. -/
structure Effect (Write Lock β : Type) where
  result : β
  writes : List Write := []
  locks : List Lock := []
  atOnce : List Write := []

/-- A statement reads its snapshot and the current data; `none` means that it
has to wait. -/
abbrev Statement (Db Write Lock β : Type) : Type :=
  Db → Db → Others Lock → Option (Effect Write Lock β)

/-- The code of one call.  `halt` is a process that stopped for good.  A query
may leave a remark on what it read in the session's record; nothing depends on
the record. -/
inductive Prog (Db Write Lock α : Type) : Type 1 where
  | done (value : α)
  | halt
  | query {β : Type} (read : Db → β) (remark : β → List Write)
      (next : β → Prog Db Write Lock α)
  | exec {β : Type} (statement : Statement Db Write Lock β)
      (next : β → Prog Db Write Lock α)
  | commit (next : Prog Db Write Lock α)
  | rollback (next : Prog Db Write Lock α)

namespace Prog

variable {Db Write Lock α β γ : Type}

def bind (program : Prog Db Write Lock α)
    (next : α → Prog Db Write Lock β) : Prog Db Write Lock β :=
  match program with
  | .done value => next value
  | .halt => .halt
  | .query read remark rest =>
      .query read remark fun value => (rest value).bind next
  | .exec statement rest =>
      .exec statement fun value => (rest value).bind next
  | .commit rest => .commit (rest.bind next)
  | .rollback rest => .rollback (rest.bind next)

instance : Monad (Prog Db Write Lock) where
  pure := .done
  bind := .bind

@[simp] theorem pure_eq (value : α) :
    (pure value : Prog Db Write Lock α) = .done value := rfl

@[simp] theorem bind_eq (program : Prog Db Write Lock α)
    (next : α → Prog Db Write Lock β) :
    program >>= next = program.bind next := rfl

/-- A call that has ended: it returned, or its process is gone. -/
def idle : Prog Db Write Lock α → Bool
  | .done _ => true
  | .halt => true
  | _ => false

/-- The process is gone. -/
def stopped : Prog Db Write Lock α → Bool
  | .halt => true
  | _ => false

/-- The next step is a statement with a snapshot. -/
def isExec : Prog Db Write Lock α → Bool
  | .exec _ _ => true
  | _ => false

end Prog

/-- The program stays inside one transaction. -/
def Prog.Within {Db Write Lock α : Type} : Prog Db Write Lock α → Prop
  | .done _ => True
  | .halt => True
  | .query _ _ next => ∀ value, (next value).Within
  | .exec _ next => ∀ value, (next value).Within
  | .commit _ => False
  | .rollback _ => False

theorem Prog.Within.bind {Db Write Lock α β : Type}
    {program : Prog Db Write Lock α} {next : α → Prog Db Write Lock β}
    (within : program.Within) (rest : ∀ value, (next value).Within) :
    (program.bind next).Within := by
  induction program with
  | done value => exact rest value
  | halt => trivial
  | query read remark tail ih => exact fun value => ih value (within value)
  | exec statement tail ih => exact fun value => ih value (within value)
  | commit tail => exact within.elim
  | rollback tail => exact within.elim

/-- The transaction state of a session.  `written` is what the transactions
this call has committed so far wrote, and `noted` the remarks on what it has
read. -/
structure Local (Write Lock : Type) where
  pending : List Write := []
  held : List Lock := []
  written : List Write := []
  noted : List Write := []

namespace Local

variable {Write Lock : Type}

def extend (state : Local Write Lock) (writes : List Write)
    (locks : List Lock) : Local Write Lock :=
  { state with
    pending := state.pending ++ writes
    held := state.held ++ locks }

def note (state : Local Write Lock) (remarks : List Write) :
    Local Write Lock :=
  { state with noted := state.noted ++ remarks }

def committed (state : Local Write Lock) : Local Write Lock :=
  { state with
    pending := []
    held := []
    written := state.written ++ state.pending }

def rolledBack (state : Local Write Lock) : Local Write Lock :=
  { state with pending := [], held := [] }

end Local

/-- The code of the system: its schema, the body of every call, and the
non-transactional writes the environment may make (a clock that moves). -/
structure System (Db Write Lock Call α : Type) where
  schema : Schema Db Write Lock
  body : Call → Prog Db Write Lock α
  ambient : Write → Bool

structure Session (Db Write Lock Call α : Type) where
  call : Option Call := none
  state : Local Write Lock := {}
  snapshot : Option Db := none
  prog : Prog Db Write Lock α := .halt

/-- `journal` lists what every committed transaction wrote, oldest first. -/
structure State (Db Write Lock Call α : Type) (n : Nat) where
  db : Db
  journal : List (Call × List Write) := []
  session : Fin n → Session Db Write Lock Call α := fun _ => {}

def State.replace {Db Write Lock Call α : Type} {n : Nat}
    (state : State Db Write Lock Call α n) (process : Fin n)
    (session : Session Db Write Lock Call α) :
    State Db Write Lock Call α n :=
  { state with session := Function.update state.session process session }

inductive Action (Write Call : Type) (n : Nat) where
  | start (process : Fin n) (call : Call)
  | step (process : Fin n)
  | crash (process : Fin n)
  | ambient (write : Write)

/-- The actions of a process that makes one call and takes so many steps. -/
def Action.calls {Write Call : Type} {n : Nat} (process : Fin n)
    (call : Call) (steps : Nat) : List (Action Write Call n) :=
  .start process call :: List.replicate steps (.step process)

namespace System

variable {Db Write Lock Call α : Type} {n : Nat}
variable (sys : System Db Write Lock Call α)

def initial (db : Db) : State Db Write Lock Call α n := { db }

/-- The locks a statement's effect adds to its transaction. -/
def acquired {β : Type} (effect : Effect Write Lock β) : List Lock :=
  effect.locks ++ effect.writes.flatMap sys.schema.guards

def others (state : State Db Write Lock Call α n) (process : Fin n) :
    Others Lock where
  busy lock := (List.finRange n).any fun other =>
    other ≠ process &&
      (state.session other).state.held.any (sys.schema.conflicts lock)
  dirty lock := (List.finRange n).any fun other =>
    other ≠ process &&
      (state.session other).state.pending.any fun write =>
        (sys.schema.guards write).any (sys.schema.conflicts lock)

/-- The data a session sees: what is committed, with its own writes. -/
def view (db : Db) (state : Local Write Lock) : Db :=
  sys.schema.applyAll state.pending db

/-- One step of the program a session runs. -/
def advance (state : State Db Write Lock Call α n) (process : Fin n) :
    Option (State Db Write Lock Call α n) :=
  let session := state.session process
  match session.prog with
  | .done _ => none
  | .halt => none
  | .query read remark next =>
      let value := read (sys.view state.db session.state)
      some (state.replace process
        { session with
          state := session.state.note (remark value)
          prog := next value })
  | .exec statement next =>
      match session.snapshot with
      | none =>
          some (state.replace process
            { session with
              snapshot := some (sys.view state.db session.state) })
      | some snapshot =>
          let others := sys.others state process
          match statement snapshot (sys.view state.db session.state) others
            with
          | none => none
          | some effect =>
              if (sys.acquired effect).any others.busy then none
              else
                some (State.replace
                  { state with
                    db := sys.schema.applyAll effect.atOnce state.db }
                  process
                  { session with
                    state := session.state.extend effect.writes
                      (sys.acquired effect)
                    snapshot := none
                    prog := next effect.result })
  | .commit next =>
      some (State.replace
        { state with
          db := sys.schema.applyAll session.state.pending state.db
          journal := match session.call with
            | some call =>
                state.journal ++ [(call, session.state.pending)]
            | none => state.journal }
        process
        { session with state := session.state.committed, prog := next })
  | .rollback next =>
      some (state.replace process
        { session with state := session.state.rolledBack, prog := next })

def act (state : State Db Write Lock Call α n) :
    Action Write Call n → Option (State Db Write Lock Call α n)
  | .start process call =>
      if (state.session process).prog.idle then
        some (state.replace process
          { call := some call, prog := sys.body call })
      else none
  | .step process => sys.advance state process
  | .crash process =>
      some (state.replace process
        { (state.session process) with
          state := (state.session process).state.rolledBack
          snapshot := none
          prog := .halt })
  | .ambient write =>
      if sys.ambient write then
        some { state with db := sys.schema.apply write state.db }
      else none

def run (state : State Db Write Lock Call α n) :
    List (Action Write Call n) → Option (State Db Write Lock Call α n)
  | [] => some state
  | action :: actions =>
      match sys.act state action with
      | some next => run next actions
      | none => none

/-- States reached by actions that all meet `allowed`. -/
inductive Reaches
    (allowed : State Db Write Lock Call α n → Action Write Call n → Prop)
    (start : State Db Write Lock Call α n) :
    State Db Write Lock Call α n → Prop where
  | refl : Reaches allowed start start
  | step {state next : State Db Write Lock Call α n}
      {action : Action Write Call n} :
      Reaches allowed start state → allowed state action →
      sys.act state action = some next → Reaches allowed start next

/-- Every action is allowed. -/
def anyStep (_ : State Db Write Lock Call α n) (_ : Action Write Call n) :
    Prop := True

theorem Reaches.trans
    {allowed : State Db Write Lock Call α n → Action Write Call n → Prop}
    {first second third : State Db Write Lock Call α n}
    (left : sys.Reaches allowed first second)
    (right : sys.Reaches allowed second third) :
    sys.Reaches allowed first third := by
  induction right with
  | refl => exact left
  | step _ permitted taken ih => exact .step ih permitted taken

theorem Reaches.mono
    {allowed weaker : State Db Write Lock Call α n → Action Write Call n → Prop}
    {first second : State Db Write Lock Call α n}
    (implies : ∀ state action, allowed state action → weaker state action)
    (reaches : sys.Reaches allowed first second) :
    sys.Reaches weaker first second := by
  induction reaches with
  | refl => exact .refl
  | step _ permitted taken ih =>
      exact .step ih (implies _ _ permitted) taken

theorem reaches_of_run
    {actions : List (Action Write Call n)}
    {first last : State Db Write Lock Call α n}
    (ran : sys.run first actions = some last) :
    sys.Reaches anyStep first last := by
  induction actions generalizing first with
  | nil =>
      cases ran
      exact .refl
  | cons action actions ih =>
      simp only [run] at ran
      split at ran
      · rename_i next taken
        exact Reaches.trans sys (.step .refl trivial taken) (ih ran)
      · cases ran

/-- The run of a list of actions that all pass a check. -/
def runWhile (check : State Db Write Lock Call α n → Action Write Call n → Bool)
    (state : State Db Write Lock Call α n) :
    List (Action Write Call n) → Option (State Db Write Lock Call α n)
  | [] => some state
  | action :: actions =>
      if check state action then
        match sys.act state action with
        | some next => runWhile check next actions
        | none => none
      else none

theorem reaches_of_runWhile
    {check : State Db Write Lock Call α n → Action Write Call n → Bool}
    {allowed : State Db Write Lock Call α n → Action Write Call n → Prop}
    (sound : ∀ state action, check state action = true →
      allowed state action)
    {actions : List (Action Write Call n)}
    {first last : State Db Write Lock Call α n}
    (ran : sys.runWhile check first actions = some last) :
    sys.Reaches allowed first last := by
  induction actions generalizing first with
  | nil =>
      cases ran
      exact .refl
  | cons action actions ih =>
      simp only [runWhile] at ran
      split at ran
      · rename_i checked
        split at ran
        · rename_i next taken
          exact Reaches.trans sys (.step .refl (sound _ _ checked) taken)
            (ih ran)
        · cases ran
      · cases ran

end System

end Sqlery.ReadCommitted
