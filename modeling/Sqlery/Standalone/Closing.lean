import Sqlery.Standalone.Specs

/-!
# Closing attempts and moving rows

The specifications of `close_*_stmt` and of the move into history.  A close
finds only attempts that are open in the committed data; a move inserts the
history row of a live row whose lock is held and deletes the same row.
-/

namespace Sqlery.Standalone

open ReadCommitted
open Setting (stable_and stable_fact)
open Script

/-! ## The rows of a statement -/

section Targets

variable {K V : Type} [DecidableEq K] {key : V → K}
variable {table : Db → Table key} {admits : Db → V → Bool}
variable {snapshot current : Db}

theorem mem_targets_iff {row : V} :
    row ∈ targets table admits snapshot current ↔
      (table current).get (key row) = some row ∧
        admits snapshot row = true ∧
        ∃ old, (table snapshot).get (key row) = some old ∧
          admits snapshot old = true := by
  simp only [targets, List.mem_filterMap, Option.ite_none_right_eq_some]
  constructor
  · rintro ⟨old, member, isAdmitted, found⟩
    rw [Option.filter_eq_some_iff] at found
    have keyed : key row = key old := Table.key_of_get found.1
    rw [keyed]
    exact ⟨found.1, found.2, old, Table.get_of_mem member, isAdmitted⟩
  · rintro ⟨isCurrent, wanted, old, isOld, isAdmitted⟩
    refine ⟨old, Table.mem_of_get isOld, isAdmitted, ?_⟩
    rw [Table.key_of_get isOld, Option.filter_eq_some_iff]
    exact ⟨isCurrent, wanted⟩

omit [DecidableEq K] in
theorem keys_filterMap_sublist {pick : V → Option V}
    (keeps : ∀ old row, pick old = some row → key row = key old)
    (rows : List V) :
    ((rows.filterMap pick).map key).Sublist (rows.map key) := by
  induction rows with
  | nil => simp
  | cons old rows ih =>
      cases picked : pick old with
      | none =>
          rw [List.filterMap_cons_none picked]
          exact ih.cons _
      | some row =>
          rw [List.filterMap_cons_some picked, List.map_cons, List.map_cons,
            keeps old row picked]
          exact ih.cons_cons _

theorem nodup_targets :
    ((targets table admits snapshot current).map key).Nodup := by
  refine (table snapshot).nodup.sublist (keys_filterMap_sublist ?_ _)
  intro old row picked
  simp only [Option.ite_none_right_eq_some, Option.filter_eq_some_iff] at picked
  exact Table.key_of_get picked.2.1

end Targets

/-! ## Views -/

section Views

variable {writes : List Write} {db : Db}

/-- A row the session sees is the committed one, unless it wrote the row. -/
theorem live_of_view {job : JobId} {row : Job}
    (noInsert : ∀ new, .insertLive new ∉ writes)
    (noUpdate : ∀ new, .setLive new ∉ writes)
    (found : (after writes db).live.get job = some row) :
    db.live.get job = some row := by
  rcases live_after_cases found with ⟨new, inserted, _⟩ |
    ⟨old, isOld, rfl | updated⟩
  · exact (noInsert new inserted).elim
  · exact isOld
  · exact (noUpdate row updated).elim

/-- The session sees the committed row, unless it removed or wrote it. -/
theorem view_of_live {job : JobId} {row : Job}
    (kept : ∀ write ∈ writes, ¬removes job write)
    (noUpdate : ∀ new, .setLive new ∉ writes)
    (found : db.live.get job = some row) :
    (after writes db).live.get job = some row := by
  obtain ⟨new, isNew, rfl | updated⟩ := live_after_some found kept
  · exact isNew
  · exact (noUpdate new updated).elim

/-- An attempt the session sees open is open in the committed data. -/
theorem open_of_view {attempt : Attempt}
    (noInsert : ∀ new, .insertAttempt new ∉ writes)
    (found : (after writes db).attempts.get attempt.id = some attempt)
    (isOpen : attempt.isOpen = true) :
    db.attempts.get attempt.id = some attempt ∧
      attempt.id ∉ writes.filterMap closedId := by
  rcases open_after_cases (Table.mem_of_get found) isOpen with old | new
  · refine ⟨Table.get_of_mem old, ?_⟩
    intro member
    obtain ⟨write, isWrite, closes⟩ := List.mem_filterMap.mp member
    have isClose : Standalone.closes attempt.id write := by
      cases write with
      | closeAttempt id job now outcome =>
          cases closes
          exact ⟨job, now, outcome, rfl⟩
      | _ => cases closes
    obtain ⟨closed, isClosed, notOpen⟩ :=
      attempts_after_closed (Table.get_of_mem old) isWrite isClose
    rw [found] at isClosed
    cases isClosed
    rw [notOpen] at isOpen
    cases isOpen
  · exact (noInsert attempt new).elim

theorem idle_of_view {job : JobId}
    (noClose : ∀ id owner now outcome,
      .closeAttempt id owner now outcome ∉ writes)
    (idle : (after writes db).hasOpenAttempt job = false) :
    db.hasOpenAttempt job = false := by
  rw [hasOpenAttempt_eq_false] at idle ⊢
  intro attempt member isOpen
  refine idle attempt (Table.mem_of_get (attempts_after_kept
    (Table.get_of_mem member) ?_)) isOpen
  rintro write isWrite ⟨owner, now, outcome, rfl⟩
  exact noClose _ _ _ _ isWrite

end Views

/-! ## Closing attempts -/

def closing (now : Time) (outcome : Outcome) (attempt : Attempt) : Write :=
  .closeAttempt attempt.id attempt.jobId now outcome

/-- The writes of a transition that ends an attempt or a job. -/
def settling : Write → Bool
  | .closeAttempt _ _ _ _ => true
  | .insertHistory _ => true
  | .deleteLive _ => true
  | write => plain write

/-- The writes of a transition that ends an attempt and keeps the row. -/
def updating : Write → Bool
  | .closeAttempt _ _ _ _ => true
  | .setLive _ => true
  | write => plain write

theorem settling_of_plain {write : Write} (isPlain : plain write = true) :
    settling write = true := by
  cases write <;> first | rfl | exact isPlain

theorem updating_of_plain {write : Write} (isPlain : plain write = true) :
    updating write = true := by
  cases write <;> first | rfl | exact isPlain

section Close

variable {cfg : Config} {call : Call} {record : Record} {txn : Txn}
variable {db : Db} {state : Loc} {now : Time} {outcome : Outcome}

theorem filterMap_closing (closed : List Attempt) :
    (closed.map (closing now outcome)).filterMap closedId =
      closed.map (·.id) := by
  have same : closedId ∘ closing now outcome =
      some ∘ fun attempt : Attempt => attempt.id := rfl
  rw [List.filterMap_map, same, List.filterMap_eq_map]

theorem mem_closing {closed : List Attempt} {id : AttemptId} {job : JobId}
    {time : Time} {result : Outcome}
    (member : .closeAttempt id job time result ∈
      closed.map (closing now outcome)) :
    ∃ attempt ∈ closed, attempt.id = id ∧ attempt.jobId = job := by
  obtain ⟨attempt, isClosed, same⟩ := List.mem_map.mp member
  cases same
  exact ⟨attempt, isClosed, rfl, rfl⟩

theorem creation_of_closing {closed : List Attempt} {write : Write}
    (member : write ∈ closed.map (closing now outcome)) :
    creation write = false := by
  obtain ⟨attempt, _, rfl⟩ := List.mem_map.mp member
  rfl

theorem not_drops_closing {closed : List Attempt} {write : Write}
    {job : JobId} (member : write ∈ closed.map (closing now outcome)) :
    ¬Drops job write := by
  obtain ⟨attempt, _, rfl⟩ := List.mem_map.mp member
  intro drops
  cases drops

/-- Closing attempts that are open in the committed data is lawful when their
jobs are settled and, in a sweep, were judged. -/
theorem closing_additions {dialect : Dialect} {stage next : Stage}
    {locks : List Lock} {closed : List Attempt}
    (lawful : Lawful dialect call stage db state)
    (areOpen : ∀ attempt ∈ closed, attempt.isOpen = true ∧
      db.attempts.get attempt.id = some attempt ∧
      attempt.id ∉ state.pending.filterMap closedId)
    (once : (closed.map (·.id)).Nodup)
    (settles : ∀ attempt ∈ closed,
      Settled call next db state.pending attempt.jobId)
    (judged : call.sweeps = true → ∀ attempt ∈ closed,
      ∃ found, .remark (.judged attempt.jobId found) ∈ state.noted) :
    Additions dialect call next db state
      (closed.map (closing now outcome)) locks := by
  have never : ∀ write, closedId write = none →
      write ∉ closed.map (closing now outcome) := by
    intro write isNone member
    obtain ⟨attempt, _, rfl⟩ := List.mem_map.mp member
    cases isNone
  constructor
  case closed =>
    intro id job time result member
    obtain ⟨attempt, isClosed, rfl, rfl⟩ := mem_closing member
    obtain ⟨isOpen, found, _⟩ := areOpen attempt isClosed
    exact ⟨attempt, found, runs_iff.mpr ⟨rfl, isOpen⟩⟩
  case closedOnce =>
    rw [filterMap_closing]
    refine ⟨once, ?_⟩
    intro id old new
    obtain ⟨attempt, isClosed, rfl⟩ := List.mem_map.mp new
    exact (areOpen attempt isClosed).2.2 old
  case settled =>
    intro id job time result member
    obtain ⟨attempt, isClosed, rfl, rfl⟩ := mem_closing member
    exact (settles attempt isClosed).mono
      (fun write old => List.mem_append_left _ old)
      fun filed => filed.append fun write new => not_drops_closing new
  case swept =>
    intro sweeps write member job isJob
    obtain ⟨attempt, isClosed, rfl⟩ := List.mem_map.mp member
    cases isJob
    exact judged sweeps attempt isClosed
  case takenUp =>
    intro _ write member parent isParent
    rw [parentOf_of_creation (creation_of_closing member)] at isParent
    cases isParent
  case paired =>
    exact lawful.paired_append fun write member => creation_of_closing member
  case openedOnce => exact fun _ _ member => (never _ rfl member).elim
  case movedOnce => exact fun _ _ member => (never _ rfl member).elim
  case insertedOnce => exact fun _ _ member => (never _ rfl member).elim
  all_goals exact fun _ member => (never _ rfl member).elim

/-- A clean transaction may begin to owe something. -/
theorem Settled.shift {stage next : Stage} {writes : List Write}
    {job : JobId} (settled : Settled call stage db writes job)
    (shifts : stage = .clean ∨ stage = next) :
    Settled call next db writes job := by
  rcases shifts with clean | same
  · cases settled with
    | moves deleted => exact .moves deleted
    | leaves row member isJob notQueued =>
        exact .leaves row member isJob notQueued
    | gone absent => exact .gone absent
    | foreign target completes different =>
        exact .foreign target completes different
    | owing isOwing => cases clean.symm.trans isOwing
    | moving isMoving => cases clean.symm.trans isMoving
    | filed isFiled _ _ => cases clean.symm.trans isFiled
  · exact same ▸ settled

theorem Lawful.shift {dialect : Dialect} {stage next : Stage}
    {writes : List Write} {locks : List Lock}
    (lawful : Lawful dialect call stage db state)
    (additions : Additions dialect call next db state writes locks)
    (shifts : stage = .clean ∨ stage = next)
    (keeps : ∀ job, ∀ write ∈ writes, ¬Drops job write) :
    Lawful dialect call next db (state.extend writes locks) := by
  refine lawful.extend additions ?_ ?_ ?_
  · intro job settled
    exact (settled.shift shifts).mono
      (fun write old => List.mem_append_left _ old)
      fun filed => filed.append (keeps job)
  · intro job isMoving
    rcases shifts with clean | same
    · cases clean.symm.trans isMoving
    · exact Or.inr (same ▸ isMoving)
  · intro job isFiled filed
    rcases shifts with clean | same
    · cases clean.symm.trans isFiled
    · exact ⟨same ▸ isFiled, filed.append (keeps job)⟩

/-- An assertion about the data and the transaction that new writes and locks
of the transaction cannot break. -/
def Grows (known : Db → Loc → Prop) : Prop :=
  ∀ db state writes locks, known db state →
    known db (state.extend writes locks)

/-- What a close leaves behind: the attempts it has closed, and something owed
if there are any. -/
def Closed (cfg : Config) (call : Call) (record : Record) (txn : Txn)
    (next : Stage) (admits : Attempt → Bool) (now : Time) (outcome : Outcome)
    (known : Db → Loc → Prop) (count : Nat) (closed : List Attempt)
    (db : Db) (state : Loc) : Prop :=
  (count = closed.length ∧ ∀ attempt ∈ closed, admits attempt = true) ∧
    At cfg call record
      { txn with
        stage := if closed = [] then txn.stage else next
        sure := txn.sure ++ closed.map (closing now outcome)
        locks := txn.locks ++ writerLock cfg.dialect } db state ∧
    known db state

theorem closed_stable {next : Stage} {admits : Attempt → Bool}
    {known : Db → Loc → Prop} (stable : (backend cfg).Stable known)
    (count : Nat) (closed : List Attempt) :
    (backend cfg).Stable (Closed cfg call record txn next admits now outcome
      known count closed) :=
  stable_and stable_fact (stable_and at_stable stable)

theorem closeWhere_spec (next : Stage) {admits : Attempt → Bool}
    {known : Db → Loc → Prop} {fails : Db → Loc → Prop}
    (stable : (backend cfg).Stable known) (grows : Grows known)
    (stableFails : (backend cfg).Stable fails)
    (noOpen : ∀ attempt, txn.kind (.insertAttempt attempt) = false)
    (closes : ∀ attempt, txn.kind (closing now outcome attempt) = true)
    (shifts : txn.stage = .clean ∨ txn.stage = next)
    (settles : ∀ db state attempt, Inv db →
      At cfg call record txn db state → known db state →
      admits attempt = true → attempt ∈ db.attempts.rows →
      attempt.isOpen = true →
      Settled call next db state.pending attempt.jobId ∧
        (call.sweeps = true → ∃ found,
          .remark (.judged attempt.jobId found) ∈ state.noted)) :
    (backend cfg).Spec call
      (fun db state => At cfg call record txn db state ∧ known db state)
      (closeWhere cfg admits now outcome)
      (fun count db state => ∃ closed, Closed cfg call record txn next admits
        now outcome known count closed db state) fails := by
  refine .bind stableFails (.exec (stable_and at_stable stable)
    (fun closed => closed_stable stable closed.length closed) ?_)
    fun closed => .pure (closed_stable stable closed.length closed)
      fun _ _ _ _ holds => ⟨closed, holds⟩
  intro snapshot current state others effect _ inv _ _ _ holds ran
  cases ran
  obtain ⟨here, knows⟩ := holds
  set rows := targets Db.attempts
    (fun _ attempt => admits attempt && attempt.isOpen)
    (basis cfg.dialect ((backend cfg).sys.view snapshot state)
      ((backend cfg).sys.view current state))
    ((backend cfg).sys.view current state) with isRows
  have noInsert : ∀ attempt, .insertAttempt attempt ∉ state.pending := by
    intro attempt member
    have isKind := here.only _ member
    rw [noOpen] at isKind
    cases isKind
  have found : ∀ attempt ∈ rows, admits attempt = true ∧
      attempt.isOpen = true ∧
      current.attempts.get attempt.id = some attempt ∧
      attempt.id ∉ state.pending.filterMap closedId := by
    intro attempt member
    obtain ⟨isCurrent, isAdmitted, _⟩ := mem_targets_iff.mp member
    rw [Bool.and_eq_true] at isAdmitted
    obtain ⟨isAdmitted, isOpen⟩ := isAdmitted
    exact ⟨isAdmitted, isOpen, open_of_view noInsert isCurrent isOpen⟩
  have nothing : (rows.map (closing now outcome)).filter creation = [] := by
    rw [List.filter_eq_nil_iff]
    intro write member
    simp [creation_of_closing member]
  refine ⟨by simp [backend], ⟨rfl, fun attempt member =>
    (found attempt member).1⟩, ?_, grows _ _ _ _ knows⟩
  refine here.extend ?_ (fun _ isKind => isKind) ?_ ?_ ?_ ?_
  · by_cases none : rows = []
    · simp only [none]
      exact here.lawful.extendSame (plain_additions here.lawful (by simp))
        (by simp)
    simp only [none]
    refine here.lawful.shift (closing_additions here.lawful ?_ nodup_targets
      ?_ ?_) shifts fun job write member => not_drops_closing member
    · exact fun attempt member => (found attempt member).2
    · intro attempt member
      obtain ⟨isAdmitted, isOpen, isFound, _⟩ := found attempt member
      exact (settles current state attempt inv here knows isAdmitted
        (Table.mem_of_get isFound) isOpen).1
    · intro sweeps attempt member
      obtain ⟨isAdmitted, isOpen, isFound, _⟩ := found attempt member
      exact (settles current state attempt inv here knows isAdmitted
        (Table.mem_of_get isFound) isOpen).2 sweeps
  · intro write member
    obtain ⟨attempt, _, rfl⟩ := List.mem_map.mp member
    exact closes attempt
  · exact (congrArg (txn.made ++ ·) nothing).trans (List.append_nil _)
  · exact fun write member => List.mem_append.mp member
  · intro lock member
    rcases List.mem_append.mp member with old | new
    · exact Or.inl old
    · exact Or.inr (List.mem_append_left _ new)

end Close

end Sqlery.Standalone
