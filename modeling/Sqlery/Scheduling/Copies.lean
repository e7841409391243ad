import Sqlery.Scheduling.Processing

/-!
# Copies of a task

A scheduler goes by the copies of tasks it has read, or was given.  As long as
the stored task is of one kind, and the copies that calls are given are, every
copy of it in a run is of that kind.
-/

namespace Sqlery.Scheduling

open ReadCommitted
open Script

/-- How many jobs of the task the writes enqueue. -/
def enqueued (task : Nat) (writes : List Write) : Nat :=
  writes.countP (Write.enqueues task)

section Rows

variable {cfg : Config} {task : Nat}

def after (writes : List Write) (db : Db) : Db :=
  (schema .postgresql).applyAll writes db

/-- Writes about other tasks change nothing about this one. -/
theorem tasks_after_of_ne {writes : List Write}
    (elsewhere : ∀ write ∈ writes, write.task ≠ some task) (db : Db) :
    (after writes db).tasks.get task = db.tasks.get task := by
  induction writes generalizing db with
  | nil => rfl
  | cons write writes ih =>
      have rest : ∀ later ∈ writes, later.task ≠ some task :=
        fun later member => elsewhere later (List.mem_cons_of_mem _ member)
      calc (after (write :: writes) db).tasks.get task
          = (write.apply db).tasks.get task := ih rest _
        _ = db.tasks.get task :=
            tasks_apply_of_ne (elsewhere write List.mem_cons_self) db

/-- Only the commits of schedulers and operators write task rows. -/
theorem tasks_of_drifts {C : Setting Db Write Lock Call Return}
    (ofTasks : OfTasks cfg C) {n : Nat} {action : Action Write Call n}
    {first second : Db} (drifts : Setting.Drifts C action first second) :
    second.tasks.get task = first.tasks.get task := by
  cases drifts with
  | same isSame => rw [isSame]
  | instant call local_ writes promised isSecond =>
      rw [ofTasks.sys] at isSecond
      rcases (ofTasks.instant call first local_ writes).mp promised with
        none | counter
      · rw [isSecond, none]
        rfl
      · rw [isSecond, counter]
        rfl
  | ambient write _ isAmbient isSecond =>
      rw [ofTasks.sys] at isAmbient isSecond
      rw [isSecond]
      apply tasks_apply_of_ne
      cases write with
      | updateTask => cases isAmbient
      | _ => simp [Write.task]

end Rows

/-! ## One kind of task -/

section Kinds

variable {cfg : Config} {task n : Nat} {kind : Task → Prop}
variable {made : Call → Prop}
variable {state next : State Db Write Lock Call Return n}
variable {action : Action Write Call n}

/-- The stored task is of this kind. -/
def Stored (kind : Task → Prop) (task : Nat) (db : Db) : Prop :=
  ∀ row, db.tasks.get task = some row → kind row

/-- What the sessions of a run know about a task of one kind. -/
structure Known (kind : Task → Prop) (made : Call → Prop) (task : Nat)
    (state : State Db Write Lock Call Return n) : Prop where
  stored : Stored kind task state.db
  made : ∀ process call, (state.session process).call = some call → made call
  copies : ∀ process call copy, (state.session process).call = some call →
    Copy call (state.session process).state.noted copy → copy.id = task →
    kind copy

theorem known_initial {db : Db} (stored : Stored kind task db) :
    Known kind made task
      (System.initial db : State Db Write Lock Call Return n) := by
  constructor
  · exact stored
  · intro _ _ isCall
    cases isCall
  · intro _ _ _ isCall
    cases isCall

/-- A remark can only add copies of the stored row. -/
theorem copies_of_remarks {call : Call} {db : Db} {noted remarks : List Write}
    (stored : Stored kind task db) (true_ : Noted db remarks)
    (copies : ∀ copy, Copy call noted copy → copy.id = task → kind copy)
    (copy : Task) (isCopy : Copy call (noted ++ remarks) copy)
    (isTask : copy.id = task) : kind copy := by
  cases call with
  | runDueTasks queueNames =>
      rcases List.mem_append.mp isCopy with earlier | now
      · exact copies copy earlier isTask
      · apply stored copy
        rw [← isTask]
        exact true_ copy now
  | enqueueForScheduledTask given => exact copies copy isCopy isTask
  | runClaimedTasks => exact isCopy.elim
  | executorRunDueTasks => exact isCopy.elim
  | updateScheduledTask other columns => exact isCopy.elim

theorem Known.quiet (known : Known kind made task state)
    (starts : ∀ process call, action = .start process call → made call ∧
      ∀ copy, Copy call [] copy → copy.id = task → kind copy)
    (quiet : Setting.Quiet (scheduler cfg) state next action) :
    Known kind made task next := by
  constructor
  · intro row isRow
    apply known.stored row
    rw [← isRow]
    exact (tasks_of_drifts scheduler_ofTasks quiet.db).symm
  · exact quiet.made (fun process call isStart =>
      (starts process call isStart).1) known.made
  · intro process call copy isCall isCopy isTask
    cases quiet.sessions process with
    | rests rests =>
        rw [rests.noted] at isCopy
        rw [rests.call] at isCall
        exact known.copies process call copy isCall isCopy isTask
    | remarks other remarks isRemark isOther promised stays grows running =>
        rw [stays] at isCall
        cases isCall
        rw [grows] at isCopy
        exact copies_of_remarks known.stored promised
          (known.copies process _ · isOther) copy isCopy isTask
    | starts other isStart isOther initial =>
        rw [isOther] at isCall
        cases isCall
        rw [initial] at isCopy
        exact (starts process _ isStart).2 copy isCopy isTask

/-- A commit changes no copies. -/
theorem Known.commits (known : Known kind made task state) {process : Fin n}
    {call : Call}
    (committed : Setting.Commits (scheduler cfg) state next action process
      call)
    (stored : Stored kind task next.db) : Known kind made task next := by
  constructor
  · exact stored
  · exact committed.made known.made
  · intro other otherCall copy isOther isCopy isTask
    by_cases same : other = process
    · subst same
      rw [committed.call] at isOther
      cases isOther
      rw [committed.committed] at isCopy
      exact known.copies other call copy committed.isCall isCopy isTask
    · rw [committed.others other same] at isOther isCopy
      exact known.copies other otherCall copy isOther isCopy isTask

end Kinds

end Sqlery.Scheduling
