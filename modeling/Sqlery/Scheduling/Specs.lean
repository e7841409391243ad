import Sqlery.ReadCommitted.Steps
import Sqlery.Scheduling.Tasks

/-!
# What the standalone scheduler commits

`Scheduler.run_due_tasks` processes a copy of a task.  Where there is a cron
expression it commits the advance of the due time together with the job, and
only where the stored due time is still the one of the copy.  Of a task without
one it commits a job and leaves the row as it is.
-/

namespace Sqlery.Scheduling

open ReadCommitted
open Script

abbrev Loc := Local Write Lock

/-- The calls of a scheduler on the standalone backend, and of operators. -/
def Call.OfScheduler : Call → Prop
  | .runDueTasks _ => True
  | .enqueueForScheduledTask _ => True
  | .updateScheduledTask _ _ => True
  | _ => False

/-- The copies of tasks a call goes by. -/
def Copy (call : Call) (noted : List Write) (task : Task) : Prop :=
  match call with
  | .enqueueForScheduledTask copy => task = copy
  | .runDueTasks _ => .remark (.due task) ∈ noted
  | _ => False

theorem Copy.mono {call : Call} {noted more : List Write} {task : Task}
    (copy : Copy call noted task) : Copy call (noted ++ more) task := by
  cases call with
  | enqueueForScheduledTask => exact copy
  | runDueTasks => exact List.mem_append_left more copy
  | runClaimedTasks => exact copy
  | executorRunDueTasks => exact copy
  | updateScheduledTask => exact copy

/-- A later due time. -/
def Later (due : Option Time) (next : Time) : Prop :=
  ∀ time, due = some time → time < next

inductive Legal (cfg : Config) (call : Call) (db : Db) (noted : List Write) :
    List Write → Prop where
  | nothing : Legal cfg call db noted []
  | advances (copy row : Task) (next : Time) (job : TaskJob) :
      Copy call noted copy → cfg.isCron copy = true →
      Later copy.nextRunAt next →
      db.tasks.get copy.id = some row → row.nextRunAt = copy.nextRunAt →
      job.of copy.id = true →
      Legal cfg call db noted
        [.updateTask copy.id { nextRunAt := some (some next) }, .insertJob job]
  | creates (copy : Task) (job : TaskJob) :
      Copy call noted copy → cfg.isCron copy = false →
      job.of copy.id = true →
      Legal cfg call db noted [.insertJob job]
  | edits (task : Nat) (columns : Columns) (loaded : Task) :
      call = .updateScheduledTask task columns →
      Legal cfg call db noted [.updateTask task (columns.changed loaded)]

def Write.enqueues (task : Nat) : Write → Bool
  | .insertJob job => job.of task
  | _ => false

/-- What a remark says was true when it was made. -/
def Noted (db : Db) (remarks : List Write) : Prop :=
  ∀ task, .remark (.due task) ∈ remarks → db.tasks.get task.id = some task

def scheduler (cfg : Config) : Setting Db Write Lock Call Return where
  sys := system cfg
  inv := fun _ => True
  promise call := {
    commits := fun db state => call.OfScheduler ∧
      Legal cfg call db state.noted state.pending
    instant := fun _ _ writes => writes = [] ∨ writes = [.nextJob]
    notes := fun db _ remarks => Noted db remarks }
  commit_inv := fun _ _ _ _ _ _ => trivial
  instant_inv := fun _ _ _ _ _ _ => trivial
  ambient_inv := fun _ _ _ _ => trivial

/-- A job belongs to one task. -/
theorem of_other {task other : Nat} {job : TaskJob}
    (isJob : job.of other = true) (different : other ≠ task) :
    job.of task = false := by
  simp only [TaskJob.of, decide_eq_true_eq, decide_eq_false_iff_not] at *
  rw [isJob]
  exact fun same => different (Option.some.inj same)

/-! ## Task rows and their locks -/

section Rows

variable {cfg : Config} {call : Call} {db : Db}

/-- The task whose row a write changes. -/
def Write.task : Write → Option Nat
  | .updateTask task _ => some task
  | _ => none

theorem tasks_apply_of_ne {write : Write} {task : Nat}
    (elsewhere : write.task ≠ some task) (db : Db) :
    (write.apply db).tasks.get task = db.tasks.get task := by
  cases write with
  | updateTask other columns =>
      have different : task ≠ other := fun same => elsewhere (same ▸ rfl)
      simp only [Write.apply, Db.update]
      split
      · rename_i row isRow
        apply Table.get_set_of_ne
        intro same
        have isOther : row.id = other := Table.key_of_get isRow
        exact different (same.trans isOther)
      · rfl
  | retry id =>
      simp only [Write.apply]
      split <;> rfl
  | _ => rfl

theorem tasks_update_self {task : Nat} {columns : Columns} {row : Task}
    (isRow : db.tasks.get task = some row) :
    ((Write.updateTask task columns).apply db).tasks.get task =
      some (columns.update row) := by
  have isTask : row.id = task := Table.key_of_get isRow
  have key : (columns.update row).id = task := isTask
  simp only [Write.apply, Db.update, isRow]
  rw [Table.get_set, if_pos key.symm, isRow]
  rfl

/-- A setting of this system in which only the counter of job ids takes effect
at once. -/
structure OfTasks (cfg : Config) (C : Setting Db Write Lock Call Return) :
    Prop where
  sys : C.sys = system cfg
  instant : ∀ call db state writes,
    (C.promise call).instant db state writes ↔
      (writes = [] ∨ writes = [.nextJob])

theorem scheduler_ofTasks : OfTasks cfg (scheduler cfg) :=
  ⟨rfl, fun _ _ _ _ => Iff.rfl⟩

theorem row_locked {C : Setting Db Write Lock Call Return}
    (ofTasks : OfTasks cfg C) (task : Nat) (row : Option Task) :
    C.LockedBy (lockOf cfg.dialect task)
      fun db => db.tasks.get task = row where
  excludes := by simp [ofTasks.sys, system, schema]
  writes := by
    intro write db free holds
    rw [ofTasks.sys] at free ⊢
    refine Eq.trans (tasks_apply_of_ne ?_ db) holds
    intro isTask
    cases write with
    | updateTask other columns =>
        cases isTask
        exact free (by simp [system, schema])
    | _ => cases isTask
  instant := by
    intro call db state writes _ promised holds
    rw [ofTasks.sys]
    rcases (ofTasks.instant call db state writes).mp promised with
      none | counter
    · rw [none]
      exact holds
    · rw [counter]
      exact holds
  ambient := by
    intro write db isAmbient holds
    rw [ofTasks.sys] at isAmbient ⊢
    refine Eq.trans (tasks_apply_of_ne ?_ db) holds
    cases write with
    | updateTask => cases isAmbient
    | _ => simp [Write.task]

theorem local_stable {known : Loc → Prop} :
    (scheduler cfg).Stable fun _ state => known state :=
  fun _ _ _ _ _ _ holds => holds

/-- Tasks are never deleted. -/
theorem task_lasting (task : Nat) :
    (scheduler cfg).Lasting fun db => db.tasks.get task ≠ none := by
  have one : ∀ write db, db.tasks.get task ≠ none →
      ((write : Write).apply db).tasks.get task ≠ none := by
    intro write db there
    by_cases isTask : write.task = some task
    · cases write with
      | updateTask other columns =>
          cases isTask
          obtain ⟨row, isRow⟩ := Option.ne_none_iff_exists'.mp there
          rw [tasks_update_self isRow]
          exact Option.some_ne_none _
      | _ => cases isTask
    · rw [tasks_apply_of_ne isTask]
      exact there
  have all : ∀ (writes : List Write) db, db.tasks.get task ≠ none →
      ((schema cfg.dialect).applyAll writes db).tasks.get task ≠ none := by
    intro writes
    induction writes with
    | nil => exact fun _ there => there
    | cons write writes ih =>
        intro db there
        exact ih _ (one write db there)
  constructor
  · exact fun _ db state _ _ _ there => all state.pending db there
  · exact fun _ db _ writes _ _ there => all writes db there
  · exact fun write db _ _ there => one write db there

end Rows

/-! ## Statements -/

section Statements

variable {cfg : Config} {call : Call} {noted written : List Write}

/-- Between transactions, with these remarks and these committed writes. -/
structure Idle (noted written : List Write) (state : Loc) : Prop where
  pending : state.pending = []
  noted : state.noted = noted
  written : state.written = written

theorem view_of_idle {state : Loc} (idle : Idle noted written state)
    (db : Db) : (scheduler cfg).sys.view db state = db := by
  simp [System.view, idle.pending]

theorem Idle.rolledBack {state : Loc} (idle : Idle noted written state) :
    Idle noted written state.rolledBack :=
  ⟨rfl, idle.noted, idle.written⟩

/-- A query between transactions leaves its remarks. -/
theorem observe_spec {β : Type} {query : Db → β} {remark : β → List Write}
    {fails : Db → Loc → Prop}
    (reads : ∀ db, Noted db (remark (query db))) :
    (scheduler cfg).Spec call (fun _ state => Idle noted written state)
      (observe query remark : Sql β)
      (fun value _ state => Idle (noted ++ remark value) written state)
      fails := by
  apply Setting.Spec.observe local_stable
  · exact fun _ => local_stable
  · intro db state _ _ idle
    rw [view_of_idle idle]
    refine ⟨reads db, idle.pending, ?_, idle.written⟩
    simp only [Local.note, idle.noted]

/-- A query that leaves no remark. -/
theorem read_spec {β : Type} {query : Db → β} {known : Loc → Prop}
    {fails : Db → Loc → Prop} :
    (scheduler cfg).Spec call (fun _ => known) (read query : Sql β)
      (fun _ _ => known) fails := by
  apply Setting.Spec.observe local_stable
  · exact fun _ => local_stable
  · intro db state _ _ holds
    refine ⟨fun _ member => absurd member List.not_mem_nil, ?_⟩
    simpa [Local.note] using holds

theorem currentTime_spec {known : Loc → Prop} {fails : Db → Loc → Prop} :
    (scheduler cfg).Spec call (fun _ => known) (currentTime : Sql Time)
      (fun _ _ => known) fails :=
  read_spec

/-- A session that leaves nothing uncommitted. -/
theorem session_spec {β : Type} {body : Sql β} {pre : Db → Loc → Prop}
    {post : β → Loc → Prop} {fails : Loc → Prop}
    (spec : (scheduler cfg).Spec call pre body (fun value _ => post value)
      fun _ => fails)
    (undone : ∀ value state, post value state → post value state.rolledBack)
    (undoneFails : ∀ state, fails state → fails state.rolledBack) :
    (scheduler cfg).Spec call pre (session body) (fun value _ => post value)
      fun _ => fails := by
  apply Setting.Spec.session spec
  · exact fun _ => local_stable
  · exact local_stable
  · exact fun _ => local_stable
  · exact local_stable
  · exact fun value _ state _ holds => undone value state holds
  · exact fun _ state _ holds => undoneFails state holds

/-- The new row of a job: first its id, then the row. -/
theorem insertJob_spec {C : Setting Db Write Lock Call Return}
    (ofTasks : OfTasks cfg C) {spec : JobSpec} {pre fails : Db → Loc → Prop}
    {post : TaskJob → Db → Loc → Prop} (stable : C.Stable pre)
    (stablePost : ∀ job, C.Stable (post job)) (stableFails : C.Stable fails)
    (counted : ∀ db state locks, pre db state →
      pre (Write.nextJob.apply db) (state.extend [] locks))
    (inserted : ∀ db state id locks, pre db state →
      post { id, spec } db (state.extend [.insertJob { id, spec }] locks)) :
    C.Spec call pre (insertJob cfg spec) post fails := by
  apply Setting.Spec.bind stableFails
  · apply Setting.Spec.exec stable
    · exact fun _ => stable
    · intro snapshot current state others effect _ _ _ _ _ holds ran
      simp only [Option.some.injEq] at ran
      subst ran
      rw [ofTasks.instant, ofTasks.sys]
      exact ⟨Or.inr rfl, counted current state _ holds⟩
  · intro id
    apply Setting.Spec.exec stable
    · exact stablePost
    · intro snapshot current state others effect _ _ _ _ _ holds ran
      simp only [Option.some.injEq] at ran
      subst ran
      rw [ofTasks.instant]
      exact ⟨Or.inl rfl, inserted current state id _ holds⟩

/-- `session.refresh`, whether it finds the row or not. -/
theorem refresh_spec (job : TaskJob) {known : Loc → Prop} :
    (scheduler cfg).Spec call (fun _ => known) (refresh job)
      (fun _ _ => known) (fun _ => known) := by
  apply Setting.Spec.bind local_stable read_spec
  intro found
  cases found with
  | some row => exact Setting.Spec.pure local_stable fun _ _ _ _ holds => holds
  | none => exact Setting.Spec.raise local_stable fun _ _ _ holds => holds

end Statements

/-! ## `update_scheduled_task` -/

section Updates

variable {cfg : Config} {call : Call} {noted written : List Write}

/-- What an update of a task writes. -/
inductive Updates (task : Nat) (columns : Columns) : List Write → Prop where
  | nothing : Updates task columns []
  | changed (loaded : Task) :
      Updates task columns [.updateTask task (columns.changed loaded)]

/-- The transaction has updated a row, which stays as it was until then. -/
structure Wrote (cfg : Config) (columns : Columns) (noted written : List Write)
    (row : Task) (db : Db) (state : Loc) : Prop where
  pending : state.pending = [.updateTask row.id columns]
  noted : state.noted = noted
  written : state.written = written
  held : lockOf cfg.dialect row.id ∈ state.held
  row : db.tasks.get row.id = some row

theorem wrote_stable {columns : Columns} {row : Task} :
    (scheduler cfg).Stable (Wrote cfg columns noted written row) := by
  intro first second state changed inv guarded holds
  have still := Setting.stable_locked
    (row_locked scheduler_ofTasks row.id (some row)) first
    second state changed inv guarded ⟨holds.held, holds.row⟩
  exact ⟨holds.pending, holds.noted, holds.written, still.1, still.2⟩

/-- What an `UPDATE` that is about one task leaves. -/
def Touched (cfg : Config) (admits : Task → Bool) (columns : Columns)
    (noted written : List Write) (count : Nat) (db : Db) (state : Loc) :
    Prop :=
  (count = 0 ∧ Idle noted written state) ∨
    ∃ row, (count = 1 ∧ admits row = true) ∧
      Wrote cfg columns noted written row db state

theorem touched_stable {admits : Task → Bool} {columns : Columns}
    {count : Nat} :
    (scheduler cfg).Stable
      (Touched cfg admits columns noted written count) := by
  intro first second state changed inv guarded holds
  rcases holds with none | ⟨row, fact, wrote⟩
  · exact Or.inl none
  · exact Or.inr ⟨row, fact,
      wrote_stable first second state changed inv guarded wrote⟩

theorem updateTasks_spec {task : Nat} {admits : Task → Bool}
    {columns : Columns} {known : Db → Loc → Prop} {must : Prop}
    {fails : Db → Loc → Prop} (stable : (scheduler cfg).Stable known)
    (stableFails : (scheduler cfg).Stable fails)
    (keyed : ∀ row, admits row = true → row.id = task)
    (finds : must → ∀ snapshot current state, known snapshot state →
      known current state → hits Db.tasks admits snapshot current ≠ []) :
    (scheduler cfg).Spec call
      (fun db state => Idle noted written state ∧ known db state)
      (updateTasks cfg admits columns)
      (fun count db state => (must → count ≠ 0) ∧
        Touched cfg admits columns noted written count db state)
      fails := by
  apply Setting.Spec.map
  · apply Setting.Spec.exec
    · exact Setting.stable_and local_stable stable
    · exact fun rows => Setting.stable_and Setting.stable_fact touched_stable
    · intro snapshot current state others effect _ _ _ _ before now ran
      rw [view_of_idle now.1, view_of_idle now.1] at ran
      simp only [modifyRows, Option.some.injEq] at ran
      subst ran
      refine ⟨Or.inl rfl, ?_, ?_⟩
      · intro isMust
        have nonempty := finds isMust
          (if (writerOf cfg.dialect).isSome then current else snapshot)
          current state (by split; exact now.2; exact before.2) now.2
        simpa using nonempty
      · rcases hits_single Db.tasks keyed
            (if (writerOf cfg.dialect).isSome then current else snapshot)
            current with none | ⟨row, isRow, found, admitted⟩
        · left
          simp only [none]
          refine ⟨rfl, ?_⟩
          exact ⟨by simp [Local.extend, now.1.pending], now.1.noted,
            now.1.written⟩
        · right
          have isTask : row.id = task := keyed row admitted
          simp only [isRow]
          refine ⟨row, ⟨rfl, admitted⟩, ?_⟩
          constructor
          · simp [Local.extend, now.1.pending]
          · exact now.1.noted
          · exact now.1.written
          · simp [Local.extend, System.acquired, scheduler, system, schema]
          · rw [isTask]
            exact found
  · exact fun rows => Setting.stable_and Setting.stable_fact touched_stable
  · exact stableFails

theorem exists_stable (task : Nat) :
    (scheduler cfg).Stable fun db _ => db.tasks.get task ≠ none :=
  fun _ _ _ changed _ _ there => (task_lasting task).env changed there

/-- The row is there, so the `UPDATE` of the row finds it. -/
theorem updateOne_spec {task : Nat} {columns : Columns}
    {fails : Db → Loc → Prop} (stableFails : (scheduler cfg).Stable fails) :
    (scheduler cfg).Spec call
      (fun db state => Idle noted written state ∧ db.tasks.get task ≠ none)
      (updateOne cfg task columns)
      (fun _ db state => ∃ row, row.id = task ∧
        Wrote cfg columns noted written row db state)
      fails := by
  have finds : True → ∀ (snapshot current : Db) (_ : Loc),
      snapshot.tasks.get task ≠ none → current.tasks.get task ≠ none →
      hits Db.tasks (fun row => decide (row.id = task)) snapshot current ≠
        [] := by
    intro _ snapshot current _ before now
    obtain ⟨old, isOld⟩ := Option.ne_none_iff_exists'.mp before
    obtain ⟨row, isRow⟩ := Option.ne_none_iff_exists'.mp now
    rw [hits_of_key Db.tasks isOld isRow]
    exact List.cons_ne_nil _ _
  apply Setting.Spec.bind stableFails
    (updateTasks_spec (exists_stable task) stableFails
      (fun row => of_decide_eq_true) finds)
  intro count
  split
  · apply Setting.Spec.pure
    · exact Setting.stable_and Setting.stable_fact touched_stable
    · intro db state _ _ holds
      rcases holds.2 with ⟨none, _⟩ | ⟨row, fact, wrote⟩
      · exact absurd none (holds.1 trivial)
      · exact ⟨row, of_decide_eq_true fact.2, wrote⟩
  · rename_i notOne
    apply Setting.Spec.raise
    · exact Setting.stable_and Setting.stable_fact touched_stable
    · intro db state _ holds
      rcases holds.2 with ⟨none, _⟩ | ⟨row, fact, _⟩
      · exact absurd none (holds.1 trivial)
      · exact absurd fact.1 notOne

/-- A commit of the updates of one row. -/
theorem commitWrote_spec {columns : Columns} {task : Nat}
    {fails : Db → Loc → Prop} (isScheduler : call.OfScheduler)
    (legal : ∀ db, Legal cfg call db noted [.updateTask task columns]) :
    (scheduler cfg).Spec call
      (fun db state => ∃ row, row.id = task ∧
        Wrote cfg columns noted written row db state)
      (commit : Sql Unit)
      (fun _ _ state =>
        Idle noted (written ++ [.updateTask task columns]) state) fails := by
  apply Setting.Spec.commit
  · exact Setting.stable_exists fun row =>
      Setting.stable_and Setting.stable_fact wrote_stable
  · exact local_stable
  · intro db state _ _ holds
    obtain ⟨row, isTask, wrote⟩ := holds
    subst isTask
    refine ⟨⟨isScheduler, ?_⟩, rfl, wrote.noted, ?_⟩
    · rw [wrote.pending, wrote.noted]
      exact legal db
    · simp only [Local.committed, wrote.pending, wrote.written]

/-- `session.get`. -/
theorem loadTask_spec {task : Nat} {fails : Db → Loc → Prop} :
    (scheduler cfg).Spec call (fun _ state => Idle noted written state)
      (read fun db => db.tasks.get task : Sql (Option Task))
      (fun found db state => Idle noted written state ∧
        ∀ row, found = some row → row.id = task ∧ db.tasks.get task ≠ none)
      fails := by
  apply Setting.Spec.observe local_stable
  · intro found first second state changed inv guarded holds
    refine ⟨holds.1, ?_⟩
    intro row isRow
    obtain ⟨isTask, there⟩ := holds.2 row isRow
    exact ⟨isTask, (task_lasting task).env changed there⟩
  · intro db state _ _ idle
    rw [view_of_idle idle]
    refine ⟨fun _ member => absurd member List.not_mem_nil,
      ⟨idle.pending, ?_, idle.written⟩, ?_⟩
    · simp only [Local.note, List.append_nil, idle.noted]
    · intro row isRow
      exact ⟨Table.key_of_get isRow, by rw [isRow]; exact Option.some_ne_none _⟩

/-- The flush of a loaded row, and its commit. -/
theorem flushCommit_spec {row : Task} {columns : Columns}
    {fails : Db → Loc → Prop} (isScheduler : call.OfScheduler)
    (stableFails : (scheduler cfg).Stable fails)
    (legal : ∀ db, Legal cfg call db noted
      [.updateTask row.id (columns.changed row)]) :
    (scheduler cfg).Spec call
      (fun db state => Idle noted written state ∧ db.tasks.get row.id ≠ none)
      (do
        flush cfg row columns
        commit : Sql Unit)
      (fun _ _ state => ∃ writes, Idle noted (written ++ writes) state ∧
        Updates row.id columns writes) fails := by
  unfold flush
  split
  · apply Setting.Spec.bind stableFails
    · exact Setting.Spec.skip (Setting.stable_and local_stable
        (exists_stable row.id))
    · intro _
      apply Setting.Spec.commit
      · exact Setting.stable_and local_stable (exists_stable row.id)
      · exact local_stable
      rintro db state _ _ ⟨idle, _⟩
      refine ⟨⟨isScheduler, ?_⟩, [], ⟨rfl, idle.noted, ?_⟩, .nothing⟩
      · rw [idle.pending]
        exact .nothing
      · simp only [Local.committed, idle.pending, idle.written]
  · apply Setting.Spec.bind stableFails (updateOne_spec stableFails)
    intro _
    apply Setting.Spec.strengthen (commitWrote_spec isScheduler legal)
    · intro _ db state _ idle
      exact ⟨_, idle, .changed row⟩
    · exact fun _ _ _ failed => failed

theorem updateScheduledTask_spec {task : Nat} {columns : Columns}
    {fails : Loc → Prop} (isStandalone : cfg.backend = .standalone)
    (isScheduler : call.OfScheduler)
    (undone : ∀ state, fails state → fails state.rolledBack)
    (legal : ∀ db (row : Task), row.id = task →
      Legal cfg call db noted [.updateTask task (columns.changed row)]) :
    (scheduler cfg).Spec call (fun _ state => Idle noted written state)
      (updateScheduledTask cfg task columns)
      (fun _ _ state => ∃ writes, Idle noted (written ++ writes) state ∧
        Updates task columns writes)
      fun _ => fails := by
  simp only [updateScheduledTask, isStandalone]
  apply session_spec
  · apply Setting.Spec.bind local_stable loadTask_spec
    intro found
    cases found with
    | none =>
        apply Setting.Spec.weaken (Setting.Spec.pure local_stable _)
          fun _ _ _ holds => holds.1
        intro db state _ _ idle
        refine ⟨[], ⟨idle.pending, idle.noted, ?_⟩, .nothing⟩
        rw [idle.written, List.append_nil]
    | some row =>
        have loaded : (scheduler cfg).Spec call
            (fun db state => row.id = task ∧ Idle noted written state ∧
              db.tasks.get task ≠ none)
            (do
              flush cfg row columns
              commit : Sql Unit)
            (fun _ _ state => ∃ writes,
              Idle noted (written ++ writes) state ∧
                Updates task columns writes)
            fun _ => fails := by
          apply Setting.Spec.fact
          intro isTask
          subst isTask
          exact flushCommit_spec isScheduler local_stable fun db =>
            legal db row rfl
        exact loaded.weaken fun db state _ holds =>
          ⟨(holds.2 row rfl).1, holds.1, (holds.2 row rfl).2⟩
  · intro _ state holds
    obtain ⟨writes, idle, updates⟩ := holds
    exact ⟨writes, idle.rolledBack, updates⟩
  · exact undone

end Updates

end Sqlery.Scheduling
