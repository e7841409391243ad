import Sqlery.Scheduling.Once

/-!
# Repeat limits

Only `TaskExecutor` looks at the limit of an interval task.  It counts the
stored jobs of the task under the lock of its row, so as long as no other
scheduler processes the task and retention leaves its jobs alone, no more jobs
are enqueued than the limit allows.  The other schedulers do not count, and a
clean-up lowers the count.
-/

namespace Sqlery.Scheduling

open ReadCommitted
open Script

/-- The task repeats so many times, and is of this queue. -/
structure Repeats (limit : Nat) (queue : String) (task : Task) : Prop where
  isInterval : task.scheduleType = .interval
  repeat_ : task.repeat_ = some limit
  queueName : task.queueName = queue

/-- A job of the task that is not a retry. -/
def TaskJob.isFirst (task : Nat) (job : TaskJob) : Bool :=
  job.of task && job.spec.parentJobId.isNone

/-- How many jobs the schedulers have enqueued for the task are stored. -/
def Db.firstJobs (task : Nat) (db : Db) : Nat :=
  (db.live ++ db.history).countP (TaskJob.isFirst task)

/-! ## The count of stored jobs -/

section Counts

variable {task : Nat} {db : Db}

theorem firstJobs_le_allJobs :
    db.firstJobs task ≤ (db.allJobs task).length := by
  rw [Db.allJobs, ← List.countP_eq_length_filter]
  apply List.countP_mono_left
  intro job _ isFirst
  exact (Bool.and_eq_true_iff.mp isFirst).1

theorem isFirst_status (job : TaskJob) (status : Status) :
    TaskJob.isFirst task { job with status } = job.isFirst task := rfl

/-- A job keeps counting when it makes progress, and when it ends. -/
theorem firstJobs_moved {write : Write} {id : Nat} {status : Status}
    (moves : write = .progress id status ∨ write = .finish id status) :
    (write.apply db).firstJobs task = db.firstJobs task := by
  rcases moves with rfl | rfl
  · simp only [Write.apply, Db.firstJobs, List.countP_append, List.countP_map]
    congr 1
    apply List.countP_congr
    intro job _
    simp only [Function.comp]
    split
    · rw [isFirst_status]
    · rfl
  · have parts := List.countP_eq_countP_filter_add db.live
      (TaskJob.isFirst task) (fun job => decide (job.id = id))
    simp only [Write.apply, Db.firstJobs, List.countP_append, List.countP_map,
      Function.comp_def, isFirst_status]
    have others : (db.live.filter fun job => decide (job.id ≠ id)) =
        db.live.filter fun job => !decide (job.id = id) := by
      congr 1
      funext job
      exact decide_not
    have finished : (db.live.filter fun job => decide (job.id = id)).countP
        (fun job => job.isFirst task) =
        (db.live.filter fun job => decide (job.id = id)).countP
          (TaskJob.isFirst task) := rfl
    rw [others]
    omega

/-- A retry is not counted. -/
theorem firstJobs_retry (id : Nat) :
    ((Write.retry id).apply db).firstJobs task = db.firstJobs task := by
  simp only [Write.apply]
  split
  · rename_i job _
    have notFirst : TaskJob.isFirst task
        { id := db.nextJob
          spec := { job.spec with parentJobId := some job.id } } = false := by
      simp [TaskJob.isFirst]
    simp only [Db.firstJobs, List.countP_append, List.countP_singleton,
      notFirst]
    simp
  · rfl

theorem firstJobs_expire_le (id : Nat) :
    ((Write.expire id).apply db).firstJobs task ≤ db.firstJobs task := by
  simp only [Write.apply, Db.firstJobs, List.countP_append]
  have fewer : (db.history.filter fun job => decide (job.id ≠ id)).countP
      (TaskJob.isFirst task) ≤ db.history.countP (TaskJob.isFirst task) :=
    List.filter_sublist.countP_le
  omega

/-- Retention of other jobs changes no count. -/
theorem firstJobs_expire {id : Nat}
    (spared : ∀ job ∈ db.history, job.id = id → job.of task = false) :
    ((Write.expire id).apply db).firstJobs task = db.firstJobs task := by
  have parts := List.countP_eq_countP_filter_add db.history
    (TaskJob.isFirst task) (fun job => decide (job.id ≠ id))
  have none : (db.history.filter fun job => !decide (job.id ≠ id)).countP
      (TaskJob.isFirst task) = 0 := by
    rw [List.countP_eq_zero]
    intro job member
    obtain ⟨inHistory, isJob⟩ := List.mem_filter.mp member
    have isOther := spared job inHistory (by simpa using isJob)
    simp [TaskJob.isFirst, isOther]
  simp only [Write.apply, Db.firstJobs, List.countP_append]
  rw [parts, none, Nat.add_zero]

/-- Nothing that happens by itself adds a job. -/
theorem firstJobs_ambient_le {write : Write} (ambient : isAmbient write = true)
    (db : Db) : (write.apply db).firstJobs task ≤ db.firstJobs task := by
  cases write with
  | tick => exact le_rfl
  | progress id status => exact (firstJobs_moved (.inl rfl)).le
  | finish id status => exact (firstJobs_moved (.inr rfl)).le
  | retry id => exact (firstJobs_retry id).le
  | expire id => exact firstJobs_expire_le id
  | _ => cases ambient

/-- And only retention takes one away. -/
theorem firstJobs_ambient {write : Write} (ambient : isAmbient write = true)
    (spared : ∀ id, write = .expire id →
      ∀ job ∈ db.history, job.id = id → job.of task = false) :
    (write.apply db).firstJobs task = db.firstJobs task := by
  cases write with
  | tick => rfl
  | progress id status => exact firstJobs_moved (.inl rfl)
  | finish id status => exact firstJobs_moved (.inr rfl)
  | retry id => exact firstJobs_retry id
  | expire id => exact firstJobs_expire (spared id rfl)
  | _ => cases ambient

/-- The jobs a transaction inserts are counted. -/
theorem firstJobs_after {writes : List Write}
    (whole : ∀ write ∈ writes,
      (∃ other columns, write = .updateTask other columns) ∨
        ∃ job, write = .insertJob job ∧ job.spec.parentJobId = none)
    (db : Db) :
    (after writes db).firstJobs task =
      db.firstJobs task + enqueued task writes := by
  induction writes generalizing db with
  | nil => rfl
  | cons write writes ih =>
      have rest : (after (write :: writes) db).firstJobs task =
          (write.apply db).firstJobs task + enqueued task writes :=
        ih (fun later member => whole later (List.mem_cons_of_mem _ member)) _
      have count : enqueued task (write :: writes) = enqueued task writes +
          if Write.enqueues task write then 1 else 0 := List.countP_cons
      rw [rest, count]
      rcases whole write List.mem_cons_self with
        ⟨other, columns, rfl⟩ | ⟨job, rfl, isFirst⟩
      · have same : ((Write.updateTask other columns).apply db).firstJobs
            task = db.firstJobs task := by
          simp only [Write.apply, Db.update]
          split <;> rfl
        rw [same]
        simp [Write.enqueues]
      · have one : ((Write.insertJob job).apply db).firstJobs task =
            db.firstJobs task + if job.of task then 1 else 0 := by
          simp only [Write.apply, Db.firstJobs, List.countP_append,
            List.countP_singleton, TaskJob.isFirst, isFirst]
          simp only [Option.isNone_none, Bool.and_true]
          omega
        rw [one, Nat.add_right_comm, Nat.add_assoc]
        rfl

end Counts

/-! ## What the calls promise -/

/-- A write that leaves the task in its queue, does not enable it, and inserts
no retry. -/
inductive Keeps (task : Nat) : Write → Prop where
  | update (other : Nat) (columns : Columns) :
      (other = task → columns.queueName = none ∧ columns.enabled ≠ some true) →
      Keeps task (.updateTask other columns)
  | insert (job : TaskJob) : job.spec.parentJobId = none →
      Keeps task (.insertJob job)

/-- Under the lock of the enabled task fewer jobs than the limit are stored. -/
structure Counted (cfg : Config) (task limit : Nat) (db : Db) (state : Loc) :
    Prop where
  held : lockOf cfg.dialect task ∈ state.held
  enabled : isDisabled task db = false
  below : db.firstJobs task < limit

/-- The transaction enqueues no job of the task, or one that was counted. -/
structure Fits (cfg : Config) (task limit : Nat) (db : Db) (state : Loc) :
    Prop where
  keeps : ∀ write ∈ state.pending, Keeps task write
  counted : enqueued task state.pending = 0 ∨
    enqueued task state.pending = 1 ∧ Counted cfg task limit db state

/-- What a later row of the task has of an earlier one. -/
structure Derives (old row : Task) : Prop where
  scheduleType : row.scheduleType = old.scheduleType
  repeat_ : row.repeat_ = old.repeat_
  queueName : row.queueName = old.queueName
  enabled : old.enabled = false → row.enabled = false

theorem Derives.trans {first second third : Task}
    (left : Derives first second) (right : Derives second third) :
    Derives first third where
  scheduleType := right.scheduleType.trans left.scheduleType
  repeat_ := right.repeat_.trans left.repeat_
  queueName := right.queueName.trans left.queueName
  enabled := fun isFalse => right.enabled (left.enabled isFalse)

section Keeping

variable {task : Nat}

theorem derives_apply {write : Write} {db : Db} {row : Task}
    (keeps : Keeps task write)
    (isRow : (write.apply db).tasks.get task = some row) :
    ∃ old, db.tasks.get task = some old ∧ Derives old row := by
  cases keeps with
  | insert job isFirst => exact ⟨row, isRow, rfl, rfl, rfl, id⟩
  | update other columns spares =>
      by_cases isTask : other = task
      · obtain ⟨sameQueue, notEnabled⟩ := spares isTask
        subst isTask
        cases before : db.tasks.get other with
        | none => simp [Write.apply, Db.update, before] at isRow
        | some old =>
            rw [tasks_update_self before] at isRow
            cases isRow
            refine ⟨old, rfl, rfl, rfl, ?_, ?_⟩
            · simp [Columns.update, sameQueue]
            · intro isFalse
              cases set : columns.enabled with
              | none => simp [Columns.update, set, isFalse]
              | some value =>
                  cases value with
                  | false => simp [Columns.update, set]
                  | true => exact absurd set notEnabled
      · rw [tasks_apply_of_ne (by simpa [Write.task] using isTask)] at isRow
        exact ⟨row, isRow, rfl, rfl, rfl, id⟩

theorem derives_after {writes : List Write}
    (keeps : ∀ write ∈ writes, Keeps task write) {db : Db} {row : Task}
    (isRow : (after writes db).tasks.get task = some row) :
    ∃ old, db.tasks.get task = some old ∧ Derives old row := by
  induction writes generalizing db with
  | nil => exact ⟨row, isRow, rfl, rfl, rfl, id⟩
  | cons write writes ih =>
      obtain ⟨middle, isMiddle, later⟩ :=
        ih (fun rest member => keeps rest (List.mem_cons_of_mem _ member))
          isRow
      obtain ⟨old, isOld, earlier⟩ :=
        derives_apply (keeps write List.mem_cons_self) isMiddle
      exact ⟨old, isOld, earlier.trans later⟩

theorem repeats_after {limit : Nat} {queue : String} {writes : List Write}
    {db : Db} (keeps : ∀ write ∈ writes, Keeps task write)
    (stored : Stored (Repeats limit queue) task db) :
    Stored (Repeats limit queue) task (after writes db) := by
  intro row isRow
  obtain ⟨old, isOld, derives⟩ := derives_after keeps isRow
  have repeats := stored old isOld
  constructor
  · rw [derives.scheduleType]
    exact repeats.isInterval
  · rw [derives.repeat_]
    exact repeats.repeat_
  · rw [derives.queueName]
    exact repeats.queueName

theorem disabled_after {writes : List Write} {db : Db}
    (keeps : ∀ write ∈ writes, Keeps task write)
    (disabled : isDisabled task db = true) :
    isDisabled task (after writes db) = true := by
  rw [isDisabled_iff] at disabled ⊢
  intro row isRow
  obtain ⟨old, isOld, derives⟩ := derives_after keeps isRow
  exact derives.enabled (disabled old isOld)

theorem firstJobs_kept {writes : List Write} {db : Db}
    (keeps : ∀ write ∈ writes, Keeps task write) :
    (after writes db).firstJobs task =
      db.firstJobs task + enqueued task writes := by
  apply firstJobs_after
  intro write member
  cases keeps write member with
  | update other columns => exact Or.inl ⟨other, columns, rfl⟩
  | insert job isFirst => exact Or.inr ⟨job, rfl, isFirst⟩

end Keeping

def counting (cfg : Config) (task limit : Nat) (queue : String) :
    Setting Db Write Lock Call Return where
  sys := system cfg
  inv := Stored (Repeats limit queue) task
  promise _ := {
    commits := Fits cfg task limit
    instant := fun _ _ writes => writes = [] ∨ writes = [.nextJob]
    notes := fun _ _ _ => True }
  commit_inv := fun _ _ _ stored _ fits => repeats_after fits.keeps stored
  instant_inv := by
    intro _ db _ writes stored promised
    rcases promised with none | counter
    · rw [none]
      exact stored
    · rw [counter]
      exact stored
  ambient_inv := by
    intro write db stored isAmbient row isRow
    apply stored row
    rw [← isRow]
    refine (tasks_apply_of_ne ?_ db).symm
    cases write with
    | updateTask => cases isAmbient
    | _ => simp [Write.task]

/-! ## What other sessions cannot undo -/

section Stability

variable {cfg : Config} {task limit : Nat} {queue : String}

theorem counting_ofTasks : OfTasks cfg (counting cfg task limit queue) :=
  ⟨rfl, fun _ _ _ _ => Iff.rfl⟩

/-- Whoever enqueues a job of the task has the lock of its row. -/
theorem below_env {held : List Lock} {first second : Db}
    (isHeld : lockOf cfg.dialect task ∈ held)
    (changed : (counting cfg task limit queue).Env held first second)
    (below : first.firstJobs task < limit) :
    second.firstJobs task < limit := by
  induction changed with
  | refl => exact below
  | @commit db call other _ _ _ promised apart ih =>
      have fits : Fits cfg task limit db other := promised
      have same : (after other.pending db).firstJobs task =
          db.firstJobs task + enqueued task other.pending :=
        firstJobs_kept fits.keeps
      rcases fits.counted with none | ⟨_, counted⟩
      · have kept : (after other.pending db).firstJobs task < limit := by
          omega
        exact kept
      · have free := apart _ isHeld _ counted.held
        simp [counting, system, schema] at free
  | instant _ _ promised _ ih =>
      rcases promised with none | counter
      · rw [none]
        exact ih
      · rw [counter]
        exact ih
  | ambient _ _ isAmbient ih =>
      exact (firstJobs_ambient_le isAmbient _).trans_lt ih

theorem counted_stable :
    (counting cfg task limit queue).Stable (Counted cfg task limit) := by
  intro first second state changed inv guarded counted
  have still := Setting.stable_locked
    (row_locked counting_ofTasks task (first.tasks.get task)) first second
    state changed inv guarded ⟨counted.held, rfl⟩
  constructor
  · exact counted.held
  · rw [isDisabled_of_same still.2]
    exact counted.enabled
  · exact below_env counted.held changed counted.below

theorem fits_stable :
    (counting cfg task limit queue).Stable (Fits cfg task limit) := by
  intro first second state changed inv guarded fits
  constructor
  · exact fits.keeps
  · rcases fits.counted with none | ⟨one, counted⟩
    · exact Or.inl none
    · exact Or.inr ⟨one,
        counted_stable first second state changed inv guarded counted⟩

theorem fits_clean {db : Db} {state : Loc} (clean : state.pending = []) :
    Fits cfg task limit db state := by
  constructor
  · simp [clean]
  · left
    rw [clean]
    rfl

/-- Writes that enqueue no job of the task. -/
theorem Fits.extend {db : Db} {state : Loc} {writes : List Write}
    {locks : List Lock} (fits : Fits cfg task limit db state)
    (keeps : ∀ write ∈ writes, Keeps task write)
    (none : enqueued task writes = 0) :
    Fits cfg task limit db (state.extend writes locks) := by
  have same : enqueued task (state.pending ++ writes) =
      enqueued task state.pending := by
    unfold enqueued at none ⊢
    rw [List.countP_append, none, Nat.add_zero]
  constructor
  · intro write member
    rcases List.mem_append.mp member with earlier | now
    · exact fits.keeps write earlier
    · exact keeps write now
  · rcases fits.counted with zero | ⟨one, counted⟩
    · left
      exact same.trans zero
    · right
      refine ⟨same.trans one, ?_, counted.enabled, counted.below⟩
      exact List.mem_append_left _ counted.held

end Stability

/-! ## Scripts that leave the task alone -/

section Scripts

variable {cfg : Config} {task limit : Nat} {queue : String} {call : Call}

/-- Whatever it does fits. -/
def Harmless (cfg : Config) (task limit : Nat) (queue : String) (call : Call)
    {β : Type} (script : Sql β) : Prop :=
  (counting cfg task limit queue).Spec call (Fits cfg task limit) script
    (fun _ => Fits cfg task limit) (Fits cfg task limit)

namespace Harmless

theorem pure {β : Type} (value : β) :
    Harmless cfg task limit queue call (pure value : Sql β) :=
  Setting.Spec.skip fits_stable

theorem raise {β : Type} (exception : Exc) :
    Harmless cfg task limit queue call (raise exception : Sql β) :=
  Setting.Spec.raise fits_stable fun _ _ _ fits => fits

theorem bind {β γ : Type} {first : Sql β} {next : β → Sql γ}
    (begins : Harmless cfg task limit queue call first)
    (rest : ∀ value, Harmless cfg task limit queue call (next value)) :
    Harmless cfg task limit queue call (first >>= next) :=
  Setting.Spec.bind fits_stable begins rest

theorem map {β γ : Type} {first : Sql β} {result : β → γ}
    (begins : Harmless cfg task limit queue call first) :
    Harmless cfg task limit queue call (result <$> first) :=
  Setting.Spec.map begins (fun _ => fits_stable) fits_stable

theorem observe {β : Type} {query : Db → β} {remark : β → List Write} :
    Harmless cfg task limit queue call (observe query remark : Sql β) := by
  apply Setting.Spec.observe fits_stable
  · exact fun _ => fits_stable
  · intro db state _ _ fits
    refine ⟨trivial, fits.keeps, ?_⟩
    rcases fits.counted with none | ⟨one, counted⟩
    · exact Or.inl none
    · exact Or.inr ⟨one, counted.held, counted.enabled, counted.below⟩

theorem commit :
    Harmless cfg task limit queue call (commit : Sql Unit) := by
  apply Setting.Spec.commit fits_stable fits_stable
  intro db state _ _ fits
  exact ⟨fits, fits_clean rfl⟩

theorem session {β : Type} {body : Sql β}
    (inner : Harmless cfg task limit queue call body) :
    Harmless cfg task limit queue call (session body) := by
  apply Setting.Spec.session inner (fun _ => fits_stable) fits_stable
    (fun _ => fits_stable) fits_stable
  · exact fun _ _ _ _ _ => fits_clean rfl
  · exact fun _ _ _ _ => fits_clean rfl

theorem quietly {β : Type} {body : Sql β}
    (inner : Harmless cfg task limit queue call body) :
    Harmless cfg task limit queue call (quietly body) :=
  Setting.Spec.quietly inner fits_stable

theorem updateTasks {admits : Task → Bool} {columns : Columns}
    (keeps : ∀ row, admits row = true →
      Keeps task (.updateTask row.id columns)) :
    Harmless cfg task limit queue call (updateTasks cfg admits columns) := by
  apply Setting.Spec.map
  · apply Setting.Spec.exec fits_stable
    · exact fun _ => fits_stable
    · intro snapshot current state others effect _ _ _ _ _ fits ran
      simp only [modifyRows, Option.some.injEq] at ran
      subst ran
      refine ⟨Or.inl rfl, fits.extend ?_ ?_⟩
      · intro write member
        obtain ⟨row, isHit, rfl⟩ := List.mem_map.mp member
        exact keeps row (mem_hits Db.tasks isHit).2
      · rw [enqueued, List.countP_eq_zero]
        intro write member
        obtain ⟨row, _, rfl⟩ := List.mem_map.mp member
        simp [Write.enqueues]
  · exact fun _ => fits_stable
  · exact fits_stable

theorem updateOne {other : Nat} {columns : Columns}
    (keeps : Keeps task (.updateTask other columns)) :
    Harmless cfg task limit queue call (updateOne cfg other columns) := by
  apply bind
  · apply updateTasks
    intro row isOther
    rw [of_decide_eq_true isOther]
    exact keeps
  · intro updated
    split
    · exact pure _
    · exact raise _

/-- A job of another task. -/
theorem insertJob {spec : JobSpec} (other : spec.scheduledTaskId ≠ some task)
    (isFirst : spec.parentJobId = none) :
    Harmless cfg task limit queue call (insertJob cfg spec) := by
  apply insertJob_spec counting_ofTasks fits_stable (fun _ => fits_stable)
    fits_stable
  · intro db state locks fits
    have still : Fits cfg task limit db (state.extend [] locks) :=
      fits.extend (by simp) rfl
    refine ⟨still.keeps, ?_⟩
    rcases still.counted with none | ⟨one, counted⟩
    · exact Or.inl none
    · exact Or.inr ⟨one, counted.held, counted.enabled, counted.below⟩
  · intro db state id locks fits
    apply fits.extend
    · intro write member
      rw [List.mem_singleton.mp member]
      exact .insert _ isFirst
    · simp [enqueued, Write.enqueues, TaskJob.of, other]

end Harmless

end Scripts

end Sqlery.Scheduling
