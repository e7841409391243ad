import Sqlery.Scheduling.Specs

/-!
# The advance of a cron task

On PostgreSQL the row is locked, compared and written; on SQLite the `UPDATE`
compares.  Either way the transaction that inserts the job holds the lock of a
row whose due time is still the one of the copy.
-/

namespace Sqlery.Scheduling

open ReadCommitted
open Script

section Advance

variable {cfg : Config} {call : Call} {noted written : List Write}
variable {copy : Task} {next : Time} {job : TaskJob}

/-- The advance and the job are written, and the stored due time is still the
one the copy has. -/
structure Advancing (cfg : Config) (copy : Task) (next : Time)
    (noted written rest : List Write) (db : Db) (state : Loc) : Prop where
  pending : state.pending =
    .updateTask copy.id { nextRunAt := some (some next) } :: rest
  noted : state.noted = noted
  written : state.written = written
  held : lockOf cfg.dialect copy.id ∈ state.held
  row : ∃ row, db.tasks.get copy.id = some row ∧
    row.nextRunAt = copy.nextRunAt

theorem advancing_stable {rest : List Write} :
    (scheduler cfg).Stable (Advancing cfg copy next noted written rest) := by
  intro first second state changed inv guarded holds
  obtain ⟨row, isRow, same⟩ := holds.row
  have still := Setting.stable_locked
    (row_locked scheduler_ofTasks copy.id (some row)) first second state changed
    inv guarded ⟨holds.held, isRow⟩
  exact ⟨holds.pending, holds.noted, holds.written, still.1, row, still.2,
    same⟩

/-- The writes of a call that has advanced a task. -/
def advance (copy : Task) (next : Time) (job : TaskJob) : List Write :=
  [.updateTask copy.id { nextRunAt := some (some next) }, .insertJob job]

/-- The job, the commit and the refresh that follow the advance. -/
theorem finishAdvance_spec (isScheduler : call.OfScheduler)
    (isCopy : Copy call noted copy) (isCron : cfg.isCron copy = true)
    (later : Later copy.nextRunAt next) :
    (scheduler cfg).Spec call
      (Advancing cfg copy next noted written [])
      (do
        let job ← insertJob cfg copy.jobSpec
        commit
        some <$> refresh job : Sql (Option TaskJob))
      (fun _ _ state => ∃ job, job.of copy.id = true ∧
        Idle noted (written ++ advance copy next job) state)
      (fun _ state => ∃ job, job.of copy.id = true ∧
        Idle noted (written ++ advance copy next job) state) := by
  have inserts : (scheduler cfg).Spec call
      (Advancing cfg copy next noted written [])
      (insertJob cfg copy.jobSpec)
      (fun job db state => job.of copy.id = true ∧
        Advancing cfg copy next noted written [.insertJob job] db state)
      (fun _ state => ∃ job, job.of copy.id = true ∧
        Idle noted (written ++ advance copy next job) state) := by
    apply insertJob_spec scheduler_ofTasks advancing_stable
      (fun job => Setting.stable_and Setting.stable_fact advancing_stable)
      local_stable
    · intro db state locks holds
      refine ⟨?_, holds.noted, holds.written, ?_, holds.row⟩
      · simpa [Local.extend] using holds.pending
      · simp only [Local.extend]
        exact List.mem_append_left _ holds.held
    · intro db state id locks holds
      refine ⟨by simp [TaskJob.of, Task.jobSpec], ?_, holds.noted,
        holds.written, ?_, holds.row⟩
      · simp only [Local.extend, holds.pending]
        rfl
      · simp only [Local.extend]
        exact List.mem_append_left _ holds.held
  apply Setting.Spec.bind local_stable inserts
  intro job
  apply Setting.Spec.fact
  intro isJob
  have commits : (scheduler cfg).Spec call
      (Advancing cfg copy next noted written [.insertJob job])
      (commit : Sql Unit)
      (fun _ _ state => Idle noted (written ++ advance copy next job) state)
      (fun _ state => ∃ job, job.of copy.id = true ∧
        Idle noted (written ++ advance copy next job) state) := by
    apply Setting.Spec.commit advancing_stable local_stable
    intro db state _ _ holds
    obtain ⟨row, isRow, same⟩ := holds.row
    refine ⟨⟨isScheduler, ?_⟩, rfl, holds.noted, ?_⟩
    · rw [holds.pending, holds.noted]
      exact .advances copy row next job isCopy isCron later isRow same isJob
    · simp only [Local.committed, holds.pending, holds.written]
      rfl
  apply Setting.Spec.bind local_stable commits
  intro _
  apply Setting.Spec.map
  · apply Setting.Spec.strengthen (refresh_spec job)
    · exact fun _ _ _ _ idle => ⟨job, isJob, idle⟩
    · exact fun _ _ _ idle => ⟨job, isJob, idle⟩
  · exact fun _ => local_stable
  · exact local_stable

/-- What a call that tried to advance a task leaves. -/
def Advanced (copy : Task) (next : Time) (noted written : List Write)
    (state : Loc) : Prop :=
  ∃ writes, Idle noted (written ++ writes) state ∧
    (writes = [] ∨ ∃ job, job.of copy.id = true ∧
      writes = advance copy next job)

theorem advanced_of_idle {state : Loc} (idle : Idle noted written state) :
    Advanced copy next noted written state := by
  refine ⟨[], ⟨idle.pending, idle.noted, ?_⟩, Or.inl rfl⟩
  rw [idle.written, List.append_nil]

theorem Advanced.rolledBack {state : Loc}
    (advanced : Advanced copy next noted written state) :
    Advanced copy next noted written state.rolledBack := by
  obtain ⟨writes, idle, done⟩ := advanced
  exact ⟨writes, idle.rolledBack, done⟩

theorem finished_spec (isScheduler : call.OfScheduler)
    (isCopy : Copy call noted copy) (isCron : cfg.isCron copy = true)
    (later : Later copy.nextRunAt next) :
    (scheduler cfg).Spec call
      (Advancing cfg copy next noted written [])
      (do
        let job ← insertJob cfg copy.jobSpec
        commit
        some <$> refresh job : Sql (Option TaskJob))
      (fun _ _ => Advanced copy next noted written)
      (fun _ => Advanced copy next noted written) := by
  have weaker : ∀ state : Loc, (∃ job, job.of copy.id = true ∧
      Idle noted (written ++ advance copy next job) state) →
        Advanced copy next noted written state := by
    intro state holds
    obtain ⟨job, isJob, idle⟩ := holds
    exact ⟨_, idle, Or.inr ⟨job, isJob, rfl⟩⟩
  apply Setting.Spec.strengthen
    (finishAdvance_spec isScheduler isCopy isCron later)
  · exact fun _ _ state _ => weaker state
  · exact fun _ state _ => weaker state

/-- A row that the transaction has locked. -/
def Locked (cfg : Config) (row : Task) (db : Db) (state : Loc) : Prop :=
  lockOf cfg.dialect row.id ∈ state.held ∧ db.tasks.get row.id = some row

theorem locked_kept (row : Task) :
    (scheduler cfg).Kept call (Locked cfg row) where
  stable := Setting.stable_locked
    (row_locked scheduler_ofTasks row.id (some row))
  note := fun _ _ _ holds => holds
  extend := fun _ _ _ _ holds => ⟨List.mem_append_left _ holds.1, holds.2⟩
  instant := by
    intro db state writes promised holds
    have locked : (scheduler cfg).LockedBy (lockOf cfg.dialect row.id)
        fun db => db.tasks.get row.id = some row :=
      row_locked scheduler_ofTasks row.id (some row)
    exact ⟨holds.1,
      locked.instant call db state writes trivial promised holds.2⟩

theorem updateTasks_within (admits : Task → Bool) (columns : Columns) :
    Within (updateTasks cfg admits columns) := by
  apply Within.bind (Within.exec _)
  exact fun _ => Within.pure _

theorem updateOne_within (task : Nat) (columns : Columns) :
    Within (updateOne cfg task columns) := by
  apply Within.bind (updateTasks_within _ _)
  intro updated
  split
  · exact Within.pure _
  · exact Within.raise _

/-- PostgreSQL: the row that is locked and compared is the row that is
written. -/
theorem flushAdvance_spec {existing : Task} {fails : Db → Loc → Prop}
    (stableFails : (scheduler cfg).Stable fails)
    (isRow : existing.id = copy.id)
    (same : existing.nextRunAt = copy.nextRunAt)
    (later : Later copy.nextRunAt next) (isDue : copy.nextRunAt ≠ none) :
    (scheduler cfg).Spec call
      (fun db state => Idle noted written state ∧ Locked cfg existing db state)
      (flush cfg existing { nextRunAt := some (some next) })
      (fun _ => Advancing cfg copy next noted written []) fails := by
  obtain ⟨due, isDue⟩ := Option.ne_none_iff_exists'.mp isDue
  have different : existing.nextRunAt ≠ some next := by
    rw [same, isDue]
    intro equal
    exact absurd (later due isDue) (by simp [Option.some.inj equal])
  have changes : Columns.changed { nextRunAt := some (some next) } existing =
      { nextRunAt := some (some next) } := by
    simp [Columns.changed, Option.filter, Ne.symm different]
  have updates : (scheduler cfg).Spec call
      (fun db state => Idle noted written state ∧
        db.tasks.get existing.id ≠ none)
      (updateOne cfg existing.id { nextRunAt := some (some next) })
      (fun _ db state => ∃ row, row.id = existing.id ∧
        Wrote cfg { nextRunAt := some (some next) } noted written row db state)
      fails := updateOne_spec stableFails
  rw [flush, changes, if_neg (by simp)]
  apply Setting.Spec.strengthen
    ((Setting.Spec.keep (locked_kept existing) (updateOne_within _ _)
      updates).weaken _)
  · intro _ db state _ holds
    obtain ⟨⟨row, isTask, wrote⟩, locked⟩ := holds
    have pending := wrote.pending
    rw [isTask, isRow] at pending
    refine ⟨pending, wrote.noted, wrote.written, ?_, existing, ?_, same⟩
    · rw [← isRow]
      exact locked.1
    · rw [← isRow]
      exact locked.2
  · exact fun _ _ _ failed => failed
  · intro db state _ holds
    exact ⟨⟨holds.1, by rw [holds.2.2]; exact Option.some_ne_none _⟩, holds.2⟩

theorem advanceLocked_spec (isPostgresql : cfg.dialect = .postgresql)
    (isScheduler : call.OfScheduler) (isCopy : Copy call noted copy)
    (isCron : cfg.isCron copy = true) (later : Later copy.nextRunAt next) :
    (scheduler cfg).Spec call (fun _ state => Idle noted written state)
      (advanceLocked cfg copy.id copy.nextRunAt next copy.jobSpec)
      (fun _ _ => Advanced copy next noted written)
      (fun _ => Advanced copy next noted written) := by
  have locks : (scheduler cfg).Spec call
      (fun _ state => Idle noted written state)
      (exec (lockRows Db.tasks (fun row => .task row.id)
        fun row => row.id = copy.id) : Sql (List Task))
      (fun rows db state => Idle noted written state ∧
        ∀ row ∈ rows, row.id = copy.id ∧ Locked cfg row db state)
      (fun _ => Advanced copy next noted written) := by
    apply Setting.Spec.exec local_stable
    · intro rows first second state changed inv guarded holds
      refine ⟨holds.1, ?_⟩
      intro row member
      obtain ⟨isRow, locked⟩ := holds.2 row member
      have kept : (scheduler cfg).Kept call (Locked cfg row) := locked_kept row
      exact ⟨isRow, kept.stable first second state changed inv guarded locked⟩
    · intro snapshot current state others effect _ _ _ _ _ idle ran
      rw [view_of_idle idle, view_of_idle idle] at ran
      simp only [lockRows, Option.some.injEq] at ran
      subst ran
      refine ⟨Or.inl rfl, ⟨by simp [Local.extend, idle.pending], idle.noted,
        idle.written⟩, ?_⟩
      intro row member
      obtain ⟨found, admitted⟩ := mem_hits Db.tasks member
      refine ⟨of_decide_eq_true admitted, ?_, found⟩
      simp only [Local.extend, System.acquired, List.mem_append, lockOf,
        isPostgresql]
      right
      left
      exact List.mem_map.mpr ⟨row, member, rfl⟩
  have gives : (scheduler cfg).Spec call
      (fun _ state => Idle noted written state)
      (pure none : Sql (Option TaskJob))
      (fun _ _ => Advanced copy next noted written)
      (fun _ => Advanced copy next noted written) :=
    Setting.Spec.pure local_stable fun _ _ _ _ => advanced_of_idle
  apply Setting.Spec.bind local_stable locks
  intro rows
  split
  · exact gives.weaken fun _ _ _ holds => holds.1
  · rename_i existing isHead
    split
    · exact gives.weaken fun _ _ _ holds => holds.1
    · rename_i existingDue isExisting
      split
      · exact gives.weaken fun _ _ _ holds => holds.1
      · split
        · apply Setting.Spec.weaken (Setting.Spec.raise local_stable
            fun _ _ _ => advanced_of_idle) fun _ _ _ holds => holds.1
        · rename_i observed isObserved
          split
          · exact gives.weaken fun _ _ _ holds => holds.1
          · rename_i isDue
            have same : existing.nextRunAt = copy.nextRunAt := by
              rw [isExisting, isObserved]
              exact congrArg some (not_not.mp isDue)
            have due : copy.nextRunAt ≠ none := by
              rw [isObserved]
              exact Option.some_ne_none _
            have writes : (scheduler cfg).Spec call
                (fun db state => existing.id = copy.id ∧
                  Idle noted written state ∧ Locked cfg existing db state)
                (do
                  flush cfg existing { nextRunAt := some (some next) }
                  let job ← insertJob cfg copy.jobSpec
                  commit
                  some <$> refresh job : Sql (Option TaskJob))
                (fun _ _ => Advanced copy next noted written)
                (fun _ => Advanced copy next noted written) := by
              apply Setting.Spec.fact
              intro isRow
              apply Setting.Spec.bind local_stable
                (flushAdvance_spec local_stable isRow same later due)
              intro _
              exact finished_spec isScheduler isCopy isCron later
            apply writes.weaken
            intro db state _ holds
            have member := List.mem_of_head? isHead
            obtain ⟨isRow, locked⟩ := holds.2 existing member
            exact ⟨isRow, holds.1, locked⟩

/-- SQLite: the row is compared in the `UPDATE`. -/
theorem advanceCompared_spec (isScheduler : call.OfScheduler)
    (isCopy : Copy call noted copy) (isCron : cfg.isCron copy = true)
    (later : Later copy.nextRunAt next) :
    (scheduler cfg).Spec call (fun _ state => Idle noted written state)
      (advanceCompared cfg copy.id copy.nextRunAt next copy.jobSpec)
      (fun _ _ => Advanced copy next noted written)
      (fun _ => Advanced copy next noted written) := by
  have keyed : ∀ row, winsAdvance copy.id copy.nextRunAt row = true →
      row.id = copy.id := by
    intro row wins
    simp only [winsAdvance, Bool.and_eq_true, decide_eq_true_eq] at wins
    exact wins.1.1
  have updates : (scheduler cfg).Spec call
      (fun _ state => Idle noted written state ∧ True)
      (updateTasks cfg (winsAdvance copy.id copy.nextRunAt)
        { nextRunAt := some (some next) })
      (fun count db state => (False → count ≠ 0) ∧
        Touched cfg (winsAdvance copy.id copy.nextRunAt)
          { nextRunAt := some (some next) } noted written count db state)
      (fun _ => Advanced copy next noted written) :=
    updateTasks_spec local_stable local_stable keyed fun impossible =>
      impossible.elim
  apply Setting.Spec.bind local_stable
    (updates.weaken fun _ _ _ idle => ⟨idle, trivial⟩)
  intro count
  split
  · rename_i lost
    have rolls : (scheduler cfg).Spec call
        (fun db state => (False → count ≠ 0) ∧
          Touched cfg (winsAdvance copy.id copy.nextRunAt)
            { nextRunAt := some (some next) } noted written count db state)
        (rollback : Sql Unit) (fun _ _ state => Idle noted written state)
        (fun _ => Advanced copy next noted written) := by
      apply Setting.Spec.rollback
        (Setting.stable_and Setting.stable_fact touched_stable) local_stable
      intro db state _ holds
      rcases holds.2 with ⟨_, idle⟩ | ⟨row, fact, _⟩
      · exact idle.rolledBack
      · exact absurd fact.1 lost
    apply Setting.Spec.bind local_stable rolls
    intro _
    exact Setting.Spec.pure local_stable fun _ _ _ _ => advanced_of_idle
  · rename_i won
    apply (finished_spec isScheduler isCopy isCron later).weaken
    intro db state _ holds
    rcases holds.2 with ⟨none, _⟩ | ⟨row, fact, wrote⟩
    · exact absurd (not_not.mp won) (by omega)
    · have wins := fact.2
      simp only [winsAdvance, Bool.and_eq_true, decide_eq_true_eq] at wins
      have pending := wrote.pending
      have held := wrote.held
      have isRow := wrote.row
      rw [wins.1.1] at pending held isRow
      exact ⟨pending, wrote.noted, wrote.written, held, row, isRow, wins.1.2⟩

theorem advanceScheduledTaskIfDue_spec
    (isStandalone : cfg.backend = .standalone)
    (isScheduler : call.OfScheduler)
    (isCopy : Copy call noted copy) (isCron : cfg.isCron copy = true)
    (later : Later copy.nextRunAt next) :
    (scheduler cfg).Spec call (fun _ state => Idle noted written state)
      (advanceScheduledTaskIfDue cfg copy.id copy.nextRunAt next copy.jobSpec)
      (fun _ _ => Advanced copy next noted written)
      (fun _ => Advanced copy next noted written) := by
  unfold advanceScheduledTaskIfDue
  split
  · rename_i _ isPostgresql
    exact session_spec
      (advanceLocked_spec isPostgresql isScheduler isCopy isCron later)
      (fun _ _ => Advanced.rolledBack) fun _ => Advanced.rolledBack
  · exact session_spec
      (advanceCompared_spec isScheduler isCopy isCron later)
      (fun _ _ => Advanced.rolledBack) fun _ => Advanced.rolledBack
  · rename_i isDjango
    rw [isStandalone] at isDjango
    cases isDjango

end Advance

end Sqlery.Scheduling
