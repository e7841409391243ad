import Sqlery.Staging.StagedRuns

/-!
# Each staged job once

The commit of a promoter moves each row it has locked to the live table, as
`create_job` would have written it, with its ready entry; no other action
promotes, and one that fails changes nothing.
-/

namespace Sqlery.Staging

open ReadCommitted Runs

variable {n : Nat} {state : State n} {process : Fin n}

/-! ## Commits -/

/-- The row has left the staging table for the live one, where it reads as the
row that `create_job` writes directly, with its entry. -/
structure Promoted (after : Db) (start : Time) (slot : Nat)
    (row : ScheduledJob) : Prop where
  gone : row.id ∉ after.stagedIds
  live : ∃ job ∈ after.live.rows, job.id = row.id ∧
    job.createdAt = row.createdAt ∧ ∃ spec due, spec.scheduledAt = some due ∧
      row = scheduledJob spec due row.id row.createdAt ∧
      (directRow spec row.id row.createdAt start).map Row.asRead =
        some job.row.asRead
  ready : promotedEntry slot row ∈ after.ready.rows

/-- The rows are promoted, all of them and nothing else. -/
structure Commits (before after : State n) (start : Time) (slot : Nat)
    (picked : List ScheduledJob) : Prop where
  promoted : after.promoted = before.promoted ++ picked.map ScheduledJob.id
  staged : ∀ row ∈ picked, row ∈ before.db.staged.rows ∧ isDue start row = true
  each : ∀ row ∈ picked, Promoted after.db start slot row

theorem job_of_built {defaults : List (String × Value)} {start : Time}
    {rows : List ScheduledJob} {jobs : List LiveJob}
    (built : List.Forall₂ (Built defaults start) rows jobs) {row : ScheduledJob}
    (member : row ∈ rows) : ∃ job ∈ jobs, Built defaults start row job := by
  induction built with
  | nil => cases member
  | cons same _ ih =>
      rcases List.mem_cons.mp member with rfl | later
      · exact ⟨_, List.mem_cons_self, same⟩
      · obtain ⟨job, isJob, built⟩ := ih later
        exact ⟨job, List.mem_cons_of_mem _ isJob, built⟩

theorem State.Sound.commits (sound : state.Sound)
    {defaults : List (String × Value)} {start : Time} {slot : Nat}
    {batch : Batch}
    (isAt : state.stage process = .promoting defaults start slot [] batch) :
    ∀ row ∈ batch.picked, Promoted (state.db.promote batch) start slot row := by
  have stands : BatchSound state.db defaults start slot [] batch := by
    have stands := sound.stage process
    rw [isAt] at stands
    exact stands
  have picked := stands.picked
  have staged {id : JobId} (member : id ∈ batch.picked.map ScheduledJob.id) :
      id ∈ state.db.stagedIds := by
    obtain ⟨row, isRow, rfl⟩ := List.mem_map.mp member
    exact List.mem_map_of_mem (picked.staged row isRow)
  intro row member
  have isPicked : row.id ∈ batch.picked.map ScheduledJob.id :=
    List.mem_map_of_mem member
  refine ⟨?_, ?_, ?_⟩
  · intro left
    obtain ⟨other, isOther, same⟩ := List.mem_map.mp left
    have kept := (List.mem_filter.mp isOther).2
    rw [same] at kept
    simp [isPicked] at kept
  · obtain ⟨-, read, done, split, built, -⟩ := id stands
    rw [List.append_nil] at split
    rw [split] at member
    obtain ⟨job, isJob, made⟩ := job_of_built built member
    have keys : (batch.live.map LiveJob.key).Nodup := by
      have ids : (batch.live.map LiveJob.id).Nodup := by
        rw [stands.live_ids]
        exact picked.once
      rw [show LiveJob.id = Prod.snd ∘ LiveJob.key from rfl,
        ← List.map_map] at ids
      exact ids.of_map _
    have isLive : job ∈ (state.db.promote batch).live.rows := by
      refine mem_insertAll_of_fresh keys (fun other isOther => ?_) isJob
      refine Table.get_eq_none_iff.mpr fun old isOld sameKey => ?_
      have sameId : old.id = other.id := congrArg Prod.snd sameKey
      refine (sound.live old isOld).2 (staged ?_)
      rw [sameId, ← stands.live_ids]
      exact List.mem_map_of_mem isOther
    rw [← split] at member
    obtain ⟨spec, due, isDue, packed⟩ :=
      sound.packed row (picked.staged row member)
    refine ⟨job, isLive, made.id, made.createdAt, spec, due, isDue, packed, ?_⟩
    rw [← promotedRow_of_read read isDue, ← packed, made.row]
    rfl
  · have entries := stands.ready_ids
    have keys : (batch.ready.map entryKey).Nodup := by
      have ids : (batch.ready.map Ready.jobId).Nodup := by
        rw [entries, List.map_map]
        exact picked.once
      rw [show Ready.jobId = Prod.snd ∘ entryKey from rfl,
        ← List.map_map] at ids
      exact ids.of_map _
    refine mem_insertAll_of_fresh keys (fun other isOther => ?_) ?_
    · refine Table.get_eq_none_iff.mpr fun old isOld sameKey => ?_
      have sameId : old.jobId = other.jobId := congrArg Prod.snd sameKey
      refine (sound.ready old isOld).2 (staged ?_)
      rw [sameId]
      rw [entries] at isOther
      obtain ⟨row, isRow, rfl⟩ := List.mem_map.mp isOther
      exact (List.mem_map_of_mem isRow : row.id ∈ _)
    · rw [entries]
      exact List.mem_map_of_mem member

/-- The action is the commit of a promoter that has built all its rows. -/
def Promotes (before : State n) (action : Action n) (process : Fin n)
    (start : Time) (slot : Nat) : Prop :=
  action = .step process ∧ ∃ defaults batch,
    before.stage process = .promoting defaults start slot [] batch

/-- What an action does to staged jobs. -/
structure StagedOnce (before : State n) (action : Action n) (after : State n) :
    Prop where
  once : after.stored.Nodup
  places : after.stored.Perm
    (after.db.stagedIds ++ (after.promoted ++ after.cancelled))
  stored : before.stored <+: after.stored
  commits : ∀ process start slot, Promotes before action process start slot →
    Commits before after start slot (before.stage process).locked
  promoted : (∀ process start slot,
    ¬Promotes before action process start slot) →
    after.promoted = before.promoted
  failing : ∀ process, action = .fail process ∨ action = .crash process →
    after.db = before.db

section

variable {next : State n}

/-- Nothing is promoted, and at most one job staged. -/
structure Stays (before after : State n) : Prop where
  stored : before.stored <+: after.stored
  promoted : after.promoted = before.promoted

theorem stays_of_same (stored : next.stored = state.stored)
    (promoted : next.promoted = state.promoted) : Stays state next :=
  { stored := stored.symm ▸ List.prefix_rfl
    promoted := promoted }

theorem stays_inserted (result : Option Db) :
    Stays state (state.inserted process result) := by
  cases result with
  | none => exact stays_of_same rfl rfl
  | some db => exact stays_of_same rfl rfl

theorem stays_staged (result : Option Db) :
    Stays state (state.staged process result) := by
  cases result with
  | none => exact stays_of_same rfl rfl
  | some db => exact ⟨List.prefix_append _ _, rfl⟩

theorem stays_unstage {job : JobId}
    (taken : state.unstage process job = some next) : Stays state next := by
  unfold State.unstage at taken
  split at taken
  · obtain rfl := Option.some.inj taken
    exact stays_of_same rfl rfl
  · split at taken
    · cases taken
    · obtain rfl := Option.some.inj taken
      exact stays_of_same rfl rfl

theorem stays_raises (taken : state.raises process = some next) :
    Stays state next ∧ next.db = state.db := by
  unfold State.raises at taken
  cases isAt : state.stage process with
  | ended promoted => simp [isAt] at taken
  | _ =>
      simp only [isAt, Option.some.injEq] at taken
      subst taken
      exact ⟨stays_of_same rfl rfl, rfl⟩

/-- Only the last step of a promoter promotes. -/
theorem stays_of_advance {cfg : Config}
    (taken : state.advance cfg process = some next)
    (unfinished : ∀ start slot,
      ¬Promotes state (.step process) process start slot) :
    Stays state next := by
  unfold State.advance at taken
  cases isAt : state.stage process with
  | ended promoted => simp [isAt] at taken
  | inserting spec createdAt farFuture =>
      simp only [isAt, Option.some.injEq] at taken
      subst taken
      split
      · exact stays_staged _
      · exact stays_inserted _
  | requeueing failed scheduledAt =>
      simp only [isAt, Option.some.injEq] at taken
      subst taken
      exact stays_inserted _
  | acquiring fields =>
      simp only [isAt, Option.some.injEq] at taken
      subst taken
      split
      · exact stays_of_same rfl rfl
      · exact stays_of_same rfl rfl
  | promoting defaults start slot rest batch =>
      cases rest with
      | nil =>
          exact (unfinished start slot ⟨rfl, defaults, batch, isAt⟩).elim
      | cons row rest =>
          simp only [isAt, Option.some.injEq] at taken
          subst taken
          exact stays_of_same rfl rfl
  | unstaging job =>
      simp only [isAt] at taken
      exact stays_unstage taken
  | _ =>
      simp only [isAt, Option.some.injEq] at taken
      subst taken
      exact stays_of_same rfl rfl

theorem State.Sound.stagedOnce {cfg : Config} (sound : state.Sound)
    {action : Action n} (taken : Staging.act cfg state action = some next) :
    StagedOnce state action next := by
  have after := sound.act taken
  have concludes (stays : Stays state next)
      (unfinished : ∀ process start slot,
        ¬Promotes state action process start slot)
      (failing : ∀ process, action = .fail process ∨ action = .crash process →
        next.db = state.db) : StagedOnce state action next :=
    ⟨after.once, after.places, stays.stored,
      fun process start slot promotes =>
        (unfinished process start slot promotes).elim,
      fun _ => stays.promoted, failing⟩
  have starts {process : Fin n} {stage : Stage}
      (taken : (if (state.stage process).isEnded then
        some (state.goTo process stage) else none) = some next)
      (other : ∀ process, action ≠ .fail process ∧ action ≠ .crash process ∧
        action ≠ .step process) :
      StagedOnce state action next := by
    split at taken
    · obtain rfl := Option.some.inj taken
      refine concludes (stays_of_same rfl rfl) ?_ fun process isFailure => ?_
      · exact fun process _ _ promotes => (other process).2.2 promotes.1
      · exact (isFailure.elim (other process).1 (other process).2.1).elim
    · cases taken
  cases action with
  | create process spec => exact starts taken fun _ => by simp
  | retry process failed scheduledAt => exact starts taken fun _ => by simp
  | requeue process failed scheduledAt => exact starts taken fun _ => by simp
  | promote process fields => exact starts taken fun _ => by simp
  | cancel process job => exact starts taken fun _ => by simp
  | step process =>
      by_cases promotes : ∃ start slot,
          Promotes state (.step process) process start slot
      · obtain ⟨start, slot, -, defaults, batch, isAt⟩ := promotes
        have each := sound.commits isAt
        have stands := sound.stage process
        rw [isAt] at stands
        have picked := BatchSound.picked stands
        simp only [Staging.act, State.advance, isAt, Option.some.injEq] at taken
        subst taken
        refine ⟨after.once, after.places, List.prefix_rfl, ?_, ?_, ?_⟩
        · rintro other begun place ⟨isStep, values, rows, isOther⟩
          cases isStep
          rw [isAt] at isOther
          cases isOther
          rw [isAt]
          exact ⟨rfl, fun row member =>
            ⟨picked.staged row member, picked.due row member⟩, each⟩
        · intro unfinished
          exact (unfinished process start slot
            ⟨rfl, defaults, batch, isAt⟩).elim
        · exact fun _ isFailure => by simp at isFailure
      · have unfinished : ∀ other start slot,
            ¬Promotes state (.step process) other start slot := by
          rintro other start slot ⟨isStep, isAt⟩
          cases isStep
          exact promotes ⟨start, slot, rfl, isAt⟩
        exact concludes (stays_of_advance taken (unfinished process))
          unfinished fun _ isFailure => by simp at isFailure
  | fail process =>
      have stays := stays_raises taken
      exact concludes stays.1 (fun _ _ _ promotes => by cases promotes.1)
        fun _ _ => stays.2
  | crash process =>
      obtain rfl := Option.some.inj taken
      exact concludes (stays_of_same rfl rfl)
        (fun _ _ _ promotes => by cases promotes.1) fun _ _ => rfl
  | claim job =>
      obtain ⟨db, claimed, rfl⟩ := Option.map_eq_some_iff.mp taken
      exact concludes (stays_of_same rfl rfl)
        (fun _ _ _ promotes => by cases promotes.1)
        fun _ isFailure => by simp at isFailure
  | finish job inPlace =>
      obtain rfl := Option.some.inj taken
      exact concludes (stays_of_same rfl rfl)
        (fun _ _ _ promotes => by cases promotes.1)
        fun _ isFailure => by simp at isFailure
  | rotate slot =>
      obtain rfl := Option.some.inj taken
      exact concludes (stays_of_same rfl rfl)
        (fun _ _ _ promotes => by cases promotes.1)
        fun _ isFailure => by simp at isFailure
  | tick elapsed =>
      obtain rfl := Option.some.inj taken
      exact concludes (stays_of_same rfl rfl)
        (fun _ _ _ promotes => by cases promotes.1)
        fun _ isFailure => by simp at isFailure

/-- In every order of creators, promoters, retries, claims and cancels, a staged
job is promoted at most once, whole, and until then it is staged or cancelled;
a batch that fails changes nothing. -/
theorem staged_promotedOnce {cfg : Config} {start before after : State n}
    (begins : start.Begins) (reached : Reaches (act cfg) anyAction start before)
    {action : Action n} (taken : act cfg before action = some after) :
    StagedOnce before action after := by
  have sound : before.Sound :=
    reached.invariant begins.sound fun _ _ _ sound _ taken => sound.act taken
  exact sound.stagedOnce taken

end

/-! ## A job in ten days -/

def weekAhead : Config where
  partitionedPg := true
  scheduledJobThresholdDays := 7

def creator : Fin 2 := ⟨0, Nat.zero_lt_two⟩

def promoter : Fin 2 := ⟨1, Nat.one_lt_two⟩

def inTenDays : Spec where
  taskPath := "app.tasks.report"
  kwargs := []
  queueName := "default"
  priority := 0
  scheduledAt := some (seconds 864000)
  maxRetries := 0
  retryBackoff := 1
  allowParallel := false
  timeoutSeconds := none

/-- Up to the commit of the promoter. -/
def storeAndPromote : List (Action 2) :=
  [.create creator inTenDays, .step creator, .step creator, .step creator,
    .tick 864000000000, .promote promoter 19, .step promoter, .step promoter,
    .step promoter, .step promoter, .step promoter]

theorem empty_begins : State.Begins ({} : State 2) where
  stage := fun _ => rfl
  staged := rfl
  stored := rfl
  promoted := rfl
  cancelled := rfl
  live := fun _ member => absurd member List.not_mem_nil
  ready := fun _ member => absurd member List.not_mem_nil

section

-- The run is evaluated, a statement at a time.
set_option maxRecDepth 4000

theorem staged_promotedOnce_inTenDays : ∃ before after,
    runWhile (act weekAhead) (fun _ _ => true) {} storeAndPromote =
        some before ∧
      act weekAhead before (.step promoter) = some after ∧
      after.promoted = [1] ∧ StagedOnce before (.step promoter) after := by
  refine ⟨_, _, rfl, rfl, rfl, ?_⟩
  refine staged_promotedOnce empty_begins ?_
    (show act weekAhead _ (.step promoter) = some _ from rfl)
  exact reaches_of_runWhile (fun _ _ _ => trivial)
    (show runWhile (act weekAhead) (fun _ _ => true) {} storeAndPromote =
      some _ from rfl)

end

end Sqlery.Staging
