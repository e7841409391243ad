import Mathlib.Data.List.Perm.Basic
import Sqlery.Staging.Machine
import Sqlery.Staging.RoundTrip

/-!
# Where staged jobs are

An id that has been staged is in the staging table, or promoted, or cancelled,
and nowhere twice; while it is in the staging table it is in no other.  What a
promoter has locked stays in the table until its commit, and what it has built
is the rows of what it has locked.
-/

namespace Sqlery.Staging

open ReadCommitted

/-! ## Tables -/

section

variable {K V : Type} [DecidableEq K] {key : V → K} {table : Table key}
variable {rows : List V} {row : V}

theorem mem_insertAll (member : row ∈ (Db.insertAll table rows).rows) :
    row ∈ table.rows ∨ row ∈ rows := by
  induction rows generalizing table with
  | nil => exact .inl member
  | cons first rows ih =>
      rcases ih (show row ∈ (Db.insertAll (table.insert first) rows).rows from
        member) with inserted | later
      · rcases Table.mem_insert_iff.mp inserted with ⟨rfl, -⟩ | old
        · exact .inr List.mem_cons_self
        · exact .inl old
      · exact .inr (List.mem_cons_of_mem _ later)

theorem mem_insertAll_of_mem (member : row ∈ table.rows) :
    row ∈ (Db.insertAll table rows).rows := by
  induction rows generalizing table with
  | nil => exact member
  | cons first rows ih =>
      show row ∈ (Db.insertAll (table.insert first) rows).rows
      exact ih (Table.mem_insert_iff.mpr (.inr member))

/-- Rows with keys of their own are all inserted. -/
theorem mem_insertAll_of_fresh (once : (rows.map key).Nodup)
    (fresh : ∀ row ∈ rows, table.get (key row) = none) (member : row ∈ rows) :
    row ∈ (Db.insertAll table rows).rows := by
  induction rows generalizing table with
  | nil => cases member
  | cons first rows ih =>
      rw [List.map_cons, List.nodup_cons] at once
      show row ∈ (Db.insertAll (table.insert first) rows).rows
      rcases List.mem_cons.mp member with rfl | later
      · refine mem_insertAll_of_mem ?_
        exact Table.mem_insert_iff.mpr
          (.inl ⟨rfl, fresh row List.mem_cons_self⟩)
      · refine ih once.2 (fun other isRow => ?_) later
        rw [Table.get_insert_of_ne]
        · exact fresh other (List.mem_cons_of_mem _ isRow)
        · intro same
          exact once.1 (same ▸ List.mem_map_of_mem isRow)

theorem rows_insert_of_fresh (fresh : key row ∉ table.rows.map key) :
    (table.insert row).rows = row :: table.rows := by
  unfold Table.insert
  rw [dif_pos fresh]

/-- The keys of what is taken out and of what stays. -/
theorem keys_retain_perm {picked : List V} (once : (picked.map key).Nodup)
    (inTable : ∀ row ∈ picked, row ∈ table.rows) :
    (table.rows.map key).Perm
      (((table.retain fun row => key row ∉ picked.map key).rows.map key) ++
        picked.map key) := by
  rw [List.perm_ext_iff_of_nodup table.nodup]
  · intro name
    simp only [List.mem_append]
    constructor
    · intro member
      by_cases isPicked : name ∈ picked.map key
      · exact .inr isPicked
      · obtain ⟨row, isRow, rfl⟩ := List.mem_map.mp member
        exact .inl (List.mem_map_of_mem
          (List.mem_filter.mpr ⟨isRow, by simpa using isPicked⟩))
    · rintro (member | member)
      · obtain ⟨row, isRow, rfl⟩ := List.mem_map.mp member
        exact List.mem_map_of_mem (List.mem_filter.mp isRow).1
      · obtain ⟨row, isPicked, rfl⟩ := List.mem_map.mp member
        exact List.mem_map_of_mem (inTable row isPicked)
  · rw [List.nodup_append]
    refine ⟨(table.retain _).nodup, once, ?_⟩
    intro name kept other isPicked same
    subst same
    obtain ⟨row, isRow, rfl⟩ := List.mem_map.mp kept
    have absent := (List.mem_filter.mp isRow).2
    simp only [decide_eq_true_eq] at absent
    exact absent isPicked

end

/-! ## What is built -/

/-- A staging row as `create_job` packs it. -/
def Packed (row : ScheduledJob) : Prop :=
  ∃ spec due, spec.scheduledAt = some due ∧
    row = scheduledJob spec due row.id row.createdAt

/-- The live row of a staging row. -/
structure Built (defaults : List (String × Value)) (start : Time)
    (row : ScheduledJob) (job : LiveJob) : Prop where
  id : job.id = row.id
  createdAt : job.createdAt = row.createdAt
  row : promotedRow jobColumns defaults start row = some job.row

def ReadDefaults (defaults : List (String × Value)) : Prop :=
  ∃ now fields, defaults = (ormColumnDefaults now).take fields

/-- What a promoter has locked. -/
structure Picked (db : Db) (start : Time) (picked : List ScheduledJob) :
    Prop where
  once : (picked.map ScheduledJob.id).Nodup
  staged : ∀ row ∈ picked, row ∈ db.staged.rows
  due : ∀ row ∈ picked, isDue start row = true

/-- The batch is that of the rows before `rest`. -/
structure BatchSound (db : Db) (defaults : List (String × Value)) (start : Time)
    (slot : Nat) (rest : List ScheduledJob) (batch : Batch) : Prop where
  picked : Picked db start batch.picked
  read : ReadDefaults defaults
  built : ∃ done, batch.picked = done ++ rest ∧
    List.Forall₂ (Built defaults start) done batch.live ∧
      batch.ready = done.map (promotedEntry slot)

def StageSound (db : Db) : Stage → Prop
  | .preparing _ start picked => Picked db start picked
  | .promoting defaults start slot rest batch =>
      BatchSound db defaults start slot rest batch
  | _ => True

/-! ## The invariant -/

/-- The ids in the staging table. -/
def Db.stagedIds (db : Db) : List JobId := db.staged.rows.map ScheduledJob.id

/-- The id has been given to a job that is not staged. -/
def Db.Apart (db : Db) (id : JobId) : Prop :=
  id < db.nextJob ∧ id ∉ db.stagedIds

structure State.Sound {n : Nat} (state : State n) : Prop where
  once : state.stored.Nodup
  places : state.stored.Perm
    (state.db.stagedIds ++ (state.promoted ++ state.cancelled))
  below : ∀ id ∈ state.stored, id < state.db.nextJob
  live : ∀ job ∈ state.db.live.rows, state.db.Apart job.id
  ready : ∀ entry ∈ state.db.ready.rows, state.db.Apart entry.jobId
  packed : ∀ row ∈ state.db.staged.rows, Packed row
  stage : ∀ process, StageSound state.db (state.stage process)
  advisory : ∀ process, (state.stage process).inLock = true →
    state.advisory = some process

/-- Nothing is staged or taken out of the staging table, and a job that is new
has a new id. -/
structure Db.Quiet (before after : Db) : Prop where
  staged : after.staged = before.staged
  nextJob : before.nextJob ≤ after.nextJob
  live : ∀ job ∈ after.live.rows, (∃ old ∈ before.live.rows, old.id = job.id) ∨
    (job.id = before.nextJob ∧ before.nextJob < after.nextJob)
  ready : ∀ entry ∈ after.ready.rows,
    (∃ old ∈ before.ready.rows, old.jobId = entry.jobId) ∨
      (entry.jobId = before.nextJob ∧ before.nextJob < after.nextJob)

section

variable {before after : Db}

theorem Db.Quiet.refl (db : Db) : db.Quiet db where
  staged := rfl
  nextJob := le_rfl
  live := fun job member => .inl ⟨job, member, rfl⟩
  ready := fun entry member => .inl ⟨entry, member, rfl⟩

theorem Db.Quiet.stagedIds (quiet : before.Quiet after) :
    after.stagedIds = before.stagedIds := by
  rw [Db.stagedIds, quiet.staged, Db.stagedIds]

/-- Ids that are old or the next one stay apart from what is staged. -/
theorem Db.Quiet.apart (quiet : before.Quiet after)
    (next : before.nextJob ∉ before.stagedIds) {id : JobId}
    (known : before.Apart id ∨
      (id = before.nextJob ∧ before.nextJob < after.nextJob)) :
    after.Apart id := by
  rw [Db.Apart, quiet.stagedIds]
  rcases known with ⟨below, unstaged⟩ | ⟨rfl, more⟩
  · exact ⟨lt_of_lt_of_le below quiet.nextJob, unstaged⟩
  · exact ⟨more, next⟩

/-- Live jobs and entries go, or jobs stay with another status. -/
theorem Db.Quiet.of_subset (staged : after.staged = before.staged)
    (nextJob : after.nextJob = before.nextJob)
    (live : ∀ job ∈ after.live.rows, ∃ old ∈ before.live.rows, old.id = job.id)
    (ready : ∀ entry ∈ after.ready.rows, entry ∈ before.ready.rows) :
    before.Quiet after where
  staged := staged
  nextJob := nextJob.ge
  live := fun job member => .inl (live job member)
  ready := fun entry member => .inl ⟨entry, ready entry member, rfl⟩

theorem Db.quiet_discard (db : Db) (conflicting : List (Time × JobId)) :
    db.Quiet (db.discard conflicting) :=
  .of_subset rfl rfl
    (fun job member => ⟨job, (List.mem_filter.mp member).1, rfl⟩)
    fun _ member => (List.mem_filter.mp member).1

theorem Db.quiet_insertJob {db after : Db} {spec : Spec} {createdAt : Time}
    (inserted : insertJob db spec createdAt = some after) : db.Quiet after := by
  obtain ⟨row, -, rfl⟩ := Option.map_eq_some_iff.mp inserted
  have more : db.nextJob < db.nextJob + 1 := Int.lt_succ db.nextJob
  refine ⟨rfl, more.le, ?_, ?_⟩
  · intro job member
    rcases Table.mem_insert_iff.mp member with ⟨rfl, -⟩ | old
    · exact .inr ⟨rfl, more⟩
    · exact .inl ⟨job, old, rfl⟩
  · intro entry member
    rcases Table.mem_insert_iff.mp member with ⟨rfl, -⟩ | old
    · exact .inr ⟨rfl, more⟩
    · exact .inl ⟨entry, old, rfl⟩

theorem Db.quiet_arequeueRetry {db after : Db} {failed : FailedJob}
    {scheduledAt : Time}
    (requeued : arequeueRetry db failed scheduledAt = some after) :
    db.Quiet after := by
  obtain ⟨inserted, found, rfl⟩ := Option.map_eq_some_iff.mp requeued
  have quiet := Db.quiet_insertJob found
  refine ⟨quiet.staged, quiet.nextJob, ?_, ?_⟩
  · intro job member
    exact quiet.live job (List.mem_filter.mp member).1
  · intro entry member
    exact quiet.ready entry (List.mem_filter.mp member).1

theorem Db.quiet_claim {db after : Db} {id : JobId}
    (claimed : db.claim id = some after) : db.Quiet after := by
  simp only [Db.claim] at claimed
  split at claimed
  · obtain rfl := Option.some.inj claimed
    exact .of_subset rfl rfl (fun job member => ⟨job, member, rfl⟩)
      fun _ member => (List.mem_filter.mp member).1
  · cases claimed

/-- Rows are replaced by rows of the same ids. -/
theorem ids_of_set {table : Table LiveJob.key} {rows : List LiveJob}
    {job : LiveJob} (member : job ∈ (rows.foldl Table.set table).rows) :
    ∃ old ∈ table.rows, old.id = job.id := by
  have ids : ∀ (table : Table LiveJob.key) (rows : List LiveJob),
      (rows.foldl Table.set table).rows.map LiveJob.key =
        table.rows.map LiveJob.key := by
    intro table rows
    induction rows generalizing table with
    | nil => rfl
    | cons first rows ih =>
        rw [List.foldl_cons, ih, Table.keys_set]
  have isKey : job.key ∈ table.rows.map LiveJob.key := by
    rw [← ids table rows]
    exact List.mem_map_of_mem member
  obtain ⟨old, isOld, sameKey⟩ := List.mem_map.mp isKey
  exact ⟨old, isOld, congrArg Prod.snd sameKey⟩

theorem Db.quiet_finish (db : Db) (id : JobId) (inPlace : Bool) :
    db.Quiet (db.finish id inPlace) := by
  unfold Db.finish
  simp only
  split
  · refine .of_subset rfl rfl (fun job member => ?_)
      fun _ member => (List.mem_filter.mp member).1
    exact ids_of_set member
  · exact .of_subset rfl rfl
      (fun job member => ⟨job, (List.mem_filter.mp member).1, rfl⟩)
      fun _ member => (List.mem_filter.mp member).1

end

end Sqlery.Staging
