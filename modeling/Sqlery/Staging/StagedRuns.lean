import Sqlery.Staging.Staged

/-!
# Runs of promotions

A promoted row reads as the row that `create_job` writes, whatever defaults were
read; and every action keeps the invariant.
-/

namespace Sqlery.Staging

open ReadCommitted Runs

/-! ## Rows -/

/-- The defaults of one moment are those of another, but for `created_at`. -/
theorem ormColumnDefaults_later (now start : Time) :
    ormColumnDefaults now = (ormColumnDefaults start).map fun entry =>
      if entry.1 = "created_at" then (entry.1, .time now) else entry := by
  simp [ormColumnDefaults]

theorem lookup_take {entries : List (String × Value)} {fields : Nat}
    {name : String} {value : Value}
    (found : (entries.take fields).lookup name = some value) :
    entries.lookup name = some value := by
  rw [← List.take_append_drop fields entries, List.lookup_append, found]
  rfl

theorem lookup_later {now : Time} {name : String}
    (different : name ≠ "created_at") (entries : List (String × Value)) :
    (entries.map fun entry => if entry.1 = "created_at"
      then (entry.1, .time now) else entry).lookup name =
      entries.lookup name := by
  induction entries with
  | nil => rfl
  | cons entry entries ih =>
      obtain ⟨key, value⟩ := entry
      rw [List.map_cons]
      by_cases isCreatedAt : key = "created_at"
      · subst isCreatedAt
        have unlike : (name == "created_at") = false := by simpa using different
        rw [if_pos rfl, List.lookup_cons, List.lookup_cons, unlike]
        exact ih
      · rw [if_neg isCreatedAt, List.lookup_cons, List.lookup_cons, ih]

/-- A staging row has a value for `created_at`, whatever the default. -/
theorem promotedRow_later (now start : Time) (fields : Nat) (spec : Spec)
    (due : Time) (id : JobId) (createdAt : Time) :
    promotedRow jobColumns ((ormColumnDefaults now).take fields) start
        (scheduledJob spec due id createdAt) =
      promotedRow jobColumns ((ormColumnDefaults start).take fields) start
        (scheduledJob spec due id createdAt) := by
  have same (column : Column) :
      promotionPart (unpackedValues spec due id createdAt)
          ((ormColumnDefaults now).take fields) column =
        promotionPart (unpackedValues spec due id createdAt)
          ((ormColumnDefaults start).take fields) column := by
    by_cases isCreatedAt : column.name = "created_at"
    · have given : (unpackedValues spec due id createdAt).lookup column.name =
          some (.time createdAt) := by
        rw [isCreatedAt]
        rfl
      rw [promotionPart, promotionPart, given]
    · rw [promotionPart, promotionPart, ormColumnDefaults_later now start,
        ← List.map_take, lookup_later isCreatedAt]
  simp only [promotedRow, stagedValues_scheduledJob, Option.bind_eq_bind,
    Option.bind_some, promotionInsertParts, same]

theorem promotedRow_of_read {defaults : List (String × Value)} {start : Time}
    (read : ReadDefaults defaults) {spec : Spec} {due : Time}
    (isDue : spec.scheduledAt = some due) (id : JobId) (createdAt : Time) :
    (promotedRow jobColumns defaults start
        (scheduledJob spec due id createdAt)).map Row.asRead =
      (directRow spec id createdAt start).map Row.asRead := by
  obtain ⟨now, fields, rfl⟩ := read
  rw [promotedRow_later]
  exact promotedRow_scheduledJob (fun _ _ found => lookup_take found) spec due
    isDue id createdAt

variable {n : Nat} {state : State n} {process : Fin n}

/-! ## Stages -/

section

variable {before after : Db} {stage : Stage}

theorem Picked.keep {start : Time} {picked : List ScheduledJob}
    (sound : Picked before start picked)
    (kept : ∀ row ∈ picked, row ∈ before.staged.rows →
      row ∈ after.staged.rows) :
    Picked after start picked where
  once := sound.once
  staged := fun row member => kept row member (sound.staged row member)
  due := sound.due

theorem StageSound.keep (sound : StageSound before stage)
    (kept : ∀ row ∈ stage.locked, row ∈ before.staged.rows →
      row ∈ after.staged.rows) : StageSound after stage := by
  cases stage with
  | preparing fields start picked => exact Picked.keep sound kept
  | promoting defaults start slot rest batch =>
      obtain ⟨picked, read, built⟩ := sound
      exact ⟨picked.keep kept, read, built⟩
  | _ => trivial

theorem locked_of_outside (outside : stage.inLock = false) :
    stage.locked = [] := by
  cases stage with
  | preparing fields start picked => cases outside
  | promoting defaults start slot rest batch => cases outside
  | _ => rfl

end

/-! ## Steps -/

theorem State.Sound.outside (sound : state.Sound) {other : Fin n}
    (holds : (state.stage process).inLock = true)
    (different : other ≠ process) :
    (state.stage other).inLock = false := by
  rw [Bool.eq_false_iff]
  intro theirs
  have mine := sound.advisory process holds
  rw [sound.advisory other theirs] at mine
  exact different (Option.some.inj mine)

theorem State.Sound.stored_of_staged (sound : state.Sound) {id : JobId}
    (member : id ∈ state.db.stagedIds) : id ∈ state.stored :=
  sound.places.symm.subset (List.mem_append_left _ member)

theorem State.Sound.next_unstaged (sound : state.Sound) :
    state.db.nextJob ∉ state.db.stagedIds := by
  intro member
  exact lt_irrefl _ (sound.below _ (sound.stored_of_staged member))

/-- The database changes, and no row is staged or taken out. -/
theorem State.Sound.beside (sound : state.Sound) {db : Db}
    (quiet : state.db.Quiet db) : State.Sound { state with db } where
  once := sound.once
  places := by
    show state.stored.Perm (db.stagedIds ++ (state.promoted ++ state.cancelled))
    rw [quiet.stagedIds]
    exact sound.places
  below := fun id member => lt_of_lt_of_le (sound.below id member) quiet.nextJob
  live := by
    intro job member
    refine quiet.apart sound.next_unstaged ((quiet.live job member).imp_left ?_)
    rintro ⟨old, isOld, same⟩
    exact same ▸ sound.live old isOld
  ready := by
    intro entry member
    refine quiet.apart sound.next_unstaged
      ((quiet.ready entry member).imp_left ?_)
    rintro ⟨old, isOld, same⟩
    exact same ▸ sound.ready old isOld
  packed := by
    intro row member
    have member : row ∈ db.staged.rows := member
    rw [quiet.staged] at member
    exact sound.packed row member
  stage := fun other => (sound.stage other).keep
    fun row _ member => by rw [quiet.staged]; exact member
  advisory := sound.advisory

theorem State.Sound.goTo (sound : state.Sound) {stage : Stage}
    (stands : StageSound state.db stage)
    (lock : stage.inLock = true → state.advisory = some process) :
    (state.goTo process stage).Sound where
  once := sound.once
  places := sound.places
  below := sound.below
  live := sound.live
  ready := sound.ready
  packed := sound.packed
  stage := by
    intro other
    by_cases isSelf : other = process
    · subst isSelf
      simpa [State.goTo] using stands
    · simpa [State.goTo, isSelf] using sound.stage other
  advisory := by
    intro other holds
    by_cases isSelf : other = process
    · subst isSelf
      simp only [State.goTo, Function.update_self] at holds
      exact lock holds
    · simp only [State.goTo, Function.update_of_ne isSelf] at holds
      exact sound.advisory other holds

theorem State.Sound.ends (sound : state.Sound) (promoted : Option Nat) :
    (state.goTo process (.ended promoted)).Sound := by
  refine sound.goTo trivial fun holds => ?_
  cases holds

/-- A call ends that has not changed the staging table. -/
theorem State.Sound.inserted (sound : state.Sound) {result : Option Db}
    (quiet : ∀ db, result = some db → state.db.Quiet db) :
    (state.inserted process result).Sound := by
  cases result with
  | none => exact sound.ends none
  | some db => exact (sound.beside (quiet db rfl)).ends none

/-- The advisory lock is taken, or given back. -/
theorem State.Sound.locks (sound : state.Sound) {stage : Stage}
    {advisory : Option (Fin n)} (stands : StageSound state.db stage)
    (mine : stage.inLock = true → advisory = some process)
    (others : ∀ other, other ≠ process →
      (state.stage other).inLock = true → advisory = some other) :
    State.Sound { state.goTo process stage with advisory } where
  once := sound.once
  places := sound.places
  below := sound.below
  live := sound.live
  ready := sound.ready
  packed := sound.packed
  stage := by
    intro other
    by_cases isSelf : other = process
    · subst isSelf
      simpa [State.goTo] using stands
    · simpa [State.goTo, isSelf] using sound.stage other
  advisory := by
    intro other holds
    by_cases isSelf : other = process
    · subst isSelf
      simp only [State.goTo, Function.update_self] at holds
      exact mine holds
    · simp only [State.goTo, Function.update_of_ne isSelf] at holds
      exact others other isSelf holds

/-! ## The staging table -/

/-- A job is staged under the next id. -/
theorem State.Sound.stores (sound : state.Sound) {row : ScheduledJob}
    (next : row.id = state.db.nextJob) (packed : Packed row) :
    State.Sound { state.goTo process (.ended none) with
      db := state.db.addStaged row
      stored := state.stored ++ [state.db.nextJob] } := by
  have fresh : row.id ∉ state.db.stagedIds := by
    rw [next]
    exact sound.next_unstaged
  have rows : (state.db.addStaged row).staged.rows =
      row :: state.db.staged.rows := rows_insert_of_fresh fresh
  have ids : (state.db.addStaged row).stagedIds =
      state.db.nextJob :: state.db.stagedIds := by
    rw [Db.stagedIds, rows, List.map_cons, next]
    rfl
  have more : state.db.nextJob < state.db.nextJob + 1 :=
    Int.lt_succ state.db.nextJob
  have apart {id : JobId} (apart : state.db.Apart id) :
      (state.db.addStaged row).Apart id := by
    refine ⟨lt_trans apart.1 more, ?_⟩
    rw [ids]
    intro member
    rcases List.mem_cons.mp member with rfl | member
    · exact lt_irrefl _ apart.1
    · exact apart.2 member
  refine {
    once := ?_
    places := ?_
    below := ?_
    live := fun job member => apart (sound.live job member)
    ready := fun entry member => apart (sound.ready entry member)
    packed := ?_
    stage := ?_
    advisory := ?_ }
  · refine List.nodup_append.mpr ⟨sound.once, List.nodup_singleton _, ?_⟩
    intro id member other isNext same
    rw [List.mem_singleton.mp isNext] at same
    rw [same] at member
    exact lt_irrefl _ (sound.below _ member)
  · show (state.stored ++ [state.db.nextJob]).Perm
      ((state.db.addStaged row).stagedIds ++
        (state.promoted ++ state.cancelled))
    rw [ids]
    exact (List.perm_append_singleton _ _).trans (sound.places.cons _)
  · intro id member
    rcases List.mem_append.mp member with member | member
    · exact lt_trans (sound.below id member) more
    · rw [List.mem_singleton.mp member]
      exact more
  · intro other member
    have member : other ∈ (state.db.addStaged row).staged.rows := member
    rw [rows] at member
    rcases List.mem_cons.mp member with rfl | member
    · exact packed
    · exact sound.packed other member
  · intro other
    have ended : (state.goTo process (.ended none)).Sound := sound.ends none
    refine (ended.stage other).keep fun old _ member => ?_
    show old ∈ (state.db.addStaged row).staged.rows
    rw [rows]
    exact List.mem_cons_of_mem _ member
  · have ended : (state.goTo process (.ended none)).Sound := sound.ends none
    exact ended.advisory

/-- `create_job` stages a job. -/
theorem State.Sound.staged (sound : state.Sound) {spec : Spec}
    {createdAt : Time} :
    (state.staged process (stageJob state.db spec createdAt)).Sound := by
  cases stored : stageJob state.db spec createdAt with
  | none => exact sound.ends none
  | some db =>
      obtain ⟨due, isDue, fits⟩ := Option.bind_eq_some_iff.mp stored
      simp only at fits
      split at fits
      · obtain rfl := Option.some.inj fits
        exact sound.stores rfl ⟨spec, due, isDue, rfl⟩
      · cases fits

/-- Rows are taken out of the staging table, and no other process has locked
one of them. -/
theorem State.Sound.taken (sound : state.Sound) {db : Db} {stage : Stage}
    {picked : List ScheduledJob} {promoted cancelled : List JobId}
    (once : (picked.map ScheduledJob.id).Nodup)
    (inTable : ∀ row ∈ picked, row ∈ state.db.staged.rows)
    (staged : db.staged = state.db.staged.retain fun row =>
      row.id ∉ picked.map ScheduledJob.id)
    (nextJob : db.nextJob = state.db.nextJob)
    (live : ∀ job ∈ db.live.rows, job ∈ state.db.live.rows ∨
      job.id ∈ picked.map ScheduledJob.id)
    (ready : ∀ entry ∈ db.ready.rows, entry ∈ state.db.ready.rows ∨
      entry.jobId ∈ picked.map ScheduledJob.id)
    (places : (picked.map ScheduledJob.id ++
      (state.promoted ++ state.cancelled)).Perm (promoted ++ cancelled))
    (stands : StageSound db stage)
    (lock : stage.inLock = true → state.advisory = some process)
    (others : ∀ other, other ≠ process → ∀ row ∈ (state.stage other).locked,
      row.id ∉ picked.map ScheduledJob.id) :
    State.Sound { state.goTo process stage with db, promoted, cancelled } := by
  have ids : state.db.stagedIds.Perm
      (db.stagedIds ++ picked.map ScheduledJob.id) := by
    rw [Db.stagedIds, Db.stagedIds, staged]
    exact keys_retain_perm once inTable
  have separate : ∀ id ∈ picked.map ScheduledJob.id, id ∉ db.stagedIds := by
    intro id isPicked member
    have all := (List.Perm.nodup_iff ids).mp state.db.staged.nodup
    exact (List.nodup_append.mp all).2.2 id member id isPicked rfl
  have subset {id : JobId} (member : id ∈ db.stagedIds) :
      id ∈ state.db.stagedIds :=
    ids.symm.subset (List.mem_append_left _ member)
  have apart {id : JobId} (known : state.db.Apart id ∨
      id ∈ picked.map ScheduledJob.id) : db.Apart id := by
    rcases known with ⟨below, unstaged⟩ | isPicked
    · exact ⟨by rw [nextJob]; exact below, fun member =>
        unstaged (subset member)⟩
    · refine ⟨?_, separate id isPicked⟩
      rw [nextJob]
      have member := ids.symm.subset (List.mem_append_right _ isPicked)
      exact sound.below id (sound.stored_of_staged member)
  refine {
    once := sound.once
    places := ?_
    below := ?_
    live := ?_
    ready := ?_
    packed := ?_
    stage := ?_
    advisory := ?_ }
  · show state.stored.Perm (db.stagedIds ++ (promoted ++ cancelled))
    have moved := sound.places.trans (ids.append_right _)
    rw [List.append_assoc] at moved
    exact moved.trans (places.append_left _)
  · intro id member
    rw [show ({ state.goTo process stage with
      db, promoted, cancelled } : State n).db = db from rfl, nextJob]
    exact sound.below id member
  · intro job member
    exact apart ((live job member).imp_left (sound.live job))
  · intro entry member
    exact apart ((ready entry member).imp_left (sound.ready entry))
  · intro row member
    have member : row ∈ db.staged.rows := member
    rw [staged] at member
    exact sound.packed row (List.mem_filter.mp member).1
  · intro other
    by_cases isSelf : other = process
    · subst isSelf
      simpa [State.goTo] using stands
    · have kept : StageSound db (state.stage other) := by
        refine (sound.stage other).keep fun row locked member => ?_
        rw [staged]
        exact List.mem_filter.mpr
          ⟨member, by simpa using others other isSelf row locked⟩
      simpa [State.goTo, isSelf] using kept
  · intro other holds
    by_cases isSelf : other = process
    · subst isSelf
      simp only [State.goTo, Function.update_self] at holds
      exact lock holds
    · simp only [State.goTo, Function.update_of_ne isSelf] at holds
      exact sound.advisory other holds

/-! ## Cancelled jobs -/

theorem not_locked {row : ScheduledJob}
    (free : lockedByOther state process row = false) {other : Fin n}
    (different : other ≠ process) :
    row.id ∉ (state.stage other).locked.map ScheduledJob.id := by
  have alone := List.any_eq_false.mp free other (List.mem_finRange other)
  simpa [different] using alone

theorem State.Sound.unstage (sound : state.Sound) {job : JobId} {next : State n}
    (taken : state.unstage process job = some next) : next.Sound := by
  unfold State.unstage at taken
  cases found : state.db.staged.get job with
  | none =>
      simp only [found, Option.some.injEq] at taken
      subst taken
      exact sound.ends none
  | some row =>
      simp only [found] at taken
      split at taken
      · cases taken
      · rename_i free
        obtain rfl := Option.some.inj taken
        have isJob : row.id = job := Table.key_of_get found
        have once : ([row].map ScheduledJob.id).Nodup := List.nodup_singleton _
        refine sound.taken once ?_ ?_ rfl
          (fun _ member => .inl member) (fun _ member => .inl member) ?_ trivial
          (fun holds => by cases holds) ?_
        · intro other member
          rw [List.mem_singleton.mp member]
          exact Table.mem_of_get found
        · simp only [List.map_cons, List.map_nil, List.mem_singleton, isJob]
          rfl
        · rw [List.map_cons, List.map_nil, isJob]
          refine List.perm_append_comm.trans ?_
          rw [List.append_assoc]
          exact .refl _
        · intro other different entry locked isRow
          have same : entry.id = row.id := by simpa using isRow
          refine not_locked (Bool.eq_false_iff.mpr free) different ?_
          rw [← same]
          exact List.mem_map_of_mem locked

/-! ## Promotions -/

/-- What is due is locked, when no one else has. -/
theorem picked_dueRows (start : Time) :
    Picked state.db start (dueRows state process start) where
  once := state.db.staged.nodup.sublist (List.filter_sublist.map _)
  staged := fun row member => (List.mem_filter.mp member).1
  due := by
    intro row member
    have due := (List.mem_filter.mp member).2
    rw [Bool.and_eq_true] at due
    exact due.1

/-- One more row is built. -/
theorem BatchSound.more {db after : Db} {defaults : List (String × Value)}
    {start : Time} {slot : Nat} {row : ScheduledJob} {rest : List ScheduledJob}
    {batch more : Batch}
    (sound : BatchSound db defaults start slot (row :: rest) batch)
    (promoted : promoteRow after defaults start slot row batch = some more) :
    BatchSound db defaults start slot rest more := by
  obtain ⟨picked, read, done, split, built, entries⟩ := sound
  obtain ⟨cells, isRow, made⟩ := Option.bind_eq_some_iff.mp promoted
  simp only at made
  split at made
  · cases made
  · obtain rfl := Option.some.inj made
    refine ⟨picked, read, done ++ [row], ?_, ?_, ?_⟩
    · rw [split, List.append_assoc]
      rfl
    · exact List.rel_append built (.cons ⟨rfl, rfl, isRow⟩ .nil)
    · rw [List.map_append, entries]
      rfl

theorem ids_of_built {defaults : List (String × Value)} {start : Time}
    {rows : List ScheduledJob} {jobs : List LiveJob}
    (built : List.Forall₂ (Built defaults start) rows jobs) :
    jobs.map LiveJob.id = rows.map ScheduledJob.id := by
  induction built with
  | nil => rfl
  | cons same _ ih => rw [List.map_cons, List.map_cons, ih, same.id]

theorem BatchSound.live_ids {db : Db} {defaults : List (String × Value)}
    {start : Time} {slot : Nat} {batch : Batch}
    (sound : BatchSound db defaults start slot [] batch) :
    batch.live.map LiveJob.id = batch.picked.map ScheduledJob.id := by
  obtain ⟨-, -, done, split, built, -⟩ := sound
  rw [split, List.append_nil]
  exact ids_of_built built

theorem BatchSound.ready_ids {db : Db} {defaults : List (String × Value)}
    {start : Time} {slot : Nat} {batch : Batch}
    (sound : BatchSound db defaults start slot [] batch) :
    batch.ready = batch.picked.map (promotedEntry slot) := by
  obtain ⟨-, -, done, split, -, entries⟩ := sound
  rw [split, List.append_nil, entries]

theorem State.Sound.promotes (sound : state.Sound)
    {defaults : List (String × Value)} {start : Time} {slot : Nat}
    {batch : Batch}
    (isAt : state.stage process = .promoting defaults start slot [] batch)
    (promoted : Option Nat) :
    State.Sound { state.goTo process (.releasing promoted) with
      db := state.db.promote batch
      promoted := state.promoted ++ batch.picked.map ScheduledJob.id } := by
  have stands : BatchSound state.db defaults start slot [] batch := by
    have stands := sound.stage process
    rw [isAt] at stands
    exact stands
  have inLock : (state.stage process).inLock = true := by
    rw [isAt]
    rfl
  refine sound.taken stands.picked.once stands.picked.staged rfl rfl ?_ ?_ ?_
    trivial (fun _ => sound.advisory process inLock) ?_
  · intro job member
    refine (mem_insertAll member).imp_right fun isLive => ?_
    rw [← stands.live_ids]
    exact List.mem_map_of_mem isLive
  · intro entry member
    refine (mem_insertAll member).imp_right fun isReady => ?_
    rw [stands.ready_ids] at isReady
    obtain ⟨row, isRow, rfl⟩ := List.mem_map.mp isReady
    exact (List.mem_map_of_mem isRow : row.id ∈ _)
  · rw [← List.append_assoc]
    exact List.perm_append_comm.append_right _
  · intro other different row locked
    rw [locked_of_outside (sound.outside inLock different)] at locked
    cases locked

/-! ## Actions -/

theorem State.Sound.advance {cfg : Config} (sound : state.Sound)
    {next : State n} (taken : state.advance cfg process = some next) :
    next.Sound := by
  have stands := sound.stage process
  have locked := sound.advisory process
  unfold State.advance at taken
  cases isAt : state.stage process with
  | ended promoted => simp [isAt] at taken
  | naming spec =>
      simp only [isAt, Option.some.injEq] at taken
      subst taken
      refine sound.goTo ?_ ?_
      · cases spec.name with
        | none => trivial
        | some name => trivial
      · cases spec.name with
        | none => exact fun holds => by cases holds
        | some name => exact fun holds => by cases holds
  | replacing spec conflicting =>
      simp only [isAt, Option.some.injEq] at taken
      subst taken
      exact (sound.beside (Db.quiet_discard state.db conflicting)).goTo trivial
        fun holds => by cases holds
  | storing spec =>
      simp only [isAt, Option.some.injEq] at taken
      subst taken
      exact sound.goTo trivial fun holds => by cases holds
  | inserting spec createdAt farFuture =>
      simp only [isAt, Option.some.injEq] at taken
      subst taken
      split
      · exact sound.staged
      · exact sound.inserted fun db inserted => Db.quiet_insertJob inserted
  | retrying failed scheduledAt =>
      simp only [isAt, Option.some.injEq] at taken
      subst taken
      split
      · exact sound.ends none
      · exact sound.goTo trivial fun holds => by cases holds
  | requeueing failed scheduledAt =>
      simp only [isAt, Option.some.injEq] at taken
      subst taken
      exact sound.inserted fun db requeued => Db.quiet_arequeueRetry requeued
  | acquiring fields =>
      simp only [isAt, Option.some.injEq] at taken
      subst taken
      split
      · exact sound.ends (some 0)
      · rename_i free
        refine sound.locks trivial (fun _ => rfl) fun other _ holds => ?_
        rw [sound.advisory other holds] at free
        simp at free
  | beginning fields =>
      rw [isAt] at locked
      simp only [isAt, Option.some.injEq] at taken
      subst taken
      exact sound.goTo trivial fun _ => locked rfl
  | picking fields start =>
      rw [isAt] at locked
      simp only [isAt, Option.some.injEq] at taken
      subst taken
      have picked : Picked state.db start (dueRows state process start) :=
        picked_dueRows start
      refine sound.goTo ?_ fun _ => locked rfl
      cases due : dueRows state process start with
      | nil => trivial
      | cons row rows =>
          rw [due] at picked
          exact picked
  | preparing fields start picked =>
      rw [isAt] at locked stands
      simp only [isAt, Option.some.injEq] at taken
      subst taken
      refine sound.goTo ?_ fun _ => locked rfl
      exact ⟨stands, ⟨state.db.clock, fields, rfl⟩, [], rfl, .nil, rfl⟩
  | promoting defaults start slot rest batch =>
      rw [isAt] at locked stands
      cases rest with
      | nil =>
          simp only [isAt, Option.some.injEq] at taken
          subst taken
          exact sound.promotes isAt _
      | cons row rest =>
          simp only [isAt, Option.some.injEq] at taken
          subst taken
          refine sound.goTo ?_ fun _ => locked rfl
          cases built : promoteRow state.db defaults start slot row batch with
          | none => trivial
          | some more => exact BatchSound.more stands built
  | releasing promoted =>
      rw [isAt] at locked
      simp only [isAt, Option.some.injEq] at taken
      subst taken
      refine sound.locks trivial (fun holds => by cases holds) ?_
      intro other different holds
      have mine := locked rfl
      rw [sound.advisory other holds] at mine
      exact absurd (Option.some.inj mine) different
  | cancelling job =>
      simp only [isAt, Option.some.injEq] at taken
      subst taken
      split
      · exact sound.goTo trivial fun holds => by cases holds
      · exact sound.ends none
  | unstaging job =>
      simp only [isAt] at taken
      exact sound.unstage taken

theorem State.Sound.raises (sound : state.Sound) {next : State n}
    (taken : state.raises process = some next) : next.Sound := by
  have locked := sound.advisory process
  have rollsBack (inLock : (state.stage process).inLock = true) :
      (state.goTo process (.releasing none)).Sound :=
    sound.goTo trivial fun _ => locked inLock
  unfold State.raises at taken
  cases isAt : state.stage process with
  | ended promoted => simp [isAt] at taken
  | beginning fields =>
      simp only [isAt, Option.some.injEq] at taken
      subst taken
      exact rollsBack (by rw [isAt]; rfl)
  | picking fields start =>
      simp only [isAt, Option.some.injEq] at taken
      subst taken
      exact rollsBack (by rw [isAt]; rfl)
  | preparing fields start picked =>
      simp only [isAt, Option.some.injEq] at taken
      subst taken
      exact rollsBack (by rw [isAt]; rfl)
  | promoting defaults start slot rest batch =>
      simp only [isAt, Option.some.injEq] at taken
      subst taken
      exact rollsBack (by rw [isAt]; rfl)
  | releasing promoted =>
      simp only [isAt, Option.some.injEq] at taken
      subst taken
      refine sound.locks trivial (fun holds => by cases holds) ?_
      intro other different holds
      have mine := locked (by rw [isAt]; rfl)
      rw [sound.advisory other holds] at mine
      exact absurd (Option.some.inj mine) different
  | _ =>
      simp only [isAt, Option.some.injEq] at taken
      subst taken
      exact sound.ends none

theorem State.Sound.crash (sound : state.Sound) :
    (state.crash process).Sound := by
  refine sound.locks trivial (fun holds => by cases holds) ?_
  intro other different holds
  rw [sound.advisory other holds]
  simpa using different

theorem State.Sound.act {cfg : Config} (sound : state.Sound) {action : Action n}
    {next : State n} (taken : act cfg state action = some next) :
    next.Sound := by
  have starts {process : Fin n} {stage : Stage}
      (taken : (if (state.stage process).isEnded then
        some (state.goTo process stage) else none) = some next)
      (stands : StageSound state.db stage) (outside : stage.inLock = false) :
      next.Sound := by
    split at taken
    · obtain rfl := Option.some.inj taken
      refine sound.goTo stands fun holds => ?_
      rw [outside] at holds
      cases holds
    · cases taken
  cases action with
  | create process spec => exact starts taken trivial rfl
  | retry process failed scheduledAt => exact starts taken trivial rfl
  | requeue process failed scheduledAt => exact starts taken trivial rfl
  | promote process fields => exact starts taken trivial rfl
  | cancel process job => exact starts taken trivial rfl
  | step process => exact sound.advance taken
  | fail process => exact sound.raises taken
  | crash process =>
      obtain rfl := Option.some.inj taken
      exact sound.crash
  | claim job =>
      obtain ⟨db, claimed, rfl⟩ := Option.map_eq_some_iff.mp taken
      exact sound.beside (Db.quiet_claim claimed)
  | finish job inPlace =>
      obtain rfl := Option.some.inj taken
      exact sound.beside (Db.quiet_finish state.db job inPlace)
  | rotate slot =>
      obtain rfl := Option.some.inj taken
      exact sound.beside
        (.of_subset rfl rfl (fun job member => ⟨job, member, rfl⟩)
        fun _ member => member)
  | tick elapsed =>
      obtain rfl := Option.some.inj taken
      exact sound.beside
        (.of_subset rfl rfl (fun job member => ⟨job, member, rfl⟩)
        fun _ member => member)

/-- No call is under way and nothing is staged. -/
structure State.Begins (state : State n) : Prop where
  stage : ∀ process, (state.stage process).isEnded = true
  staged : state.db.staged.rows = []
  stored : state.stored = []
  promoted : state.promoted = []
  cancelled : state.cancelled = []
  live : ∀ job ∈ state.db.live.rows, job.id < state.db.nextJob
  ready : ∀ entry ∈ state.db.ready.rows, entry.jobId < state.db.nextJob

theorem State.Begins.sound (begins : state.Begins) : state.Sound := by
  have none_ : state.db.stagedIds = [] := by
    rw [Db.stagedIds, begins.staged]
    rfl
  have ended (process : Fin n) : ∃ promoted,
    state.stage process = .ended promoted := by
    have isEnded := begins.stage process
    cases isAt : state.stage process with
    | ended promoted => exact ⟨promoted, rfl⟩
    | _ =>
        rw [isAt] at isEnded
        cases isEnded
  refine {
    once := ?_
    places := ?_
    below := ?_
    live := ?_
    ready := ?_
    packed := ?_
    stage := ?_
    advisory := ?_ }
  · rw [begins.stored]
    exact List.nodup_nil
  · rw [begins.stored, begins.promoted, begins.cancelled, none_]
    exact .refl _
  · rw [begins.stored]
    exact fun _ member => absurd member List.not_mem_nil
  · intro job member
    exact ⟨begins.live job member, by rw [none_]; exact List.not_mem_nil⟩
  · intro entry member
    exact ⟨begins.ready entry member, by rw [none_]; exact List.not_mem_nil⟩
  · rw [begins.staged]
    exact fun _ member => absurd member List.not_mem_nil
  · intro process
    obtain ⟨promoted, isAt⟩ := ended process
    rw [isAt]
    trivial
  · intro process holds
    obtain ⟨promoted, isAt⟩ := ended process
    rw [isAt] at holds
    cases holds

end Sqlery.Staging
