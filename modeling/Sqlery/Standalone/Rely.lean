import Sqlery.Standalone.Lawful

/-!
# What a transaction may rely on

While a transaction holds the lock of a row, the lawful commits of the others
leave the row alone; holding the lock of a job's live row also keeps them from
opening an attempt of the job or writing its history.  Hence a lawful
transaction stays lawful until it commits.
-/

namespace Sqlery.Standalone

open ReadCommitted

/-! ## Commits of the others -/

section Commit

variable {dialect : Dialect} {call other : Call} {stage their : Stage}
variable {db : Db} {mine theirs : Loc}

theorem untouched (guarded : Guarded (schema dialect) theirs)
    (apart : Apart (schema dialect) mine.held theirs.held) {lock : Lock}
    (owned : Owns dialect mine lock) :
    ∀ write ∈ theirs.pending, write.rowLock ≠ some lock := by
  intro write member isLock
  have held : lockOf dialect lock ∈ theirs.held :=
    guarded write member _ (by simp [schema, isLock])
  have free := apart _ owned _ held
  simp [schema] at free

theorem notOwned (apart : Apart (schema dialect) mine.held theirs.held)
    {lock : Lock} (owned : Owns dialect mine lock) :
    ¬Owns dialect theirs lock := by
  intro held
  have free := apart _ owned _ held
  simp [schema] at free

theorem live_kept (guarded : Guarded (schema dialect) theirs)
    (apart : Apart (schema dialect) mine.held theirs.held) {job : JobId}
    (owned : Owns dialect mine (.live job)) :
    (after theirs.pending db).live.get job = db.live.get job :=
  live_after_untouched (untouched guarded apart owned)

theorem attempt_kept (guarded : Guarded (schema dialect) theirs)
    (apart : Apart (schema dialect) mine.held theirs.held) {id : AttemptId}
    (owned : Owns dialect mine (.attempt id)) :
    (after theirs.pending db).attempts.get id = db.attempts.get id :=
  attempts_after_untouched (untouched guarded apart owned)

theorem idle_kept (lawful : Lawful dialect other their db theirs)
    (apart : Apart (schema dialect) mine.held theirs.held) {job : JobId}
    (owned : Owns dialect mine (.live job))
    (idle : db.hasOpenAttempt job = false) :
    (after theirs.pending db).hasOpenAttempt job = false := by
  rw [hasOpenAttempt_eq_false] at idle ⊢
  intro attempt member isOpen same
  rcases open_after_cases member isOpen with old | new
  · exact idle attempt old isOpen same
  · have held := (lawful.opened attempt new).1
    rw [same] at held
    exact notOwned apart owned held

theorem newestOpening_kept (lawful : Lawful dialect other their db theirs)
    (apart : Apart (schema dialect) mine.held theirs.held) {job : JobId}
    (owned : Owns dialect mine (.live job)) :
    (after theirs.pending db).newestOpening job = db.newestOpening job := by
  apply newestOpening_after
  rintro attempt inserted rfl
  exact notOwned apart owned (lawful.opened attempt inserted).1

theorem Claimable.kept {attempt : Attempt} (claimable : Claimable db attempt)
    (lawful : Lawful dialect other their db theirs)
    (guarded : Guarded (schema dialect) theirs)
    (apart : Apart (schema dialect) mine.held theirs.held)
    (ownsRow : Owns dialect mine (.live attempt.jobId))
    (ownsAttempt : Owns dialect mine (.attempt attempt.id)) :
    Claimable (after theirs.pending db) attempt where
  row := by
    rw [live_kept guarded apart ownsRow]
    exact claimable.row
  idle := idle_kept lawful apart ownsRow claimable.idle
  absent := by
    rw [attempt_kept guarded apart ownsAttempt]
    exact claimable.absent
  drawn := lt_of_lt_of_le claimable.drawn (counters_after _ _).2

theorem Unused.kept {job : JobId} (unused : Unused db job)
    (lawful : Lawful dialect other their db theirs)
    (guarded : Guarded (schema dialect) theirs)
    (apart : Apart (schema dialect) mine.held theirs.held)
    (fresh : .fresh job ∈ mine.held) :
    Unused (after theirs.pending db) job where
  live := by
    apply live_after_none unused.live
    rintro new member rfl
    have held : .fresh new.id ∈ theirs.held :=
      guarded _ member _ (by simp [schema, Write.freshLock])
    have free := apart _ fresh _ held
    simp [schema] at free
  history := by
    intro row member same
    rcases history_after_cases member with old | new
    · exact unused.history row old same
    · obtain ⟨_, ⟨live, found, _⟩, _⟩ := lawful.moved row new
      rw [same, unused.live] at found
      cases found
  attempts := by
    intro attempt member same
    obtain ⟨old, origin, sameJob, _⟩ :=
      attempts_after_cases (Table.get_of_mem member)
    rcases origin with isOld | ⟨inserted, _⟩
    · exact unused.attempts old (Table.mem_of_get isOld) (sameJob ▸ same)
    · obtain ⟨row, found, _⟩ := (lawful.opened old inserted).2.2.row
      rw [← sameJob, same, unused.live] at found
      cases found
  replaced := by
    intro member
    rcases replaced_after_mem.mp member with old | new
    · exact unused.replaced old
    · exact (lawful.discarded job new).2 unused.live
  drawn := lt_of_lt_of_le unused.drawn (counters_after _ _).1

theorem owns_of_guarded (guarded : Guarded (schema dialect) mine)
    {write : Write} (member : write ∈ mine.pending) {lock : Lock}
    (isLock : write.rowLock = some lock) : Owns dialect mine lock :=
  guarded write member _ (by simp [schema, isLock])

theorem Settled.kept {job : JobId}
    (settled : Settled call stage db mine.pending job)
    (known : ∃ attempt ∈ db.attempts.rows, attempt.jobId = job)
    (lawful : Lawful dialect other their db theirs) :
    Settled call stage (after theirs.pending db) mine.pending job := by
  cases settled with
  | moves deleted => exact .moves deleted
  | leaves row member same notQueued => exact .leaves row member same notQueued
  | gone absent =>
      obtain ⟨attempt, member, isJob⟩ := known
      refine .gone (live_after_none absent ?_)
      intro new inserted same
      exact (lawful.inserted new inserted).1.attempts attempt member
        (isJob.trans same.symm)
  | foreign target completes different =>
      exact .foreign target completes different
  | owing isOwing => exact .owing isOwing
  | moving isMoving => exact .moving isMoving
  | filed isFiled quiet filed => exact .filed isFiled quiet filed

theorem Lawful.kept (lawful : Lawful dialect call stage db mine)
    (own : Guarded (schema dialect) mine)
    (others : Lawful dialect other their db theirs)
    (guarded : Guarded (schema dialect) theirs)
    (apart : Apart (schema dialect) mine.held theirs.held) :
    Lawful dialect call stage (after theirs.pending db) mine where
  opened := by
    intro attempt member
    obtain ⟨owned, isOpen, claimable⟩ := lawful.opened attempt member
    exact ⟨owned, isOpen, claimable.kept others guarded apart owned
      (owns_of_guarded own member rfl)⟩
  openedBy := lawful.openedBy
  openedOnce := lawful.openedOnce
  closed := by
    intro id job now outcome member
    rw [attempt_kept guarded apart (owns_of_guarded own member rfl)]
    exact lawful.closed id job now outcome member
  closedOnce := lawful.closedOnce
  settled := by
    intro id job now outcome member
    obtain ⟨attempt, found, runs⟩ := lawful.closed id job now outcome member
    exact (lawful.settled id job now outcome member).kept
      ⟨attempt, Table.mem_of_get found, (runs_iff.mp runs).1⟩ others
  moved := by
    intro row member
    obtain ⟨owned, ⟨live, found, isMoved⟩, finished⟩ := lawful.moved row member
    have isJob : live.id = row.id := Table.key_of_get found
    refine ⟨owned, ⟨live, ?_, ?_⟩, finished⟩
    · rw [live_kept guarded apart owned]
      exact found
    · refine isMoved.later (remembering_after _ db) ?_
      exact newestOpening_kept others apart (isJob ▸ owned)
  movedOnce := lawful.movedOnce
  deleted := lawful.deleted
  succeeded := by
    intro row member isSuccess
    cases lawful.succeeded row member isSuccess with
    | settles live found status =>
        refine .settles live ?_ status
        rw [live_kept guarded apart (lawful.moved row member).1]
        exact found
    | unfenced isUnfenced => exact .unfenced isUnfenced
    | fenced output version handle owner now outcome isCall closing =>
        exact .fenced output version handle owner now outcome isCall closing
  discarded := by
    intro job member
    rw [live_kept guarded apart (owns_of_guarded own member rfl)]
    exact lawful.discarded job member
  inserted := by
    intro row member
    obtain ⟨unused, rest⟩ := lawful.inserted row member
    refine ⟨unused.kept others guarded apart ?_, rest⟩
    exact own _ member _ (by simp [schema, Write.freshLock])
  insertedOnce := lawful.insertedOnce
  updated := by
    intro row member
    rw [live_kept guarded apart (owns_of_guarded own member rfl)]
    exact lawful.updated row member
  slotted := lawful.slotted
  swept := lawful.swept
  takenUp := lawful.takenUp
  paired := lawful.paired

end Commit

/-! ## Writes that take effect at once -/

/-- The tables are the same; the counters may have moved on. -/
structure SameTables (db next : Db) : Prop where
  live : next.live = db.live
  history : next.history = db.history
  attempts : next.attempts = db.attempts
  ready : next.ready = db.ready
  blocked : next.blocked = db.blocked
  staged : next.staged = db.staged
  replaced : next.replaced = db.replaced
  versions : next.versions = db.versions
  nextJob : db.nextJob ≤ next.nextJob
  nextAttempt : db.nextAttempt ≤ next.nextAttempt

theorem SameTables.refl (db : Db) : SameTables db db :=
  ⟨rfl, rfl, rfl, rfl, rfl, rfl, rfl, rfl, le_refl _, le_refl _⟩

theorem SameTables.trans {first second third : Db}
    (left : SameTables first second) (right : SameTables second third) :
    SameTables first third where
  live := right.live.trans left.live
  history := right.history.trans left.history
  attempts := right.attempts.trans left.attempts
  ready := right.ready.trans left.ready
  blocked := right.blocked.trans left.blocked
  staged := right.staged.trans left.staged
  replaced := right.replaced.trans left.replaced
  versions := right.versions.trans left.versions
  nextJob := left.nextJob.trans right.nextJob
  nextAttempt := left.nextAttempt.trans right.nextAttempt

theorem SameTables.remembering {db next : Db} (same : SameTables db next) :
    Remembering db next where
  versions := fun _ member => same.versions ▸ member
  openings := fun attempt member => ⟨attempt, same.attempts ▸ member, rfl⟩

theorem SameTables.newestOpening {db next : Db} (same : SameTables db next)
    (job : JobId) : next.newestOpening job = db.newestOpening job := by
  rw [Db.newestOpening, same.attempts]
  rfl

/-- A counter or the clock. -/
def isCounter : Write → Bool
  | .tick _ => true
  | .nextJob => true
  | .nextAttempt => true
  | .nextGeneration => true
  | _ => false

theorem sameTables_apply {write : Write} (counter : isCounter write = true)
    (db : Db) : SameTables db (write.apply db) := by
  have grows := counters_apply write db
  cases write <;> first
    | exact ⟨rfl, rfl, rfl, rfl, rfl, rfl, rfl, rfl, grows.1, grows.2⟩
    | cases counter

theorem sameTables_after {writes : List Write}
    (counters : ∀ write ∈ writes, isCounter write = true) (db : Db) :
    SameTables db (after writes db) := by
  induction writes generalizing db with
  | nil => exact .refl db
  | cons write writes ih =>
      refine (sameTables_apply (counters write (by simp)) db).trans ?_
      exact ih (fun later member =>
        counters later (List.mem_cons_of_mem _ member)) _

theorem Inv.sameTables {db next : Db} (inv : Inv db)
    (same : SameTables db next) : Inv next where
  single := by
    rw [same.attempts]
    exact inv.single
  attemptIds := by
    rw [same.attempts]
    intro attempt member
    obtain ⟨drawn, known⟩ := inv.attemptIds attempt member
    exact ⟨lt_of_lt_of_le drawn same.nextAttempt,
      lt_of_lt_of_le known same.nextJob⟩
  liveIds := by
    rw [same.live]
    exact fun row member => lt_of_lt_of_le (inv.liveIds row member)
      same.nextJob
  historyIds := by
    rw [same.history]
    exact fun row member => lt_of_lt_of_le (inv.historyIds row member)
      same.nextJob
  replacedIds := by
    rw [same.replaced]
    exact fun job member => lt_of_lt_of_le (inv.replacedIds job member)
      same.nextJob
  apart := by
    rw [same.history, same.live]
    exact inv.apart
  once := by
    rw [same.history]
    exact inv.once
  slotted := by
    rw [same.ready]
    exact inv.slotted
  versioned := by
    rw [Versioned, same.live, same.versions]
    exact inv.versioned

theorem Claimable.sameTables {db next : Db} {attempt : Attempt}
    (claimable : Claimable db attempt) (same : SameTables db next) :
    Claimable next attempt where
  row := by
    rw [same.live]
    exact claimable.row
  idle := by
    rw [Db.hasOpenAttempt, same.attempts]
    exact claimable.idle
  absent := by
    rw [same.attempts]
    exact claimable.absent
  drawn := lt_of_lt_of_le claimable.drawn same.nextAttempt

theorem Unused.sameTables {db next : Db} {job : JobId}
    (unused : Unused db job) (same : SameTables db next) :
    Unused next job where
  live := by
    rw [same.live]
    exact unused.live
  history := by
    rw [same.history]
    exact unused.history
  attempts := by
    rw [same.attempts]
    exact unused.attempts
  replaced := by
    rw [same.replaced]
    exact unused.replaced
  drawn := lt_of_lt_of_le unused.drawn same.nextJob

theorem Lawful.sameTables {dialect : Dialect} {call : Call} {stage : Stage}
    {db next : Db} {state : Loc} (lawful : Lawful dialect call stage db state)
    (same : SameTables db next) : Lawful dialect call stage next state where
  opened := by
    intro attempt member
    obtain ⟨owned, isOpen, claimable⟩ := lawful.opened attempt member
    exact ⟨owned, isOpen, claimable.sameTables same⟩
  openedBy := lawful.openedBy
  openedOnce := lawful.openedOnce
  closed := by
    rw [same.attempts]
    exact lawful.closed
  closedOnce := lawful.closedOnce
  settled := by
    intro id job now outcome member
    cases lawful.settled id job now outcome member with
    | moves deleted => exact .moves deleted
    | leaves row member isJob notQueued =>
        exact .leaves row member isJob notQueued
    | gone absent => exact .gone (same.live ▸ absent)
    | foreign target completes different =>
        exact .foreign target completes different
    | owing isOwing => exact .owing isOwing
    | moving isMoving => exact .moving isMoving
    | filed isFiled quiet filed => exact .filed isFiled quiet filed
  moved := by
    intro row member
    obtain ⟨owned, ⟨live, found, isMoved⟩, finished⟩ := lawful.moved row member
    refine ⟨owned, ⟨live, same.live ▸ found, ?_⟩, finished⟩
    exact isMoved.later same.remembering (same.newestOpening _)
  movedOnce := lawful.movedOnce
  deleted := lawful.deleted
  succeeded := by
    intro row member isSuccess
    cases lawful.succeeded row member isSuccess with
    | settles live found status =>
        exact .settles live (same.live ▸ found) status
    | unfenced isUnfenced => exact .unfenced isUnfenced
    | fenced output version handle owner now outcome isCall closing =>
        exact .fenced output version handle owner now outcome isCall closing
  discarded := by
    rw [same.live]
    exact lawful.discarded
  inserted := by
    intro row member
    obtain ⟨unused, rest⟩ := lawful.inserted row member
    exact ⟨unused.sameTables same, rest⟩
  insertedOnce := lawful.insertedOnce
  updated := by
    rw [same.live]
    exact lawful.updated
  slotted := lawful.slotted
  swept := lawful.swept
  takenUp := lawful.takenUp
  paired := lawful.paired

/-! ## The setting -/

theorem isCounter_of_isAmbient {write : Write}
    (ambient : isAmbient write = true) : isCounter write = true := by
  cases write <;> first | rfl | cases ambient

/-- What a remark says was true when it was made. -/
structure Noted (db : Db) (remarks : List Write) : Prop where
  noRetry : ∀ job, .remark (.noRetry job) ∈ remarks →
    db.latestRetry job = none
  oneLookUp : ∀ job, lookedUp job remarks ≤ 1
  judged : ∀ job id, .remark (.judged job id) ∈ remarks →
    ∃ attempt, db.attempts.get id = some attempt ∧ attempt.runs job = true

/-- The backend, with the promise that its transactions are lawful. -/
def backend (cfg : Config) : Setting Db Write Lock Call Return where
  sys := system cfg
  inv := Inv
  promise call := {
    commits := fun db state => ∃ stage, stage.complete = true ∧
      Lawful cfg.dialect call stage db state
    instant := fun _ _ writes => ∀ write ∈ writes, isCounter write = true
    notes := fun db _ remarks => Noted db remarks }
  commit_inv := by
    rintro call db state inv _ ⟨stage, complete, lawful⟩
    exact lawful.inv complete inv
  instant_inv := by
    intro call db state writes inv counters
    exact inv.sameTables (sameTables_after counters db)
  ambient_inv := by
    intro write db inv ambient
    exact inv.sameTables
      (sameTables_apply (isCounter_of_isAmbient ambient) db)

/-- An assertion that survives a lawful commit of another session and a moving
counter survives whatever the others do. -/
theorem stable_of {cfg : Config} {assertion : Db → Loc → Prop}
    (commits : ∀ db mine theirs other stage, Inv db →
      Guarded (schema cfg.dialect) mine →
      Guarded (schema cfg.dialect) theirs →
      Lawful cfg.dialect other stage db theirs → stage.complete = true →
      Apart (schema cfg.dialect) mine.held theirs.held →
      assertion db mine → assertion (after theirs.pending db) mine)
    (counts : ∀ db next mine, SameTables db next → assertion db mine →
      assertion next mine) :
    (backend cfg).Stable assertion := by
  intro first second state env inv guarded holds
  induction env with
  | refl => exact holds
  | commit _ good others promised apart ih =>
      obtain ⟨stage, complete, lawful⟩ := promised
      exact commits _ _ _ _ stage good guarded others lawful complete apart ih
  | instant _ _ promised _ ih =>
      exact counts _ _ _ (sameTables_after promised _) ih
  | ambient _ _ isAmbient ih =>
      exact counts _ _ _
        (sameTables_apply (isCounter_of_isAmbient isAmbient) _) ih

/-- A fact that every lawful commit keeps, and every moving counter, lasts. -/
theorem lasting_of {cfg : Config} {fact : Db → Prop}
    (commits : ∀ db theirs other stage, Inv db →
      Lawful cfg.dialect other stage db theirs → stage.complete = true →
      fact db → fact (after theirs.pending db))
    (counts : ∀ db next, SameTables db next → fact db → fact next) :
    (backend cfg).Lasting fact where
  commits := by
    rintro call db state inv _ ⟨stage, complete, lawful⟩ holds
    exact commits db state call stage inv lawful complete holds
  instant := by
    intro call db state writes _ counters holds
    exact counts _ _ (sameTables_after counters db) holds
  ambient := by
    intro write db _ ambient holds
    exact counts _ _
      (sameTables_apply (isCounter_of_isAmbient ambient) db) holds

theorem lasting_stable {cfg : Config} {fact : Db → Prop}
    (lasting : (backend cfg).Lasting fact) :
    (backend cfg).Stable fun db _ => fact db :=
  fun _ _ _ env _ _ holds => lasting.env env holds

theorem lawful_stable (cfg : Config) (call : Call) (stage : Stage) :
    (backend cfg).Stable (Lawful cfg.dialect call stage) :=
  stable_of
    (fun _ _ _ _ _ _ own guarded others _ apart lawful =>
      lawful.kept own others guarded apart)
    fun _ _ _ same lawful => lawful.sameTables same

end Sqlery.Standalone
