import Sqlery.Standalone.Opening

/-!
# Entries and new jobs

A job that gets its ready entry in a transaction is filed there; a new job is
inserted under an id nobody else has, and filed first.
-/

namespace Sqlery.Standalone

open ReadCommitted
open Setting (stable_and stable_fact)
open Script

section Entries

variable {cfg : Config} {call : Call} {record : Record} {txn : Txn}
variable {db : Db} {state : Loc} {fails : Db → Loc → Prop}

theorem slotForGeneration_mem (generation : Nat) :
    slotForGeneration generation ∈ slots := by
  have bound : generation % 3 < 3 := Nat.mod_lt _ (by omega)
  simp only [slotForGeneration, slots, List.mem_cons, List.not_mem_nil,
    or_false]
  omega

theorem writerSlot_spec :
    (backend cfg).Spec call (At cfg call record txn) (writerSlot cfg)
      (fun slot db state => slot ∈ slots ∧ At cfg call record txn db state)
      fails := by
  unfold writerSlot
  split
  · refine ask_spec at_stable (fun _ => stable_and stable_fact at_stable) ?_
    intro db state _ _ holds
    exact ⟨slotForGeneration_mem _, holds⟩
  · exact .pure at_stable fun _ _ _ _ holds => ⟨by simp [slots], holds⟩

theorem makes_insertReady {entries : List Ready}
    (slotted : ∀ entry ∈ entries, entry.slot ∈ slots) :
    Makes plain (writerLock cfg.dialect) (insertUnlessFound Db.ready cfg
      (fun entry => .ready entry.slot entry.jobId) .insertReady
      (fun entry => .foundReady entry.slot entry.jobId) entries) := by
  apply makes_insert
  · intro entry member
    simpa [plain] using slotted entry member
  · exact fun _ _ => rfl

theorem Inner.readyOf {jobs : List Job} {slot : Nat}
    (slotted : slot ∈ slots) :
    Inner cfg call (insertReadyStmt cfg
      (jobs.map fun job => readyValues job slot)) := by
  refine Inner.exec (makes_insertReady ?_)
  intro entry member
  obtain ⟨job, _, rfl⟩ := List.mem_map.mp member
  exact slotted

theorem Inner.runningAmong (jobs : List Job) (fresh : Bool) :
    Inner cfg call (runningAmong jobs fresh) := by
  unfold Standalone.runningAmong
  split
  · exact Inner.pure []
  · exact Inner.read _

theorem Inner.writeReady (jobs : List Job) (fresh : Bool) :
    Inner cfg call (writeReady cfg jobs fresh) := by
  unfold Standalone.writeReady
  refine Inner.bind (Inner.runningAmong jobs fresh) fun running => ?_
  dsimp only
  split
  · exact Inner.pure ()
  · intro record txn widens unfiled
    refine inside writerSlot_spec fun slot => .fact fun slotted => ?_
    exact Inner.readyOf slotted record txn widens unfiled

/-! ## A job that has its entry -/

theorem Settled.filing {stage : Stage} {writes : List Write} {job other : JobId}
    {filing : Write} (settled : Settled call stage db writes other)
    (owes : stage = .clean ∨ (stage = .owing job ∧ call.sweeps = false))
    (files : Files job filing) :
    Settled call (.filed job) db (writes ++ [filing]) other := by
  have filed : Filed (writes ++ [filing]) job :=
    ⟨writes, filing, [], rfl, files, by simp⟩
  rcases owes with rfl | ⟨rfl, quiet⟩
  · cases settled with
    | moves deleted => exact .moves (List.mem_append_left _ deleted)
    | leaves row member isKept notQueued =>
        exact .leaves row (List.mem_append_left _ member) isKept notQueued
    | gone absent => exact .gone absent
    | foreign target completes different =>
        exact .foreign target completes different
    | owing isOwing => cases isOwing
    | moving isMoving => cases isMoving
    | filed isFiled _ _ => cases isFiled
  · cases settled with
    | owing isOwing =>
        cases isOwing
        exact .filed rfl quiet filed
    | moves deleted => exact .moves (List.mem_append_left _ deleted)
    | leaves row member isKept notQueued =>
        exact .leaves row (List.mem_append_left _ member) isKept notQueued
    | gone absent => exact .gone absent
    | foreign target completes different =>
        exact .foreign target completes different
    | moving isMoving => cases isMoving
    | filed isFiled _ _ => cases isFiled

/-- The transaction has filed the job. -/
def FiledAt (cfg : Config) (call : Call) (record : Record) (txn : Txn)
    (job : JobId) (db : Db) (state : Loc) : Prop :=
  At cfg call record { txn with stage := .filed job } db state ∧
    Filed state.pending job

theorem filedAt_stable (job : JobId) :
    (backend cfg).Stable (FiledAt cfg call record txn job) :=
  stable_and at_stable fun _ _ _ _ _ _ holds => holds

theorem insertReady_files (job : Job) {slot : Nat} (slotted : slot ∈ slots)
    (widens : ∀ write, plain write = true → txn.kind write = true)
    (owes : txn.stage = .clean ∨
      (txn.stage = .owing job.id ∧ call.sweeps = false)) :
    (backend cfg).Spec call (At cfg call record txn)
      (insertReadyStmt cfg [readyValues job slot])
      (fun _ => FiledAt cfg call record txn job.id) fails := by
  refine .exec at_stable (fun _ => filedAt_stable _) ?_
  intro snapshot current state others effect _ _ _ _ _ here ran
  have isSlotted : ∀ entry ∈ [readyValues job slot], entry.slot ∈ slots := by
    intro entry member
    rw [List.mem_singleton] at member
    rw [member]
    exact slotted
  have plainly := makes_insertReady isSlotted _ _ _ _ ran
  obtain ⟨filing, isFiling, files⟩ : ∃ filing, effect.writes = [filing] ∧
      Files job.id filing := by
    simp only [insertUnlessFound] at ran
    split at ran
    · cases ran
    · cases ran
      simp only [List.map_cons, List.map_nil]
      split
      · exact ⟨_, rfl, .foundReady slot⟩
      · exact ⟨_, rfl, .ready _ rfl⟩
  have arePlain := plainly.1
  rw [plainly.2.2]
  rw [isFiling] at arePlain ⊢
  have isPlain : plain filing = true := arePlain filing (by simp)
  refine ⟨by simp [backend], ?_, ?_⟩
  · refine here.extend ?_ (fun _ isKind => isKind) ?_ ?_
      (fun _ member => Or.inl member) fun _ member => Or.inl member
    · refine here.lawful.extend
        { plain_additions here.lawful arePlain with
          settled := ?_, moved := ?_, inserted := ?_ } ?_ ?_ ?_
      · intro id owner now outcome member
        rw [List.mem_singleton] at member
        subst member
        cases isPlain
      · intro row member
        rw [List.mem_singleton] at member
        subst member
        cases isPlain
      · intro row member
        rw [List.mem_singleton] at member
        subst member
        cases isPlain
      · exact fun other settled => settled.filing owes files
      · intro other isMoving
        rcases owes with clean | ⟨owing, _⟩
        · cases clean.symm.trans isMoving
        · cases owing.symm.trans isMoving
      · intro other isFiled
        rcases owes with clean | ⟨owing, _⟩
        · cases clean.symm.trans isFiled
        · cases owing.symm.trans isFiled
    · intro write member
      rw [List.mem_singleton] at member
      exact widens write (member ▸ isPlain)
    · simp [creation_of_plain isPlain]
  · exact ⟨state.pending, filing, [], rfl, files, by simp⟩

theorem writeReady_new (job : Job)
    (widens : ∀ write, plain write = true → txn.kind write = true)
    (owes : txn.stage = .clean ∨
      (txn.stage = .owing job.id ∧ call.sweeps = false)) :
    (backend cfg).Spec call (At cfg call record txn)
      (writeReady cfg [job] true)
      (fun _ => FiledAt cfg call record txn job.id)
      (Recorded call record) := by
  have none : (backend cfg).Spec call (At cfg call record txn)
      (runningAmong [job] true)
      (fun running db state => running = [] ∧ At cfg call record txn db state)
      (Recorded call record) :=
    .pure at_stable fun _ _ _ _ holds => ⟨rfl, holds⟩
  unfold writeReady
  refine inside none fun running => .fact fun isNone => ?_
  subst isNone
  dsimp only
  refine inside writerSlot_spec fun slot => .fact fun slotted => ?_
  exact insertReady_files job slotted widens owes

/-- A job whose open attempt the transaction has closed is idle. -/
theorem idle_of_closed {job : JobId} {id : AttemptId} {now : Time}
    {outcome : Outcome} (inv : Inv db)
    (lawful : Lawful cfg.dialect call txn.stage db state)
    (noOpen : ∀ attempt, .insertAttempt attempt ∉ state.pending)
    (closed : .closeAttempt id job now outcome ∈ state.pending) :
    (after state.pending db).hasOpenAttempt job = false := by
  rw [hasOpenAttempt_eq_false]
  intro attempt member isOpen isJob
  obtain ⟨found, notClosed⟩ :=
    open_of_view noOpen (Table.get_of_mem member) isOpen
  obtain ⟨old, isOld, runs⟩ := lawful.closed id job now outcome closed
  obtain ⟨oldJob, oldOpen⟩ := runs_iff.mp runs
  have same : old = attempt := inv.single old (Table.mem_of_get isOld) attempt
    (Table.mem_of_get found) oldOpen isOpen (oldJob.trans isJob.symm)
  have isId : old.id = id := Table.key_of_get isOld
  apply notClosed
  rw [← same, isId]
  exact List.mem_filterMap.mpr ⟨_, closed, rfl⟩

/-- The job whose attempt was closed gets its entry. -/
theorem writeReady_released (job : Job) {id : AttemptId} {now : Time}
    {outcome : Outcome}
    (widens : ∀ write, plain write = true → txn.kind write = true)
    (noOpen : ∀ attempt, txn.kind (.insertAttempt attempt) = false)
    (owes : txn.stage = .clean ∨
      (txn.stage = .owing job.id ∧ call.sweeps = false))
    (closed : .closeAttempt id job.id now outcome ∈ txn.sure) :
    (backend cfg).Spec call (At cfg call record txn)
      (writeReady cfg [job])
      (fun _ => FiledAt cfg call record txn job.id)
      (Recorded call record) := by
  have none : (backend cfg).Spec call (At cfg call record txn)
      (runningAmong [job] false)
      (fun running db state => running = [] ∧ At cfg call record txn db state)
      (Recorded call record) := by
    refine ask_spec at_stable (fun _ => stable_and stable_fact at_stable) ?_
    intro db state inv _ here
    refine ⟨?_, here⟩
    have idle : (after state.pending db).hasOpenAttempt job.id = false := by
      refine idle_of_closed inv here.lawful ?_ (here.sure _ closed)
      intro attempt member
      have isKind := here.only _ member
      rw [noOpen] at isKind
      cases isKind
    simp [idle]
  unfold writeReady
  refine inside none fun running => .fact fun isNone => ?_
  subst isNone
  dsimp only
  refine inside writerSlot_spec fun slot => .fact fun slotted => ?_
  exact insertReady_files job slotted widens owes

end Entries

/-! ## New jobs -/

section Create

variable {cfg : Config} {call : Call} {record : Record} {txn : Txn}
variable {db : Db} {state : Loc} {fails : Db → Loc → Prop}

/-- The session has drawn the id and nobody has used it. -/
def Fresh (job : JobId) (db : Db) (state : Loc) : Prop :=
  .fresh job ∈ state.held ∧ Unused db job

theorem fresh_stable (job : JobId) : (backend cfg).Stable (Fresh job) := by
  apply stable_of
  · intro db mine theirs other stage _ _ guarded others _ apart holds
    exact ⟨holds.1, holds.2.kept others guarded apart holds.1⟩
  · intro db next mine same holds
    exact ⟨holds.1, holds.2.sameTables same⟩

theorem unused_next (inv : Inv db) :
    Unused (after [.nextJob] db) db.nextJob where
  live := by
    refine Table.get_eq_none_iff.mpr fun row member same => ?_
    have older := inv.liveIds row member
    rw [same] at older
    exact lt_irrefl _ older
  history := by
    intro row member same
    have older := inv.historyIds row member
    rw [same] at older
    exact lt_irrefl _ older
  attempts := by
    intro attempt member same
    have older := (inv.attemptIds attempt member).2
    rw [same] at older
    exact lt_irrefl _ older
  replaced := fun member => lt_irrefl _ (inv.replacedIds _ member)
  drawn := Int.lt_succ _

theorem generateJobId_spec (isPlain : txn.kind = plain) :
    (backend cfg).Spec call (At cfg call record txn) generateJobId
      (fun id db state => At cfg call record txn db state ∧
        Fresh id db state) fails := by
  refine .exec at_stable (fun id => stable_and at_stable (fresh_stable id)) ?_
  intro snapshot current state others effect _ inv _ _ _ here ran
  cases ran
  have drawn : ((backend cfg).sys.view current state).nextJob =
      current.nextJob := nextJob_after (here.noPlain isPlain rfl) current
  have moved : SameTables current (after [.nextJob] current) :=
    sameTables_after (by simp [isCounter]) current
  have later : At cfg call record txn (after [.nextJob] current) state :=
    { here with
      lawful := here.lawful.sameTables moved
      recorded := here.recorded.later moved.remembering }
  refine ⟨?_, ?_, ?_, ?_⟩
  · intro write member
    rw [List.mem_singleton] at member
    rw [member]
    rfl
  · refine later.extend ?_ (fun _ isKind => isKind) (by simp) (by simp)
      (fun _ member => Or.inl member) fun _ member => Or.inl member
    exact later.lawful.extendSame (plain_additions later.lawful (by simp))
      (by simp)
  · exact List.mem_append_right _ (List.mem_append_left _ (by simp))
  · simp only [drawn]
    exact unused_next inv

/-- What the call must have done before it creates a job. -/
structure MayCreate (call : Call) (record : Record) (spec : JobSpec) :
    Prop where
  creates : call.creates = true
  ahead : call.retries = true → ∀ parent, spec.parentJobId = some parent →
    parent ∈ record.ahead
  takenUp : call.takesUp = true → ∀ parent,
    spec.parentJobId = some parent →
    .remark (.takenUp parent) ∈ record.marks
  judged : call.sweeps = true → ∀ parent,
    spec.parentJobId = some parent →
    ∃ attempt, .remark (.judged parent attempt) ∈ record.marks

/-- A creation is paired with the look-up before it. -/
theorem paired_of_ahead {write : Write} {spec : JobSpec}
    (here : At cfg call record txn db state) (made : txn.made = [])
    (may : MayCreate call record spec)
    (isParent : parentOf write = spec.parentJobId) :
    call.retries = true → ∀ parent,
      createdFor parent (state.written ++ (state.pending ++ [write])) ≤
        lookedUp parent state.noted := by
  intro retries parent
  have nothing : createdFor parent state.pending = 0 :=
    createdFor_eq_zero (here.startsNothing made)
  rw [createdFor_append, createdFor_append, nothing, Nat.zero_add]
  by_cases same : spec.parentJobId = some parent
  · have one : createdFor parent [write] = 1 := by
      simp [createdFor, isParent, same]
    have ahead := here.recorded.ahead parent (may.ahead retries parent same)
    omega
  · have zero : createdFor parent [write] = 0 := by
      simp [createdFor, isParent, same]
    have paired := here.recorded.paired retries parent
    omega

/-- A sweep creates retries of the jobs it took up, -/
theorem takenUp_of_may {write : Write} {spec : JobSpec}
    (here : At cfg call record txn db state)
    (may : MayCreate call record spec)
    (isParent : parentOf write = spec.parentJobId) :
    call.takesUp = true → ∀ new ∈ [write], ∀ parent,
      parentOf new = some parent →
      .remark (.takenUp parent) ∈ state.noted := by
  intro takesUp new member parent isChild
  cases List.mem_singleton.mp member
  rw [isParent] at isChild
  exact here.recorded.marked _ (may.takenUp takesUp parent isChild)

/-- and the stale sweep of those it judged. -/
theorem swept_of_may {write : Write} {spec : JobSpec}
    (here : At cfg call record txn db state)
    (may : MayCreate call record spec)
    (isParent : sweptJob write = spec.parentJobId) :
    call.sweeps = true → ∀ new ∈ [write], ∀ parent,
      sweptJob new = some parent →
      ∃ attempt, .remark (.judged parent attempt) ∈ state.noted := by
  intro sweeps new member parent isChild
  cases List.mem_singleton.mp member
  rw [isParent] at isChild
  obtain ⟨attempt, marked⟩ := may.judged sweeps parent isChild
  exact ⟨attempt, here.recorded.marked _ marked⟩

/-- A job about to be inserted: it has its entry and a fresh id. -/
def NewJob (cfg : Config) (call : Call) (record : Record) (job : JobId)
    (db : Db) (state : Loc) : Prop :=
  FiledAt cfg call record {} job db state ∧ Fresh job db state

theorem newJob_stable (job : JobId) :
    (backend cfg).Stable (NewJob cfg call record job) :=
  stable_and (filedAt_stable job) (fresh_stable job)

/-- Statements that drop no entry leave a new job as it is. -/
theorem newJob_spec {β : Type} {kind : Write → Bool} {locks : List Lock}
    {statement : Stmt β} {job : JobId} (makes : Makes kind locks statement)
    (isPlain : ∀ write, kind write = true → plain write = true)
    (keeps : ∀ write, kind write = true → ¬Drops job write) :
    (backend cfg).Spec call (NewJob cfg call record job)
      (exec statement : Sql β) (fun _ => NewJob cfg call record job)
      fails := by
  refine .exec (newJob_stable job) (fun _ => newJob_stable job) ?_
  rintro snapshot current state others effect _ _ _ _ _
    ⟨⟨here, filed⟩, fresh⟩ ran
  obtain ⟨kinds, _, none⟩ := makes _ _ _ _ ran
  rw [none]
  have arePlain : ∀ write ∈ effect.writes, plain write = true :=
    fun write member => isPlain write (kinds write member)
  have nothing : effect.writes.filter creation = [] := by
    rw [List.filter_eq_nil_iff]
    intro write member
    simp [creation_of_plain (arePlain write member)]
  have kept : ∀ write ∈ effect.writes, ¬Drops job write :=
    fun write member => keeps write (kinds write member)
  refine ⟨by simp [backend], ⟨?_, filed.append kept⟩,
    List.mem_append_left _ fresh.1, fresh.2⟩
  refine here.extend ?_ (fun _ isKind => isKind) arePlain (by simp [nothing])
    (fun _ member => Or.inl member) fun _ member => Or.inl member
  refine here.lawful.extendSame (plain_additions here.lawful arePlain) ?_
  intro other isFiled
  cases isFiled
  exact kept

/-- The transaction has made one job or one staged row. -/
def creating : Write → Bool
  | .insertLive _ => true
  | .insertStaged _ => true
  | write => plain write

theorem creating_of_plain {write : Write} (isPlain : plain write = true) :
    creating write = true := by
  cases write <;> first | rfl | exact isPlain

theorem insertLive_spec (job : Job) (queued : job.status = .queued)
    (may : MayCreate call record job.toJobSpec) :
    (backend cfg).Spec call (NewJob cfg call record job.id)
      (insertLive cfg job)
      (fun _ => At cfg call record
        { kind := creating
          stage := .filed job.id
          made := [.insertLive job] }) fails := by
  refine .exec (newJob_stable _) (fun _ => at_stable) ?_
  rintro snapshot current state others effect _ _ _ _ _
    ⟨⟨here, filed⟩, fresh⟩ ran
  cases ran
  have keeps : ∀ write ∈ [Write.insertLive job], ¬Drops job.id write := by
    intro write member drops
    rw [List.mem_singleton] at member
    subst member
    cases drops
  refine ⟨by simp [backend], ?_⟩
  refine here.extend ?_ (fun _ => creating_of_plain) (by simp [creating])
    rfl (by simp) (by simp)
  refine here.lawful.extendSame
    { inserted := ?_, insertedOnce := ?_
      takenUp := takenUp_of_may here may rfl
      swept := swept_of_may here may rfl
      paired := paired_of_ahead here rfl may rfl } ?_
  · intro row member
    rw [List.mem_singleton, Write.insertLive.injEq] at member
    subst member
    exact ⟨fresh.2, queued, may.creates, rfl, filed.append keeps⟩
  · intro first second isFirst isSecond
    rw [List.mem_singleton, Write.insertLive.injEq] at isFirst
    rcases List.mem_append.mp isSecond with old | new
    · cases here.only _ old
    · rw [List.mem_singleton, Write.insertLive.injEq] at new
      exact isFirst.trans new.symm
  · intro other isFiled
    cases isFiled
    exact keeps

theorem insertStaged_spec {row : Staged}
    (may : MayCreate call record row.spec) :
    (backend cfg).Spec call (Between cfg call record)
      (insertStaged cfg row)
      (fun _ => At cfg call record
        { kind := creating, made := [.insertStaged row] }) fails := by
  refine .exec at_stable (fun _ => at_stable) ?_
  intro snapshot current state others effect _ _ _ _ _ here ran
  cases ran
  refine ⟨by simp [backend], ?_⟩
  refine here.extend ?_ (fun _ => creating_of_plain) (by simp [creating])
    rfl (by simp) (by simp)
  refine here.lawful.extendSame
    { takenUp := takenUp_of_may here may rfl
      swept := swept_of_may here may rfl
      paired := paired_of_ahead here rfl may rfl }
    fun job isFiled => by cases isFiled

end Create

end Sqlery.Standalone
