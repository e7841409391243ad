import Sqlery.Standalone.Rely

/-!
# Specifications of the statements

How each kind of statement extends a lawful transaction.  `At` is the assertion
the proofs carry: the transaction is lawful, its writes are of a given kind,
and the session's record says what the call has done before.
-/

namespace Sqlery.Standalone

open ReadCommitted
open Setting (stable_and stable_exists stable_fact)
open Script

/-! ## Extending a lawful transaction -/

/-- What is asked of the writes a statement adds.  A statement makes one kind
of write, so most fields hold for want of such a write. -/
structure Additions (dialect : Dialect) (call : Call) (stage : Stage)
    (db : Db) (state : Loc) (writes : List Write) (locks : List Lock) :
    Prop where
  opened : ∀ attempt, .insertAttempt attempt ∈ writes →
    Owns dialect (state.extend writes locks) (.live attempt.jobId) ∧
      attempt.isOpen = true ∧ Claimable db attempt := by simp
  openedBy : ∀ attempt, .insertAttempt attempt ∈ writes →
    call.opens = true := by simp
  openedOnce : ∀ first second, .insertAttempt first ∈ writes →
    .insertAttempt second ∈ state.pending ++ writes → first = second := by simp
  closed : ∀ id job now outcome, .closeAttempt id job now outcome ∈ writes →
    ∃ attempt, db.attempts.get id = some attempt ∧
      attempt.runs job = true := by simp
  closedOnce : (writes.filterMap closedId).Nodup ∧
    ∀ id ∈ state.pending.filterMap closedId,
      id ∉ writes.filterMap closedId := by
    simp [List.filterMap_cons, closedId]
  settled : ∀ id job now outcome, .closeAttempt id job now outcome ∈ writes →
    Settled call stage db (state.pending ++ writes) job := by simp
  moved : ∀ row, .insertHistory row ∈ writes →
    Owns dialect (state.extend writes locks) (.live row.id) ∧
      (∃ live, db.live.get row.id = some live ∧
        MovedRow call db live row) ∧
      stage = .moving row.id := by simp
  movedOnce : ∀ first second, .insertHistory first ∈ writes →
    .insertHistory second ∈ state.pending ++ writes →
    first.id = second.id → first = second := by simp
  deleted : ∀ job, .deleteLive job ∈ writes →
    ∃ row, .insertHistory row ∈ state.pending ∧ row.id = job := by simp
  succeeded : ∀ row, .insertHistory row ∈ writes → row.status = .success →
    Succeeds call db (state.pending ++ writes) row.id := by simp
  discarded : ∀ job, .discardLive job ∈ writes →
    call.creates = true ∧ db.live.get job ≠ none := by simp
  inserted : ∀ row, .insertLive row ∈ writes →
    Unused db row.id ∧ row.status = .queued ∧ call.creates = true ∧
      stage = .filed row.id ∧ Filed (state.pending ++ writes) row.id := by simp
  insertedOnce : ∀ first second, .insertLive first ∈ writes →
    .insertLive second ∈ state.pending ++ writes → first = second := by simp
  updated : ∀ row, .setLive row ∈ writes →
    (∃ live, db.live.get row.id = some live ∧ SameJob live row) ∧
      row.status ≠ .success ∧
      (row.status = .queued → call.requeues = true) := by simp
  slotted : ∀ entry, .insertReady entry ∈ writes →
    entry.slot ∈ slots := by simp
  swept : call.sweeps = true → ∀ write ∈ writes, ∀ job,
    sweptJob write = some job →
    ∃ attempt, .remark (.judged job attempt) ∈ state.noted := by
    simp [sweptJob, parentOf]
  takenUp : call.takesUp = true → ∀ write ∈ writes, ∀ parent,
    parentOf write = some parent →
    .remark (.takenUp parent) ∈ state.noted := by simp [parentOf]
  paired : call.retries = true → ∀ parent,
    createdFor parent (state.written ++ (state.pending ++ writes)) ≤
      lookedUp parent state.noted

theorem Settled.mono {call : Call} {stage : Stage} {db : Db}
    {first second : List Write} {job : JobId}
    (settled : Settled call stage db first job)
    (grows : ∀ write ∈ first, write ∈ second)
    (files : Filed first job → Filed second job) :
    Settled call stage db second job := by
  cases settled with
  | moves deleted => exact .moves (grows _ deleted)
  | leaves row member same notQueued =>
      exact .leaves row (grows _ member) same notQueued
  | gone absent => exact .gone absent
  | foreign target completes different =>
      exact .foreign target completes different
  | owing isOwing => exact .owing isOwing
  | moving isMoving => exact .moving isMoving
  | filed isFiled quiet filed => exact .filed isFiled quiet (files filed)

theorem Succeeds.mono {call : Call} {db : Db} {first second : List Write}
    {job : JobId} (succeeds : Succeeds call db first job)
    (grows : ∀ write ∈ first, write ∈ second) :
    Succeeds call db second job := by
  cases succeeds with
  | settles row found status => exact .settles row found status
  | unfenced isUnfenced => exact .unfenced isUnfenced
  | fenced output version handle owner now outcome isCall closing =>
      exact .fenced output version handle owner now outcome isCall
        (grows _ closing)

theorem Filed.append {first second : List Write} {job : JobId}
    (filed : Filed first job) (keeps : ∀ write ∈ second, ¬Drops job write) :
    Filed (first ++ second) job := by
  obtain ⟨earlier, filing, later, rfl, files, kept⟩ := filed
  refine ⟨earlier, filing, later ++ second, by simp, files, ?_⟩
  intro write member
  rcases List.mem_append.mp member with inLater | inSecond
  · exact kept write inLater
  · exact keeps write inSecond

section Extend

variable {dialect : Dialect} {call : Call} {stage next : Stage} {db : Db}
variable {state : Loc} {writes : List Write} {locks : List Lock}

/-- The stage may change from `stage` to `next`, as long as what the old
writes are waiting for is kept. -/
theorem Lawful.extend (lawful : Lawful dialect call stage db state)
    (additions : Additions dialect call next db state writes locks)
    (settles : ∀ job, Settled call stage db state.pending job →
      Settled call next db (state.pending ++ writes) job)
    (halfMoved : ∀ job, stage = .moving job →
      .deleteLive job ∈ writes ∨ next = .moving job)
    (filed : ∀ job, stage = .filed job → Filed state.pending job →
      next = .filed job ∧ Filed (state.pending ++ writes) job) :
    Lawful dialect call next db (state.extend writes locks) where
  opened := by
    intro attempt member
    rcases List.mem_append.mp member with old | new
    · obtain ⟨owned, isOpen, claimable⟩ := lawful.opened attempt old
      exact ⟨List.mem_append_left _ owned, isOpen, claimable⟩
    · exact additions.opened attempt new
  openedBy := by
    intro attempt member
    rcases List.mem_append.mp member with old | new
    · exact lawful.openedBy attempt old
    · exact additions.openedBy attempt new
  openedOnce := by
    intro first second firstMember secondMember
    rcases List.mem_append.mp firstMember with firstOld | firstNew
    · rcases List.mem_append.mp secondMember with secondOld | secondNew
      · exact lawful.openedOnce first second firstOld secondOld
      · exact (additions.openedOnce second first secondNew firstMember).symm
    · exact additions.openedOnce first second firstNew secondMember
  closed := by
    intro id job now outcome member
    rcases List.mem_append.mp member with old | new
    · exact lawful.closed id job now outcome old
    · exact additions.closed id job now outcome new
  closedOnce := by
    obtain ⟨once, different⟩ := additions.closedOnce
    simp only [Local.extend, List.filterMap_append]
    exact List.nodup_append'.mpr ⟨lawful.closedOnce, once, different⟩
  settled := by
    intro id job now outcome member
    rcases List.mem_append.mp member with old | new
    · exact settles job (lawful.settled id job now outcome old)
    · exact additions.settled id job now outcome new
  moved := by
    intro row member
    rcases List.mem_append.mp member with old | new
    · obtain ⟨owned, live, deleted | moving⟩ := lawful.moved row old
      · exact ⟨List.mem_append_left _ owned, live,
          Or.inl (List.mem_append_left _ deleted)⟩
      · refine ⟨List.mem_append_left _ owned, live, ?_⟩
        exact (halfMoved row.id moving).imp
          (fun deleted => List.mem_append_right _ deleted) id
    · obtain ⟨owned, live, moving⟩ := additions.moved row new
      exact ⟨owned, live, Or.inr moving⟩
  movedOnce := by
    intro first second firstMember secondMember same
    rcases List.mem_append.mp firstMember with firstOld | firstNew
    · rcases List.mem_append.mp secondMember with secondOld | secondNew
      · exact lawful.movedOnce first second firstOld secondOld same
      · exact (additions.movedOnce second first secondNew firstMember
          same.symm).symm
    · exact additions.movedOnce first second firstNew secondMember same
  deleted := by
    intro job member
    rcases List.mem_append.mp member with old | new
    · obtain ⟨row, inserted, same⟩ := lawful.deleted job old
      exact ⟨row, List.mem_append_left _ inserted, same⟩
    · obtain ⟨row, inserted, same⟩ := additions.deleted job new
      exact ⟨row, List.mem_append_left _ inserted, same⟩
  succeeded := by
    intro row member isSuccess
    rcases List.mem_append.mp member with old | new
    · exact (lawful.succeeded row old isSuccess).mono fun write isOld =>
        List.mem_append_left _ isOld
    · exact additions.succeeded row new isSuccess
  discarded := by
    intro job member
    rcases List.mem_append.mp member with old | new
    · exact lawful.discarded job old
    · exact additions.discarded job new
  inserted := by
    intro row member
    rcases List.mem_append.mp member with old | new
    · obtain ⟨unused, queued, creates, isFiled, isFiling⟩ :=
        lawful.inserted row old
      exact ⟨unused, queued, creates, filed row.id isFiled isFiling⟩
    · exact additions.inserted row new
  insertedOnce := by
    intro first second firstMember secondMember
    rcases List.mem_append.mp firstMember with firstOld | firstNew
    · rcases List.mem_append.mp secondMember with secondOld | secondNew
      · exact lawful.insertedOnce first second firstOld secondOld
      · exact (additions.insertedOnce second first secondNew
          firstMember).symm
    · exact additions.insertedOnce first second firstNew secondMember
  updated := by
    intro row member
    rcases List.mem_append.mp member with old | new
    · exact lawful.updated row old
    · exact additions.updated row new
  slotted := by
    intro entry member
    rcases List.mem_append.mp member with old | new
    · exact lawful.slotted entry old
    · exact additions.slotted entry new
  swept := by
    intro sweeps write member
    rcases List.mem_append.mp member with old | new
    · exact lawful.swept sweeps write old
    · exact additions.swept sweeps write new
  takenUp := by
    intro takesUp write member
    rcases List.mem_append.mp member with old | new
    · exact lawful.takenUp takesUp write old
    · exact additions.takenUp takesUp write new
  paired := additions.paired

/-- The stage stays. -/
theorem Lawful.extendSame (lawful : Lawful dialect call stage db state)
    (additions : Additions dialect call stage db state writes locks)
    (keeps : ∀ job, stage = .filed job →
      ∀ write ∈ writes, ¬Drops job write) :
    Lawful dialect call stage db (state.extend writes locks) := by
  have appendFiled : ∀ job, stage = .filed job → Filed state.pending job →
      Filed (state.pending ++ writes) job :=
    fun job isFiled filed => filed.append (keeps job isFiled)
  refine lawful.extend additions ?_ (fun _ moving => Or.inr moving)
    fun job isFiled filed => ⟨isFiled, appendFiled job isFiled filed⟩
  intro job settled
  cases settled with
  | filed isFiled quiet filed =>
      exact .filed isFiled quiet (appendFiled job isFiled filed)
  | moves deleted => exact .moves (List.mem_append_left _ deleted)
  | leaves row member same notQueued =>
      exact .leaves row (List.mem_append_left _ member) same notQueued
  | gone absent => exact .gone absent
  | foreign target completes different =>
      exact .foreign target completes different
  | owing isOwing => exact .owing isOwing
  | moving isMoving => exact .moving isMoving

end Extend

/-! ## The assertions -/

/-- Writes to the tables no invariant speaks of. -/
def plain : Write → Bool
  | .insertReady entry => entry.slot ∈ slots
  | .setReady _ => true
  | .deleteReady _ _ => true
  | .foundReady _ _ => true
  | .insertBlocked _ => true
  | .deleteBlocked _ _ => true
  | .foundBlocked _ _ => true
  | .deleteStaged _ => true
  | .setTask _ => true
  | .setWorker _ => true
  | _ => false

/-- What is known of a call's past: the attempts and jobs it has committed,
remarks it has left, jobs it has looked up and not yet retried, and rows and
attempts it has read. -/
structure Record where
  wrote : List Write := []
  marks : List Write := []
  ahead : List JobId := []
  rows : List Job := []
  attempts : List Attempt := []

/-- What is known of a transaction: the kind of its writes, its stage, the
attempts and jobs it starts, and some of its writes and locks. -/
structure Txn where
  kind : Write → Bool := plain
  stage : Stage := .clean
  made : List Write := []
  sure : List Write := []
  locks : List Lock := []

/-- What holds of the past whatever happens to the transaction. -/
structure Recorded (call : Call) (record : Record) (db : Db) (state : Loc) :
    Prop where
  wrote : state.written.filter creation = record.wrote
  marked : ∀ mark ∈ record.marks, mark ∈ state.noted
  ahead : ∀ parent ∈ record.ahead,
    createdFor parent state.written < lookedUp parent state.noted
  paired : call.retries = true → ∀ parent,
    createdFor parent state.written ≤ lookedUp parent state.noted
  rows : ∀ row ∈ record.rows, row ∈ db.versions
  attempts : ∀ attempt ∈ record.attempts, ∃ later ∈ db.attempts.rows,
    asOpened later = asOpened attempt

structure At (cfg : Config) (call : Call) (record : Record) (txn : Txn)
    (db : Db) (state : Loc) : Prop where
  lawful : Lawful cfg.dialect call txn.stage db state
  only : ∀ write ∈ state.pending, txn.kind write = true
  made : state.pending.filter creation = txn.made
  sure : ∀ write ∈ txn.sure, write ∈ state.pending
  locks : ∀ lock ∈ txn.locks, lock ∈ state.held
  recorded : Recorded call record db state

/-- Between transactions: nothing is pending that a rollback would undo. -/
abbrev Between (cfg : Config) (call : Call) (record : Record) :
    Db → Loc → Prop :=
  At cfg call record {}

section Assertions

variable {cfg : Config} {call : Call} {record : Record} {txn : Txn}
variable {db : Db} {state : Loc}

theorem Recorded.later (holds : Recorded call record db state) {next : Db}
    (remembers : Remembering db next) : Recorded call record next state where
  wrote := holds.wrote
  marked := holds.marked
  ahead := holds.ahead
  paired := holds.paired
  rows := fun row member => remembers.versions row (holds.rows row member)
  attempts := by
    intro attempt member
    obtain ⟨later, isLater, same⟩ := holds.attempts attempt member
    obtain ⟨last, isLast, still⟩ := remembers.openings later isLater
    exact ⟨last, isLast, still.trans same⟩

theorem recorded_stable : (backend cfg).Stable (Recorded call record) :=
  stable_of
    (fun _ _ _ _ _ _ _ _ _ _ _ holds =>
      holds.later (remembering_after _ _))
    fun _ _ _ same holds => holds.later same.remembering

/-- A transaction that has only written more, or started anew. -/
theorem Recorded.still (holds : Recorded call record db state) {next : Loc}
    (wrote : next.written = state.written)
    (noted : next.noted = state.noted) : Recorded call record db next where
  wrote := wrote ▸ holds.wrote
  marked := noted ▸ holds.marked
  ahead := wrote ▸ noted ▸ holds.ahead
  paired := wrote ▸ noted ▸ holds.paired
  rows := holds.rows
  attempts := holds.attempts

theorem at_stable : (backend cfg).Stable (At cfg call record txn) :=
  stable_of
    (fun _ _ _ _ _ _ own guarded others _ apart holds =>
      { holds with
        lawful := holds.lawful.kept own others guarded apart
        recorded := holds.recorded.later (remembering_after _ _) })
    fun _ _ _ same holds =>
      { holds with
        lawful := holds.lawful.sameTables same
        recorded := holds.recorded.later same.remembering }

/-- Less is known: of a wider kind of writes, of fewer writes and locks. -/
theorem At.mono {wider : Txn} (holds : At cfg call record txn db state)
    (kind : ∀ write, txn.kind write = true → wider.kind write = true)
    (stage : wider.stage = txn.stage) (made : wider.made = txn.made)
    (sure : ∀ write ∈ wider.sure, write ∈ txn.sure)
    (locks : ∀ lock ∈ wider.locks, lock ∈ txn.locks) :
    At cfg call record wider db state where
  lawful := stage ▸ holds.lawful
  only := fun write member => kind write (holds.only write member)
  made := made ▸ holds.made
  sure := fun write member => holds.sure write (sure write member)
  locks := fun lock member => holds.locks lock (locks lock member)
  recorded := holds.recorded

theorem lookedUp_note (parent : JobId) (noted remarks : List Write) :
    lookedUp parent noted ≤ lookedUp parent (noted ++ remarks) := by
  simp [lookedUp]

theorem Recorded.note (holds : Recorded call record db state)
    (remarks : List Write) :
    Recorded call record db (state.note remarks) where
  wrote := holds.wrote
  marked := fun mark member =>
    List.mem_append_left _ (holds.marked mark member)
  ahead := fun parent member => lt_of_lt_of_le (holds.ahead parent member)
    (lookedUp_note parent _ remarks)
  paired := fun retries parent => (holds.paired retries parent).trans
    (lookedUp_note parent _ remarks)
  rows := holds.rows
  attempts := holds.attempts

theorem Lawful.note {dialect : Dialect} {stage : Stage}
    (lawful : Lawful dialect call stage db state) (remarks : List Write) :
    Lawful dialect call stage db (state.note remarks) :=
  { opened := lawful.opened
    openedBy := lawful.openedBy
    openedOnce := lawful.openedOnce
    closed := lawful.closed
    closedOnce := lawful.closedOnce
    settled := lawful.settled
    moved := lawful.moved
    movedOnce := lawful.movedOnce
    deleted := lawful.deleted
    succeeded := lawful.succeeded
    discarded := lawful.discarded
    inserted := lawful.inserted
    insertedOnce := lawful.insertedOnce
    updated := lawful.updated
    slotted := lawful.slotted
    swept := by
      intro sweeps write member job isJob
      obtain ⟨attempt, marked⟩ := lawful.swept sweeps write member job isJob
      exact ⟨attempt, List.mem_append_left _ marked⟩
    takenUp := fun takesUp write member parent isParent =>
      List.mem_append_left _
        (lawful.takenUp takesUp write member parent isParent)
    paired := fun retries parent => (lawful.paired retries parent).trans
      (lookedUp_note parent _ remarks) }

theorem At.note (holds : At cfg call record txn db state)
    (remarks : List Write) :
    At cfg call record txn db (state.note remarks) :=
  { holds with
    lawful := holds.lawful.note remarks
    recorded := holds.recorded.note remarks }

/-- A transaction that has written nothing is lawful. -/
theorem lawful_of_idle {dialect : Dialect} (idle : state.pending = [])
    (paired : call.retries = true → ∀ parent,
      createdFor parent state.written ≤ lookedUp parent state.noted) :
    Lawful dialect call .clean db state := by
  constructor <;> simp [idle]
  exact paired

theorem Recorded.idle (holds : Recorded call record db state)
    (idle : state.pending = []) : Between cfg call record db state where
  lawful := lawful_of_idle idle holds.paired
  only := by simp [idle]
  made := by simp [idle]
  sure := by simp
  locks := by simp
  recorded := holds

theorem Recorded.rolledBack (holds : Recorded call record db state) :
    Between cfg call record db state.rolledBack :=
  Recorded.idle (holds.still rfl rfl) rfl

theorem at_initial (db : Db) : Between cfg call {} db {} :=
  Recorded.idle ⟨rfl, by simp, by simp, by simp [createdFor], by simp,
    by simp⟩ rfl

theorem createdFor_append (parent : JobId) (first second : List Write) :
    createdFor parent (first ++ second) =
      createdFor parent first + createdFor parent second := by
  simp [createdFor]

theorem createdFor_eq_zero {parent : JobId} {writes : List Write}
    (startsNothing : ∀ write ∈ writes, creation write = false) :
    createdFor parent writes = 0 := by
  rw [createdFor, List.countP_eq_zero]
  intro write member
  have nothing := startsNothing write member
  cases write <;> simp_all [parentOf, creation]

theorem At.startsNothing (holds : At cfg call record txn db state)
    (nothing : txn.made = []) :
    ∀ write ∈ state.pending, creation write = false := by
  intro write member
  have none := holds.made
  rw [nothing, List.filter_eq_nil_iff] at none
  simpa using none write member

theorem At.committed (holds : At cfg call record txn db state)
    {next : Db} (remembers : Remembering db next) {ahead : List JobId}
    (still : ∀ parent ∈ ahead, parent ∈ record.ahead ∧ txn.made = []) :
    Between cfg call
      { record with wrote := record.wrote ++ txn.made, ahead } next
      state.committed := by
  have later := holds.recorded.later remembers
  refine Recorded.idle ⟨?_, holds.recorded.marked, ?_, holds.lawful.paired,
    later.rows, later.attempts⟩ rfl
  · simp [Local.committed, holds.recorded.wrote, holds.made]
  · intro parent member
    obtain ⟨isAhead, nothing⟩ := still parent member
    simp only [Local.committed, createdFor_append,
      createdFor_eq_zero (holds.startsNothing nothing)]
    exact holds.recorded.ahead parent isAhead

end Assertions

/-! ## The rules -/

section Rules

variable {cfg : Config} {call : Call} {record : Record} {txn : Txn}
variable {β γ : Type} {pre fails : Db → Loc → Prop}
variable {post : β → Db → Loc → Prop}

/-- An exception leaves the transaction to the session. -/
theorem inside {middle : γ → Db → Loc → Prop} {first : Sql γ}
    {next : γ → Sql β}
    (begins : (backend cfg).Spec call pre first middle (Recorded call record))
    (rest : ∀ value, (backend cfg).Spec call (middle value) (next value) post
      (Recorded call record)) :
    (backend cfg).Spec call pre (first >>= next) post (Recorded call record) :=
  .bind recorded_stable begins rest

/-- A query leaves the transaction as it is and its remark in the record. -/
theorem observe_spec {query : Db → β} {remark : β → List Write}
    (noted : ∀ db state, At cfg call record txn db state →
      Noted db (remark (query (after state.pending db)))) :
    (backend cfg).Spec call (At cfg call record txn)
      (observe query remark : Sql β)
      (fun value => At cfg call
        { record with marks := record.marks ++ remark value } txn) fails := by
  refine .observe at_stable (fun _ => at_stable) ?_
  intro db state _ _ holds
  constructor
  · exact noted db state holds
  · have noted := holds.note (remark (query ((backend cfg).sys.view db state)))
    refine { noted with recorded := { noted.recorded with marked := ?_ } }
    intro mark member
    rcases List.mem_append.mp member with old | new
    · exact noted.recorded.marked mark old
    · exact List.mem_append_right _ new

/-- A query whose answer says something that stays true. -/
theorem ask_spec {query : Db → β} {known : β → Db → Loc → Prop}
    (stable : (backend cfg).Stable pre)
    (stableKnown : ∀ value, (backend cfg).Stable (known value))
    (answers : ∀ db state, Inv db → Guarded (schema cfg.dialect) state →
      pre db state → known (query (after state.pending db)) db state) :
    (backend cfg).Spec call pre (read query : Sql β) known fails := by
  refine .observe stable stableKnown ?_
  intro db state inv guarded holds
  refine ⟨⟨by simp, by simp [lookedUp], by simp⟩, ?_⟩
  have unchanged : state.note [] = state := by simp [Local.note]
  rw [unchanged]
  exact answers db state inv guarded holds

theorem clock_spec (stable : (backend cfg).Stable pre) :
    (backend cfg).Spec call pre currentTime (fun _ => pre) fails :=
  ask_spec stable (fun _ => stable) fun _ _ _ _ holds => holds

theorem read_spec {query : Db → β} :
    (backend cfg).Spec call (At cfg call record txn) (read query : Sql β)
      (fun _ => At cfg call record txn) fails :=
  ask_spec at_stable (fun _ => at_stable) fun _ _ _ _ holds => holds

theorem raise_spec {exception : Exc} :
    (backend cfg).Spec call (At cfg call record txn)
      (raise exception : Sql β) post (Recorded call record) :=
  .raise at_stable fun _ _ _ holds => holds.recorded

theorem rollback_spec (stable : (backend cfg).Stable pre)
    (known : ∀ db state, pre db state → Recorded call record db state) :
    (backend cfg).Spec call pre (rollback : Sql Unit)
      (fun _ => Between cfg call record) fails :=
  .rollback stable at_stable fun db state _ holds =>
    (known db state holds).rolledBack

/-- A complete transaction commits; what it started goes on record. -/
theorem commit_made (ahead : List JobId)
    (complete : txn.stage.complete = true)
    (still : ∀ parent ∈ ahead, parent ∈ record.ahead ∧ txn.made = []) :
    (backend cfg).Spec call (At cfg call record txn) (commit : Sql Unit)
      (fun _ => Between cfg call
        { record with wrote := record.wrote ++ txn.made, ahead }) fails := by
  refine .commit at_stable at_stable ?_
  intro db state _ _ holds
  exact ⟨⟨txn.stage, complete, holds.lawful⟩,
    holds.committed (remembering_after _ db) still⟩

theorem commit_spec (complete : txn.stage.complete = true)
    (nothing : txn.made = []) :
    (backend cfg).Spec call (At cfg call record txn) (commit : Sql Unit)
      (fun _ => Between cfg call record) fails := by
  have still : ∀ parent ∈ record.ahead,
      parent ∈ record.ahead ∧ txn.made = [] :=
    fun parent member => ⟨member, nothing⟩
  have spec : (backend cfg).Spec call (At cfg call record txn)
      (commit : Sql Unit) (fun _ => Between cfg call
        { record with wrote := record.wrote ++ txn.made }) fails :=
    commit_made record.ahead complete still
  rwa [nothing, List.append_nil] at spec

end Rules

/-! ## Kinds of scripts -/

section Kinds

variable {β γ : Type}

/-- A part of a transaction that makes plain writes only. -/
def Inner (cfg : Config) (call : Call) (script : Sql β) : Prop :=
  ∀ record txn, (∀ write, plain write = true → txn.kind write = true) →
    (∀ job, txn.stage ≠ .filed job) →
    (backend cfg).Spec call (At cfg call record txn) script
      (fun _ => At cfg call record txn) (Recorded call record)

/-- Transactions run inside a session, the last of them still clean. -/
def Trans (cfg : Config) (call : Call) (script : Sql β) : Prop :=
  ∀ record, (backend cfg).Spec call (Between cfg call record) script
    (fun _ => Between cfg call record) (Recorded call record)

/-- Whole sessions. -/
def Outer (cfg : Config) (call : Call) (script : Sql β) : Prop :=
  ∀ record, (backend cfg).Spec call (Between cfg call record) script
    (fun _ => Between cfg call record) (Between cfg call record)

variable {cfg : Config} {call : Call}

theorem Inner.pure (value : β) : Inner cfg call (pure value : Sql β) :=
  fun _ _ _ _ => .pure at_stable fun _ _ _ _ holds => holds

theorem Inner.bind {first : Sql γ} {next : γ → Sql β}
    (begins : Inner cfg call first)
    (rest : ∀ value, Inner cfg call (next value)) :
    Inner cfg call (first >>= next) :=
  fun record txn widens unfiled => inside (begins record txn widens unfiled)
    fun value => rest value record txn widens unfiled

theorem Inner.read (query : Db → β) :
    Inner cfg call (read query : Sql β) :=
  fun _ _ _ _ => read_spec

theorem Inner.raise (exception : Exc) :
    Inner cfg call (raise exception : Sql β) :=
  fun _ _ _ _ => raise_spec

theorem Inner.diverge : Inner cfg call (diverge : Sql β) :=
  fun _ _ _ _ => .diverge

theorem Inner.whenever {condition : Bool} {body : Sql Unit}
    (inner : Inner cfg call body) :
    Inner cfg call (whenever condition body) := by
  cases condition with
  | true => exact inner
  | false => exact Inner.pure ()

theorem Inner.each {body : γ → Sql Unit} {elements : List γ}
    (inner : ∀ element, Inner cfg call (body element)) :
    Inner cfg call (each body elements) := by
  induction elements with
  | nil => exact Inner.pure ()
  | cons element rest ih => exact Inner.bind (inner element) fun _ => ih

theorem Inner.trans {script : Sql β} (inner : Inner cfg call script) :
    Trans cfg call script :=
  fun record => inner record {} (fun _ isPlain => isPlain)
    fun _ isFiled => by cases isFiled

theorem Trans.pure (value : β) : Trans cfg call (pure value : Sql β) :=
  (Inner.pure value).trans

theorem Trans.bind {first : Sql γ} {next : γ → Sql β}
    (begins : Trans cfg call first)
    (rest : ∀ value, Trans cfg call (next value)) :
    Trans cfg call (first >>= next) :=
  fun record => inside (begins record) fun value => rest value record

theorem Trans.commit : Trans cfg call (commit : Sql Unit) :=
  fun _ => commit_spec rfl rfl

theorem Trans.rollback : Trans cfg call (rollback : Sql Unit) :=
  fun _ => rollback_spec at_stable fun _ _ holds => holds.recorded

theorem Trans.whenever {condition : Bool} {body : Sql Unit}
    (trans : Trans cfg call body) :
    Trans cfg call (whenever condition body) := by
  cases condition with
  | true => exact trans
  | false => exact Trans.pure ()

theorem Outer.trans {script : Sql β} (outer : Outer cfg call script) :
    Trans cfg call script :=
  fun record => (outer record).strengthen (fun _ _ _ _ holds => holds)
    fun _ _ _ holds => holds.recorded

/-- A session loses what it has not committed. -/
theorem session_spec {record : Record} {pre : Db → Loc → Prop}
    {body : Sql β}
    (spec : (backend cfg).Spec call pre body
      (fun _ => Recorded call record) (Recorded call record)) :
    (backend cfg).Spec call pre (session body)
      (fun _ => Between cfg call record) (Between cfg call record) :=
  .session spec (fun _ => recorded_stable) recorded_stable
    (fun _ => at_stable) at_stable (fun _ _ _ _ holds => holds.rolledBack)
    fun _ _ _ holds => holds.rolledBack

/-- Between transactions, whatever the call has started before. -/
def Loose (cfg : Config) (call : Call) (record : Record) (db : Db)
    (state : Loc) : Prop :=
  ∃ wrote ahead, Between cfg call { record with wrote, ahead } db state

/-- The past, whatever the call has started. -/
def Recalled (call : Call) (record : Record) (db : Db) (state : Loc) :
    Prop :=
  ∃ wrote ahead, Recorded call { record with wrote, ahead } db state

theorem loose_stable {record : Record} :
    (backend cfg).Stable (Loose cfg call record) :=
  stable_exists fun _ => stable_exists fun _ => at_stable

theorem recalled_stable {record : Record} :
    (backend cfg).Stable (Recalled call record) :=
  stable_exists fun _ => stable_exists fun _ => recorded_stable

theorem At.loose {record : Record} {db : Db} {state : Loc}
    (holds : Between cfg call record db state) :
    Loose cfg call record db state :=
  ⟨record.wrote, record.ahead, holds⟩

theorem Loose.recalled {record : Record} {db : Db} {state : Loc}
    (holds : Loose cfg call record db state) :
    Recalled call record db state := by
  obtain ⟨wrote, ahead, here⟩ := holds
  exact ⟨wrote, ahead, here.recorded⟩

theorem recalling {record : Record} {pre : Db → Loc → Prop}
    {post : β → Db → Loc → Prop} {body : Sql β}
    (spec : (backend cfg).Spec call pre body post (Recorded call record)) :
    (backend cfg).Spec call pre body post (Recalled call record) :=
  spec.strengthen (fun _ _ _ _ holds => holds)
    fun _ _ _ holds => ⟨record.wrote, record.ahead, holds⟩

theorem session_loose {record : Record} {pre : Db → Loc → Prop}
    {body : Sql β}
    (spec : (backend cfg).Spec call pre body
      (fun _ => Loose cfg call record) (Recalled call record)) :
    (backend cfg).Spec call pre (session body)
      (fun _ => Loose cfg call record) (Loose cfg call record) := by
  refine .session spec (fun _ => loose_stable) recalled_stable
    (fun _ => loose_stable) loose_stable ?_ ?_
  · rintro _ db state _ ⟨wrote, ahead, holds⟩
    exact ⟨wrote, ahead, holds.recorded.rolledBack⟩
  · rintro db state _ ⟨wrote, ahead, holds⟩
    exact ⟨wrote, ahead, holds.rolledBack⟩

theorem Trans.session {body : Sql β} (trans : Trans cfg call body) :
    Outer cfg call (session body) :=
  fun record => session_spec ((trans record).strengthen
    (fun _ _ _ _ holds => holds.recorded) fun _ _ _ holds => holds)

theorem Outer.pure (value : β) : Outer cfg call (pure value : Sql β) :=
  fun _ => .pure at_stable fun _ _ _ _ holds => holds

theorem Outer.bind {first : Sql γ} {next : γ → Sql β}
    (begins : Outer cfg call first)
    (rest : ∀ value, Outer cfg call (next value)) :
    Outer cfg call (first >>= next) :=
  fun record => .bind at_stable (begins record) fun value =>
    rest value record

theorem Outer.read (query : Db → β) : Outer cfg call (read query : Sql β) :=
  fun _ => read_spec

theorem Outer.raise (exception : Exc) :
    Outer cfg call (raise exception : Sql β) :=
  fun _ => .raise at_stable fun _ _ _ holds => holds

theorem Outer.diverge : Outer cfg call (diverge : Sql β) :=
  fun _ => .diverge

theorem Outer.quietly {body : Sql β} (outer : Outer cfg call body) :
    Outer cfg call (quietly body) :=
  fun record => .quietly (outer record) at_stable

theorem Outer.whenever {condition : Bool} {body : Sql Unit}
    (outer : Outer cfg call body) :
    Outer cfg call (whenever condition body) := by
  cases condition with
  | true => exact outer
  | false => exact Outer.pure ()

theorem Outer.each {body : γ → Sql Unit} {elements : List γ}
    (outer : ∀ element, Outer cfg call (body element)) :
    Outer cfg call (each body elements) :=
  fun record => .each at_stable at_stable fun element _ =>
    outer element record

theorem Outer.map {first : Sql γ} (outer : Outer cfg call first)
    (result : γ → β) : Outer cfg call (result <$> first) :=
  fun record => .map (outer record) (fun _ => at_stable) at_stable

end Kinds

/-! ## Reading rows and attempts -/

section Reading

variable {cfg : Config} {call : Call} {record : Record} {txn : Txn}
variable {β : Type} {rows : List Job} {attempts : List Attempt}
variable {db : Db} {state : Loc}

theorem tables_of_plain {writes : List Write}
    (arePlain : ∀ write ∈ writes, plain write = true) (db : Db) :
    (after writes db).live = db.live ∧
      (after writes db).history = db.history ∧
      (after writes db).attempts = db.attempts := by
  induction writes generalizing db with
  | nil => exact ⟨rfl, rfl, rfl⟩
  | cons write writes ih =>
      have isPlain := arePlain write (by simp)
      have step : (write.apply db).live = db.live ∧
          (write.apply db).history = db.history ∧
          (write.apply db).attempts = db.attempts := by
        cases write <;> first | exact ⟨rfl, rfl, rfl⟩ | cases isPlain
      obtain ⟨live, history, attempts⟩ := ih
        (fun later member => arePlain later (List.mem_cons_of_mem _ member))
        (write.apply db)
      exact ⟨live.trans step.1, history.trans step.2.1,
        attempts.trans step.2.2⟩

/-- The record of a call that has read rows and attempts. -/
def Record.reading (record : Record) (rows : List Job)
    (attempts : List Attempt) : Record :=
  { record with
    rows := rows ++ record.rows
    attempts := attempts ++ record.attempts }

theorem Recorded.reading (holds : Recorded call record db state)
    (isRow : ∀ row ∈ rows, row ∈ db.versions)
    (isAttempt : ∀ attempt ∈ attempts, attempt ∈ db.attempts.rows) :
    Recorded call (record.reading rows attempts) db state where
  wrote := holds.wrote
  marked := holds.marked
  ahead := holds.ahead
  paired := holds.paired
  rows := by
    intro row member
    rcases List.mem_append.mp member with new | old
    · exact isRow row new
    · exact holds.rows row old
  attempts := by
    intro attempt member
    rcases List.mem_append.mp member with new | old
    · exact ⟨attempt, isAttempt attempt new, rfl⟩
    · exact holds.attempts attempt old

/-- What a transaction with plain writes reads of live rows and attempts is
committed. -/
theorem reads_spec {query : Db → β} {known : β → Prop} (rows : β → List Job)
    (attempts : β → List Attempt)
    (isRow : ∀ db, ∀ row ∈ rows (query db), row ∈ db.live.rows)
    (isAttempt : ∀ db, ∀ attempt ∈ attempts (query db),
      attempt ∈ db.attempts.rows)
    (answers : ∀ db, known (query db)) {fails : Db → Loc → Prop} :
    (backend cfg).Spec call (Between cfg call record)
      (read query : Sql β)
      (fun value db state => known value ∧ Between cfg call
        (record.reading (rows value) (attempts value)) db state) fails := by
  refine ask_spec at_stable (fun _ => stable_and stable_fact at_stable) ?_
  intro db state inv _ here
  obtain ⟨live, _, isAttempts⟩ := tables_of_plain here.only db
  refine ⟨answers _, { here with recorded := here.recorded.reading ?_ ?_ }⟩
  · intro row member
    exact inv.versioned row (live ▸ isRow _ row member)
  · intro attempt member
    exact isAttempts ▸ isAttempt _ attempt member

theorem Recorded.forget
    (holds : Recorded call (record.reading rows attempts) db state) :
    Recorded call record db state where
  wrote := holds.wrote
  marked := holds.marked
  ahead := holds.ahead
  paired := holds.paired
  rows := fun row member => holds.rows row (List.mem_append_right _ member)
  attempts := fun attempt member =>
    holds.attempts attempt (List.mem_append_right _ member)

theorem At.forget
    (holds : At cfg call (record.reading rows attempts) txn db state) :
    At cfg call record txn db state :=
  { holds with recorded := holds.recorded.forget }

/-- What was read may be forgotten. -/
theorem forgetting {pre : Db → Loc → Prop} {body : Sql β} {txn : β → Txn}
    (spec : (backend cfg).Spec call pre body
      (fun value => At cfg call (record.reading rows attempts) (txn value))
      (Recorded call (record.reading rows attempts))) :
    (backend cfg).Spec call pre body
      (fun value => At cfg call record (txn value)) (Recorded call record) :=
  spec.strengthen (fun _ _ _ _ holds => holds.forget)
    fun _ _ _ holds => holds.forget

end Reading

/-! ## Statements that make plain writes -/

section Plain

variable {cfg : Config} {call : Call} {record : Record} {txn : Txn}
variable {β : Type} {fails : Db → Loc → Prop} {db : Db} {state : Loc}

theorem creation_of_plain {write : Write} (isPlain : plain write = true) :
    creation write = false := by
  cases write <;> first | rfl | cases isPlain

theorem parentOf_of_creation {write : Write}
    (nothing : creation write = false) : parentOf write = none := by
  cases write <;> first | rfl | cases nothing

theorem sweptJob_of_plain {write : Write} (isPlain : plain write = true) :
    sweptJob write = none := by
  cases write <;> first | rfl | cases isPlain

/-- New writes that start no job need no look-up. -/
theorem Lawful.paired_append {dialect : Dialect} {stage : Stage}
    {writes : List Write} (lawful : Lawful dialect call stage db state)
    (startsNothing : ∀ write ∈ writes, creation write = false) :
    call.retries = true → ∀ parent,
      createdFor parent (state.written ++ (state.pending ++ writes)) ≤
        lookedUp parent state.noted := by
  intro retries parent
  rw [← List.append_assoc, createdFor_append,
    createdFor_eq_zero startsNothing]
  exact lawful.paired retries parent

theorem plain_additions {dialect : Dialect} {stage : Stage}
    {writes : List Write} {locks : List Lock}
    (lawful : Lawful dialect call stage db state)
    (arePlain : ∀ write ∈ writes, plain write = true) :
    Additions dialect call stage db state writes locks := by
  have never : ∀ write, plain write = false → write ∉ writes :=
    fun write notPlain member => by
      rw [arePlain write member] at notPlain
      cases notPlain
  have none : writes.filterMap closedId = [] := by
    rw [List.filterMap_eq_nil_iff]
    intro write member
    have isPlain := arePlain write member
    cases write <;> first | rfl | cases isPlain
  constructor
  case slotted =>
    intro entry member
    simpa [plain] using arePlain _ member
  case closedOnce => simp [none]
  case takenUp =>
    intro _ write member parent isParent
    have nothing := creation_of_plain (arePlain write member)
    rw [parentOf_of_creation nothing] at isParent
    cases isParent
  case paired =>
    exact lawful.paired_append fun write member =>
      creation_of_plain (arePlain write member)
  case swept =>
    intro _ write member job isJob
    rw [sweptJob_of_plain (arePlain write member)] at isJob
    cases isJob
  case openedOnce => exact fun _ _ member => (never _ rfl member).elim
  case closed => exact fun _ _ _ _ member => (never _ rfl member).elim
  case settled => exact fun _ _ _ _ member => (never _ rfl member).elim
  case movedOnce => exact fun _ _ member => (never _ rfl member).elim
  case insertedOnce => exact fun _ _ member => (never _ rfl member).elim
  all_goals exact fun _ member => (never _ rfl member).elim

/-- A write that moves, removes or updates the row of a job. -/
def rewriting : Write → Bool
  | .insertHistory _ => true
  | .deleteLive _ => true
  | .discardLive _ => true
  | .setLive _ => true
  | _ => false

theorem creation_of_rewriting {write : Write}
    (rewrites : rewriting write = true) : creation write = false := by
  cases write <;> first | rfl | cases rewrites

/-- Of the writes that rewrite rows, a sweep writes about the updated row. -/
theorem sweptJob_of_rewriting {write : Write} {job : JobId}
    (rewrites : rewriting write = true) (isJob : sweptJob write = some job) :
    ∃ row : Job, write = .setLive row ∧ row.id = job := by
  cases write with
  | setLive row => exact ⟨row, rfl, Option.some.inj isJob⟩
  | insertHistory | deleteLive | discardLive => cases isJob
  | _ => cases rewrites

/-- Of writes that rewrite rows, nothing is asked about attempts and new
jobs. -/
theorem rewriting_additions {dialect : Dialect} {stage next : Stage}
    {writes : List Write} {locks : List Lock}
    (lawful : Lawful dialect call stage db state)
    (rewrite : ∀ write ∈ writes, rewriting write = true)
    (moved : ∀ row, .insertHistory row ∈ writes →
      Owns dialect (state.extend writes locks) (.live row.id) ∧
        (∃ live, db.live.get row.id = some live ∧
          MovedRow call db live row) ∧
        next = .moving row.id)
    (movedOnce : ∀ first second, .insertHistory first ∈ writes →
      .insertHistory second ∈ state.pending ++ writes →
      first.id = second.id → first = second)
    (deleted : ∀ job, .deleteLive job ∈ writes →
      ∃ row, .insertHistory row ∈ state.pending ∧ row.id = job)
    (succeeded : ∀ row, .insertHistory row ∈ writes → row.status = .success →
      Succeeds call db (state.pending ++ writes) row.id)
    (discarded : ∀ job, .discardLive job ∈ writes →
      call.creates = true ∧ db.live.get job ≠ none)
    (updated : ∀ row, .setLive row ∈ writes →
      (∃ live, db.live.get row.id = some live ∧ SameJob live row) ∧
        row.status ≠ .success ∧
        (row.status = .queued → call.requeues = true))
    (judged : call.sweeps = true → ∀ row, .setLive row ∈ writes →
      ∃ attempt, .remark (.judged row.id attempt) ∈ state.noted) :
    Additions dialect call next db state writes locks := by
  have never : ∀ write, rewriting write = false → write ∉ writes := by
    intro write isOther member
    rw [rewrite write member] at isOther
    cases isOther
  have none : writes.filterMap closedId = [] := by
    rw [List.filterMap_eq_nil_iff]
    intro write member
    have rewrites := rewrite write member
    cases write <;> first | rfl | cases rewrites
  constructor
  case moved => exact moved
  case movedOnce => exact movedOnce
  case deleted => exact deleted
  case succeeded => exact succeeded
  case discarded => exact discarded
  case updated => exact updated
  case closedOnce => simp [none]
  case takenUp =>
    intro _ write member parent isParent
    have nothing := creation_of_rewriting (rewrite write member)
    rw [parentOf_of_creation nothing] at isParent
    cases isParent
  case paired =>
    exact lawful.paired_append fun write member =>
      creation_of_rewriting (rewrite write member)
  case swept =>
    intro sweeps write member job isJob
    obtain ⟨row, rfl, rfl⟩ :=
      sweptJob_of_rewriting (rewrite write member) isJob
    exact judged sweeps row member
  case openedOnce => exact fun _ _ member => (never _ rfl member).elim
  case insertedOnce => exact fun _ _ member => (never _ rfl member).elim
  case closed => exact fun _ _ _ _ member => (never _ rfl member).elim
  case settled => exact fun _ _ _ _ member => (never _ rfl member).elim
  all_goals exact fun _ member => (never _ rfl member).elim

/-- New writes extend what is known of the transaction. -/
theorem At.extend {next : Txn} {writes : List Write} {locks : List Lock}
    (holds : At cfg call record txn db state)
    (lawful : Lawful cfg.dialect call next.stage db
      (state.extend writes locks))
    (widens : ∀ write, txn.kind write = true → next.kind write = true)
    (only : ∀ write ∈ writes, next.kind write = true)
    (made : txn.made ++ writes.filter creation = next.made)
    (sure : ∀ write ∈ next.sure, write ∈ txn.sure ∨ write ∈ writes)
    (held : ∀ lock ∈ next.locks, lock ∈ txn.locks ∨ lock ∈ locks) :
    At cfg call record next db (state.extend writes locks) where
  lawful := lawful
  only := by
    intro write member
    rcases List.mem_append.mp member with old | new
    · exact widens write (holds.only write old)
    · exact only write new
  made := by
    simp only [Local.extend, List.filter_append]
    rw [holds.made, made]
  sure := by
    intro write member
    rcases sure write member with old | new
    · exact List.mem_append_left _ (holds.sure write old)
    · exact List.mem_append_right _ new
  locks := by
    intro lock member
    rcases held lock member with old | new
    · exact List.mem_append_left _ (holds.locks lock old)
    · exact List.mem_append_right _ new
  recorded := holds.recorded.still rfl rfl

/-- The statement makes writes of a kind and takes the given locks. -/
def Makes (kind : Write → Bool) (locks : List Lock) (statement : Stmt β) :
    Prop :=
  ∀ snapshot current others effect,
    statement snapshot current others = some effect →
    (∀ write ∈ effect.writes, kind write = true) ∧
      (∀ lock ∈ locks, lock ∈ effect.locks) ∧ effect.atOnce = []

theorem makes_spec {kind : Write → Bool} {locks : List Lock}
    {statement : Stmt β} (makes : Makes kind locks statement)
    (isPlain : ∀ write, kind write = true → plain write = true)
    (widens : ∀ write, plain write = true → txn.kind write = true)
    (keeps : ∀ job, txn.stage = .filed job →
      ∀ write, kind write = true → ¬Drops job write) :
    (backend cfg).Spec call (At cfg call record txn)
      (exec statement : Sql β)
      (fun _ => At cfg call record { txn with locks := txn.locks ++ locks })
      fails := by
  refine .exec at_stable (fun _ => at_stable) ?_
  intro snapshot current state others effect _ _ _ _ _ holds ran
  obtain ⟨kinds, locked, none⟩ := makes _ _ _ _ ran
  rw [none]
  have arePlain : ∀ write ∈ effect.writes, plain write = true :=
    fun write member => isPlain write (kinds write member)
  have nothing : effect.writes.filter creation = [] := by
    rw [List.filter_eq_nil_iff]
    intro write member
    simp [creation_of_plain (arePlain write member)]
  refine ⟨by simp [backend], ?_⟩
  refine holds.extend ?_ (fun _ isKind => isKind) ?_ ?_ ?_ ?_
  · exact holds.lawful.extendSame (plain_additions holds.lawful arePlain)
      fun job isFiled write member =>
        keeps job isFiled write (kinds write member)
  · exact fun write member => widens write (arePlain write member)
  · simp [nothing]
  · exact fun write member => Or.inl member
  · intro lock member
    rcases List.mem_append.mp member with old | new
    · exact Or.inl old
    · exact Or.inr (List.mem_append_left _ (locked lock new))

theorem Inner.exec {statement : Stmt β} {locks : List Lock}
    (makes : Makes plain locks statement) :
    Inner cfg call (exec statement : Sql β) := by
  intro record txn widens unfiled
  refine (makes_spec makes (fun _ isPlain => isPlain) widens
    fun job isFiled => (unfiled job isFiled).elim).strengthen ?_
    fun _ _ _ holds => holds
  intro _ db state _ holds
  exact holds.mono (fun _ isKind => isKind) rfl rfl
    (fun _ member => member) fun _ member => List.mem_append_left _ member

/-- A statement that takes locks at most. -/
theorem Inner.locking {statement : Stmt β}
    (makes : Makes plain [] statement) :
    Inner cfg call (Script.exec statement : Sql β) :=
  Inner.exec makes

theorem makes_dml {K V : Type} [DecidableEq K] {key : V → K}
    {kind : Write → Bool} (table : Db → Table key) (admits : Db → V → Bool)
    {write : V → Write} (isKind : ∀ row, kind (write row) = true) :
    Makes kind (writerLock cfg.dialect) (dml table cfg admits write) := by
  intro snapshot current others effect ran
  cases ran
  refine ⟨?_, fun lock member => member, rfl⟩
  intro made member
  obtain ⟨row, _, rfl⟩ := List.mem_map.mp member
  exact isKind row

theorem makes_insert {K V : Type} [DecidableEq K] {key : V → K}
    {kind : Write → Bool} (table : Db → Table key) (lock : V → Lock)
    {insert found : V → Write} {rows : List V}
    (insertKind : ∀ row ∈ rows, kind (insert row) = true)
    (foundKind : ∀ row ∈ rows, kind (found row) = true) :
    Makes kind (writerLock cfg.dialect)
      (insertUnlessFound table cfg lock insert found rows) := by
  intro snapshot current others effect ran
  simp only [insertUnlessFound] at ran
  split at ran
  · cases ran
  · cases ran
    refine ⟨?_, fun lock member => member, rfl⟩
    intro made member
    obtain ⟨row, isRow, rfl⟩ := List.mem_map.mp member
    split
    · exact foundKind row isRow
    · exact insertKind row isRow

theorem makes_select {K V : Type} [DecidableEq K] {key : V → K}
    {kind : Write → Bool} (table : Db → Table key) (lock : V → Lock)
    (admits : Db → V → Bool) :
    Makes kind [] (selectForUpdate table lock admits) := by
  intro snapshot current others effect ran
  cases ran
  exact ⟨by simp, by simp, rfl⟩

theorem makes_skip {K V : Type} [DecidableEq K] {key : V → K}
    {kind : Write → Bool} (table : Db → Table key) (lock : V → Lock)
    (admits : Db → V → Bool) (order : List V → List V) (limit : Nat) :
    Makes kind [] (selectSkipLocked table lock admits order limit) := by
  intro snapshot current others effect ran
  cases ran
  exact ⟨by simp, by simp, rfl⟩

end Plain

end Sqlery.Standalone
