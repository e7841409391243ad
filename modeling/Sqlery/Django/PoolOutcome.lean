import Sqlery.Django.PoolFence

/-!
# What the pool worker records

With no other process active, `execute_job` leaves the row in history, or in
the live table while the delivery of a webhook is pending.  `release_job` writes
a second time: it finds only what was left in the live table.
-/

namespace Sqlery.Django.PoolWorker

open ReadCommitted
open BulkUpdate

/-! ## Where the row is -/

/-- The row of the job, live or finished (`history.find`). -/
def recorded (db : Db) (job : JobId) : Option Job :=
  (db.live.get job).or (db.history.find? fun row => row.id = job)

/-- The row has left the live table with the status and the output. -/
structure Gone (job : JobId) (status : Status) (output : String) (db : Db) :
    Prop where
  live : db.live.get job = none
  history : ∃ row, db.history.find? (fun row => row.id = job) = some row ∧
    row.status = status ∧ row.output = output

/-- The row is live under the key, with the version, status and output. -/
structure Marked (key : Key) (version : Nat) (status : Status)
    (output : String) (db : Db) : Prop where
  intro ::
  row : ∃ row, db.row key = some row ∧ row.version = version ∧
    row.status = status ∧ row.output = output

/-- The row is recorded with the status and the output. -/
def Records (job : JobId) (status : Status) (output : String) (db : Db) :
    Prop :=
  ∃ row, recorded db job = some row ∧ row.status = status ∧
    row.output = output

/-- The row is recorded with a status and an output that satisfy the
condition. -/
def RecordedAs (job : JobId) (good : Status → String → Prop) (db : Db) : Prop :=
  ∃ status output, Records job status output db ∧ good status output

theorem Gone.records {job : JobId} {status : Status} {output : String}
    {db : Db} (gone : Gone job status output db) :
    Records job status output db := by
  obtain ⟨row, found, same⟩ := gone.history
  refine ⟨row, ?_, same⟩
  rw [recorded, gone.live, Option.none_or]
  exact found

theorem Marked.records {key : Key} {version : Nat} {status : Status}
    {output : String} {db : Db}
    (marked : Marked key version status output db) :
    Records key.1 status output db := by
  obtain ⟨row, found, _, same⟩ := marked.row
  refine ⟨row, ?_, same⟩
  rw [recorded, (row_eq_some_iff.mp found).1, Option.some_or]

/-! ## A run with nobody else -/

section Alone

variable {setting : Setting} (alone : setting.world = fun _ db => db)

include alone

theorem ends_meets_alone {returns : Db → State → Prop}
    {raises : Exc → State → Prop} {state : State} :
    Ends returns raises (meets setting) state ↔
      returns state.db { state with moment := state.moment + 1 } := by
  rw [ends_meets, alone]

theorem lasts_alone (fact : Db → Prop) : Lasts setting fact := by
  intro moment db holds
  rw [alone]
  exact holds

/-! ### Attempts -/

/-- The handle's attempt is the one that is open under its name. -/
def OpenOnce (handle : AttemptHandle) (db : Db) : Prop :=
  (db.attempts.filter fun attempt =>
    handle.names attempt && attempt.isOpen).length = 1

omit alone in
theorem stale_close {handle : AttemptHandle} {db : Db} {at_ : Time}
    {outcome : Outcome} :
    Stale handle { db with
      attempts := db.attempts.map fun attempt =>
        if handle.names attempt && attempt.isOpen then attempt.close at_ outcome
        else attempt } := by
  intro attempt member names
  obtain ⟨old, isOld, rfl⟩ := List.mem_map.mp member
  by_cases matching : (handle.names old && old.isOpen) = true
  · rw [if_pos matching]
    rfl
  · rw [if_neg matching] at names ⊢
    simpa [names] using matching

/-- A completion with an open attempt closes it and touches nothing else. -/
theorem closeAttempt_open {state : State} {handle : AttemptHandle}
    {outcome : Outcome} (owns : state.job.attempt = some handle)
    (once : OpenOnce handle state.db) :
    Ends (fun _ next => next.job = state.job ∧ Stale handle next.db ∧
        next.db.live = state.db.live ∧ next.db.history = state.db.history)
      (fun _ _ => False) (closeAttempt setting outcome) state := by
  unfold OpenOnce at once
  simp only [closeAttempt, closeHandle, ends_bind, ends_heldJob, owns,
    ends_meets_alone alone, ends_store, decideClose, once]
  exact ⟨rfl, stale_close, rfl, rfl⟩

/-! ### The row -/

omit alone in
theorem gone_moved {db : Db} {status : Status} {change : Job → Job}
    {row : Job} {output : String} (closes : Bool)
    (same : (change (finished db status row)).output = output) :
    Gone row.id status output
      (if closes then closeAttempts status row.id
          { db with
            history := historyRow db status change row :: db.history
            live := db.live.erase row.id }
        else
          { db with
            history := historyRow db status change row :: db.history
            live := db.live.erase row.id }) := by
  have gone : Gone row.id status output
      { db with
        history := historyRow db status change row :: db.history
        live := db.live.erase row.id } := by
    constructor
    · exact Table.get_erase_self _ _
    · refine ⟨historyRow db status change row, ?_, rfl, same⟩
      rw [List.find?_cons_of_pos]
      simp [historyRow]
  cases closes with
  | true => exact ⟨gone.live, gone.history⟩
  | false => exact gone

/-- A move finds the row, and the row is gone. -/
theorem move_alone {state : State} {key : Key} {status : Status}
    {change : Job → Job} {admits : Job → Bool} {closes : Bool} {row : Job}
    {output : String} (found : state.db.row key = some row)
    (admitted : admits row = true)
    (same : (change (finished state.db status row)).output = output) :
    Ends (fun result next => result = true ∧ next.job = state.job ∧
        Gone key.1 status output next.db)
      (fun _ _ => False)
      (move setting key status change admits closes) state := by
  have isJob : row.id = key.1 :=
    Table.key_of_get (row_eq_some_iff.mp found).1
  have kept : (state.db.row key).filter admits = some row :=
    Option.filter_eq_some_iff.mpr ⟨found, admitted⟩
  simp only [move, ends_bind, ends_meets_alone alone, kept, ends_store,
    ends_pure]
  exact ⟨trivial, trivial, isJob ▸ gone_moved closes same⟩

omit alone in
theorem row_set {live : Table Job.id} {db : Db} {key : Key} {row new : Job}
    (found : db.row key = some row) (same : keyOf new = key)
    (isLive : db.live = live) :
    Db.row { db with live := live.set new } key = some new := by
  subst isLive
  rw [row_eq_some_iff] at found ⊢
  have sameId : new.id = key.1 := congrArg Prod.fst same
  refine ⟨?_, same⟩
  change (db.live.set new).get key.1 = some new
  rw [Table.get_set, found.1]
  simp [sameId]

theorem updateInPlace_alone {state : State} {key : Key} {version : Nat}
    {status : Status} {change : Job → Job} {row : Job} {output : String}
    (found : state.db.row key = some row) (isVersion : row.version = version)
    (same : (change row).output = output) :
    Ends (fun result next => result = true ∧ next.job = state.job ∧
        Marked key (version + 1) status output next.db ∧
        next.db.attempts = state.db.attempts)
      (fun _ _ => False)
      (updateInPlace setting key version status change) state := by
  have kept : (state.db.row key).filter (fun row => row.version = version) =
      some row :=
    Option.filter_eq_some_iff.mpr ⟨found, by simpa using isVersion⟩
  have isKey := (row_eq_some_iff.mp found).2
  simp only [updateInPlace, ends_bind, ends_meets_alone alone, kept,
    ends_store, ends_pure]
  refine ⟨trivial, trivial, ?_, trivial⟩
  constructor
  refine ⟨_, row_set found ?_ rfl, ?_, rfl, same⟩
  · exact isKey
  · exact congrArg (· + 1) isVersion

/-- The row is gone, or marked in place. -/
theorem endRow_alone {state : State} {held : Held} {status : Status}
    {change : Job → Job} {inPlace closes : Bool} {row : Job} {output : String}
    (found : state.db.row (keyOf held.row) = some row)
    (isVersion : row.version = held.row.version)
    (same : (change row).output = output)
    (sameMoved : (change (finished state.db status row)).output = output) :
    Ends (fun _ next => next.job = state.job ∧
        if inPlace then
          Marked (keyOf held.row) (held.row.version + 1) status output next.db ∧
            next.db.attempts = state.db.attempts
        else Gone held.row.id status output next.db)
      (fun _ _ => False)
      (endRow setting held status change inPlace closes) state := by
  cases inPlace with
  | true =>
      simp only [endRow, if_true, ends_bind]
      apply (updateInPlace_alone alone found isVersion same).ofReturns
      rintro result next ⟨rfl, sameJob, marked, attempts⟩
      exact ⟨sameJob, marked, attempts⟩
  | false =>
      simp only [endRow, Bool.false_eq_true, if_false, ends_bind]
      apply (move_alone alone found (by simpa using isVersion)
        sameMoved).ofReturns
      rintro result next ⟨rfl, sameJob, gone⟩
      exact ⟨sameJob, gone⟩

/-! ### Webhooks -/

/-- The object of the worker, with a row it has ended. -/
structure HoldsRow (handle : AttemptHandle) (final : Job) (held : Held) :
    Prop where
  attempt : held.attempt = some handle
  row : held.row = final
  live : held.inHistory = false

theorem saveWebhook_alone {state : State} {change : Webhook → Webhook}
    {row : Job} (live : state.job.inHistory = false)
    (found : state.db.row (keyOf state.job.row) = some row) :
    Ends (fun _ next => next.db = state.db ∧
        next.job = { state.job with webhook := change state.job.webhook })
      (fun _ _ => False) (saveWebhook setting change) state := by
  simp only [saveWebhook, ends_bind, ends_editJob, ends_heldJob,
    live, Bool.false_eq_true, if_false, ends_meets_alone alone, found,
    Option.isNone_some, ends_pure]
  exact ⟨trivial, trivial⟩

/-- A delivery that resolves lets the row leave. -/
theorem settle_alone {state : State} {row : Job} {output : String}
    (terminal : isTerminal state.job.row.status = true)
    (found : state.db.row (keyOf state.job.row) = some row)
    (isStatus : row.status = state.job.row.status)
    (isOutput : row.output = output) :
    Ends (fun _ next => next.job = state.job ∧
        Gone state.job.row.id state.job.row.status output next.db)
      (fun _ _ => False) (settle setting) state := by
  simp only [settle, settleFinished, ends_catching, ends_bind, ends_heldJob,
    terminal, if_true, ends_transaction]
  have admitted : decide (row.status = state.job.row.status) = true := by
    simpa using isStatus
  apply (move_alone alone found admitted isOutput).ofReturns
  rintro result next ⟨_, sameJob, gone⟩
  exact ⟨sameJob, gone⟩

/-- The delivery of the event has failed and will be tried again. -/
def pending (setting : Setting) (webhook : Webhook) (event : String) : Prop :=
  webhook.url ≠ "" ∧ event ∈ webhook.events ∧
    setting.delivery event = .refused ∧
    webhook.retries + 1 < webhook.maxRetries

/-- The delivery of the event ends in the exception. -/
def breaks (setting : Setting) (webhook : Webhook) (event : String)
    (exc : Exc) : Prop :=
  webhook.url ≠ "" ∧ event ∈ webhook.events ∧
    setting.delivery event = .broke exc

section Notify

variable {state : State} {handle : AttemptHandle} {final : Job}
  {output event : String}

/-- The row as it was marked when the transition ended. -/
def MarkedAs (final : Job) (output : String) (db : Db) : Prop :=
  Marked (keyOf final) final.version final.status output db

omit alone in
theorem MarkedAs.found {db : Db} (marked : MarkedAs final output db) :
    ∃ row, db.row (keyOf final) = some row ∧ row.status = final.status ∧
      row.output = output := by
  obtain ⟨row, found, _, same⟩ := marked.row
  exact ⟨row, found, same⟩

theorem settle_marked (terminal : isTerminal final.status = true)
    (holds : HoldsRow handle final state.job)
    (marked : MarkedAs final output state.db) :
    Ends (fun _ next => HoldsRow handle final next.job ∧
        Gone final.id final.status output next.db)
      (fun _ _ => False) (settle setting) state := by
  obtain ⟨row, found, isStatus, isOutput⟩ := marked.found
  rw [← holds.row] at found isStatus terminal
  apply (settle_alone alone terminal found isStatus isOutput).ofReturns
  rintro _ next ⟨sameJob, gone⟩
  rw [holds.row] at gone
  exact ⟨sameJob ▸ holds, gone⟩

theorem saveWebhook_marked {change : Webhook → Webhook}
    (holds : HoldsRow handle final state.job)
    (marked : MarkedAs final output state.db) :
    Ends (fun _ next => next.db = state.db ∧ HoldsRow handle final next.job ∧
        next.job.webhook = change state.job.webhook)
      (fun _ _ => False) (saveWebhook setting change) state := by
  obtain ⟨row, found, _, _⟩ := marked.found
  rw [← holds.row] at found
  apply (saveWebhook_alone alone holds.live found).ofReturns
  rintro _ next ⟨sameDb, sameJob⟩
  refine ⟨sameDb, ?_, ?_⟩
  · rw [sameJob]
    exact ⟨holds.attempt, holds.row, holds.live⟩
  · rw [sameJob]

theorem markPending_marked (holds : HoldsRow handle final state.job)
    (marked : MarkedAs final output state.db) :
    Ends (fun _ next => next.db = state.db ∧ HoldsRow handle final next.job ∧
        next.job.webhook = { state.job.webhook with
          status := next.job.webhook.status })
      (fun _ _ => False) (markPending setting) state := by
  simp only [markPending, ends_bind, ends_heldJob, ends_ite, ends_pure]
  split
  · apply (saveWebhook_marked alone holds marked).ofReturns
    rintro _ next ⟨sameDb, nextHolds, sameWebhook⟩
    refine ⟨sameDb, nextHolds, ?_⟩
    rw [sameWebhook]
  · exact ⟨trivial, holds, trivial⟩

theorem countFailure_marked (terminal : isTerminal final.status = true)
    (holds : HoldsRow handle final state.job)
    (marked : MarkedAs final output state.db) :
    Ends (fun _ next => HoldsRow handle final next.job ∧
        if state.job.webhook.retries + 1 < state.job.webhook.maxRetries then
          next.db = state.db
        else Gone final.id final.status output next.db)
      (fun _ _ => False) (countFailure setting) state := by
  simp only [countFailure, ends_bind]
  apply (saveWebhook_marked alone holds marked).ofReturns
  rintro _ counted ⟨sameDb, countedHolds, sameWebhook⟩
  have countedMarked : MarkedAs final output counted.db := sameDb ▸ marked
  simp only [ends_bind, ends_heldJob, ends_ite, sameWebhook]
  split
  · apply (saveWebhook_marked alone countedHolds countedMarked).ofReturns
    rintro _ next ⟨again, nextHolds, _⟩
    exact ⟨nextHolds, again.trans sameDb⟩
  · apply (saveWebhook_marked alone countedHolds countedMarked).ofReturns
    rintro _ next ⟨again, nextHolds, _⟩
    have nextMarked : MarkedAs final output next.db :=
      again.trans sameDb ▸ marked
    rw [ends_bind]
    exact settle_marked alone terminal nextHolds nextMarked

/-- The row leaves, unless its delivery is pending or breaks. -/
theorem notify_marked (terminal : isTerminal final.status = true)
    (awaits : state.job.webhook.url ≠ "")
    (holds : HoldsRow handle final state.job)
    (marked : MarkedAs final output state.db) :
    Ends (fun _ next => HoldsRow handle final next.job ∧
        (∀ exc, ¬breaks setting state.job.webhook event exc) ∧
        (pending setting state.job.webhook event → next.db = state.db) ∧
        (¬pending setting state.job.webhook event →
          Gone final.id final.status output next.db))
      (fun exc next => breaks setting state.job.webhook event exc ∧
        next.db = state.db ∧ HoldsRow handle final next.job)
      (notify setting event) state := by
  have isAwaiting : state.job.awaitsWebhook = true := by
    simpa [Held.awaitsWebhook] using awaits
  simp only [notify, sendWebhookWithRetry, ends_bind, ends_heldJob, isAwaiting,
    if_true, if_neg awaits]
  apply (markPending_marked alone holds marked).ofReturns
  rintro _ ready ⟨sameDb, readyHolds, sameWebhook⟩
  have readyMarked : MarkedAs final output ready.db := sameDb ▸ marked
  have sameUrl : ready.job.webhook.url = state.job.webhook.url := by
    rw [sameWebhook]
  have sameEvents : ready.job.webhook.events = state.job.webhook.events := by
    rw [sameWebhook]
  have sameRetries : ready.job.webhook.retries =
      state.job.webhook.retries := by rw [sameWebhook]
  have sameMax : ready.job.webhook.maxRetries =
      state.job.webhook.maxRetries := by rw [sameWebhook]
  have settled : ∀ {next : State}, HoldsRow handle final next.job →
      MarkedAs final output next.db →
      (∀ exc, ¬breaks setting state.job.webhook event exc) →
      ¬pending setting state.job.webhook event →
      Ends (fun _ last => HoldsRow handle final last.job ∧
          (∀ exc, ¬breaks setting state.job.webhook event exc) ∧
          (pending setting state.job.webhook event → last.db = state.db) ∧
          (¬pending setting state.job.webhook event →
            Gone final.id final.status output last.db))
        (fun exc last => breaks setting state.job.webhook event exc ∧
          last.db = state.db ∧ HoldsRow handle final last.job)
        (settle setting) next := by
    intro next nextHolds nextMarked unbroken resolved
    apply (settle_marked alone terminal nextHolds nextMarked).ofReturns
    rintro _ last ⟨lastHolds, gone⟩
    exact ⟨lastHolds, unbroken, fun isPending => (resolved isPending).elim,
      fun _ => gone⟩
  simp only [sendWebhook, ends_bind, ends_heldJob, sameUrl, if_neg awaits,
    sameEvents]
  by_cases wanted : event ∈ state.job.webhook.events
  · rw [if_neg (not_not_intro wanted)]
    cases delivered : setting.delivery event with
    | broke exc =>
        refine ⟨⟨awaits, wanted, delivered⟩, sameDb, readyHolds⟩
    | refused =>
        have unbroken : ∀ exc, ¬breaks setting state.job.webhook event exc := by
          rintro exc ⟨_, _, isBroken⟩
          rw [delivered] at isBroken
          cases isBroken
        simp only [ends_pure, Bool.false_eq_true, if_false]
        apply (countFailure_marked alone terminal readyHolds
          readyMarked).ofReturns
        rintro _ last ⟨lastHolds, counted⟩
        rw [sameRetries, sameMax] at counted
        refine ⟨lastHolds, unbroken, ?_, ?_⟩
        · rintro ⟨_, _, _, more⟩
          rw [if_pos more] at counted
          exact counted.trans sameDb
        · intro resolved
          rw [if_neg fun more =>
            resolved ⟨awaits, wanted, delivered, more⟩] at counted
          exact counted
    | sent =>
        have unbroken : ∀ exc, ¬breaks setting state.job.webhook event exc := by
          rintro exc ⟨_, _, isBroken⟩
          rw [delivered] at isBroken
          cases isBroken
        have resolved : ¬pending setting state.job.webhook event := by
          rintro ⟨_, _, isRefused, _⟩
          rw [delivered] at isRefused
          cases isRefused
        simp only [recordSent, ends_catching, ends_bind]
        apply (saveWebhook_marked alone readyHolds readyMarked).ofReturns
        rintro _ next ⟨again, nextHolds, _⟩
        have nextMarked : MarkedAs final output next.db :=
          again.trans sameDb ▸ marked
        simp only [ends_pure, if_true, ends_bind]
        exact settled nextHolds nextMarked unbroken resolved
  · rw [if_pos wanted]
    have unbroken : ∀ exc, ¬breaks setting state.job.webhook event exc :=
      fun exc broken => wanted broken.2.1
    have resolved : ¬pending setting state.job.webhook event :=
      fun isPending => wanted isPending.2.1
    simp only [ends_pure, if_true, ends_bind]
    exact settled readyHolds readyMarked unbroken resolved

end Notify

/-! ### The terminal transitions -/

/-- The worker runs the job: the object shows the row as its attempt makes
it. -/
structure Working (handle : AttemptHandle) (row : Job) (webhook : Webhook)
    (state : State) : Prop where
  attempt : state.job.attempt = some handle
  shown : state.job.shown = true
  webhook : state.job.webhook = webhook
  object : ∃ claimed, state.job.row = overlayRunning row (some claimed)
  found : state.db.row (keyOf row) = some row
  once : OpenOnce handle state.db

/-- The object of a job that the worker has ended. -/
structure EndedAs (handle : AttemptHandle) (row : Job) (status : Status)
    (held : Held) : Prop where
  attempt : held.attempt = some handle
  key : keyOf held.row = keyOf row
  version : held.row.version = row.version + 1
  status : held.row.status = status
  taskPath : held.row.taskPath = row.taskPath
  queueName : held.row.queueName = row.queueName

omit alone in
theorem EndedAs.carries {handle : AttemptHandle} {row : Job} {status : Status}
    {held : Held} (ended : EndedAs handle row status held) :
    Carries handle (keyOf row) (row.version + 1) held :=
  ⟨ended.attempt, ended.key, ended.version⟩

section Transitions

variable {state : State} {handle : AttemptHandle} {row : Job}
  {webhook : Webhook}

/-- What the transition has written: the row is marked in place if a delivery
or a retry is owed. -/
def Written (inPlace : Bool) (handle : AttemptHandle) (row : Job)
    (status : Status) (output : String) (db : Db) : Prop :=
  if inPlace then
    Marked (keyOf row) (row.version + 1) status output db ∧ Stale handle db
  else Gone row.id status output db

/-- The transaction of a terminal transition. -/
theorem endRow_working (state : State) (output : String)
    (inPlace closes : Bool) {held : Held} {status : Status}
    {outcome : Outcome} {change : Job → Job}
    (owns : state.job.attempt = some handle)
    (there : state.db.row (keyOf row) = some row)
    (once : OpenOnce handle state.db) (isKey : keyOf held.row = keyOf row)
    (isVersion : held.row.version = row.version)
    (same : (change row).output = output)
    (sameMoved : ∀ db, (change (finished db status row)).output = output) :
    Ends (fun _ next => next.job = state.job ∧
        Written inPlace handle row status output next.db)
      (fun _ _ => False)
      (transaction setting (closeAttempt setting outcome >>= fun _ =>
        endRow setting held status change inPlace closes)) state := by
  rw [ends_transaction, ends_bind]
  apply (closeAttempt_open alone owns once).ofReturns
  rintro _ closed ⟨sameJob, stale, sameLive, _⟩
  have found : closed.db.row (keyOf held.row) = some row := by
    rw [isKey, ← there]
    exact row_of_get (by rw [sameLive])
  apply (endRow_alone alone found isVersion.symm same (sameMoved _)).ofReturns
  rintro _ next ⟨nextJob, written⟩
  refine ⟨nextJob.trans sameJob, ?_⟩
  unfold Written
  rw [isKey, isVersion] at written
  cases inPlace with
  | true =>
      have attempts : next.db.attempts = closed.db.attempts := written.2
      refine ⟨written.1, ?_⟩
      intro attempt member
      rw [attempts] at member
      exact stale attempt member
  | false =>
      have isJob : held.row.id = row.id := congrArg Prod.fst isKey
      exact isJob ▸ written

omit alone in
theorem EndedAs.of_holds {status : Status} {held next : Held}
    (ended : EndedAs handle row status held)
    (holds : HoldsRow handle held.row next) :
    EndedAs handle row status next := by
  constructor
  · exact holds.attempt
  · rw [holds.row, ended.key]
  · rw [holds.row, ended.version]
  · rw [holds.row, ended.status]
  · rw [holds.row, ended.taskPath]
  · rw [holds.row, ended.queueName]

/-- A row that awaits its webhook stays marked while the delivery is pending or
breaks, and leaves otherwise. -/
theorem notify_ended {status : Status} {output event : String} {inPlace : Bool}
    (terminal : isTerminal status = true)
    (ended : EndedAs handle row status state.job)
    (isWebhook : state.job.webhook = webhook)
    (live : state.job.inHistory = !inPlace)
    (stays : webhook.url ≠ "" → inPlace = true)
    (written : Written inPlace handle row status output state.db) :
    Ends (fun _ next => EndedAs handle row status next.job ∧
        next.job.row = state.job.row ∧
        (∀ exc, ¬breaks setting webhook event exc) ∧
        (pending setting webhook event →
          Written true handle row status output next.db) ∧
        (¬pending setting webhook event →
          Written (inPlace && webhook.url = "") handle row status output
            next.db))
      (fun exc next => breaks setting webhook event exc ∧
        EndedAs handle row status next.job ∧
        Written true handle row status output next.db)
      (notify setting event) state := by
  by_cases awaits : webhook.url = ""
  · have quiet : state.job.awaitsWebhook = false := by
      simp [Held.awaitsWebhook, isWebhook, awaits]
    have kept : (inPlace && decide (webhook.url = "")) = inPlace := by
      simp [awaits]
    simp only [notify, ends_bind, ends_heldJob, quiet, Bool.false_eq_true,
      if_false, ends_pure, kept]
    exact ⟨ended, trivial, fun exc broken => broken.1 awaits,
      fun isPending => (isPending.1 awaits).elim, fun _ => written⟩
  · have marks := stays awaits
    subst marks
    have left : (true && decide (webhook.url = "")) = false := by simp [awaits]
    have marked : MarkedAs state.job.row output state.db := by
      unfold MarkedAs
      rw [ended.key, ended.version, ended.status]
      exact written.1
    have holds : HoldsRow handle state.job.row state.job :=
      ⟨ended.attempt, rfl, live⟩
    have isEnding : isTerminal state.job.row.status = true :=
      ended.status ▸ terminal
    have isJob : state.job.row.id = row.id := congrArg Prod.fst ended.key
    subst isWebhook
    apply (notify_marked alone isEnding awaits holds marked).mono
    · rintro _ next ⟨nextHolds, unbroken, isPending, resolved⟩
      refine ⟨ended.of_holds nextHolds, nextHolds.row, unbroken, ?_, ?_⟩
      · intro stillPending
        rw [isPending stillPending]
        exact written
      · intro settled
        have gone := resolved settled
        rw [isJob, ended.status] at gone
        rw [left]
        exact gone
    · rintro exc next ⟨broken, sameDb, nextHolds⟩
      exact ⟨broken, ended.of_holds nextHolds, sameDb ▸ written⟩

omit alone in
theorem attemptColumns_shown {returns : Option Columns → State → Prop}
    {raises : Exc → State → Prop} (shown : state.job.shown = true)
    (holds : ∀ columns, returns (some columns) state) :
    Ends returns raises (attemptColumns setting) state := by
  simp only [attemptColumns, ends_bind, ends_heldJob, shown, if_true, ends_pure]
  exact holds _

theorem markSuccess_alone {output : String}
    (working : Working handle row webhook state) :
    Ends (fun _ next => EndedAs handle row .success next.job ∧
        (∀ exc, ¬breaks setting webhook "success" exc) ∧
        (pending setting webhook "success" →
          Written true handle row .success output next.db) ∧
        (¬pending setting webhook "success" →
          Gone row.id .success output next.db))
      (fun exc next => breaks setting webhook "success" exc ∧
        EndedAs handle row .success next.job ∧
        Written true handle row .success output next.db)
      (markSuccess setting (.text output)) state := by
  obtain ⟨claimed, isShown⟩ := working.object
  have isKey : keyOf state.job.row = keyOf row := by rw [isShown]; rfl
  have isVersion : state.job.row.version = row.version := by rw [isShown]; rfl
  simp only [markSuccess, awaited, ends_bind, ends_heldJob, ends_now]
  apply attemptColumns_shown working.shown
  intro columns
  simp only [ends_bind, ends_editJob, ends_heldJob]
  apply (endRow_working alone ⟨state.db, { state.job with
    row := finishes (some columns) state.db.clock .success output ""
      state.job.row }, state.moment⟩ output state.job.awaitsWebhook _
    working.attempt working.found working.once isKey isVersion rfl
    fun _ => rfl).ofReturns
  rintro _ ⟨writtenDb, writtenJob, moment⟩ ⟨rfl, written⟩
  simp only [recordFinal, ends_bind, ends_editJob]
  have stays : webhook.url ≠ "" → state.job.awaitsWebhook = true := by
    intro awaits
    simpa [Held.awaitsWebhook, working.webhook] using awaits
  have sameTask : state.job.row.taskPath = row.taskPath := by
    rw [isShown]; rfl
  have sameQueue : state.job.row.queueName = row.queueName := by
    rw [isShown]; rfl
  apply Ends.mono
  · exact notify_ended alone rfl
      ⟨working.attempt, isKey, congrArg (· + 1) isVersion, rfl, sameTask,
        sameQueue⟩ working.webhook rfl stays written
  · rintro _ next ⟨ended, _, unbroken, isPending, resolved⟩
    refine ⟨ended, unbroken, isPending, ?_⟩
    intro settled
    have written := resolved settled
    have leaves_ : (state.job.awaitsWebhook && decide (webhook.url = "")) =
        false := by
      by_cases awaits : webhook.url = ""
      · simp [Held.awaitsWebhook, working.webhook, awaits]
      · simp [awaits]
    rw [leaves_] at written
    exact written
  · intro exc next broken
    exact broken

/-- The reason `execute_job` gives for a failure. -/
def failureReason (job : Job) (exc : Exc) : String :=
  if exc.kind = .timeout then s!"timeout_{timeoutText job}s" else "exception"

theorem markFailed_alone {error traceback reason : String}
    (working : Working handle row webhook state) :
    Ends (fun _ next => EndedAs handle row .failed next.job ∧
        next.job.row.terminationReason = reason ∧
        setting.dependentsRaise = none ∧
        (pending setting webhook "failure" →
          Written true handle row .failed row.output next.db) ∧
        (¬pending setting webhook "failure" →
          Written (isRetryPending reason && webhook.url = "") handle row .failed
            row.output next.db))
      (fun _ next => EndedAs handle row .failed next.job ∧
        (setting.dependentsRaise = none →
          ∃ exc, breaks setting webhook "failure" exc) ∧
        ∃ inPlace, Written inPlace handle row .failed row.output next.db)
      (markFailed setting error traceback reason) state := by
  obtain ⟨claimed, isShown⟩ := working.object
  have isKey : keyOf state.job.row = keyOf row := by rw [isShown]; rfl
  have isVersion : state.job.row.version = row.version := by rw [isShown]; rfl
  simp only [markFailed, ends_bind, ends_heldJob, ends_now]
  apply attemptColumns_shown working.shown
  intro columns
  simp only [ends_bind, ends_editJob, ends_heldJob, removeEntries,
    Option.isNone_some, Bool.and_false, Bool.false_eq_true, if_false]
  have sameTask : state.job.row.taskPath = row.taskPath := by
    rw [isShown]; rfl
  have sameQueue : state.job.row.queueName = row.queueName := by
    rw [isShown]; rfl
  apply (endRow_working alone ⟨state.db, { state.job with
    row := finishes (some columns) state.db.clock .failed "" error
      state.job.row }, state.moment⟩ row.output
    (isRetryPending reason || state.job.awaitsWebhook) _
    working.attempt working.found working.once isKey isVersion rfl
    fun _ => rfl).ofReturns
  rintro _ ⟨writtenDb, writtenJob, moment⟩ ⟨rfl, written⟩
  simp only [recordFinal, failDependentJobs, ends_bind, ends_editJob]
  cases raises : setting.dependentsRaise with
  | some exc =>
      exact ⟨⟨working.attempt, isKey, congrArg (· + 1) isVersion, rfl,
        sameTask, sameQueue⟩, (fun quiet => by cases quiet), _, written⟩
  | none =>
      have stays : webhook.url ≠ "" →
          (isRetryPending reason || state.job.awaitsWebhook) = true := by
        intro awaits
        have isAwaiting : state.job.awaitsWebhook = true := by
          simpa [Held.awaitsWebhook, working.webhook] using awaits
        rw [isAwaiting, Bool.or_true]
      rw [ends_pure]
      apply Ends.mono
      · exact notify_ended alone rfl
          ⟨working.attempt, isKey, congrArg (· + 1) isVersion, rfl, sameTask,
            sameQueue⟩ working.webhook rfl stays written
      · rintro _ next ⟨ended, sameRow, _, isPending, resolved⟩
        refine ⟨ended, ?_, rfl, isPending, ?_⟩
        · rw [sameRow]
          rfl
        · intro settled
          have left := resolved settled
          by_cases awaits : webhook.url = ""
          · have quiet : state.job.awaitsWebhook = false := by
              simp [Held.awaitsWebhook, working.webhook, awaits]
            rw [quiet, Bool.or_false] at left
            exact left
          · simpa [awaits] using left
      · rintro exc next ⟨broken, ended, stillWritten⟩
        exact ⟨ended, fun _ => ⟨exc, broken⟩, true, stillWritten⟩

/-! ### Retries -/

omit alone in
theorem EndedAs.of_reason {status : Status} {held : Held} {reason : String}
    (ended : EndedAs handle row status held) :
    EndedAs handle row status { held with
      row := { held.row with terminationReason := reason } } :=
  ⟨ended.attempt, ended.key, ended.version, ended.status, ended.taskPath,
    ended.queueName⟩

/-- Once the retry exists the failed row leaves. -/
theorem settleRetryMarker_alone {inPlace : Bool} {reason output : String}
    (ended : EndedAs handle row .failed state.job)
    (owes : state.job.row.terminationReason = pendingReason reason)
    (written : Written inPlace handle row .failed output state.db) :
    Ends (fun _ next => EndedAs handle row .failed next.job ∧
        Gone row.id .failed output next.db)
      (fun _ _ => False) (settleRetryMarker setting) state := by
  have isJob : state.job.row.id = row.id := congrArg Prod.fst ended.key
  simp only [settleRetryMarker, ends_bind, ends_heldJob, owes,
    ne_eq, settledReason_ne_pendingReason, not_false_eq_true, if_true,
    settleRetryPending, ends_meets_alone alone, isJob]
  cases inPlace with
  | true =>
      obtain ⟨marked, isMarked, _, isStatus, isOutput⟩ := written.1.row
      obtain ⟨found, isKey⟩ := row_eq_some_iff.mp isMarked
      have kept : (state.db.live.get row.id).filter
          (fun row => row.status = .failed) = some marked :=
        Option.filter_eq_some_iff.mpr ⟨found, by simpa using isStatus⟩
      simp only [kept, ends_bind, ends_transaction]
      have admitted : decide (marked.status = .failed) = true := by
        simpa using isStatus
      have there : state.db.row (keyOf marked) = some marked := isKey ▸ isMarked
      apply Ends.mono
      · exact move_alone alone there admitted isOutput
      · rintro result next ⟨_, sameJob, gone⟩
        simp only [ends_pure, ends_editJob]
        have nextEnded : EndedAs handle row .failed next.job := sameJob ▸ ended
        refine ⟨nextEnded.of_reason, ?_⟩
        rw [isKey] at gone
        exact gone
      · intro _ _ never
        exact never.elim
  | false =>
      have gone : Gone row.id .failed output state.db := written
      simp only [gone.live, Option.filter_none, ends_pure, ends_editJob]
      exact ⟨ended.of_reason, gone⟩

omit alone in
theorem written_retry {inPlace : Bool} {status : Status} {output : String}
    {retry : Job} {entry : Ready} {db : Db} (new : retry.id ≠ row.id)
    (written : Written inPlace handle row status output db) :
    Written inPlace handle row status output
      (addEntry entry { db with live := db.live.insert retry }) := by
  have sameGet : (db.live.insert retry).get row.id = db.live.get row.id :=
    Table.get_insert_of_ne new.symm
  have inserted : Written inPlace handle row status output
      { db with live := db.live.insert retry } := by
    cases inPlace with
    | true =>
        refine ⟨⟨?_⟩, written.2⟩
        obtain ⟨marked, isMarked, same⟩ := written.1.row
        exact ⟨marked,
          (row_of_get sameGet : _ = db.row (keyOf row)).trans isMarked, same⟩
    | false =>
        have gone : Gone row.id status output db := written
        exact Gone.mk (sameGet.trans gone.live) gone.history
  unfold addEntry
  split
  · exact inserted
  · cases inPlace with
    | true => exact ⟨⟨inserted.1.row⟩, inserted.2⟩
    | false =>
        have gone : Gone row.id status output
          { db with live := db.live.insert retry } := inserted
        exact Gone.mk gone.live gone.history

theorem retryJob_alone {inPlace : Bool} {reason output : String} {exc : Exc}
    (new : setting.newId ≠ row.id)
    (ended : EndedAs handle row .failed state.job)
    (owes : state.job.row.terminationReason = pendingReason reason)
    (written : Written inPlace handle row .failed output state.db) :
    Ends (fun _ next => EndedAs handle row .failed next.job ∧
        Gone row.id .failed output next.db)
      (fun _ next => EndedAs handle row .failed next.job ∧
        Written inPlace handle row .failed output next.db)
      (retryJob setting exc) state := by
  have settles : ∀ {next : State}, next.job = state.job →
      Written inPlace handle row .failed output next.db →
      Ends (fun _ last => EndedAs handle row .failed last.job ∧
          Gone row.id .failed output last.db)
        (fun _ last => EndedAs handle row .failed last.job ∧
          Written inPlace handle row .failed output last.db)
        (settleRetryMarker setting) next := by
    intro next sameJob nextWritten
    apply (settleRetryMarker_alone alone (sameJob ▸ ended) (sameJob ▸ owes)
      nextWritten).ofReturns
    intro _ last both
    exact both
  simp only [retryJob, ends_bind, ends_heldJob,
    ends_meets_alone alone, ends_ite]
  split
  · exact settles rfl written
  · cases setting.retryDelay state.job.row exc with
    | error raised => exact ⟨ended, written⟩
    | ok delay =>
        simp only [ends_bind, ends_meets_alone alone, ends_store]
        exact settles rfl (written_retry new written)

/-- The job is retried after the exception. -/
def willRetry (setting : Setting) (row : Job) (exc : Exc) : Bool :=
  retryBudgetLeft row && setting.policyAllowsRetry exc

/-- The failure stays in the live table when `execute_job` returns. -/
def lingers (setting : Setting) (row : Job) (webhook : Webhook) (exc : Exc) :
    Prop :=
  willRetry setting row exc = false ∧ setting.dependentsRaise = none ∧
    pending setting webhook "failure"

omit alone in
theorem not_isRetryPending_failureReason (job : Job) (exc : Exc) :
    isRetryPending (failureReason job exc) = false := by
  unfold failureReason
  split
  · have isList : s!"timeout_{timeoutText job}s".toList =
        't' :: ("imeout_".toList ++ (timeoutText job ++ "s").toList) := by
      simp only [String.toList_append, List.append_assoc]
      rfl
    exact isRetryPending_of_head isList (by decide)
  · decide

theorem failTask_alone {exc : Exc} (new : setting.newId ≠ row.id)
    (working : Working handle row webhook state) :
    Ends (fun _ next => EndedAs handle row .failed next.job ∧
        (lingers setting row webhook exc →
          Written true handle row .failed row.output next.db) ∧
        (¬lingers setting row webhook exc →
          Gone row.id .failed row.output next.db))
      (fun _ next => EndedAs handle row .failed next.job ∧
        ¬lingers setting row webhook exc ∧
        ∃ inPlace, Written inPlace handle row .failed row.output next.db)
      (failTask setting exc) state := by
  obtain ⟨claimed, isShown⟩ := working.object
  have sameBudget : retryBudgetLeft state.job.row = retryBudgetLeft row := by
    rw [isShown]
    rfl
  simp only [failTask, ends_bind, ends_heldJob, sameBudget]
  change Ends _ _ (markFailed setting _ _
    (if willRetry setting row exc then
      pendingReason (failureReason state.job.row exc)
    else failureReason state.job.row exc)) state
  apply (markFailed_alone alone working).mono
  · rintro _ next ⟨ended, isReason, unraised, isPending, resolved⟩
    by_cases retries : willRetry setting row exc = true
    · have stays : ¬lingers setting row webhook exc := by
        rintro ⟨never, _⟩
        rw [retries] at never
        cases never
      have isOwed : next.job.row.terminationReason =
          pendingReason (failureReason state.job.row exc) := by
        rw [isReason, if_pos retries]
      have written : ∃ inPlace,
          Written inPlace handle row .failed row.output next.db := by
        by_cases delivering : pending setting webhook "failure"
        · exact ⟨true, isPending delivering⟩
        · exact ⟨_, resolved delivering⟩
      obtain ⟨inPlace, written⟩ := written
      have goesOn : (retryBudgetLeft row && setting.policyAllowsRetry exc) =
          true := retries
      simp only [goesOn, if_true]
      apply (retryJob_alone alone new ended isOwed written).mono
      · rintro _ last ⟨lastEnded, gone⟩
        exact ⟨lastEnded, fun linger => (stays linger).elim, fun _ => gone⟩
      · rintro raised last ⟨lastEnded, lastWritten⟩
        exact ⟨lastEnded, stays, inPlace, lastWritten⟩
    · have isOver : willRetry setting row exc = false := by simpa using retries
      have stops : (retryBudgetLeft row && setting.policyAllowsRetry exc) =
          false := isOver
      simp only [stops, Bool.false_eq_true, if_false, ends_pure]
      refine ⟨ended, ?_, ?_⟩
      · rintro ⟨_, _, delivering⟩
        exact isPending delivering
      · intro leaves_
        have delivered : ¬pending setting webhook "failure" :=
          fun delivering => leaves_ ⟨isOver, unraised, delivering⟩
        have written := resolved delivered
        rw [if_neg retries, not_isRetryPending_failureReason,
          Bool.false_and] at written
        exact written
  · rintro raised next ⟨ended, isBroken, written⟩
    refine ⟨ended, ?_, written⟩
    rintro ⟨_, unraised, _, _, isRefused, _⟩
    obtain ⟨other, _, _, broke⟩ := isBroken unraised
    rw [isRefused] at broke
    cases broke

/-! ### The second write -/

/-- What `release_job` asks of the arguments it is called with. -/
structure KeepsCreation (change : Job → Job) : Prop where
  createdAt : ∀ row, (change row).createdAt = row.createdAt

omit alone in
theorem ends_bulkUpdate {filter : Filter} {kwargs : Kwargs}
    {returns : Nat → State → Prop} {raises : Exc → State → Prop} :
    Ends returns raises (bulkUpdate setting filter kwargs) state ↔
      returns
        ((updateToTerminal filter kwargs (fun statement =>
          setting.world (state.moment + statement)) state.db).count filter)
        { state with
          db := (updateToTerminal filter kwargs (fun statement =>
            setting.world (state.moment + statement)) state.db).after
          moment := state.moment + 4 + 2 *
            ((updateToTerminal filter kwargs (fun statement =>
              setting.world (state.moment + statement)) state.db).rows
                filter).length } := Iff.rfl

omit alone in
theorem atVersion_keyed {job : JobId} (version : Nat) (db : Db) (row : Job)
    (admitted : atVersion job version db row = true) : row.id = job := by
  simp only [atVersion, Bool.and_eq_true, decide_eq_true_eq] at admitted
  exact admitted.1

/-- `release_job` commits as soon as the row is where it is wanted. -/
theorem releaseJob_alone {status final : Status} {output : String}
    {terminal : isTerminal status = true} {change : Job → Job}
    (registered : setting.registered = true)
    (wanted : ∀ kwargs : Kwargs, ∀ db : Db, db.live = state.db.live →
      db.history = state.db.history → kwargs.status = status →
      kwargs.terminationReason = none →
      (∀ row, (kwargs.assign row).createdAt = row.createdAt ∧
        (kwargs.assign row).output = (change row).output) →
      Gone state.job.row.id final output
        (updateToTerminal (atVersion state.job.row.id state.job.row.version)
          kwargs (fun _ db => db) db).after)
    (creation : KeepsCreation change)
    (outputs : ∀ left right : Job, left.output = right.output →
      (change left).output = (change right).output) :
    Ends (fun _ next => Gone state.job.row.id final output next.db)
      (fun _ _ => False) (releaseJob setting status terminal change) state := by
  have assigns : ∀ (finishedAt : Time) (startedAt : Option Time) (row : Job),
      ((releaseKwargs status terminal finishedAt startedAt change).assign
        row).createdAt = row.createdAt ∧
      ((releaseKwargs status terminal finishedAt startedAt change).assign
        row).output = (change row).output := by
    intro finishedAt startedAt row
    exact ⟨creation.createdAt _, outputs _ _ rfl⟩
  simp only [releaseJob, releaseRow, closeOpen, ends_transaction, ends_bind,
    ends_heldJob, ends_meets_alone alone, ends_store, ends_now,
    ends_bulkUpdate, alone]
  apply (refreshIfThere_keeps _ (lasts_alone alone
    (Gone state.job.row.id final output)) (wanted _
      (closeAll _ state.job.row.id state.db) rfl rfl rfl rfl
        (assigns _ _))).ofReturns
  intro _ next gone
  simp only [saveWorker, registered, if_true, ends_pure]
  exact gone

/-- A row that has left is not found again. -/
theorem releaseJob_gone {status final : Status} {output : String}
    {terminal : isTerminal status = true} (change : Job → Job)
    (registered : setting.registered = true) (creation : KeepsCreation change)
    (outputs : ∀ left right : Job, left.output = right.output →
      (change left).output = (change right).output)
    (gone : Gone state.job.row.id final output state.db) :
    Ends (fun _ next => Gone state.job.row.id final output next.db)
      (fun _ _ => False) (releaseJob setting status terminal change) state := by
  apply releaseJob_alone alone registered _ creation outputs
  intro kwargs db sameLive sameHistory _ _ _
  have absent : db.live.get state.job.row.id = none := by
    rw [sameLive]
    exact gone.live
  have left := updateToTerminal_absent kwargs
    (atVersion_keyed state.job.row.version) absent
  refine ⟨left.1, ?_⟩
  rw [left.2, sameHistory]
  exact gone.history

/-- A row that was left in the live table is written over. -/
theorem releaseJob_written {status first : Status} {output last : String}
    {terminal : isTerminal status = true} (change : Job → Job)
    (registered : setting.registered = true) (creation : KeepsCreation change)
    (outputs : ∀ left right : Job, left.output = right.output →
      (change left).output = (change right).output)
    (isLast : ∀ row : Job, row.output = output → (change row).output = last)
    (carries : Carries handle (keyOf row) (row.version + 1) state.job)
    (written : Written true handle row first output state.db) :
    Ends (fun _ next => Gone row.id status last next.db) (fun _ _ => False)
      (releaseJob setting status terminal change) state := by
  have isJob : state.job.row.id = row.id := congrArg Prod.fst carries.key
  obtain ⟨marked, isMarked, isVersion, _, isOutput⟩ := written.1.row
  obtain ⟨found, isKey⟩ := row_eq_some_iff.mp isMarked
  have markedId : marked.id = row.id := congrArg Prod.fst isKey
  rw [← isJob]
  apply releaseJob_alone alone registered _ creation outputs
  intro kwargs db sameLive sameHistory isStatus noReason assigns
  have there : db.live.get state.job.row.id = some marked := by
    rw [sameLive, isJob]
    exact found
  have admits : ∀ other : Db, atVersion state.job.row.id state.job.row.version
      other marked = true := by
    intro other
    simp [atVersion, markedId, isJob, isVersion, carries.version]
  have final : kwargs.terminationReason.any isRetryPending = false := by
    rw [noReason]
    rfl
  have sameKey : ∀ row, keyOf (kwargs.assign row) = keyOf row := fun row =>
    Prod.ext rfl (assigns row).1
  obtain ⟨live, moment, history⟩ :=
    updateToTerminal_present (atVersion_keyed _) admits final sameKey there
  refine ⟨live, finished moment kwargs.status (kwargs.assign marked), ?_,
    isStatus, ?_⟩
  · rw [history, List.find?_cons_of_pos]
    simp [finished, markedId, isJob]
  · exact (assigns marked).2.trans (isLast marked isOutput)

/-! ### The claim -/

omit alone in
theorem newest_isSome {db : Db} {job : JobId} {attempt : Attempt}
    (member : attempt ∈ db.attempts) (ofJob : attempt.jobId = job) :
    ∃ newest, newestAttempt db job = some newest := by
  have keeps : ∀ (step : Option Attempt → Attempt → Option Attempt),
      (∀ best attempt, ∃ newest, step (some best) attempt = some newest) →
        ∀ (attempts : List Attempt) (best : Attempt), ∃ newest,
          attempts.foldl step (some best) = some newest := by
    intro step steps attempts
    induction attempts with
    | nil =>
        intro best
        exact ⟨best, rfl⟩
    | cons head rest induction =>
        intro best
        obtain ⟨newer, isNewer⟩ := steps best head
        rw [List.foldl_cons, isNewer]
        exact induction newer
  unfold newestAttempt
  have isOf : attempt ∈ db.attempts.filter fun attempt =>
      attempt.jobId = job :=
    List.mem_filter.mpr ⟨member, by simpa using ofJob⟩
  cases found : db.attempts.filter fun attempt => attempt.jobId = job with
  | nil =>
      rw [found] at isOf
      cases isOf
  | cons head rest =>
      apply keeps
      intro best attempt
      by_cases newer : best.id < attempt.id
      · exact ⟨attempt, if_pos newer⟩
      · exact ⟨best, if_neg newer⟩

/-- The state in which `execute_job` begins. -/
structure Claimed (handle : AttemptHandle) (row : Job) (webhook : Webhook)
    (state : State) : Prop where
  attempt : state.job.attempt = some handle
  webhook : state.job.webhook = webhook
  key : keyOf state.job.row = keyOf row
  queued : row.status = .queued
  found : state.db.row (keyOf row) = some row
  once : OpenOnce handle state.db
  running : ∃ attempt, openAttempt state.db row.id = some attempt

omit alone in
theorem id_lt_newAttempt {db : Db} {attempt : Attempt}
    (member : attempt ∈ db.attempts) :
    attempt.id < (db.attempts.map Attempt.id).foldr max 0 + 1 := by
  have bound : ∀ ids : List Nat, ∀ id ∈ ids, id ≤ ids.foldr max 0 := by
    intro ids
    induction ids with
    | nil =>
        intro id isId
        cases isId
    | cons head rest induction =>
        intro id isId
        rw [List.foldr_cons]
        rcases List.mem_cons.mp isId with rfl | later
        · exact Nat.le_max_left _ _
        · exact (induction id later).trans (Nat.le_max_right _ _)
  exact Nat.lt_succ_of_le (bound _ _ (List.mem_map_of_mem member))

omit alone in
theorem claimed_of_claims {free : Bool} {slot : Option Nat}
    {worker : Option WorkerId} {pid : Nat} {token : String} {held : Held}
    {db after : Db} (there : db.row (keyOf row) = some row)
    (claims : atomicClaimJob free slot worker pid token { row, webhook } db =
      (some held, after)) :
    ∃ handle, Claimed handle row webhook ⟨after, held, 0⟩ := by
  simp only [atomicClaimJob] at claims
  split at claims
  · split at claims
    · cases claims
    · cases claims
    · rename_i judged
      cases claims
      have queued : row.status = .queued := by
        simp only [judgeClaim] at judged
        split at judged
        · cases judged
        · rename_i shown
          cases there.symm.trans shown
          split at judged
          · cases judged
          · split at judged
            · rename_i isOk
              exact (claimVerdict_eq_ok.mp isOk).1
            · split at judged
              · cases judged
              · cases judged
      have isNew : ∀ attempt ∈ db.attempts,
          (AttemptHandle.ofAttempt (newAttempt db row.id worker pid
            token)).names attempt = false := by
        intro attempt member
        have older := id_lt_newAttempt member
        simp only [AttemptHandle.names, AttemptHandle.ofAttempt, newAttempt,
          Bool.and_eq_false_iff]
        exact .inl (decide_eq_false older.ne)
      refine ⟨.ofAttempt (newAttempt db row.id worker pid token), rfl, rfl, rfl,
        queued, there, ?_, ?_⟩
      · unfold OpenOnce
        change ((newAttempt db row.id worker pid token ::
          db.attempts).filter _).length = 1
        rw [List.filter_cons_of_pos, List.filter_eq_nil_iff.mpr]
        · rfl
        · intro attempt member
          rw [isNew attempt member]
          exact Bool.false_ne_true
        · simp [AttemptHandle.names, AttemptHandle.ofAttempt, newAttempt,
            Attempt.isOpen]
      · have isThere : newAttempt db row.id worker pid token ∈
            (newAttempt db row.id worker pid token :: db.attempts).filter
              Attempt.isOpen :=
          List.mem_filter.mpr ⟨List.mem_cons_self, rfl⟩
        exact newest_isSome isThere rfl
  · cases claims

/-- A claimed job shows as running, so its task is executed. -/
theorem executeJob_working {returns : Unit → State → Prop}
    {raises : Exc → State → Prop} {ended : Ended}
    (claimed : Claimed handle row webhook state)
    (settles : ∀ working, Working handle row webhook working →
      Ends returns raises (settleTask setting ended) working) :
    Ends returns raises (executeJob setting ended) state := by
  obtain ⟨attempt, isOpen⟩ := claimed.running
  have found : state.db.row (keyOf state.job.row) = some row := by
    rw [claimed.key]
    exact claimed.found
  simp only [executeJob, refreshFromDb, ends_bind, ends_heldJob,
    ends_meets_alone alone, found, ends_editJob, claimed.queued, if_true,
    isOpen]
  simp only [overlayRunning, if_true]
  apply settles
  constructor
  · exact claimed.attempt
  · rfl
  · exact claimed.webhook
  · exact ⟨attempt, rfl⟩
  · exact claimed.found
  · exact claimed.once

end Transitions

end Alone

end Sqlery.Django.PoolWorker
