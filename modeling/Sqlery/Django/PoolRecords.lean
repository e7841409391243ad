import Sqlery.Django.PoolOutcome

/-!
# When the pool worker records the true outcome

The second write is lost if the first has moved the row.  It wins over a row
that waits for its webhook: a success then gets the text of the job as its
output, and a failure becomes a success.
-/

namespace Sqlery.Django.PoolWorker

open ReadCommitted
open BulkUpdate

section Records

variable {setting : Setting} {state : State} {handle : AttemptHandle}
  {row : Job} {webhook : Webhook}
  (alone : setting.world = fun _ db => db)
  (registered : setting.registered = true)

include alone registered

/-- After an exception `release_job` leaves a failed row failed. -/
theorem releaseFailed_alone {exc : Exc} {inPlace : Bool} {output : String}
    {first : Status}
    (carries : Carries handle (keyOf row) (row.version + 1) state.job)
    (failed : inPlace = false → first = .failed)
    (written : Written inPlace handle row first output state.db) :
    Ends (fun _ next => Records row.id .failed output next.db)
      (fun _ _ => False)
      (releaseJob setting .failed rfl (failedWith setting exc)) state := by
  have isJob : state.job.row.id = row.id := congrArg Prod.fst carries.key
  cases inPlace with
  | true =>
      apply (releaseJob_written alone (failedWith setting exc) registered
        ⟨fun _ => rfl⟩ (fun _ _ same => same) (fun _ same => same) carries
        written).mono
      · intro _ next gone
        exact gone.records
      · intro _ _ never
        exact never
  | false =>
      have isFailed := failed rfl
      subst isFailed
      have gone : Gone state.job.row.id .failed output state.db := by
        rw [isJob]
        exact written
      apply (releaseJob_gone alone (failedWith setting exc) registered
        ⟨fun _ => rfl⟩ (fun _ _ same => same) gone).mono
      · intro _ next stillGone
        rw [isJob] at stillGone
        exact stillGone.records
      · intro _ _ never
        exact never

/-- `execute_job` has returned. -/
theorem releaseSuccess_alone {first : Status} {output : String}
    {inPlace : Bool} {text : String}
    (ended : EndedAs handle row first state.job)
    (written : Written inPlace handle row first output state.db) :
    Ends (fun _ next => if inPlace then Records row.id .success text next.db
        else Records row.id first output next.db)
      (fun _ _ => False)
      (releaseJob setting .success rfl (endedWith text)) state := by
  have isJob : state.job.row.id = row.id := congrArg Prod.fst ended.key
  cases inPlace with
  | true =>
      apply (releaseJob_written alone (endedWith text) registered
        ⟨fun _ => rfl⟩ (fun _ _ _ => rfl) (fun _ _ => rfl) ended.carries
        written).mono
      · intro _ next gone
        exact gone.records
      · intro _ _ never
        exact never
  | false =>
      have gone : Gone state.job.row.id first output state.db := by
        rw [isJob]
        exact written
      apply (releaseJob_gone alone (endedWith text) registered
        ⟨fun _ => rfl⟩ (fun _ _ _ => rfl) gone).mono
      · intro _ next stillGone
        rw [isJob] at stillGone
        exact stillGone.records
      · intro _ _ never
        exact never

/-! ## Whole iterations -/

omit registered in
theorem failTask_again {exc : Exc} {status : Status} {output : String}
    (ended : EndedAs handle row status state.job)
    (written : Written true handle row status output state.db) :
    Ends (fun _ _ => False)
      (fun exc next => exc.isException = true ∧
        Written true handle row status output next.db ∧
        Carries handle (keyOf row) (row.version + 1) next.job)
      (failTask setting exc) state :=
  failTask_rejects (lasts_alone alone _) (fun _ both => both.2)
    (fun _ _ both => ⟨⟨both.1.row⟩, both.2⟩) ended.carries written

omit alone registered in
theorem jobText_ended {status : Status} {held : Held}
    (ended : EndedAs handle row status held) :
    jobText setting held.row = jobText setting { row with status } := by
  simp only [jobText, ended.taskPath, ended.queueName, ended.status]

/-- What is recorded when the task has returned. -/
theorem processJob_returned {result : Result} {output : String}
    (claimed : Claimed handle row webhook state)
    (text : serializeResult result = .text output) :
    RecordedAs row.id
      (fun status last => (status = .success ∧ last = output) ↔
        (∀ exc, breaks setting webhook "success" exc →
          exc.isException = false) ∧
        (pending setting webhook "success" →
          jobText setting { row with status := .success } = output))
      (leaves (processJob setting (.returned result)) state).db := by
  apply Ends.leaves fun next => RecordedAs row.id _ next.db
  unfold processJob releasing
  rw [ends_catching, ends_bind]
  apply executeJob_working alone claimed
  intro working isWorking
  unfold settleTask
  simp only [text]
  rw [ends_catching]
  apply (markSuccess_alone alone isWorking).mono
  · rintro _ next ⟨ended, unbroken, isPending, resolved⟩
    simp only [ends_bind, ends_heldJob]
    have whole : ∀ exc, breaks setting webhook "success" exc →
        exc.isException = false := fun exc broken =>
      (unbroken exc broken).elim
    by_cases delivering : pending setting webhook "success"
    · apply (releaseSuccess_alone alone registered ended
        (isPending delivering)).ofReturns
      intro _ last records
      refine ⟨_, _, records, ?_⟩
      rw [jobText_ended ended]
      exact ⟨fun same => ⟨whole, fun _ => same.2⟩,
        fun both => ⟨rfl, both.2 delivering⟩⟩
    · have gone : Written false handle row .success output next.db :=
        resolved delivering
      apply (releaseSuccess_alone alone registered ended gone).ofReturns
      intro _ last records
      exact ⟨_, _, records, fun _ => ⟨whole, fun isPending =>
        (delivering isPending).elim⟩, fun _ => ⟨rfl, rfl⟩⟩
  · rintro exc next ⟨broken, ended, written⟩
    have settled : ¬pending setting webhook "success" := by
      rintro ⟨_, _, isRefused, _⟩
      have isBroken := broken.2.2
      rw [isRefused] at isBroken
      cases isBroken
    split
    · rename_i caught
      apply (failTask_again alone ended written).ofRaises
      rintro again last ⟨isException, stillWritten, carries⟩
      rw [if_pos isException]
      have marked : true = false → Status.success = .failed :=
        fun never => by cases never
      apply (releaseFailed_alone alone registered carries marked
        stillWritten).ofReturns
      intro _ final records
      refine ⟨_, _, records, (fun both => by cases both.1), ?_⟩
      intro both
      rw [both.1 exc broken] at caught
      cases caught
    · rename_i fatal
      refine ⟨_, _, written.1.records, fun _ => ⟨?_, fun isPending =>
        (settled isPending).elim⟩, fun _ => ⟨rfl, rfl⟩⟩
      intro other isBroken
      have same := broken.2.2.symm.trans isBroken.2.2
      cases same
      simpa using fatal

/-- What is recorded when the task has raised. -/
theorem processJob_raised {exc : Exc} (new : setting.newId ≠ row.id)
    (claimed : Claimed handle row webhook state) :
    RecordedAs row.id
      (fun status _ => status ≠ .success ↔
        (exc.isException = true → ¬lingers setting row webhook exc))
      (leaves (processJob setting (.raised exc)) state).db := by
  apply Ends.leaves fun next => RecordedAs row.id _ next.db
  unfold processJob releasing
  rw [ends_catching, ends_bind]
  apply executeJob_working alone claimed
  intro working isWorking
  unfold settleTask
  rw [ends_catching, ends_throw]
  split
  · rename_i caught
    apply (failTask_alone alone new isWorking).mono
    · rintro _ next ⟨ended, isLingering, left⟩
      simp only [ends_bind, ends_heldJob]
      by_cases linger : lingers setting row webhook exc
      · apply (releaseSuccess_alone alone registered ended
          (isLingering linger)).ofReturns
        intro _ last records
        exact ⟨_, _, records, fun other => (other rfl).elim,
          fun never => (never caught linger).elim⟩
      · have gone : Written false handle row .failed row.output next.db :=
          left linger
        apply (releaseSuccess_alone alone registered ended gone).ofReturns
        intro _ last records
        exact ⟨_, _, records, fun _ _ => linger, fun _ same => by cases same⟩
    · rintro again next ⟨ended, stays, inPlace, written⟩
      split
      · apply (releaseFailed_alone alone registered ended.carries
          (fun _ => rfl) written).ofReturns
        intro _ last records
        exact ⟨_, _, records, fun _ _ => stays, fun _ same => by cases same⟩
      · have records : Records row.id .failed row.output next.db := by
          cases inPlace with
          | true => exact written.1.records
          | false => exact Gone.records written
        exact ⟨_, _, records, fun _ _ => stays, fun _ same => by cases same⟩
  · rename_i fatal
    have records : Records row.id .queued row.output working.db := by
      have live : working.db.live.get row.id = some row :=
        (row_eq_some_iff.mp isWorking.found).1
      refine ⟨row, ?_, claimed.queued, rfl⟩
      rw [recorded, live, Option.some_or]
    exact ⟨_, _, records, fun _ caught => (fatal caught).elim,
      fun _ same => by cases same⟩

end Records

/-! ## The true outcome -/

/-- The recorded status is success exactly if the task has returned, and the
recorded output is then its serialised result. -/
def RecordsTruth (ended : Ended) (job : JobId) (db : Db) : Prop :=
  ∃ row, recorded db job = some row ∧
    (row.status = .success ↔ ∃ result, ended = .returned result) ∧
    ∀ result, ended = .returned result →
      serializeResult result = .text row.output

/-- The result can be stored, no delivery of the success breaks, and a pending
one leaves the job with its own text; a failure is not left in the live table
by a pending delivery. -/
def Faithful (setting : Setting) (row : Job) (webhook : Webhook) :
    Ended → Prop
  | .returned result => ∃ output, serializeResult result = .text output ∧
      (∀ exc, breaks setting webhook "success" exc →
        exc.isException = false) ∧
      (pending setting webhook "success" →
        jobText setting { row with status := .success } = output)
  | .raised exc => exc.isException = true → ¬lingers setting row webhook exc

theorem recordsTruth_returned {result : Result} {output last : String}
    {status : Status} {job : JobId} {db : Db}
    (text : serializeResult result = .text output)
    (records : Records job status last db) :
    RecordsTruth (.returned result) job db ↔
      status = .success ∧ last = output := by
  obtain ⟨row, found, rfl, rfl⟩ := records
  constructor
  · rintro ⟨other, again, isSuccess, isOutput⟩
    rw [found] at again
    cases again
    have stored := isOutput result rfl
    rw [text] at stored
    cases stored
    exact ⟨isSuccess.mpr ⟨result, rfl⟩, rfl⟩
  · rintro ⟨isSuccess, isOutput⟩
    refine ⟨row, found, ⟨fun _ => ⟨result, rfl⟩, fun _ => isSuccess⟩, ?_⟩
    rintro other same
    cases same
    rw [text, isOutput]

theorem recordsTruth_raised {exc : Exc} {last : String} {status : Status}
    {job : JobId} {db : Db} (records : Records job status last db) :
    RecordsTruth (.raised exc) job db ↔ status ≠ .success := by
  obtain ⟨row, found, rfl, rfl⟩ := records
  constructor
  · rintro ⟨other, again, isSuccess, _⟩ success
    rw [found] at again
    cases again
    obtain ⟨result, same⟩ := isSuccess.mp success
    cases same
  · intro failed
    refine ⟨row, found, ⟨fun success => (failed success).elim, ?_⟩, ?_⟩
    · rintro ⟨result, same⟩
      cases same
    · intro result same
      cases same

/-- A job the worker claims with no other process active. -/
theorem recordsTruth_iff (setting : Setting) (ended : Ended) (row : Job)
    (webhook : Webhook) (held : Held) (db after : Db) (free : Bool)
    (slot : Option Nat) (worker : Option WorkerId) (pid : Nat) (token : String)
    (alone : setting.world = fun _ db => db)
    (registered : setting.registered = true)
    (new : setting.newId ≠ row.id) (there : db.row (keyOf row) = some row)
    (claims : atomicClaimJob free slot worker pid token { row, webhook } db =
      (some held, after)) :
    RecordsTruth ended row.id
        (leaves (processJob setting ended) ⟨after, held, 0⟩).db ↔
      Faithful setting row webhook ended := by
  obtain ⟨handle, claimed⟩ := claimed_of_claims there claims
  cases ended with
  | returned result =>
      cases text : serializeResult result with
      | awaitable typeName =>
          constructor
          · rintro ⟨final, _, _, isOutput⟩
            have stored := isOutput result rfl
            rw [text] at stored
            cases stored
          · rintro ⟨output, stored, _⟩
            rw [text] at stored
            cases stored
      | text output =>
          obtain ⟨status, last, records, isTrue⟩ :=
            processJob_returned alone registered claimed text
          rw [recordsTruth_returned text records, isTrue]
          constructor
          · intro both
            exact ⟨output, text, both⟩
          · rintro ⟨other, stored, both⟩
            rw [text] at stored
            cases stored
            exact both
  | raised exc =>
      obtain ⟨status, last, records, isTrue⟩ :=
        processJob_raised alone registered new claimed
      rw [recordsTruth_raised records, isTrue]
      rfl

/-! ## A webhook that can not be delivered -/

def watchedRow : Job where
  id := 1
  createdAt := 0
  taskPath := "app.tasks.send"

def watchedWebhook : Webhook where
  url := "https://example.test/hook"
  events := ["success", "failure"]

def watchedDb : Db where
  live := ⟨[watchedRow], by decide⟩
  ready := [entryFor 0 watchedRow]

def unreachable : Setting where
  delivery _ := .refused
  newId := 2

def watchedClaim : Option Held × Db :=
  atomicClaimJob true none none 1 "a"
    { row := watchedRow, webhook := watchedWebhook } watchedDb

/-- The object the claim gives to the worker. -/
def watchedHeld : Held :=
  watchedClaim.1.getD { row := watchedRow, webhook := watchedWebhook }

/-- A task that raises is recorded as a success. -/
theorem failure_recorded_as_success :
    watchedClaim = (some watchedHeld, watchedClaim.2) ∧
      (recorded (leaves (processJob unreachable
        (.raised { message := "no route" }))
          ⟨watchedClaim.2, watchedHeld, 0⟩).db
          1).map Job.status = some .success ∧
      ¬RecordsTruth (.raised { message := "no route" }) 1
        (leaves (processJob unreachable (.raised { message := "no route" }))
          ⟨watchedClaim.2, watchedHeld, 0⟩).db := by
  have success : (recorded (leaves (processJob unreachable
      (.raised { message := "no route" })) ⟨watchedClaim.2, watchedHeld, 0⟩).db
        1).map Job.status = some .success := by
    decide +kernel
  refine ⟨rfl, success, ?_⟩
  rintro ⟨row, found, isSuccess, _⟩
  rw [found] at success
  obtain ⟨result, same⟩ := isSuccess.mp (Option.some.inj success)
  cases same

theorem recordsTruth_iff_undelivered :
    RecordsTruth (.returned (.str "sent")) 1
        (leaves (processJob unreachable (.returned (.str "sent")))
          ⟨watchedClaim.2, watchedHeld, 0⟩).db ↔
      Faithful unreachable watchedRow watchedWebhook
        (.returned (.str "sent")) :=
  recordsTruth_iff unreachable (.returned (.str "sent")) watchedRow
    watchedWebhook watchedHeld watchedDb watchedClaim.2 true none none 1 "a" rfl
    rfl (by decide) (by decide) rfl

end Sqlery.Django.PoolWorker
