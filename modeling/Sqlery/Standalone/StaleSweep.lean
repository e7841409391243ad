import Sqlery.Standalone.Fencing

/-!
# The stale sweep

The sweep compares the age of the attempts it finds running with the threshold
of their jobs and later fails the jobs past it without presenting an attempt.
What it ends is what it judged as long as no other process ends an attempt it
judged and leaves the job in the live table.
-/

namespace Sqlery.Standalone

open ReadCommitted

/-! ## Judged attempts -/

section Judged

variable {dialect : Dialect} {call : Call} {stage : Stage} {db : Db}
variable {state : Loc} {job : JobId} {id : AttemptId}

/-- The attempt is open for the job. -/
def Alive (job : JobId) (id : AttemptId) (db : Db) : Prop :=
  ∃ attempt, db.attempts.get id = some attempt ∧ attempt.runs job = true

/-- The job cannot be claimed any more. -/
def Unclaimable (job : JobId) (db : Db) : Prop :=
  ∀ row, db.live.get job = some row → row.status ≠ .queued

/-- The attempt is over, and the job with it: it has no open attempt and never
will have one. -/
structure Over (job : JobId) (id : AttemptId) (db : Db) : Prop where
  known : ∃ attempt, db.attempts.get id = some attempt ∧ attempt.jobId = job
  idle : db.hasOpenAttempt job = false
  unclaimable : Unclaimable job db

/-- The transaction sets no row of the job back to `queued`. -/
def NoRequeue (job : JobId) (writes : List Write) : Prop :=
  ∀ row, .setLive row ∈ writes → row.id = job → row.status ≠ .queued

theorem noInsert_of_known (lawful : Lawful dialect call stage db state)
    (known : ∃ attempt, db.attempts.get id = some attempt ∧
      attempt.jobId = job) :
    ∀ new, .insertLive new ∈ state.pending → new.id ≠ job := by
  intro new inserted same
  obtain ⟨attempt, found, isJob⟩ := known
  exact (lawful.inserted new inserted).1.attempts attempt
    (Table.mem_of_get found) (isJob.trans same.symm)

theorem Unclaimable.kept (unclaimable : Unclaimable job db)
    (noInsert : ∀ new, .insertLive new ∈ state.pending → new.id ≠ job)
    (noRequeue : NoRequeue job state.pending) :
    Unclaimable job (after state.pending db) := by
  intro row found
  rcases live_after_cases found with ⟨new, inserted, same⟩ |
    ⟨old, isOld, rfl | isSet⟩
  · exact (noInsert new inserted same).elim
  · exact unclaimable row isOld
  · exact noRequeue row isSet (Table.key_of_get found)

theorem Over.kept (ended : Over job id db)
    (lawful : Lawful dialect call stage db state)
    (noRequeue : NoRequeue job state.pending) :
    Over job id (after state.pending db) where
  known := by
    obtain ⟨attempt, found, isJob⟩ := ended.known
    obtain ⟨now, isNow, sameJob, _⟩ :=
      attempts_after_present state.pending found
    exact ⟨now, isNow, sameJob.trans isJob⟩
  idle := by
    rw [hasOpenAttempt_eq_false]
    intro attempt member isOpen isJob
    rcases open_after_cases member isOpen with old | new
    · exact hasOpenAttempt_eq_false.mp ended.idle attempt old isOpen isJob
    · obtain ⟨row, found, queued⟩ := (lawful.opened attempt new).2.2.row
      rw [isJob] at found
      exact ended.unclaimable row found queued
  unclaimable := ended.unclaimable.kept
    (noInsert_of_known lawful ended.known) noRequeue

theorem Alive.kept (alive : Alive job id db)
    (notClosed : ¬Closes id state.pending) :
    Alive job id (after state.pending db) := by
  obtain ⟨attempt, found, runs⟩ := alive
  refine ⟨attempt, attempts_after_kept found ?_, runs⟩
  intro write member isClose
  exact notClosed ⟨write, member, isClose⟩

/-- An attempt that is closed while its job cannot be claimed is over. -/
theorem Alive.ended (alive : Alive job id db) (inv : Inv db)
    (lawful : Lawful dialect call stage db state)
    (closed : Closes id state.pending)
    (unclaimable : Unclaimable job (after state.pending db)) :
    Over job id (after state.pending db) := by
  obtain ⟨attempt, found, runs⟩ := alive
  obtain ⟨isJob, isOpen⟩ := runs_iff.mp runs
  obtain ⟨write, isWrite, isClose⟩ := closed
  obtain ⟨now, isNow, sameJob, _⟩ :=
    attempts_after_present state.pending found
  refine ⟨⟨now, isNow, sameJob.trans isJob⟩, ?_, unclaimable⟩
  rw [hasOpenAttempt_eq_false]
  intro other member otherOpen otherJob
  rcases open_after_cases member otherOpen with old | new
  · have same : other = attempt := inv.single other old attempt
      (Table.mem_of_get found) otherOpen isOpen (otherJob.trans isJob.symm)
    have isId : attempt.id = id := Table.key_of_get found
    obtain ⟨last, isLast, isClosed⟩ :=
      attempts_after_closed found isWrite isClose
    have isOther := Table.get_of_mem member
    rw [same, isId, isLast] at isOther
    cases isOther
    rw [isClosed] at isOpen
    cases isOpen
  · have idle := (lawful.opened other new).2.2.idle
    rw [otherJob] at idle
    exact hasOpenAttempt_eq_false.mp idle attempt (Table.mem_of_get found)
      isOpen isJob

theorem Alive.sameTables {next : Db} (alive : Alive job id db)
    (same : SameTables db next) : Alive job id next := by
  rw [Alive, same.attempts]
  exact alive

theorem Over.sameTables {next : Db} (ended : Over job id db)
    (same : SameTables db next) : Over job id next where
  known := by
    rw [same.attempts]
    exact ended.known
  idle := by
    rw [Db.hasOpenAttempt, same.attempts]
    exact ended.idle
  unclaimable := by
    rw [Unclaimable, same.live]
    exact ended.unclaimable

end Judged

/-! ## The sweep over whole runs -/

section Sweep

variable {cfg : Config} {n : Nat} {state next : World n}
variable {action : Action Write Call n}

/-- The process is in the middle of a sweep that has found this attempt past
its threshold. -/
def Judging (state : World n) (process : Fin n) (job : JobId)
    (id : AttemptId) : Prop :=
  (∃ call, (state.session process).call = some call ∧ call.sweeps = true) ∧
    (state.session process).prog.idle = false ∧
    .remark (.judged job id) ∈ (state.session process).state.noted

/-- While a sweep is running, no other process commits the end of an attempt
the sweep found past its threshold, unless it moves the job into history with
it, and none sets the job back to `queued`. -/
def Undisturbed (state : World n) (action : Action Write Call n) : Prop :=
  ∀ committer call, System.committing state action = some (committer, call) →
    ∀ process, process ≠ committer → ∀ job id, Judging state process job id →
      (Closes id (state.session committer).state.pending →
        .deleteLive job ∈ (state.session committer).state.pending) ∧
      NoRequeue job (state.session committer).state.pending

/-- A sweep that commits ends no attempt but one it judged and updates no row
but that of a job it judged, and it writes the row of a judged job only while
the judged attempt is open, or after it has ended that attempt itself. -/
def EndsJudged (state : World n) : Prop :=
  ∀ process call rest, (state.session process).call = some call →
    call.sweeps = true → (state.session process).prog = .commit rest →
    (∀ id job now outcome, .closeAttempt id job now outcome ∈
        (state.session process).state.pending →
      .remark (.judged job id) ∈ (state.session process).state.noted) ∧
    (∀ row, .setLive row ∈ (state.session process).state.pending →
      ∃ id, .remark (.judged row.id id) ∈
        (state.session process).state.noted) ∧
    ∀ job id, .remark (.judged job id) ∈
        (state.session process).state.noted →
      (∃ row : Job, row.id = job ∧
        (.insertHistory row ∈ (state.session process).state.pending ∨
          .setLive row ∈ (state.session process).state.pending)) →
      Alive job id state.db ∨
        Closes id (state.session process).state.written

/-- What becomes of the attempts a running sweep has judged. -/
def Judgements (state : World n) : Prop :=
  ∀ process job id, Judging state process job id →
    Alive job id state.db ∨ (Over job id state.db ∧
      (state.db.live.get job = none ∨
        Closes id (state.session process).state.written))

theorem completes_of_sweeps {call : Call} (sweeps : call.sweeps = true) :
    call.completes = none ∧ call.requeues = false := by
  cases call <;> first | exact ⟨rfl, rfl⟩ | cases sweeps

/-- A job whose attempt the sweep itself closes cannot be claimed any more. -/
theorem unclaimable_of_swept {dialect : Dialect} {call : Call}
    {stage : Stage} {db : Db} {local_ : Loc} {job : JobId} {id : AttemptId}
    (lawful : Lawful dialect call stage db local_)
    (complete : stage.complete = true) (sweeps : call.sweeps = true)
    (alive : Alive job id db) (closed : Closes id local_.pending) :
    Unclaimable job (after local_.pending db) := by
  obtain ⟨attempt, found, runs⟩ := alive
  have isJob := (runs_iff.mp runs).1
  have noInsert : ∀ new, .insertLive new ∈ local_.pending → new.id ≠ job :=
    noInsert_of_known lawful ⟨attempt, found, isJob⟩
  obtain ⟨completesNone, noRequeues⟩ := completes_of_sweeps sweeps
  have absent : (after local_.pending db).live.get job = none →
      Unclaimable job (after local_.pending db) := by
    intro isNone row isRow
    rw [isNone] at isRow
    cases isRow
  obtain ⟨write, member, owner, now, outcome, rfl⟩ := closed
  obtain ⟨same, isSame, sameRuns⟩ := lawful.closed id owner now outcome member
  rw [found] at isSame
  cases isSame
  have isOwner : owner = job := (runs_iff.mp sameRuns).1.symm.trans isJob
  subst isOwner
  cases lawful.settled id owner now outcome member with
  | moves deleted =>
      exact absent (live_after_removed deleted (Or.inl rfl) noInsert)
  | leaves row isSet isRow _ =>
      intro last isLast isQueued
      have lastSet := live_after_set isLast isSet isRow noInsert
      have requeues := (lawful.updated last lastSet).2.2 isQueued
      rw [noRequeues] at requeues
      cases requeues
  | gone isNone => exact absent (live_after_none isNone noInsert)
  | foreign target completes _ =>
      rw [completesNone] at completes
      cases completes
  | owing isOwing =>
      rw [isOwing] at complete
      cases complete
  | moving isMoving =>
      rw [isMoving] at complete
      cases complete
  | filed _ quiet _ =>
      rw [sweeps] at quiet
      cases quiet

/-- What a judgement comes to when the sweep itself commits. -/
theorem judgement_own {dialect : Dialect} {call : Call} {stage : Stage}
    {db : Db} {local_ : Loc} {job : JobId} {id : AttemptId} (inv : Inv db)
    (lawful : Lawful dialect call stage db local_)
    (complete : stage.complete = true) (sweeps : call.sweeps = true)
    (before : Alive job id db ∨ (Over job id db ∧
      (db.live.get job = none ∨ Closes id local_.written))) :
    Alive job id (after local_.pending db) ∨
      (Over job id (after local_.pending db) ∧
        ((after local_.pending db).live.get job = none ∨
          Closes id (local_.written ++ local_.pending))) := by
  rcases before with alive | ⟨ended, gone⟩
  · by_cases closed : Closes id local_.pending
    · have unclaimable :=
        unclaimable_of_swept lawful complete sweeps alive closed
      exact Or.inr ⟨alive.ended inv lawful closed unclaimable,
        Or.inr (closed.append_right _)⟩
    · exact Or.inl (alive.kept closed)
  · have noRequeue : NoRequeue job local_.pending := by
      intro row isSet _ isQueued
      have requeues := (lawful.updated row isSet).2.2 isQueued
      rw [(completes_of_sweeps sweeps).2] at requeues
      cases requeues
    refine Or.inr ⟨ended.kept lawful noRequeue, ?_⟩
    exact gone.imp
      (fun isNone => live_after_none isNone
        (noInsert_of_known lawful ended.known))
      fun closed => closed.append_left _

/-- What a judgement comes to when another process commits. -/
theorem judgement_other {dialect : Dialect} {call : Call} {stage : Stage}
    {db : Db} {local_ : Loc} {job : JobId} {id : AttemptId}
    {written : List Write} (inv : Inv db)
    (lawful : Lawful dialect call stage db local_)
    (moves : Closes id local_.pending → .deleteLive job ∈ local_.pending)
    (noRequeue : NoRequeue job local_.pending)
    (before : Alive job id db ∨ (Over job id db ∧
      (db.live.get job = none ∨ Closes id written))) :
    Alive job id (after local_.pending db) ∨
      (Over job id (after local_.pending db) ∧
        ((after local_.pending db).live.get job = none ∨
          Closes id written)) := by
  rcases before with alive | ⟨ended, gone⟩
  · by_cases closed : Closes id local_.pending
    · obtain ⟨attempt, found, runs⟩ := alive
      have noInsert : ∀ new, .insertLive new ∈ local_.pending →
          new.id ≠ job :=
        noInsert_of_known lawful ⟨attempt, found, (runs_iff.mp runs).1⟩
      have isNone : (after local_.pending db).live.get job = none :=
        live_after_removed (moves closed) (Or.inl rfl) noInsert
      have unclaimable : Unclaimable job (after local_.pending db) := by
        intro row isRow
        rw [isNone] at isRow
        cases isRow
      exact Or.inr ⟨Alive.ended ⟨attempt, found, runs⟩ inv lawful closed
        unclaimable, Or.inl isNone⟩
    · exact Or.inl (alive.kept closed)
  · refine Or.inr ⟨ended.kept lawful noRequeue,
      gone.imp ?_ fun closed => closed⟩
    exact fun isNone => live_after_none isNone
      (noInsert_of_known lawful ended.known)

theorem judgements_step (good : (backend cfg).Good (Returns cfg) state)
    (judgements : Judgements state) (undisturbed : Undisturbed state action)
    (taken : (system cfg).act state action = some next) :
    Judgements next := by
  rintro process job id ⟨⟨call, isCall, sweeps⟩, running, noted⟩
  rcases good.act_cases taken with ⟨committer, other, commits⟩ | quiet
  · obtain ⟨stage, complete, lawful⟩ := commits.promised
    obtain ⟨rest, isCommit⟩ := commits.isCommit
    have isAfter : next.db = after _ state.db := commits.db
    rw [isAfter]
    by_cases same : process = committer
    · subst same
      rw [commits.call] at isCall
      cases isCall
      rw [commits.committed] at noted ⊢
      apply judgement_own good.inv lawful complete sweeps
      exact judgements process job id ⟨⟨call, commits.isCall, sweeps⟩,
        by simp [isCommit, Prog.idle], noted⟩
    · rw [commits.others process same] at isCall running noted ⊢
      have judging : Judging state process job id :=
        ⟨⟨call, isCall, sweeps⟩, running, noted⟩
      obtain ⟨moves, noRequeue⟩ := undisturbed committer other
        commits.committing process same job id judging
      exact judgement_other good.inv lawful moves noRequeue
        (judgements process job id judging)
  · have tables := sameTables_of_drifts quiet.db
    have carry : ∀ {written : List Write},
        (Alive job id state.db ∨ (Over job id state.db ∧
          (state.db.live.get job = none ∨ Closes id written))) →
        Alive job id next.db ∨ (Over job id next.db ∧
          (next.db.live.get job = none ∨ Closes id written)) := by
      intro written before
      rw [tables.live]
      exact before.imp (·.sameTables tables)
        (And.imp_left (·.sameTables tables))
    cases quiet.sessions process with
    | rests rests =>
        rw [rests.call] at isCall
        rw [rests.noted] at noted
        rw [rests.written]
        have wasRunning : (state.session process).prog.idle = false := by
          cases idle : (state.session process).prog.idle with
          | false => rfl
          | true =>
              rw [rests.idle idle] at running
              cases running
        exact carry (judgements process job id
          ⟨⟨call, isCall, sweeps⟩, wasRunning, noted⟩)
    | remarks other remarks _ isOther notes sameCall isNoted wasRunning =>
        rw [sameCall, ← isOther] at isCall
        rw [isNoted] at noted ⊢
        rcases List.mem_append.mp noted with old | new
        · exact carry (judgements process job id
            ⟨⟨call, isCall, sweeps⟩, wasRunning, old⟩)
        · exact Or.inl (Alive.sameTables (notes.judged job id new) tables)
    | starts other _ _ isFresh =>
        rw [isFresh] at noted
        cases noted

theorem Reached.judgements (reached : Reached cfg Undisturbed state) :
    Judgements state := by
  apply reached.induct
  · rintro tasks workers clock process job id ⟨⟨call, isCall, _⟩, _⟩
    cases isCall
  · intro state action next reached judgements undisturbed taken
    exact judgements_step reached.good judgements undisturbed taken

end Sweep

/-- In a run that does not disturb the sweeps, a sweep ends what it judged. -/
theorem sweep_ends_judged (cfg : Config) {n : Nat} {state : World n}
    (reached : Reached cfg Undisturbed state) : EndsJudged state := by
  intro process call rest isCall sweeps isCommit
  have inv := reached.good.inv
  obtain ⟨stage, _, lawful⟩ := reached.good.atCommit isCall isCommit
  have running : (state.session process).prog.idle = false := by
    simp [isCommit, Prog.idle]
  have known : ∀ job id, .remark (.judged job id) ∈
      (state.session process).state.noted → _ := fun job id noted =>
    reached.judgements process job id ⟨⟨call, isCall, sweeps⟩, running, noted⟩
  refine ⟨?_, fun row isSet => lawful.swept sweeps _ isSet row.id rfl, ?_⟩
  · intro id job now outcome closing
    obtain ⟨judged, noted⟩ := lawful.swept sweeps _ closing job rfl
    obtain ⟨attempt, found, runs⟩ :=
      lawful.closed id job now outcome closing
    obtain ⟨isJob, isOpen⟩ := runs_iff.mp runs
    rcases known job judged noted with ⟨other, isOther, otherRuns⟩ | ⟨ended, _⟩
    · obtain ⟨otherJob, otherOpen⟩ := runs_iff.mp otherRuns
      have same : attempt = other := inv.single attempt
        (Table.mem_of_get found) other (Table.mem_of_get isOther) isOpen
        otherOpen (isJob.trans otherJob.symm)
      have isId : attempt.id = id := Table.key_of_get found
      have isJudged : other.id = judged := Table.key_of_get isOther
      rw [← isId, same, isJudged]
      exact noted
    · exact (hasOpenAttempt_eq_false.mp ended.idle attempt
        (Table.mem_of_get found) isOpen isJob).elim
  · rintro job id noted ⟨row, isJob, written⟩
    rcases known job id noted with alive | ⟨_, isNone | closed⟩
    · exact Or.inl alive
    · have live : ∃ live, state.db.live.get row.id = some live := by
        rcases written with moved | updated
        · obtain ⟨_, ⟨live, found, _⟩, _⟩ := lawful.moved row moved
          exact ⟨live, found⟩
        · obtain ⟨⟨live, found, _⟩, _⟩ := lawful.updated row updated
          exact ⟨live, found⟩
      obtain ⟨live, found⟩ := live
      rw [isJob, isNone] at found
      cases found
    · exact Or.inr closed

/-- A job is claimed, and its attempt grows old. -/
def createClaimAndWait {n : Nat} (process : Fin n) :
    List (Action Write Call n) :=
  makes process (.createJob {}) 13 ++
    makes process (.claimJob ["default"] "worker") 12 ++
    [.ambient (.tick 4000000000)]

/-- A sweep that nobody disturbs: it is about to commit the end of the attempt
it judged. -/
theorem sweep_ends_judged_alone :
    ∃ state : World 1, Reached sqlite Undisturbed state ∧
      (∃ rest, (state.session 0).prog = .commit rest) ∧
      (state.session 0).state.noted = [.remark (.judged 1 1)] ∧
      (state.session 0).state.pending.filterMap closedId = [1] ∧
      EndsJudged state := by
  have ran : (ranTo sqlite (createClaimAndWait (0 : Fin 1) ++
      makes 0 (.cleanupStaleJobs none) 21)).isSome = true := rfl
  have alone : ∀ (state : World 1) action, System.anyStep state action →
      Undisturbed state action := by
    intro state action _ committer call _ process different
    exact (different (Subsingleton.elim _ _)).elim
  have reached := (reached_ranTo ran).mono alone
  exact ⟨_, reached, ⟨_, rfl⟩, rfl, rfl, sweep_ends_judged sqlite reached⟩

/-- The job is released and claimed again between the sweep's look at it and
its write. -/
def overtaken : List (Action Write Call 2) :=
  createClaimAndWait 0 ++ makes 1 (.cleanupStaleJobs none) 3 ++
    makes 0 (.releaseJob 1) 9 ++
    makes 0 (.claimJob ["default"] "worker") 12 ++
    List.replicate 18 (.step 1)

/-- The sweep judged attempt 1 and is about to commit the end of attempt 2. -/
theorem sweep_ends_another :
    ∃ state : World 2, Reached sqlite System.anyStep state ∧
      ¬EndsJudged state := by
  have ran : (ranTo sqlite overtaken).isSome = true := rfl
  refine ⟨_, reached_ranTo ran, ?_⟩
  intro ends
  obtain ⟨judged, _⟩ := ends 1 (.cleanupStaleJobs none) _ rfl rfl rfl
  have closing : (((ranTo sqlite overtaken).get ran).session
      1).state.pending.filterMap closedId = [2] := rfl
  obtain ⟨write, member, job, now, outcome, rfl⟩ :=
    mem_closedIds.mp (closing ▸ List.mem_singleton_self 2)
  have noted : (((ranTo sqlite overtaken).get ran).session 1).state.noted =
      [.remark (.judged 1 1)] := rfl
  have isNoted := judged 2 job now outcome member
  rw [noted] at isNoted
  cases List.mem_singleton.mp isNoted

end Sqlery.Standalone
