import Sqlery.Standalone.Attempts
import Sqlery.Standalone.ClaimOrder

/-!
# What a claim finds

The claim loop, followed entry by entry: the candidates behind its cursor are
those it has still to deal with.
-/

namespace Sqlery.Standalone

open ReadCommitted
open Script

section RoundByRound

variable {cfg : Config} {queues : List String} {now : Time}
variable {worker : Option WorkerId} {cursor : Option Cursor}
variable {db next : Db} {entry : Ready} {job : Job} {jobs : List Job}

/-- The rounds of `claim_job`. -/
def claimRounds (cfg : Config) (queues : List String)
    (worker : Option WorkerId) (now : Time) (cursor : Option Cursor) :
    Sql Round :=
  claimRound cfg queues now true
    (fun entry job => claimCandidate cfg entry job worker now) cursor

theorem sole_claimRound_none
    (nothing : db.nextEntry queues now cursor = none) :
    Sole cfg (claimRounds cfg queues worker now cursor) db db (.stop none) db
      db := by
  have looked : Sole cfg (nextEntryStmt cfg queues now cursor) db db
      (db.nextEntry queues now cursor) db db := sole_nextEntryStmt
  rw [nothing] at looked
  exact .bind looked (.bind .commit (.pure _))

theorem sole_claimRound_some
    (found : db.nextEntry queues now cursor = some entry)
    {round : Round} {last : Db}
    (rest : Sole cfg (match db.waitingJob entry.jobId with
      | none => do
          let _ ← deleteEntryStmt cfg entry.slot entry.jobId
          commit
          pure (.again (some (cursorOf entry)) [] [])
      | some job => claimCandidate cfg entry job worker now) db db round last
        last) :
    Sole cfg (claimRounds cfg queues worker now cursor) db db round last
      last := by
  have looked : Sole cfg (nextEntryStmt cfg queues now cursor) db db
      (db.nextEntry queues now cursor) db db := sole_nextEntryStmt
  rw [found] at looked
  exact .bind looked (.bind sole_jobOfEntry (.bind sole_ifWaiting rest))

theorem sole_claimRound_stale
    (found : db.nextEntry queues now cursor = some entry)
    (gone : db.waitingJob entry.jobId = none) :
    Sole cfg (claimRounds cfg queues worker now cursor) db db
      (.again (some (cursorOf entry)) [] []) (db.dropReady (isEntry entry))
      (db.dropReady (isEntry entry)) := by
  apply sole_claimRound_some found
  rw [gone]
  exact .bind (sole_deleteEntryStmt (nextEntry_some found).1)
    (.bind .commit (.pure _))

theorem Consumes.live_length {id : JobId} (consumes : Consumes id db next) :
    next.live.rows.length ≤ db.live.rows.length := by
  have distinct : next.live.rows.Nodup := next.live.nodup.of_map
  apply (List.subperm_of_subset distinct ?_).length_le
  intro row member
  have found := Table.get_of_mem member
  by_cases same : row.id = id
  · rw [same] at found
    exact Table.mem_of_get (consumes.own row found)
  · rw [consumes.live _ same] at found
    exact Table.mem_of_get found

end RoundByRound

/-! ## The loop -/

section Loop

variable {cfg : Config} {db next : Db} {fuel : Nat} {cursor : Option Cursor}
variable {trail : Trail} {round : Option Cursor → Sql Round}
variable {ends : Option JobId → Trail → Db → Prop}

/-- The loop ends so, with the job it claims, its lists and the data, and leaves
no more live jobs. -/
def EndsWith (cfg : Config)
    (loop : Prog Db Write Lock (Except Exc (Option Claimed) × Trail))
    (db : Db) (ends : Option JobId → Trail → Db → Prop) : Prop :=
  ∀ state, (system cfg).view db state = db →
    ∃ claimed trail last final,
      (system cfg).Alone loop db state (.ok claimed, trail) last final ∧
      ends (claimed.map (·.job.id)) trail last ∧
      last.live.rows.length ≤ db.live.rows.length

theorem EndsWith.stop {claimed : Option Claimed}
    (ran : Sole cfg (round cursor) db db (.stop claimed) next next)
    (fewer : next.live.rows.length ≤ db.live.rows.length)
    (isEnd : ends (claimed.map (·.job.id)) trail next) :
    EndsWith cfg (claimLoop round (fuel + 1) cursor trail) db ends := by
  intro state isView
  obtain ⟨final, alone, _⟩ := ran state isView
  exact ⟨claimed, trail, next, final, alone.bind _ (.done _), isEnd, fewer⟩

theorem EndsWith.again {later : Option Cursor} {blocked : List (JobId × Time)}
    {failed : List JobId}
    (ran : Sole cfg (round cursor) db db (.again later blocked failed) next
      next)
    (fewer : next.live.rows.length ≤ db.live.rows.length)
    (rest : EndsWith cfg (claimLoop round fuel later
      { blocked := trail.blocked ++ blocked
        failed := trail.failed ++ failed }) next ends) :
    EndsWith cfg (claimLoop round (fuel + 1) cursor trail) db ends := by
  intro state isView
  obtain ⟨between, first, isNext⟩ := ran state isView
  obtain ⟨claimed, left, last, final, second, isEnd, least⟩ :=
    rest between isNext
  exact ⟨claimed, left, last, final, first.bind _ second, isEnd,
    least.trans fewer⟩

variable {queues : List String} {now : Time} {worker : Option WorkerId}
variable {jobs : List Job} {along : List Job → Trail → Db → Prop}

/-- What the rounds of a claim keep of the candidates that are left, the lists
and the data, and what that says once the claim is through. -/
structure RoundByRound (cfg : Config) (now : Time)
    (along : List Job → Trail → Db → Prop)
    (ends : Option JobId → Trail → Db → Prop) : Prop where
  nothing {trail : Trail} {db : Db} : along [] trail db → ends none trail db
  stale {jobs : List Job} {trail : Trail} {db : Db} {entry : Ready} :
    along jobs trail db → db.waitingJob entry.jobId = none →
    along jobs trail (db.dropReady (isEntry entry))
  passed {job : Job} {rest : List Job} {trail : Trail} {db next : Db}
      {entry : Ready} {blocked : List (JobId × Time)} {failed : List JobId} :
    along (job :: rest) trail db → db.waitingJob entry.jobId = some job →
    entry = readyValues job entry.slot → db.eligible cfg now job = false →
    Passed job now db next → PassedOver entry job now db blocked failed next →
    along rest
      { blocked := trail.blocked ++ blocked
        failed := trail.failed ++ failed } next
  claimed {job : Job} {rest : List Job} {trail : Trail} {db next : Db}
      {entry : Ready} : along (job :: rest) trail db →
    db.waitingJob entry.jobId = some job → db.eligible cfg now job = true →
    Opens job.id (db.dropReady (isEntry entry)) next →
    ends (some job.id) trail next

/-- Every round takes an entry off those that are left and, if it is of a
candidate, the first of the candidates. -/
theorem claimLoop_ends (rounds : RoundByRound cfg now along ends)
    (remaining : Remaining queues now cursor db jobs)
    (true_ : EntriesTrue db)
    (enough : db.claimableLeft queues now cursor < fuel)
    (holds : along jobs trail db) :
    EndsWith cfg (claimLoop
      (claimRounds cfg queues worker now) fuel cursor trail)
      db ends := by
  induction fuel generalizing cursor trail db jobs with
  | zero => cases enough
  | succ fuel ih =>
      cases found : db.nextEntry queues now cursor with
      | none =>
          have isNil := remaining.nil_of_none true_ found
          subst isNil
          exact EndsWith.stop (sole_claimRound_none found) (le_refl _)
            (rounds.nothing holds)
      | some entry =>
          obtain ⟨stored, _, _⟩ := nextEntry_some found
          cases waits : db.waitingJob entry.jobId with
          | none =>
              have consumes : Consumes entry.jobId db
                  (db.dropReady (isEntry entry)) :=
                consumes_dropReady fun other => job_of_isEntry
              have less := claimableLeft_lt found consumes
              apply EndsWith.again (sole_claimRound_stale found waits)
                consumes.live_length
              apply ih
              · apply (remaining.stale true_ found waits).consumed consumes
                intro job waiting
                rw [waits] at waiting
                cases waiting
              · exact true_.consumed consumes
              · omega
              · simpa using rounds.stale holds waits
          | some job =>
              obtain ⟨rest, rfl, behind⟩ := remaining.head true_ found waits
              have isJob : job.id = entry.jobId :=
                Table.key_of_get (waitingJob_iff.mp waits).1
              cases eligible : db.eligible cfg now job with
              | true =>
                  obtain ⟨claimed, next, ran, isClaimed, opens⟩ :
                      ∃ claimed next,
                        Sole cfg (claimCandidate cfg entry job worker now) db
                          db (.stop (some claimed)) next next ∧
                        claimed.job.id = job.id ∧
                        Opens job.id (db.dropReady (isEntry entry)) next :=
                    sole_claimCandidate_stop stored waits eligible
                  have stops : Sole cfg
                      (claimRounds cfg queues worker now cursor) db db
                      (.stop (some claimed)) next next := by
                    apply sole_claimRound_some found
                    rw [waits]
                    exact ran
                  have live : next.live = db.live := opens.live
                  apply EndsWith.stop stops (le_of_eq (by rw [live]))
                  rw [Option.map_some, isClaimed]
                  exact rounds.claimed holds waits eligible opens
              | false =>
                  obtain ⟨blocked, failed, next, ran, passed, over_⟩ :
                      ∃ blocked failed next,
                        Sole cfg (claimCandidate cfg entry job worker now) db
                          db (.again (some (cursorOf entry)) blocked failed)
                          next next ∧ Passed job now db next ∧
                        PassedOver entry job now db blocked failed next :=
                    sole_claimCandidate_again stored waits eligible
                  have consumes : Consumes entry.jobId db next :=
                    isJob ▸ passed.consumes
                  have less := claimableLeft_lt found consumes
                  have again : Sole cfg
                      (claimRounds cfg queues worker now cursor) db db
                      (.again (some (cursorOf entry)) blocked failed) next
                      next := by
                    apply sole_claimRound_some found
                    rw [waits]
                    exact ran
                  apply EndsWith.again again consumes.live_length
                  apply ih
                  · apply behind.consumed consumes
                    intro other waiting
                    rw [waits] at waiting
                    cases waiting
                    rw [true_ entry stored job waits]
                    exact not_afterCursor_self _
                  · exact true_.consumed consumes
                  · omega
                  · exact rounds.passed holds waits
                      (true_ entry stored job waits) eligible passed over_

/-- The job that is first eligible stays so as the claim goes on. -/
theorem rounds_firstEligible (expected : Option Job) :
    RoundByRound cfg now
      (fun jobs _ db => firstEligible cfg now db jobs = expected)
      fun claimed _ _ => claimed = expected.map (·.id) where
  nothing {_ _} holds := by
    rw [← holds]
    rfl
  stale holds _ := by
    rw [((SameJobs.refl _).dropReady _).firstEligible]
    exact holds
  passed holds _ _ rejected passed _ := by
    rw [passed.same.firstEligible, ← holds]
    simp only [firstEligible, rejected, Bool.false_eq_true, if_false]
  claimed holds _ eligible _ := by
    rw [← holds]
    simp only [firstEligible, eligible, if_true, Option.map_some]

end Loop

/-! ## The claim -/

section Claim

variable {cfg : Config} {db : Db} {queues : List String} {worker : String}

theorem claimableLeft_le (cursor : Option Cursor) (now : Time) :
    db.claimableLeft queues now cursor ≤ db.ready.rows.length :=
  List.length_filter_le _ _

/-- Rounds enough for every entry and for the dependents of every job that the
claim fails. -/
def EnoughFuel (cfg : Config) (db : Db) : Prop :=
  db.ready.rows.length + db.live.rows.length + 1 < cfg.fuel

instance : Decidable (EnoughFuel cfg db) := by
  unfold EnoughFuel
  infer_instance

instance : Decidable (EntriesTrue db) :=
  decidable_of_iff
    (∀ entry ∈ db.ready.rows, (db.waitingJob entry.jobId).all fun job =>
      entry = readyValues job entry.slot)
    (by simp [EntriesTrue, Option.all_eq_true])

theorem alone_claimJob (true_ : EntriesTrue db) (enough : EnoughFuel cfg db)
    {state : Loc} (isView : (system cfg).view db state = db) :
    ∃ claimed last final,
      (system cfg).Alone (claimJob cfg queues worker).run db state
        (.ok claimed) last final ∧
      claimed.map (·.job.id) =
        (firstEligible cfg db.clock db (db.candidates queues db.clock)).map
          (·.id) := by
  have looked : Sole cfg currentTime db db db.clock db db := .read _
  obtain ⟨before, started, sameView⟩ := looked state isView
  have left : db.claimableLeft queues db.clock none ≤ db.ready.rows.length :=
    claimableLeft_le none db.clock
  unfold EnoughFuel at enough
  have loop : EndsWith cfg (claimLoop (claimRounds cfg queues
      (attemptWorkerId cfg worker) db.clock) cfg.fuel none {}) db
      fun claimed _ _ => claimed = (firstEligible cfg db.clock db
        (db.candidates queues db.clock)).map (·.id) :=
    claimLoop_ends (rounds_firstEligible _) remaining_candidates true_
      (by omega) rfl
  obtain ⟨claimed, trail, middle, between, looped, isFirst, fewer⟩ :=
    loop before sameView
  obtain ⟨last, followed, _⟩ : ∃ last,
      Settles cfg (followUp cfg trail) middle () 0 last :=
    settles_followUp trail (by omega)
  obtain ⟨final, follows, _⟩ := followed between.rolledBack rfl
  refine ⟨claimed, last, final, ?_, isFirst⟩
  apply started.bind
  apply looped.bind
  exact .rollback (follows.bind _ (.done _))

end Claim

/-- Where the claim fails no candidate, nothing changes under its feet. -/
theorem firstEligible_eq_find {cfg : Config} {db : Db} {now : Time}
    {jobs : List Job}
    (steady : ∀ job ∈ jobs, db.decision job now ≠ .expired ∧
      db.decision job now ≠ .failed) :
    firstEligible cfg now db jobs = jobs.find? (db.eligible cfg now) := by
  induction jobs with
  | nil => rfl
  | cons job rest ih =>
      obtain ⟨alive, supported⟩ := steady job List.mem_cons_self
      have stays : db.passBy job now = db := by
        unfold Db.passBy
        split
        · contradiction
        · contradiction
        · rfl
      simp only [firstEligible, stays, List.find?_cons,
        ih fun other member => steady other (List.mem_cons_of_mem _ member)]
      cases db.eligible cfg now job <;> rfl

/-- A claim with nobody beside it returns the first candidate in claim order
that is eligible when its turn comes, and none if there is no such candidate.
Where it fails no candidate, that is the first of those eligible as it
begins. -/
theorem claim_first_eligible (cfg : Config) {n : Nat} {state : World n}
    {process : Fin n} (queues : List String) (worker : String)
    (idle : (state.session process).prog.idle = true)
    (quiescent : System.Quiescent state process)
    (true_ : EntriesTrue state.db) (enough : EnoughFuel cfg state.db) :
    ∃ steps last claimed,
      (system cfg).run state
        (Action.calls process (.claimJob queues worker) steps) = some last ∧
      (last.session process).prog = .done (.ok (.claimed claimed)) ∧
      claimed.map (·.job.id) = (firstEligible cfg state.db.clock state.db
        (state.db.candidates queues state.db.clock)).map (·.id) ∧
      ((∀ job ∈ state.db.candidates queues state.db.clock,
          state.db.decision job state.db.clock ≠ .expired ∧
            state.db.decision job state.db.clock ≠ .failed) →
        claimed.map (·.job.id) =
          ((state.db.candidates queues state.db.clock).find?
            (state.db.eligible cfg state.db.clock)).map (·.id)) := by
  obtain ⟨claimed, last, final, ran, isFirst⟩ :
      ∃ claimed last final,
        (system cfg).Alone (claimJob cfg queues worker).run state.db {}
          (.ok claimed) last final ∧
        claimed.map (·.job.id) = (firstEligible cfg state.db.clock state.db
          (state.db.candidates queues state.db.clock)).map (·.id) :=
    alone_claimJob true_ enough rfl
  have called : (system cfg).Alone ((system cfg).body (.claimJob queues worker))
      state.db {} (.ok (.claimed claimed)) last final :=
    System.Alone.bind _ ran (.done _)
  obtain ⟨steps, ended, ran, isDone, _⟩ := called.calls idle quiescent
  refine ⟨steps, ended, claimed, ran, isDone, isFirst, ?_⟩
  · intro steady
    rw [isFirst, firstEligible_eq_find steady]

/-- The second job comes first in claim order. -/
def createTwo : List (Action Write Call 1) :=
  makes 0 (.createJob {}) 13 ++ makes 0 (.createJob { priority := 5 }) 13

theorem createTwo_ran : (ranTo sqlite createTwo).isSome = true := by
  decide +kernel

def twoCreated : World 1 := (ranTo sqlite createTwo).get createTwo_ran

theorem quiescent_alone (state : World 1) :
    System.Quiescent state (0 : Fin 1) :=
  fun other different => (different (Subsingleton.elim other 0)).elim

theorem claim_first_eligible_twoCreated : ∃ steps last claimed,
    (system sqlite).run twoCreated
      (Action.calls 0 (.claimJob ["default"] "worker") steps) = some last ∧
    (last.session 0).prog = .done (.ok (.claimed claimed)) ∧
    claimed.map (·.job.id) = some 2 := by
  obtain ⟨steps, last, claimed, ran, isDone, isFirst, _⟩ :=
    claim_first_eligible sqlite ["default"] "worker"
      (by decide +kernel : (twoCreated.session 0).prog.idle = true)
      (quiescent_alone twoCreated)
      (by decide +kernel) (by decide +kernel)
  have isSecond : (firstEligible sqlite twoCreated.db.clock twoCreated.db
      (twoCreated.db.candidates ["default"] twoCreated.db.clock)).map (·.id) =
        some 2 := by
    decide +kernel
  exact ⟨steps, last, claimed, ran, isDone, isFirst.trans isSecond⟩

/-- One job an hour. -/
def rated : Config :=
  { sqlite with tagRateLimits := [("t", some (1, seconds 3600))] }

/-- The first job has been claimed and released and expires; the second has
the same tag. -/
def expireFirst : List (Action Write Call 1) :=
  makes 0 (.createJob { ttl := some 5, priority := 10, tags := ["t"] }) 13 ++
    makes 0 (.claimJob ["default"] "worker") 13 ++
    makes 0 (.releaseJob 1) 9 ++ makes 0 (.createJob { tags := ["t"] }) 13 ++
    [.ambient (.tick 10000000)]

theorem expireFirst_ran : (ranTo rated expireFirst).isSome = true := by
  decide +kernel

def firstExpired : World 1 := (ranTo rated expireFirst).get expireFirst_ran

theorem firstExpired_claimed : (((system rated).run firstExpired
    (Action.calls 0 (.claimJob ["default"] "worker") 30)).any fun last =>
      match (last.session 0).prog with
      | .done (.ok (.claimed claimed)) => claimed.isNone
      | _ => false) = true := by
  decide +kernel

/-- The job that the claim fails hides the one behind it, which was eligible
when the claim began. -/
theorem failed_hides_eligible : ¬∀ (cfg : Config) (state : World 1)
    (queues : List String) (worker : String) (steps : Nat) (last : World 1)
    (claimed : Option Claimed),
    Reached cfg System.anyStep state →
    (state.session 0).prog.idle = true → System.Quiescent state (0 : Fin 1) →
    EntriesTrue state.db →
    (system cfg).run state
      (Action.calls 0 (.claimJob queues worker) steps) = some last →
    (last.session 0).prog = .done (.ok (.claimed claimed)) →
    claimed.map (·.job.id) =
      ((state.db.candidates queues state.db.clock).find?
        (state.db.eligible cfg state.db.clock)).map (·.id) := by
  intro claims
  obtain ⟨last, ran, returned⟩ :=
    (Option.any_eq_true _ _).mp firstExpired_claimed
  have isEligible : ((firstExpired.db.candidates ["default"]
      firstExpired.db.clock).find?
        (firstExpired.db.eligible rated firstExpired.db.clock)).map (·.id) =
        some 2 := by
    decide +kernel
  cases isDone : (last.session 0).prog with
  | done result =>
      rw [isDone] at returned
      cases result with
      | error exception => cases returned
      | ok value =>
          cases value with
          | claimed claimed =>
              have found := claims rated firstExpired ["default"] "worker" 30
                last claimed (reached_ranTo expireFirst_ran)
                (by decide +kernel) (quiescent_alone _) (by decide +kernel)
                ran isDone
              rw [isEligible] at found
              cases claimed with
              | none => cases found
              | some claimed => cases returned
          | _ => cases returned
  | _ =>
      rw [isDone] at returned
      cases returned

end Sqlery.Standalone
