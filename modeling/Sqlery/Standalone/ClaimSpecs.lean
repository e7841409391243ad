import Sqlery.ReadCommitted.Footprint
import Sqlery.Standalone.TransitionSpecs

/-!
# Specifications of the claims

Each claim is followed through its loop.  `Claims` is kept along: a call that
has a job to return has one attempt of that job on record.
-/

namespace Sqlery.Standalone

open ReadCommitted
open Setting (stable_and)
open Script

section Claims

variable {cfg : Config} {call : Call} {record : Record}

theorem Claims.loose {claimed : Option Claimed} {db : Db} {state : Loc}
    (holds : Claims cfg call record claimed db state) :
    Loose cfg call record db state := by
  cases claimed with
  | none => exact At.loose holds
  | some claimed =>
      obtain ⟨attempt, _, here⟩ := holds
      exact ⟨_, _, here⟩

theorem Claims.rolledBack {claimed : Option Claimed} {db : Db} {state : Loc}
    (holds : Claims cfg call record claimed db state) :
    Claims cfg call record claimed db state.rolledBack := by
  cases claimed with
  | none => exact holds.recorded.rolledBack
  | some claimed =>
      obtain ⟨attempt, isClaim, here⟩ := holds
      exact ⟨attempt, isClaim, here.recorded.rolledBack⟩

theorem session_claims {pre : Db → Loc → Prop}
    {body : Sql (Option Claimed)}
    (spec : (backend cfg).Spec call pre body (Claims cfg call record)
      (Recorded call record)) :
    (backend cfg).Spec call pre (session body) (Claims cfg call record)
      (Between cfg call record) :=
  .session spec claims_stable recorded_stable claims_stable at_stable
    (fun _ _ _ _ holds => holds.rolledBack)
    fun _ _ _ holds => holds.rolledBack

/-- What whole sessions do after a claim does not touch it. -/
theorem Outer.claims {β : Type} {script : Sql β}
    (outer : Outer cfg call script) (claimed : Option Claimed) :
    (backend cfg).Spec call (Claims cfg call record claimed) script
      (fun _ => Claims cfg call record claimed)
      (Claims cfg call record claimed) := by
  cases claimed with
  | none => exact outer record
  | some claimed =>
      refine .exists_ fun attempt => .fact fun isClaim => ?_
      exact (outer _).strengthen
        (fun _ _ _ _ holds => ⟨attempt, isClaim, holds⟩)
        fun _ _ _ holds => ⟨attempt, isClaim, holds⟩

/-! ## Tag limits -/

theorem Inner.tryTagLock (tag : String) : Inner cfg call (tryTagLock tag) := by
  refine Inner.locking ?_
  intro snapshot current others effect ran
  dsimp only at ran
  split at ran <;> cases ran <;> exact ⟨by simp, by simp, rfl⟩

theorem Inner.tryTagLocks (tags : List String) :
    Inner cfg call (tryTagLocks tags) := by
  induction tags with
  | nil => exact Inner.pure true
  | cons tag rest ih =>
      refine Inner.bind (Inner.tryTagLock tag) fun got => ?_
      cases got with
      | true => exact ih
      | false => exact Inner.pure false

theorem Inner.overConcurrency (tag : String) :
    Inner cfg call (overConcurrency cfg tag) := by
  unfold Standalone.overConcurrency
  split
  · exact Inner.pure false
  · exact Inner.bind (Inner.read _) fun _ => Inner.pure _

theorem Inner.overRate (now : Time) (tag : String) :
    Inner cfg call (overRate cfg now tag) := by
  unfold Standalone.overRate
  split
  · exact Inner.bind (Inner.read _) fun _ => Inner.pure _
  · exact Inner.pure false

theorem Inner.overLimit (now : Time) (tags : List String) :
    Inner cfg call (overLimit cfg now tags) := by
  induction tags with
  | nil => exact Inner.pure false
  | cons tag rest ih =>
      refine Inner.bind (Inner.overConcurrency tag) fun tooMany => ?_
      cases tooMany with
      | true => exact Inner.pure true
      | false =>
          refine Inner.bind (Inner.overRate now tag) fun tooOften => ?_
          cases tooOften with
          | true => exact Inner.pure true
          | false => exact ih

theorem Inner.lockTags (tags : List String) :
    Inner cfg call (lockTags cfg tags) := by
  unfold Standalone.lockTags
  split
  · exact Inner.tryTagLocks tags
  · exact Inner.pure true

theorem Inner.tagLimited (job : Job) (now : Time) :
    Inner cfg call (tagLimited cfg job now) := by
  unfold Standalone.tagLimited
  dsimp only
  split
  · exact Inner.pure false
  · refine Inner.bind (Inner.lockTags _) fun got => ?_
    cases got with
    | true => exact Inner.overLimit now _
    | false => exact Inner.pure true

/-! ## One round -/

/-- A decision that failed the job has settled it in this transaction. -/
def Decided (cfg : Config) (call : Call) (record : Record) :
    Decision → Db → Loc → Prop
  | .ok => Between cfg call record
  | .pending => Between cfg call record
  | .expired => At cfg call record settledTxn
  | .failed => At cfg call record settledTxn

theorem claimDecision_spec (job : Job) (now : Time)
    (opens : call.opens = true) :
    (backend cfg).Spec call (Between cfg call record)
      (claimDecision cfg job now) (Decided cfg call record)
      (Recorded call record) := by
  unfold claimDecision
  split
  · refine inside (failQueued_settled _ _ _ _ (.overdue _ opens))
      fun _ => ?_
    exact .pure at_stable fun _ _ _ _ holds => holds
  · split
    · exact .pure at_stable fun _ _ _ _ holds => holds
    · refine inside ((Inner.judge _).trans record) fun verdict => ?_
      cases verdict.state with
      | failed =>
          refine inside (failQueued_settled _ _ _ _ (.dependencies _))
            fun _ => ?_
          exact .pure at_stable fun _ _ _ _ holds => holds
      | pending => exact .pure at_stable fun _ _ _ _ holds => holds
      | met => exact .pure at_stable fun _ _ _ _ holds => holds

def Rounds (cfg : Config) (call : Call) (record : Record) :
    Round → Db → Loc → Prop
  | .stop claimed => Claims cfg call record claimed
  | .again _ _ _ => Between cfg call record

/-- A round that goes on leaves nothing behind. -/
theorem again_spec {cursor : Option Cursor} {blocked : List (JobId × Time)}
    {failed : List JobId} {fails : Db → Loc → Prop} :
    (backend cfg).Spec call (Between cfg call record)
      (pure (.again cursor blocked failed) : Sql Round)
      (Rounds cfg call record) fails :=
  .pure at_stable fun _ _ _ _ holds => holds

theorem takeEntry_spec (opens : call.opens = true) (entry : Ready)
    (job : Job) (worker : Option WorkerId) (now : Time) :
    (backend cfg).Spec call (Between cfg call record)
      (takeEntry cfg entry job worker now) (Rounds cfg call record)
      (Recorded call record) := by
  unfold takeEntry
  refine inside (deleteReadyWhere_writes _) fun deleted => ?_
  split
  · exact inside (commit_spec rfl rfl) fun _ => again_spec
  · refine inside (startAttempt_spec opens job worker) fun result => ?_
    obtain ⟨handle, outcome⟩ := result
    cases handle with
    | some handle =>
        refine inside commit_claim fun _ => ?_
        exact .pure (claims_stable _) fun _ _ _ _ holds => holds
    | none =>
        have commits : (backend cfg).Spec call
            (At cfg call record (writing cfg))
            (do
              commit
              pure (.again (some (cursorOf entry)) [] []) : Sql Round)
            (Rounds cfg call record) (Recorded call record) :=
          inside (commit_spec rfl rfl) fun _ => again_spec
        cases outcome with
        | restore =>
            refine inside (rollback_spec at_stable
              fun _ _ holds => holds.recorded) fun _ => again_spec
        | claimed => exact commits
        | keep => exact commits

theorem Inner.moveToBlocked (entry : Ready) (job : Job) (now : Time) :
    Inner cfg call (moveToBlocked cfg entry job now) := by
  unfold Standalone.moveToBlocked
  dsimp only
  split
  · exact Inner.pure []
  · refine Inner.bind (Inner.deleteEntryStmt _ _) fun deleted => ?_
    split
    · exact Inner.bind (Inner.insertBlockedStmt _) fun _ => Inner.pure _
    · exact Inner.pure []

theorem claimCandidate_spec (opens : call.opens = true) (entry : Ready)
    (job : Job) (worker : Option WorkerId) (now : Time) :
    (backend cfg).Spec call (Between cfg call record)
      (claimCandidate cfg entry job worker now) (Rounds cfg call record)
      (Recorded call record) := by
  have drops : (backend cfg).Spec call (At cfg call record settledTxn)
      (do
        let _ ← deleteReadyStmt cfg [entry.jobId]
        commit
        pure (.again (some (cursorOf entry)) [] [entry.jobId]) : Sql Round)
      (Rounds cfg call record) (Recorded call record) := by
    refine inside (Inner.deleteReadyStmt [entry.jobId] record settledTxn
      (fun _ => settling_of_plain) fun _ isFiled => by cases isFiled)
      fun _ => ?_
    exact inside commit_settled fun _ => again_spec
  unfold claimCandidate
  refine inside (claimDecision_spec job now opens) fun decision => ?_
  cases decision with
  | expired => exact drops
  | failed => exact drops
  | pending =>
      refine inside (Inner.currentTime.trans record) fun later => ?_
      refine inside ((Inner.moveToBlocked _ _ _).trans record) fun blocked => ?_
      exact inside (Trans.commit record) fun _ => again_spec
  | ok =>
      refine inside ((Inner.tagLimited job now).trans record) fun limited => ?_
      cases limited with
      | true => exact inside (Trans.commit record) fun _ => again_spec
      | false => exact takeEntry_spec opens entry job worker now

theorem Inner.jobOfEntry (entry : Ready) (byId : Bool) :
    Inner cfg call (jobOfEntry entry byId) := by
  refine Inner.bind (Inner.read _) fun found => ?_
  cases found with
  | some job => exact Inner.pure (some job)
  | none =>
      cases byId with
      | true => exact Inner.read _
      | false => exact Inner.pure none

theorem Inner.nextEntryStmt (queues : List String) (now : Time)
    (cursor : Option Cursor) :
    Inner cfg call (nextEntryStmt cfg queues now cursor) := by
  unfold Standalone.nextEntryStmt
  split
  · exact Inner.bind (Inner.exec (makes_skip Db.ready _ _ _ _)) fun _ =>
      Inner.pure _
  · exact Inner.read _

/-- A fact that is read off the row a claim is made from, and that nothing
undoes. -/
structure RowFact (cfg : Config) (fact : Job → Db → Prop) : Prop where
  lasting : ∀ job, (backend cfg).Lasting (fact job)
  read : ∀ db job, Inv db → db.live.get job.id = some job → fact job db
  running : ∀ job handle db, fact job db → fact (asRunning job handle).job db

theorem rowFact_nothing : RowFact cfg fun _ _ => True where
  lasting := fun _ => ⟨fun _ _ _ _ _ _ _ => trivial,
    fun _ _ _ _ _ _ _ => trivial, fun _ _ _ _ _ => trivial⟩
  read := fun _ _ _ _ => trivial
  running := fun _ _ _ _ => trivial

/-- The fact holds of the job, if there is one. -/
def OfJob (fact : Job → Db → Prop) (found : Option Job) (db : Db) : Prop :=
  ∀ job, found = some job → fact job db

section Facts

variable {fact : Job → Db → Prop}

theorem RowFact.lasting_of (rowFact : RowFact cfg fact) (found : Option Job) :
    (backend cfg).Lasting (OfJob fact found) where
  commits := fun call db state inv guarded promised holds job isJob =>
    (rowFact.lasting job).commits call db state inv guarded promised
      (holds job isJob)
  instant := fun call db state writes inv promised holds job isJob =>
    (rowFact.lasting job).instant call db state writes inv promised
      (holds job isJob)
  ambient := fun write db inv isAmbient holds job isJob =>
    (rowFact.lasting job).ambient write db inv isAmbient (holds job isJob)

/-- What a claim leaves, with the fact about the job it returns. -/
def ClaimsWith (cfg : Config) (call : Call) (record : Record)
    (fact : Job → Db → Prop) (claimed : Option Claimed) (db : Db)
    (state : Loc) : Prop :=
  Claims cfg call record claimed db state ∧
    OfJob fact (claimed.map (·.job)) db

/-- The same of one round. -/
def RoundsWith (cfg : Config) (call : Call) (record : Record)
    (fact : Job → Db → Prop) : Round → Db → Loc → Prop
  | .stop claimed => ClaimsWith cfg call record fact claimed
  | .again _ _ _ => Between cfg call record

theorem RowFact.claims_stable (rowFact : RowFact cfg fact)
    (claimed : Option Claimed) :
    (backend cfg).Stable (ClaimsWith cfg call record fact claimed) :=
  stable_and (Standalone.claims_stable claimed)
    (lasting_stable (rowFact.lasting_of _))

/-- A round takes the candidate or none. -/
def Takes (job : Job) (round : Round) : Prop :=
  ∀ claimed, round = .stop (some claimed) →
    ∃ handle, claimed = asRunning job handle

theorem takeEntry_takes (entry : Ready) (job : Job)
    (worker : Option WorkerId) (now : Time) :
    (takeEntry cfg entry job worker now).EmitsWith (fun _ => True)
      (fun _ => True) (fun _ => True) (Takes job) := by
  have goesOn : ∀ {cursor blocked failed}, Takes job
      (.again cursor blocked failed) :=
    fun _ isStop => by cases isStop
  apply EmitsWith.after (Emits.anything _)
  intro deleted
  split
  · exact .after .commit fun _ => .pure goesOn
  · apply EmitsWith.after (Emits.anything _)
    intro result
    obtain ⟨handle, outcome⟩ := result
    cases handle with
    | some handle =>
        refine .after .commit fun _ => .pure fun claimed isStop => ?_
        cases isStop
        exact ⟨handle, rfl⟩
    | none =>
        cases outcome with
        | restore => exact .after .rollback fun _ => .pure goesOn
        | claimed => exact .after .commit fun _ => .pure goesOn
        | keep => exact .after .commit fun _ => .pure goesOn

theorem claimCandidate_takes (entry : Ready) (job : Job)
    (worker : Option WorkerId) (now : Time) :
    (claimCandidate cfg entry job worker now).EmitsWith (fun _ => True)
      (fun _ => True) (fun _ => True) (Takes job) := by
  have goesOn : ∀ {cursor blocked failed}, Takes job
      (.again cursor blocked failed) :=
    fun _ isStop => by cases isStop
  apply EmitsWith.after (Emits.anything _)
  intro decision
  cases decision with
  | expired =>
      exact .after (Emits.anything _) fun _ => .after .commit fun _ =>
        .pure goesOn
  | failed =>
      exact .after (Emits.anything _) fun _ => .after .commit fun _ =>
        .pure goesOn
  | pending =>
      exact .after (Emits.anything _) fun _ => .after (Emits.anything _)
        fun _ => .after .commit fun _ => .pure goesOn
  | ok =>
      apply EmitsWith.after (Emits.anything _)
      intro limited
      cases limited with
      | true => exact .after .commit fun _ => .pure goesOn
      | false => exact takeEntry_takes entry job worker now

/-- What is known of a candidate is known of it once it is claimed. -/
theorem takes_with (rowFact : RowFact cfg fact) {job : Job}
    {script : Sql Round}
    (takes : script.EmitsWith (fun _ => True) (fun _ => True) (fun _ => True)
      (Takes job))
    (spec : (backend cfg).Spec call (Between cfg call record) script
      (Rounds cfg call record) (Recorded call record)) :
    (backend cfg).Spec call
      (fun db state => Between cfg call record db state ∧ fact job db) script
      (RoundsWith cfg call record fact) (Recorded call record) := by
  refine (Setting.Spec.values takes
    (spec.frame (rowFact.lasting job))).strengthen
    ?_ fun _ _ _ holds => holds
  rintro round db state _ ⟨⟨leaves, holds⟩, taken⟩
  cases round with
  | again cursor blocked failed => exact leaves
  | stop claimed =>
      refine ⟨leaves, fun found isFound => ?_⟩
      obtain ⟨claim, rfl, rfl⟩ := Option.map_eq_some_iff.mp isFound
      obtain ⟨handle, rfl⟩ := taken claim rfl
      exact rowFact.running job handle db holds

theorem jobOfEntry_fact (rowFact : RowFact cfg fact) (entry : Ready)
    (byId : Bool) :
    (backend cfg).Spec call (Between cfg call record) (jobOfEntry entry byId)
      (fun found db state => Between cfg call record db state ∧
        OfJob fact found db) (Recorded call record) := by
  have stable : ∀ found : Option Job, (backend cfg).Stable fun db state =>
      Between cfg call record db state ∧ OfJob fact found db :=
    fun found => stable_and at_stable
      (lasting_stable (rowFact.lasting_of found))
  have finds : ∀ query : Db → Option Job,
      (∀ db job, query db = some job → job ∈ db.live.rows) →
      (backend cfg).Spec call (Between cfg call record)
        (read query : Sql (Option Job))
        (fun found db state => Between cfg call record db state ∧
          OfJob fact found db) (Recorded call record) := by
    intro query finds
    refine ask_spec at_stable stable fun db state inv _ here =>
      ⟨here, fun job found => ?_⟩
    have isLive := Table.get_of_mem (finds _ job found)
    exact rowFact.read db job inv (here.live_of_plain rfl isLive)
  refine inside (finds _ ?_) fun found => ?_
  · intro db job found
    exact Table.mem_of_get (Option.filter_eq_some_iff.mp found).1
  · cases found with
    | some job => exact .pure (stable _) fun _ _ _ _ holds => holds
    | none =>
        cases byId with
        | true =>
            exact .weaken (finds _ fun _ _ => Table.mem_of_get)
              fun _ _ _ holds => holds.1
        | false => exact .pure (stable _) fun _ _ _ _ holds => holds

theorem ifWaiting_takes (found : Option Job) :
    (ifWaiting found).EmitsWith (fun _ => True) (fun _ => True)
      (fun _ => True) fun waiting =>
        ∀ job, waiting = some job → found = some job := by
  unfold ifWaiting
  cases found with
  | none => exact .pure fun _ impossible => by cases impossible
  | some job =>
      dsimp only
      split
      · exact .pure fun _ impossible => by cases impossible
      · refine .after (Emits.anything _) fun running => .pure ?_
        intro other isOther
        cases running with
        | true => cases isOther
        | false => exact isOther

theorem claimRound_spec (rowFact : RowFact cfg fact) {queues : List String}
    {now : Time} {byId : Bool} {candidate : Ready → Job → Sql Round}
    (takes : ∀ entry job, (backend cfg).Spec call
      (fun db state => Between cfg call record db state ∧ fact job db)
      (candidate entry job) (RoundsWith cfg call record fact)
      (Recorded call record))
    (cursor : Option Cursor) :
    (backend cfg).Spec call (Between cfg call record)
      (claimRound cfg queues now byId candidate cursor)
      (RoundsWith cfg call record fact) (Recorded call record) := by
  have again : ∀ {cursor blocked failed}, (backend cfg).Spec call
      (Between cfg call record)
      (do
        commit
        pure (.again cursor blocked failed) : Sql Round)
      (RoundsWith cfg call record fact) (Recorded call record) :=
    inside (Trans.commit record) fun _ =>
      .pure at_stable fun _ _ _ _ holds => holds
  unfold claimRound
  refine inside ((Inner.nextEntryStmt _ _ _).trans record) fun next => ?_
  cases next with
  | none =>
      refine inside (Trans.commit record) fun _ => ?_
      refine .pure at_stable fun _ _ _ _ holds => ⟨holds, ?_⟩
      exact fun _ impossible => by cases impossible
  | some entry =>
      refine inside (jobOfEntry_fact rowFact entry byId) fun found => ?_
      refine inside (Setting.Spec.values (ifWaiting_takes found)
        (((Inner.ifWaiting found).trans record).frame
          (rowFact.lasting_of found))) fun waiting => ?_
      cases waiting with
      | none =>
          refine inside (.weaken ((Inner.deleteEntryStmt _ _).trans record)
            fun _ _ _ holds => holds.1.1) fun _ => ?_
          exact again
      | some job =>
          exact (takes entry job).weaken fun _ _ _ holds =>
            ⟨holds.1.1, holds.1.2 job (holds.2 job rfl)⟩

/-! ## The loop -/

/-- What the loop returns with its trail. -/
def LoopEnds (cfg : Config) (call : Call) (record : Record)
    (fact : Job → Db → Prop)
    (outcome : Except Exc (Option Claimed) × Trail) : Db → Loc → Prop :=
  match outcome.1 with
  | .ok claimed => ClaimsWith cfg call record fact claimed
  | .error _ => Recorded call record

theorem claimLoop_spec (rowFact : RowFact cfg fact)
    {round : Option Cursor → Sql Round}
    (rounds : ∀ cursor, (backend cfg).Spec call (Between cfg call record)
      (round cursor) (RoundsWith cfg call record fact) (Recorded call record))
    (fuel : Nat) (cursor : Option Cursor) (trail : Trail) :
    (backend cfg).Triple call (Between cfg call record)
      (claimLoop round fuel cursor trail)
      (LoopEnds cfg call record fact) := by
  induction fuel generalizing cursor trail with
  | zero => exact .halt
  | succ fuel ih =>
      refine .bind (rounds cursor) fun result => ?_
      cases result with
      | error exception =>
          exact .done recorded_stable fun _ _ _ _ holds => holds
      | ok ended =>
          cases ended with
          | stop claimed =>
              exact .done (rowFact.claims_stable claimed)
                fun _ _ _ _ holds => holds
          | again next blocked failed => exact ih next _

theorem Outer.followUp (trail : Trail) :
    Outer cfg call (followUp cfg trail) :=
  Outer.bind (Outer.each fun _ => Outer.recheckBlockedQuietly _ _) fun _ =>
    Outer.each fun _ => Outer.releaseDependentsQuietly _ _

theorem claimJob_with (rowFact : RowFact cfg fact)
    (opens : call.opens = true) (queues : List String) (worker : String) :
    (backend cfg).Spec call (Between cfg call record)
      (claimJob cfg queues worker) (ClaimsWith cfg call record fact)
      (Between cfg call record) := by
  unfold claimJob
  refine .bind at_stable (clock_spec at_stable) fun now => ?_
  refine .bind_ (claimLoop_spec rowFact (claimRound_spec rowFact
    fun entry job => takes_with rowFact (claimCandidate_takes entry job _ now)
      (claimCandidate_spec opens entry job _ now)) cfg.fuel none {})
    fun outcome => ?_
  obtain ⟨result, trail⟩ := outcome
  cases result with
  | error exception =>
      refine .rollback recorded_stable (fun _ _ _ holds => holds.rolledBack)
        (.bind (Outer.followUp trail record) fun followed => ?_)
      cases followed <;>
        exact .done at_stable fun _ _ _ _ holds => holds
  | ok claimed =>
      have followed : (backend cfg).Triple call
          (ClaimsWith cfg call record fact claimed) (followUp cfg trail).run
          (fun _ => ClaimsWith cfg call record fact claimed) := by
        have outer : (backend cfg).Spec call (Claims cfg call record claimed)
            (followUp cfg trail) (fun _ => Claims cfg call record claimed)
            (Claims cfg call record claimed) :=
          (Outer.followUp trail).claims claimed
        have framed := Setting.Triple.frame
          (rowFact.lasting_of (claimed.map (·.job))) outer
        intro db state inv guarded holds
        refine (framed db state inv guarded holds).mono ?_
        intro result db state _ ended
        cases result <;> exact ended
      refine .rollback (rowFact.claims_stable claimed)
        (fun _ _ _ holds => ⟨holds.1.rolledBack, holds.2⟩)
        (.bind followed fun _ => ?_)
      exact .done (rowFact.claims_stable claimed) fun _ _ _ _ holds => holds

end Facts

theorem claimJob_spec (opens : call.opens = true) (queues : List String)
    (worker : String) :
    (backend cfg).Spec call (Between cfg call record)
      (claimJob cfg queues worker) (Claims cfg call record)
      (Between cfg call record) :=
  (claimJob_with rowFact_nothing opens queues worker).strengthen
    (fun _ _ _ _ holds => holds.1) fun _ _ _ holds => holds

/-! ## The other claims -/

theorem Inner.lockEntries (job : JobId) :
    Inner cfg call (lockEntries cfg job) := by
  unfold Standalone.lockEntries
  split
  · refine Inner.bind (Inner.locking ?_) fun held => ?_
    · intro snapshot current others effect ran
      exact makes_skip Db.ready _ _ _ _ _ _ _ _ ran
    · split
      · exact Inner.bind (Inner.read _) fun _ => Inner.pure _
      · exact Inner.pure true
  · exact Inner.pure true

theorem claimJobById_spec (opens : call.opens = true) (jobId : JobId)
    (worker : String) :
    (backend cfg).Spec call (Between cfg call record)
      (claimJobById cfg jobId worker) (Claims cfg call record)
      (Between cfg call record) := by
  have gives_up : (backend cfg).Spec call (Between cfg call record)
      (do
        commit
        pure none : Sql (Option Claimed)) (Claims cfg call record)
      (Recorded call record) :=
    inside (Trans.commit record) fun _ =>
      .pure at_stable fun _ _ _ _ holds => holds
  refine session_claims (inside ((Inner.lockEntries _).trans record)
    fun free => ?_)
  cases free with
  | false => exact gives_up
  | true =>
      refine inside ((Inner.read _).trans record) fun found => ?_
      refine inside ((Inner.ifWaiting _).trans record) fun waiting => ?_
      cases waiting with
      | none => exact gives_up
      | some job =>
          refine inside (deleteReadyWhere_writes _) fun _ => ?_
          refine inside (Inner.deleteBlockedStmt _).writing fun _ => ?_
          refine inside Inner.currentTime.writing fun now => ?_
          refine inside (startAttempt_spec opens job _) fun result => ?_
          obtain ⟨handle, outcome⟩ := result
          cases handle with
          | some handle =>
              refine inside commit_claim fun _ => ?_
              exact .pure (claims_stable _) fun _ _ _ _ holds => holds
          | none =>
              refine inside (rollback_spec at_stable
                fun _ _ holds => holds.recorded) fun _ => ?_
              exact .pure at_stable fun _ _ _ _ holds => holds

theorem atomicClaimJob_spec (opens : call.opens = true) (job : Job)
    (worker : Option WorkerId) :
    (backend cfg).Spec call (Between cfg call record)
      (atomicClaimJob cfg job worker) (Claims cfg call record)
      (Between cfg call record) := by
  have gives_up : (backend cfg).Spec call (At cfg call record (writing cfg))
      (do
        commit
        pure none : Sql (Option Claimed)) (Claims cfg call record)
      (Recorded call record) :=
    inside (commit_spec rfl rfl) fun _ =>
      .pure at_stable fun _ _ _ _ holds => holds
  refine session_claims (inside (deleteReadyWhere_writes _)
    fun deleted => ?_)
  split
  · exact gives_up
  · refine inside Inner.currentTime.writing fun now => ?_
    refine inside (startAttempt_spec opens job worker) fun result => ?_
    obtain ⟨handle, outcome⟩ := result
    cases handle with
    | some handle =>
        refine inside commit_claim fun _ => ?_
        exact .pure (claims_stable _) fun _ _ _ _ holds => holds
    | none =>
        cases outcome with
        | restore =>
            refine inside (rollback_spec at_stable
              fun _ _ holds => holds.recorded) fun _ => ?_
            exact .pure at_stable fun _ _ _ _ holds => holds
        | claimed => exact gives_up
        | keep => exact gives_up

theorem Inner.registeredWorkerId (worker : String) :
    Inner cfg call (registeredWorkerId cfg worker) := by
  unfold Standalone.registeredWorkerId
  split
  · exact Inner.pure none
  · exact Inner.read _

theorem aclaimJob_spec (opens : call.opens = true) (queues : List String)
    (worker : String) :
    (backend cfg).Spec call (Between cfg call record)
      (aclaimJob cfg queues worker) (Claims cfg call record)
      (Between cfg call record) := by
  unfold aclaimJob
  refine .bind at_stable (clock_spec at_stable) fun now => ?_
  refine session_claims (inside ((Inner.registeredWorkerId _).trans record)
    fun owner => ?_)
  refine .bind_ (claimLoop_spec rowFact_nothing (claimRound_spec
    rowFact_nothing fun entry job => takes_with rowFact_nothing
      (takeEntry_takes entry job owner now)
      (takeEntry_spec opens entry job owner now)) cfg.fuel none {})
    fun outcome => ?_
  obtain ⟨result, trail⟩ := outcome
  cases result with
  | error exception => exact .done recorded_stable fun _ _ _ _ holds => holds
  | ok claimed =>
      exact .done (rowFact_nothing.claims_stable claimed)
        fun _ _ _ _ holds => holds.1

theorem amarkRunning_spec (opens : call.opens = true) (jobId : JobId)
    (worker : String) :
    (backend cfg).Spec call (Between cfg call record)
      (amarkRunning cfg jobId worker) (fun _ => Loose cfg call record)
      (Loose cfg call record) := by
  unfold amarkRunning
  refine .bind loose_stable (clock_spec at_stable) fun now => ?_
  refine session_loose (recalling (inside ((Inner.read _).trans record)
    fun found => ?_))
  cases found with
  | none => exact .pure at_stable fun _ _ _ _ holds => At.loose holds
  | some job =>
      refine inside (deleteReadyWhere_writes _) fun _ => ?_
      refine inside (Inner.deleteBlockedStmt _).writing fun _ => ?_
      refine inside (Inner.registeredWorkerId _).writing fun owner => ?_
      refine inside (startAttempt_spec opens job _) fun result => ?_
      obtain ⟨handle, outcome⟩ := result
      cases handle with
      | some handle =>
          exact commit_claim.strengthen (fun _ _ _ _ holds => holds.loose)
            fun _ _ _ holds => holds
      | none =>
          exact (rollback_spec at_stable fun _ _ holds =>
            holds.recorded).strengthen (fun _ _ _ _ holds => At.loose holds)
            fun _ _ _ holds => holds

theorem Outer.blockJob (job : Job) : Outer cfg call (blockJob cfg job) := by
  refine Outer.bind (Trans.session ?_) fun moved => ?_
  · refine Trans.bind Inner.currentTime.trans fun now => ?_
    dsimp only
    split
    · exact Trans.pure false
    · refine Trans.bind (Inner.deleteReadyStmt _).trans fun deleted => ?_
      split
      · exact Trans.bind Trans.commit fun _ => Trans.pure _
      · refine Trans.bind (Inner.insertBlockedStmt _).trans fun _ => ?_
        exact Trans.bind Trans.commit fun _ => Trans.pure _
  · refine Outer.bind (Outer.whenever (Outer.recheckBlockedQuietly _ _))
      fun _ => ?_
    exact Outer.pure moved

end Claims

end Sqlery.Standalone
