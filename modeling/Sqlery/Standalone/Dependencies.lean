import Mathlib.Logic.Relation
import Sqlery.ReadCommitted.Watch
import Sqlery.Standalone.Finality

/-!
# Dependencies before a run

`claim_job` opens an attempt only for a job each of whose dependencies has
succeeded, itself or through a retry.  Whatever table or sweep brought the job
into the ready queue, the claim judges the dependencies again in the
transaction that opens the attempt, and a success it read there is final.
-/

namespace Sqlery.Standalone

open ReadCommitted
open Script
open Setting (Lasts Yields Ends stable_and stable_exists stable_fact)

/-! ## What a verdict rests on -/

/-- The second job was created as a retry of the first. -/
def RetryLink (specs : Specs) (db : Db) (parent job : JobId) : Prop :=
  (specs job).parentJobId = some parent ∧ Known db job

def Succeeded (db : Db) (job : JobId) : Prop :=
  ∃ row ∈ db.history.rows, row.id = job ∧ row.status = .success

/-- The retry chain that starts at the dependency contains a success. -/
def Satisfied (specs : Specs) (db : Db) (dependency : JobId) : Prop :=
  ∃ last, Relation.ReflTransGen (RetryLink specs db) dependency last ∧
    Succeeded db last

/-- What stays true of a row that was read. -/
structure Vouched (specs : Specs) (db : Db) (row : Job) : Prop where
  known : Known db row.id
  spec : row.toJobSpec = specs row.id
  succeeded : row.status = .success → Succeeded db row.id

/-- Nothing that a verdict rests on is lost. -/
structure Remembers (first second : Db) : Prop where
  known : ∀ job, Known first job → Known second job
  succeeded : ∀ job, Succeeded first job → Succeeded second job

section Remembers

variable {cfg : Config} {specs : Specs} {first second : Db}

theorem RetryLink.later (remembers : Remembers first second)
    {parent job : JobId} (link : RetryLink specs first parent job) :
    RetryLink specs second parent job :=
  ⟨link.1, remembers.known job link.2⟩

theorem chain_later (remembers : Remembers first second) {start last : JobId}
    (chain : Relation.ReflTransGen (RetryLink specs first) start last) :
    Relation.ReflTransGen (RetryLink specs second) start last :=
  Relation.ReflTransGen.mono (fun _ _ link => RetryLink.later remembers link)
    start last chain

theorem Satisfied.later (remembers : Remembers first second)
    {dependency : JobId} (satisfied : Satisfied specs first dependency) :
    Satisfied specs second dependency := by
  obtain ⟨last, chain, succeeded⟩ := satisfied
  exact ⟨last, chain_later remembers chain,
    remembers.succeeded last succeeded⟩

theorem Vouched.later (remembers : Remembers first second) {row : Job}
    (vouched : Vouched specs first row) : Vouched specs second row where
  known := remembers.known row.id vouched.known
  spec := vouched.spec
  succeeded := fun isSuccess =>
    remembers.succeeded row.id (vouched.succeeded isSuccess)

theorem remembers_commit {dialect : Dialect} {call : Call} {stage : Stage}
    {state : Loc} (inv : Inv first)
    (lawful : Lawful dialect call stage first state) :
    Remembers first (after state.pending first) where
  known := fun _ known => known.kept inv lawful
  succeeded := by
    intro job succeeded
    obtain ⟨row, member, isJob⟩ := succeeded
    exact ⟨row, history_after_kept member, isJob⟩

theorem remembers_sameTables (same : SameTables first second) :
    Remembers first second where
  known := fun _ known => known.sameTables same
  succeeded := by
    intro job succeeded
    rw [Succeeded, same.history]
    exact succeeded

/-- What is not lost lasts. -/
theorem lasting_of_remembers {fact : Db → Prop}
    (later : ∀ first second, Remembers first second → fact first →
      fact second) : (backend cfg).Lasting fact :=
  lasting_of (fun _ _ _ _ inv lawful _ =>
    later _ _ (remembers_commit inv lawful))
    fun _ _ same => later _ _ (remembers_sameTables same)

end Remembers

/-! ## Calm transactions -/

/-- A call that opens no attempt; any will do. -/
def bystander : Call := .cancelJob 0

/-- Nothing but plain writes is pending. -/
def Calm (cfg : Config) (db : Db) (state : Loc) : Prop :=
  ∃ record, Between cfg bystander record db state

/-- Plain writes are lawful for every call. -/
theorem At.anyCall {cfg : Config} {call other : Call} {record : Record}
    {locks : List Lock} {db : Db} {state : Loc}
    (holds : At cfg call record { locks } db state)
    (retries : other.retries = false) :
    ∃ past, At cfg other past { locks } db state := by
  have unpaired : other.retries = true → ∀ parent,
      createdFor parent state.written ≤ lookedUp parent state.noted := by
    intro isRetry
    rw [retries] at isRetry
    cases isRetry
  have start : Lawful cfg.dialect other .clean db
    { state with pending := [] } :=
    lawful_of_idle rfl unpaired
  have lawful : Lawful cfg.dialect other .clean db
      (({ state with pending := [] } : Loc).extend state.pending []) :=
    start.extendSame (plain_additions start holds.only)
      fun job isFiled => by cases isFiled
  have same : ({ state with pending := [] } : Loc).extend state.pending [] =
      state := by simp [Local.extend]
  rw [same] at lawful
  exact ⟨{ wrote := state.written.filter creation },
    { lawful, only := holds.only, made := holds.made, sure := holds.sure
      locks := holds.locks
      recorded := ⟨rfl, by simp, by simp, unpaired, by simp, by simp⟩ }⟩

section Calm

variable {cfg : Config} {specs : Specs} {db : Db} {state : Loc}

theorem calm_stable : (backend cfg).Stable (Calm cfg) :=
  stable_exists fun _ => at_stable

theorem At.calm {call : Call} {record : Record}
    (holds : Between cfg call record db state) : Calm cfg db state :=
  holds.anyCall rfl

theorem calm_of_idle (idle : state.pending = []) : Calm cfg db state := by
  have unpaired : bystander.retries = true → ∀ parent,
      createdFor parent state.written ≤ lookedUp parent state.noted := by
    intro isRetry
    cases isRetry
  have recorded : Recorded bystander
      { wrote := state.written.filter creation } db state :=
    ⟨rfl, by simp, by simp, unpaired, by simp, by simp⟩
  exact ⟨_, recorded.idle idle⟩

theorem spec_shown (db : Db) (row : Job) :
    (db.shown row).toJobSpec = row.toJobSpec := by
  unfold Db.shown overlayRunning
  split
  · split <;> rfl
  · rfl

theorem shown_success {row : Job}
    (isSuccess : (db.shown row).status = .success) :
    row.status = .success := by
  by_cases queued : row.status = .queued
  · unfold Db.shown overlayRunning at isSuccess
    rw [if_pos queued] at isSuccess
    split at isSuccess
    · rw [queued] at isSuccess
      cases isSuccess
    · cases isSuccess
  · unfold Db.shown at isSuccess
    rwa [if_neg queued] at isSuccess

/-- The terms of a claim: jobs keep their specification and a live row is no
success, and what the claim opens an attempt for has its dependencies met. -/
def claiming (specs : Specs) : Terms Db Write Lock where
  always db := StoredWith specs db ∧
    ∀ row ∈ db.live.rows, row.status ≠ .success
  keeps _ _ := True
  vow db state := ∀ attempt, .insertAttempt attempt ∈ state.pending →
    (∀ write ∈ state.pending, opening write = true) ∧
      ∀ row, db.live.get attempt.jobId = some row →
        ∀ dependency ∈ dependencyIds row, Satisfied specs db dependency

/-- A row that a calm transaction reads is vouched for. -/
theorem Calm.vouched (calm : Calm cfg db state)
    (fine : (backend cfg).Fine (claiming specs) db) {row : Job}
    (member : row ∈ (after state.pending db).jobAll) :
    Vouched specs db row := by
  obtain ⟨record, here⟩ := calm
  obtain ⟨storedWith, unsuccessful⟩ := fine.always
  rcases mem_jobAll.mp member with ⟨live, isLive, rfl⟩ | finished
  · have found := here.live_of_plain rfl (Table.get_of_mem isLive)
    have stored : live ∈ db.stored :=
      List.mem_append_left _ (Table.mem_of_get found)
    constructor
    · rw [id_shown]
      exact Or.inl ⟨live, stored, rfl⟩
    · rw [spec_shown, id_shown]
      exact storedWith live stored
    · intro isSuccess
      exact (unsuccessful live (Table.mem_of_get found)
        (shown_success isSuccess)).elim
  · rcases history_after_cases finished with old | new
    · have stored : row ∈ db.stored := List.mem_append_right _ old
      exact ⟨Or.inl ⟨row, stored, rfl⟩, storedWith row stored,
        fun isSuccess => ⟨row, old, rfl, isSuccess⟩⟩
    · exact (here.noPlain rfl rfl new).elim

end Calm

/-! ## The parts of a claim -/

section Parts

variable {cfg : Config} {specs : Specs} {β γ : Type}
variable {pre : Db → Loc → Prop} {post : β → Db → Loc → Prop}

/-- Calm, with something that was found out. -/
def Calmly (cfg : Config) (known : Db → Prop) (db : Db) (state : Loc) :
    Prop :=
  Calm cfg db state ∧ known db

/-- An exception leaves nothing to see to. -/
def anyhow (_ : Exc) (_ : Db) (_ : Loc) : Prop := True

theorem claiming_chains : Setting.Chains (claiming specs) where
  refl := fun _ => trivial
  trans := fun _ _ _ _ _ => trivial

theorem calmly_stable {known : Db → Prop}
    (lasting : (backend cfg).Lasting known) :
    (backend cfg).Stable (Calmly cfg known) :=
  stable_and calm_stable (lasting_stable lasting)

theorem then_goes {middle : γ → Db → Loc → Prop} {first : Sql γ}
    {next : γ → Sql β}
    (begins : (backend cfg).Yields (claiming specs) pre first middle anyhow)
    (rest : ∀ value, (backend cfg).Yields (claiming specs) (middle value)
      (next value) post anyhow) :
    (backend cfg).Yields (claiming specs) pre (first >>= next) post anyhow :=
  .bind claiming_chains (fun _ => .local) begins rest

/-- A script that opens no attempt keeps its specification here. -/
theorem bystanding {call : Call} {failing : Db → Loc → Prop}
    {script : Sql β} (spec : (backend cfg).Spec call pre script post failing)
    (opensNone : call.opens = false) :
    (backend cfg).Yields (claiming specs) pre script post anyhow := by
  refine (Yields.of_spec spec ?_).strengthen (fun _ _ _ _ holds => holds)
    fun _ _ _ _ _ => trivial
  rintro db state _ ⟨stage, _, lawful⟩ attempt opened
  have opens := lawful.openedBy attempt opened
  rw [opensNone] at opens
  cases opens

theorem calm_goes {script : Sql β} (trans : Trans cfg bystander script)
    {known : Db → Prop} (lasting : (backend cfg).Lasting known) :
    (backend cfg).Yields (claiming specs) (Calmly cfg known) script
      (fun _ => Calmly cfg known) anyhow := by
  have spec : ∀ record, (backend cfg).Spec bystander
      (fun db state => Between cfg bystander record db state ∧ known db) script
      (fun _ => Calmly cfg known) (Recorded bystander record) := by
    intro record
    refine (Setting.Spec.frame lasting (trans record)).strengthen ?_
      fun _ _ _ holds => holds
    exact fun _ db state _ holds => ⟨⟨record, holds.1⟩, holds.2⟩
  have goes : ∀ record, (backend cfg).Yields (claiming specs)
      (fun db state => Between cfg bystander record db state ∧ known db) script
      (fun _ => Calmly cfg known) anyhow :=
    fun record => bystanding (spec record) rfl
  refine (Yields.exists_ goes).weaken ?_
  rintro db state _ ⟨⟨record, here⟩, holds⟩
  exact ⟨record, here, holds⟩

/-- A calm transaction reads the committed jobs. -/
theorem inquiry {query : Db → β} {known : Db → Prop}
    {found : β → Db → Prop} (lasting : (backend cfg).Lasting known)
    (lastingFound : ∀ value, (backend cfg).Lasting (found value))
    (answers : ∀ db state, (backend cfg).Fine (claiming specs) db →
      Calm cfg db state → known db →
      found (query (after state.pending db)) db) :
    (backend cfg).Yields (claiming specs) (Calmly cfg known)
      (read query : Sql β) (fun value => Calmly cfg (found value))
      anyhow := by
  apply Yields.read (Setting.Stable.lasts (calmly_stable lasting))
    fun value => Setting.Stable.lasts (calmly_stable (lastingFound value))
  intro db state fine _ holds
  exact ⟨holds.1, answers db state fine holds.1 holds.2⟩

theorem calm_pure {value : β} {known : Db → Prop}
    {found : β → Db → Prop} (lasting : (backend cfg).Lasting known)
    (holds : ∀ db, known db → found value db) :
    (backend cfg).Yields (claiming specs) (Calmly cfg known)
      (pure value : Sql β) (fun value => Calmly cfg (found value)) anyhow :=
  .pure (Setting.Stable.lasts (calmly_stable lasting))
    fun db _ _ _ known => ⟨known.1, holds db known.2⟩

end Parts

/-! ## The verdict -/

section Verdict

variable {cfg : Config} {specs : Specs}

/-- The row is in the retry chain of the dependency. -/
def OnChain (specs : Specs) (dependency : JobId) (row : Job) (db : Db) :
    Prop :=
  Vouched specs db row ∧
    Relation.ReflTransGen (RetryLink specs db) dependency row.id

theorem onChain_lasting (dependency : JobId) (row : Job) :
    (backend cfg).Lasting (OnChain specs dependency row) :=
  lasting_of_remembers fun _ _ remembers holds =>
    ⟨holds.1.later remembers, chain_later remembers holds.2⟩

theorem OnChain.satisfied {dependency : JobId} {row : Job} {db : Db}
    (onChain : OnChain specs dependency row db)
    (isSuccess : row.status = .success) : Satisfied specs db dependency :=
  ⟨row.id, onChain.2, onChain.1.succeeded isSuccess⟩

/-- The newest retry of a row in the chain is in the chain. -/
theorem Calm.nextOnChain {db : Db} {state : Loc} (calm : Calm cfg db state)
    (fine : (backend cfg).Fine (claiming specs) db) {dependency : JobId}
    {row child : Job} (onChain : OnChain specs dependency row db)
    (found : (after state.pending db).latestRetry row.id = some child) :
    OnChain specs dependency child db := by
  obtain ⟨member, isChild⟩ := latestRetry_mem found
  have vouched := calm.vouched fine member
  have link : RetryLink specs db row.id child.id := by
    refine ⟨?_, vouched.known⟩
    rw [← vouched.spec]
    exact isChild
  exact ⟨vouched, onChain.2.tail link⟩

theorem newestRetry_goes (dependency : JobId) (hops : Nat) (row : Job) :
    (backend cfg).Yields (claiming specs)
      (Calmly cfg (OnChain specs dependency row))
      (newestRetry (m := Sql)
        (fun job => Script.read fun db => db.latestRetry job) hops row)
      (fun newest => Calmly cfg (OnChain specs dependency newest))
      anyhow := by
  induction hops generalizing row with
  | zero => exact calm_pure (onChain_lasting _ _) fun _ holds => holds
  | succ hops ih =>
      unfold newestRetry
      split
      · have lookUp : (backend cfg).Yields (claiming specs)
            (Calmly cfg (OnChain specs dependency row))
            (Script.read fun db => db.latestRetry row.id : Sql (Option Job))
            (fun found => Calmly cfg
              (OnChain specs dependency (found.getD row))) anyhow := by
          apply inquiry (onChain_lasting _ _) fun _ => onChain_lasting _ _
          intro db state fine calm onChain
          cases found : (after state.pending db).latestRetry row.id with
          | none => exact onChain
          | some child => exact calm.nextOnChain fine onChain found
        refine then_goes lookUp fun found => ?_
        cases found with
        | none => exact calm_pure (onChain_lasting _ _) fun _ holds => holds
        | some child => exact ih child
      · exact calm_pure (onChain_lasting _ _) fun _ holds => holds

/-- What is known while the list is judged: the rows that were fetched, and,
as long as nothing spoils the verdict, that the dependencies judged so far are
met. -/
structure Deciding (specs : Specs) (fetch : JobId → Option Job)
    (met failed : List JobId) (pending : Bool) (db : Db) : Prop where
  fetched : ∀ dependency row, fetch dependency = some row →
    OnChain specs dependency row db
  met : failed = [] → pending = false →
    ∀ dependency ∈ met, Satisfied specs db dependency

theorem deciding_lasting (fetch : JobId → Option Job)
    (met failed : List JobId) (pending : Bool) :
    (backend cfg).Lasting (Deciding specs fetch met failed pending) :=
  lasting_of_remembers fun _ _ remembers holds =>
    { fetched := fun dependency row found =>
        have onChain := holds.fetched dependency row found
        ⟨onChain.1.later remembers, chain_later remembers onChain.2⟩
      met := fun clean settled dependency member =>
        (holds.met clean settled dependency member).later remembers }

/-- A verdict that lets the job run. -/
def Verdict (specs : Specs) (deps : List JobId) (verdict : DependencyVerdict)
    (db : Db) : Prop :=
  verdict.state = .met → ∀ dependency ∈ deps, Satisfied specs db dependency

theorem verdict_lasting (deps : List JobId) (verdict : DependencyVerdict) :
    (backend cfg).Lasting (Verdict specs deps verdict) :=
  lasting_of_remembers fun _ _ remembers holds isMet dependency member =>
    (holds isMet dependency member).later remembers

/-- Two things that are found out by the same script. -/
theorem calm_both {β : Type} {script : Sql β} {pre : Db → Loc → Prop}
    {left right : β → Db → Prop}
    (first : (backend cfg).Yields (claiming specs) pre script
      (fun value => Calmly cfg (left value)) anyhow)
    (second : (backend cfg).Yields (claiming specs) pre script
      (fun value => Calmly cfg (right value)) anyhow) :
    (backend cfg).Yields (claiming specs) pre script
      (fun value => Calmly cfg fun db => left value db ∧ right value db)
      anyhow :=
  (first.and second).strengthen
    (fun _ _ _ _ holds => ⟨holds.1.1, holds.1.2, holds.2.2⟩)
    fun _ _ _ _ _ => trivial

/-- The induction is over the list that is left: a dependency that is missing
or has failed spoils the verdict for good, and so does one that is pending. -/
theorem judgeFrom_goes (fetch : JobId → Option Job)
    (deps met failed : List JobId) (pending : Bool) :
    (backend cfg).Yields (claiming specs)
      (Calmly cfg (Deciding specs fetch met failed pending))
      (judgeFrom (m := Sql) fetch
        (fun job => Script.read fun db => db.latestRetry job) deps failed
        pending)
      (fun verdict => Calmly cfg (Verdict specs (met ++ deps) verdict))
      anyhow := by
  induction deps generalizing met failed pending with
  | nil =>
      apply calm_pure (deciding_lasting _ _ _ _)
      intro db holds isMet
      rw [List.append_nil]
      by_cases clean : failed = []
      · cases pending with
        | false => exact holds.met clean rfl
        | true => simp [clean] at isMet
      · simp [clean] at isMet
  | cons depId rest ih =>
      have goesOn : ∀ (known : Db → Prop) (failed : List JobId)
          (pending : Bool),
          (∀ db, known db →
            Deciding specs fetch (met ++ [depId]) failed pending db) →
          (backend cfg).Yields (claiming specs) (Calmly cfg known)
            (judgeFrom (m := Sql) fetch
              (fun job => Script.read fun db => db.latestRetry job) rest
              failed pending)
            (fun verdict =>
              Calmly cfg (Verdict specs (met ++ depId :: rest) verdict))
            anyhow := by
        intro known failed pending implies
        have later := ih (met ++ [depId]) failed pending
        rw [List.append_assoc, List.singleton_append] at later
        exact later.weaken fun db _ _ holds => ⟨holds.1, implies db holds.2⟩
      unfold judgeFrom
      cases found : fetch depId with
      | none =>
          apply goesOn
          intro db holds
          exact ⟨holds.fetched, fun clean => by simp at clean⟩
      | some dep =>
          have keeps : (backend cfg).Yields (claiming specs)
              (Calmly cfg (Deciding specs fetch met failed pending)) _
              (fun _ => Calmly cfg (Deciding specs fetch met failed pending))
              anyhow :=
            calm_goes (Inner.newestRetry
              (fun job => Inner.read fun db => db.latestRetry job)
              maxChainHops dep).trans
              (deciding_lasting fetch met failed pending)
          have follows : (backend cfg).Yields (claiming specs)
              (Calmly cfg (Deciding specs fetch met failed pending)) _ _ _ :=
            (newestRetry_goes depId maxChainHops dep).weaken
              fun db _ _ holds => ⟨holds.1, holds.2.fetched depId dep found⟩
          refine then_goes (calm_both keeps follows) fun newest => ?_
          split
          · rename_i isSuccess
            apply goesOn
            intro db holds
            refine ⟨holds.1.fetched, fun clean settled dependency member => ?_⟩
            rcases List.mem_append.mp member with old | new
            · exact holds.1.met clean settled dependency old
            · rw [List.mem_singleton.mp new]
              exact holds.2.satisfied isSuccess
          · split
            · apply goesOn
              intro db holds
              exact ⟨holds.1.fetched, fun clean => by simp at clean⟩
            · apply goesOn
              intro db holds
              exact ⟨holds.1.fetched, fun _ settled => by cases settled⟩

theorem judge_goes (deps : List JobId) :
    (backend cfg).Yields (claiming specs) (Calm cfg) (judge deps)
      (fun verdict => Calmly cfg (Verdict specs deps verdict)) anyhow := by
  have fetches : (backend cfg).Yields (claiming specs)
      (Calmly cfg fun _ => True)
      (Script.read fun db => db.jobAll.filter fun row => row.id ∈ deps :
        Sql (List Job))
      (fun rows => Calmly cfg fun db => ∀ row ∈ rows, Vouched specs db row)
      anyhow := by
    apply inquiry
    · exact lasting_of_remembers fun _ _ _ holds => holds
    · exact fun rows =>
        lasting_of_remembers fun _ _ remembers holds row member =>
        (holds row member).later remembers
    · intro db state fine calm _ row member
      exact calm.vouched fine (List.mem_filter.mp member).1
  refine (then_goes fetches fun rows => ?_).weaken
    fun _ _ _ calm => ⟨calm, trivial⟩
  refine (judgeFrom_goes _ deps [] [] false).weaken ?_
  intro db state _ holds
  refine ⟨holds.1, ?_, fun _ _ _ member => by cases member⟩
  intro dependency row found
  have isDependency : row.id = dependency := by
    simpa using List.find?_some found
  have member := List.mem_reverse.mp (List.mem_of_find?_eq_some found)
  refine ⟨holds.2 row member, ?_⟩
  rw [isDependency]

end Verdict

/-! ## The claim -/

section Claim

variable {cfg : Config} {specs : Specs} {queues : List String}
variable {worker : String}

/-- Every dependency of the job is met. -/
def Met (specs : Specs) (job : Job) (db : Db) : Prop :=
  ∀ dependency ∈ dependencyIds job, Satisfied specs db dependency

theorem met_lasting (job : Job) : (backend cfg).Lasting (Met specs job) :=
  lasting_of_remembers fun _ _ remembers holds dependency member =>
    (holds dependency member).later remembers

theorem calm_lasting : (backend cfg).Lasting fun _ => True :=
  lasting_of_remembers fun _ _ _ holds => holds

/-- The transaction has ended a queued job. -/
def Ended (cfg : Config) (db : Db) (state : Loc) : Prop :=
  ∃ call record, call.opens = false ∧ At cfg call record settledTxn db state

theorem ended_stable : (backend cfg).Stable (Ended cfg) :=
  stable_exists fun _ => stable_exists fun _ =>
    stable_and stable_fact at_stable

def DecisionMade (cfg : Config) (specs : Specs) (job : Job) :
    Decision → Db → Loc → Prop
  | .ok => Calmly cfg (Met specs job)
  | .pending => Calm cfg
  | .expired => Ended cfg
  | .failed => Ended cfg

theorem calm_trans {β : Type} {script : Sql β}
    (trans : Trans cfg bystander script) :
    (backend cfg).Yields (claiming specs) (Calm cfg) script
      (fun _ => Calm cfg) anyhow := by
  refine ((calm_goes trans calm_lasting).weaken ?_).strengthen ?_ ?_
  · exact fun _ _ _ calm => ⟨calm, trivial⟩
  · exact fun _ _ _ _ holds => holds.1
  · exact fun _ _ _ _ holds => holds

theorem failQueued_goes (job : Job) (error reason : String) (now : Time) :
    (backend cfg).Yields (claiming specs) (Calm cfg)
      (failQueued cfg job error reason now) (fun _ => Ended cfg) anyhow := by
  have refusal : Refusal (.expireQueuedJob job error reason) job.id error
      reason := .expired job error reason rfl rfl
  have fails : ∀ record, (backend cfg).Yields (claiming specs)
      (Between cfg (.expireQueuedJob job error reason) record)
      (failQueued cfg job error reason now) (fun _ => Ended cfg) anyhow := by
    intro record
    exact bystanding ((failQueued_settled job error reason now
      refusal).strengthen (fun _ _ _ _ holds => ⟨_, record, rfl, holds⟩)
        fun _ _ _ holds => holds) rfl
  refine (Yields.exists_ fails).weaken ?_
  rintro db state _ ⟨record, here⟩
  exact here.anyCall rfl

/-- A decision that fails the job. -/
theorem failing_goes {job : Job} {decision : Decision}
    (ends : DecisionMade cfg specs job decision = Ended cfg)
    (error reason : String) (now : Time) :
    (backend cfg).Yields (claiming specs) (Calm cfg)
      (do
        let _ ← failQueued cfg job error reason now
        pure decision : Sql Decision)
      (DecisionMade cfg specs job) anyhow := by
  refine then_goes (failQueued_goes job error reason now) fun _ => ?_
  apply Yields.pure (Setting.Stable.lasts ended_stable)
  intro db state _ _ holds
  rw [ends]
  exact holds

theorem claimDecision_goes (job : Job) (now : Time) :
    (backend cfg).Yields (claiming specs) (Calm cfg)
      (claimDecision cfg job now) (DecisionMade cfg specs job) anyhow := by
  unfold claimDecision
  split
  · exact failing_goes rfl _ _ now
  · split
    · rename_i none
      refine Yields.pure (Setting.Stable.lasts calm_stable) ?_
      intro db state _ _ calm
      refine ⟨calm, fun dependency member => ?_⟩
      rw [none] at member
      cases member
    · refine then_goes (judge_goes _) fun verdict => ?_
      cases isState : verdict.state with
      | failed =>
          exact (failing_goes rfl _ _ now).weaken fun _ _ _ holds => holds.1
      | pending =>
          refine Yields.pure (Setting.Stable.lasts (calmly_stable
            (verdict_lasting _ _))) ?_
          exact fun _ _ _ _ holds => holds.1
      | met =>
          refine Yields.pure (Setting.Stable.lasts (calmly_stable
            (verdict_lasting _ _))) ?_
          exact fun _ _ _ _ holds => ⟨holds.1, holds.2 isState⟩

/-- What a round leaves to the next one. -/
def RoundLeaves (cfg : Config) : Round → Db → Loc → Prop
  | .stop _ => fun _ _ => True
  | .again _ _ _ => Calm cfg

theorem again_goes {cursor : Option Cursor} {blocked : List (JobId × Time)}
    {failed : List JobId} :
    (backend cfg).Yields (claiming specs) (Calm cfg)
      (pure (.again cursor blocked failed) : Sql Round) (RoundLeaves cfg)
      anyhow :=
  .pure (Setting.Stable.lasts calm_stable) fun _ _ _ _ holds => holds

theorem commit_goes_again {cursor : Option Cursor}
    {blocked : List (JobId × Time)} {failed : List JobId} :
    (backend cfg).Yields (claiming specs) (Calm cfg)
      (do
        commit
        pure (.again cursor blocked failed) : Sql Round) (RoundLeaves cfg)
      anyhow :=
  then_goes (calm_trans Trans.commit) fun _ => again_goes

/-- The attempt that is opened is the judged job's. -/
theorem opened_vowed {job : Job} {handle : AttemptHandle} {call : Call}
    {record : Record} {db : Db} {state : Loc}
    (fine : (backend cfg).Fine (claiming specs) db)
    (opened : Opened cfg call record job.id handle db state)
    (spec : job.toJobSpec = specs job.id) (met : Met specs job db) :
    (claiming specs).vow db state := by
  obtain ⟨attempt, ⟨_, isJob, _⟩, here⟩ := opened
  intro other isOther
  refine ⟨here.only, fun row found dependency member => ?_⟩
  have made : Write.insertAttempt other ∈ state.pending.filter creation :=
    List.mem_filter.mpr ⟨isOther, rfl⟩
  rw [here.made, List.mem_singleton, Write.insertAttempt.injEq] at made
  rw [made, isJob] at found
  have isRow : row.id = job.id := Table.key_of_get found
  have stored := fine.always.1 row
    (List.mem_append_left _ (Table.mem_of_get found))
  have same : row.dependencies = job.dependencies := by
    rw [isRow, ← spec] at stored
    exact congrArg JobSpec.dependencies stored
  apply met
  rw [dependencyIds, same] at member
  exact member

theorem startAttempt_within (job : Job) (owner : Option WorkerId)
    (now : Time) : Within (startAttempt cfg job owner now) := by
  apply Within.bind
  · unfold lockJob
    cases cfg.dialect with
    | postgresql => exact Within.bind (Within.exec _) fun _ => Within.pure _
    | sqlite => exact Within.read _
  · intro found
    cases found with
    | none => exact Within.pure _
    | some row =>
        apply Within.bind (Within.read _)
        intro running
        split
        · exact Within.bind (Within.exec _) fun _ => Within.pure _
        · split <;> exact Within.pure _

/-- The claim of a job whose dependencies are met, at a point described by
what is known for its record. -/
def ClaimOf (specs : Specs) (job : Job) (known : Record → Db → Loc → Prop)
    (db : Db) (state : Loc) : Prop :=
  (∃ record, known record db state) ∧ Met specs job db

/-- A part of the transaction of a claim. -/
theorem claimOf_goes {call : Call} {job : Job} {β : Type} {script : Sql β}
    {known : Record → Db → Loc → Prop} {after : β → Record → Db → Loc → Prop}
    {failing : Record → Db → Loc → Prop} (within : Within script)
    (spec : ∀ record, (backend cfg).Spec call (known record) script
      (fun value => after value record) (failing record)) :
    (backend cfg).Yields (claiming specs) (ClaimOf specs job known) script
      (fun value => ClaimOf specs job (after value)) anyhow := by
  have framed : ∀ record, (backend cfg).Spec call
      (fun db state => known record db state ∧ Met specs job db) script
      (fun value => ClaimOf specs job (after value)) (failing record) := by
    intro record
    refine (Setting.Spec.frame (met_lasting job) (spec record)).strengthen ?_
      fun _ _ _ holds => holds
    exact fun _ _ _ _ holds => ⟨⟨record, holds.1⟩, holds.2⟩
  have goes : ∀ record, (backend cfg).Yields (claiming specs)
      (fun db state => known record db state ∧ Met specs job db) script
      (fun value => ClaimOf specs job (after value)) anyhow := by
    intro record
    exact (Yields.of_within within (framed record)).strengthen
      (fun _ _ _ _ holds => holds) fun _ _ _ _ _ => trivial
  refine (Yields.exists_ goes).weaken ?_
  rintro db state _ ⟨⟨record, here⟩, met⟩
  exact ⟨record, here, met⟩

/-- The transaction deletes the entry first, and is then the only writer on
SQLite. -/
theorem deleteEntry_goes (call : Call) (retries : call.retries = false)
    (entry : Ready) (job : Job) :
    (backend cfg).Yields (claiming specs) (Calmly cfg (Met specs job))
      (deleteEntryStmt cfg entry.slot entry.jobId)
      (fun _ => ClaimOf specs job fun record =>
        At cfg call record (writing cfg)) anyhow := by
  have within : Within (deleteEntryStmt cfg entry.slot entry.jobId) :=
    Within.bind (Within.exec _) fun _ => Within.pure _
  have deletes : (backend cfg).Yields (claiming specs)
      (ClaimOf specs job (Between cfg bystander))
      (deleteEntryStmt cfg entry.slot entry.jobId)
      (fun _ => ClaimOf specs job fun record =>
        At cfg bystander record (writing cfg)) anyhow :=
    claimOf_goes within fun _ => deleteReadyWhere_writes _
  refine deletes.strengthen ?_ fun _ _ _ _ holds => holds
  rintro deleted db state _ ⟨⟨record, here⟩, met⟩
  exact ⟨here.anyCall retries, met⟩

/-- The commit of a claim is seen to. -/
theorem commitOpened_goes {call : Call} {job : Job} {handle : AttemptHandle}
    {claimed : Option Claimed} (spec : job.toJobSpec = specs job.id) :
    (backend cfg).Yields (claiming specs)
      (ClaimOf specs job fun record => Opened cfg call record job.id handle)
      (do
        commit
        pure (.stop claimed) : Sql Round) (RoundLeaves cfg) anyhow := by
  have stable : (backend cfg).Stable
      (ClaimOf specs job fun record => Opened cfg call record job.id handle) :=
    stable_and (stable_exists fun _ => opened_stable _ _)
      (lasting_stable (met_lasting job))
  have promised : (backend cfg).Spec call
      (ClaimOf specs job fun record => Opened cfg call record job.id handle)
      (commit : Sql Unit) (fun _ _ _ => True) fun _ _ => True := by
    refine .weaken (.exists_ fun record : Record => ?_)
      fun _ _ _ holds => holds.1
    have commits : (backend cfg).Spec call
        (Opened cfg call record job.id handle) (commit : Sql Unit)
        (fun _ => Claims cfg call record (some (asRunning job handle)))
        fun _ _ => True := commit_claim
    exact commits.strengthen (fun _ _ _ _ _ => trivial) fun _ _ _ holds => holds
  have commits : (backend cfg).Yields (claiming specs)
      (ClaimOf specs job fun record => Opened cfg call record job.id handle)
      (commit : Sql Unit) (fun _ _ _ => True) anyhow := by
    refine Yields.of_commit stable promised ?_
    rintro db state fine ⟨⟨record, opened⟩, met⟩
    exact opened_vowed fine opened spec met
  exact then_goes commits fun _ => .pure .local fun _ _ _ _ _ => trivial

theorem rollback_goes :
    (backend cfg).Yields (claiming specs) (fun _ _ => True)
      (rollback : Sql Unit) (fun _ => Calm cfg) anyhow :=
  .rollback .local (Setting.Stable.lasts calm_stable)
    fun _ _ _ _ => calm_of_idle rfl

theorem takeEntry_goes (call : Call) (opens : call.opens = true)
    (retries : call.retries = false) (entry : Ready) (job : Job)
    (owner : Option WorkerId) (now : Time)
    (spec : job.toJobSpec = specs job.id) :
    (backend cfg).Yields (claiming specs) (Calmly cfg (Met specs job))
      (takeEntry cfg entry job owner now) (RoundLeaves cfg) anyhow := by
  have goesOn : (backend cfg).Yields (claiming specs)
      (ClaimOf specs job fun record => At cfg call record (writing cfg))
      (do
        commit
        pure (.again (some (cursorOf entry)) [] []) : Sql Round)
      (RoundLeaves cfg) anyhow := by
    apply commit_goes_again.weaken
    rintro db state _ ⟨⟨record, here⟩, _⟩
    exact here.between.calm
  refine then_goes (deleteEntry_goes call retries entry job) fun deleted => ?_
  split
  · exact goesOn
  · refine then_goes (claimOf_goes (startAttempt_within job owner now)
      fun record => startAttempt_spec opens job owner) fun result => ?_
    obtain ⟨handle, outcome⟩ := result
    cases handle with
    | some handle => exact commitOpened_goes spec
    | none =>
        cases outcome with
        | restore =>
            exact (then_goes rollback_goes fun _ => again_goes).weaken
              fun _ _ _ _ => trivial
        | claimed => exact goesOn
        | keep => exact goesOn

theorem claimCandidate_goes (call : Call) (opens : call.opens = true)
    (retries : call.retries = false) (entry : Ready) (job : Job)
    (owner : Option WorkerId) (now : Time)
    (spec : job.toJobSpec = specs job.id) :
    (backend cfg).Yields (claiming specs) (Calm cfg)
      (claimCandidate cfg entry job owner now) (RoundLeaves cfg) anyhow := by
  have deletes : (backend cfg).Yields (claiming specs) (Ended cfg)
      (deleteReadyStmt cfg [entry.jobId]) (fun _ => Ended cfg) anyhow := by
    refine .exists_ fun caller => .exists_ fun record =>
      .fact fun opensNone => ?_
    exact bystanding ((Inner.deleteReadyStmt [entry.jobId] record settledTxn
      (fun _ => settling_of_plain) fun _ isFiled => by cases isFiled).strengthen
        (fun _ _ _ _ holds => ⟨caller, record, opensNone, holds⟩)
        fun _ _ _ holds => holds) opensNone
  have commits : (backend cfg).Yields (claiming specs) (Ended cfg)
      (commit : Sql Unit) (fun _ => Calm cfg) anyhow := by
    refine .exists_ fun caller => .exists_ fun record =>
      .fact fun opensNone => ?_
    have commits : (backend cfg).Spec caller
        (At cfg caller record settledTxn) (commit : Sql Unit)
        (fun _ => Between cfg caller record) (Recorded caller record) :=
      commit_settled
    exact bystanding (commits.strengthen (fun _ _ _ _ holds => At.calm holds)
      fun _ _ _ holds => holds) opensNone
  have drops : (backend cfg).Yields (claiming specs) (Ended cfg)
      (do
        let _ ← deleteReadyStmt cfg [entry.jobId]
        commit
        pure (.again (some (cursorOf entry)) [] [entry.jobId]) : Sql Round)
      (RoundLeaves cfg) anyhow :=
    then_goes deletes fun _ => then_goes commits fun _ => again_goes
  refine then_goes (claimDecision_goes job now) fun decision => ?_
  cases decision with
  | expired => exact drops
  | failed => exact drops
  | pending =>
      refine then_goes (calm_trans Inner.currentTime.trans) fun later => ?_
      refine then_goes (calm_trans (Inner.moveToBlocked _ _ _).trans)
        fun blocked => ?_
      exact commit_goes_again
  | ok =>
      refine then_goes (calm_goes (Inner.tagLimited job now).trans
        (met_lasting job)) fun limited => ?_
      cases limited with
      | true => exact commit_goes_again.weaken fun _ _ _ holds => holds.1
      | false =>
          exact takeEntry_goes call opens retries entry job owner now spec

/-- The row under an entry is one the job was created as. -/
theorem jobOfEntry_goes (entry : Ready) (byId : Bool) :
    (backend cfg).Yields (claiming specs) (Calm cfg) (jobOfEntry entry byId)
      (fun found => Calmly cfg fun _ =>
        ∀ job, found = some job → job.toJobSpec = specs job.id) anyhow := by
  have finds : ∀ query : Db → Option Job,
      (∀ db job, query db = some job → job ∈ db.live.rows) →
      (backend cfg).Yields (claiming specs) (Calmly cfg fun _ => True)
        (read query : Sql (Option Job)) (fun found => Calmly cfg fun _ =>
          ∀ job, found = some job → job.toJobSpec = specs job.id) anyhow := by
    intro query finds
    apply inquiry calm_lasting
    · exact fun _ => lasting_of_remembers fun _ _ _ holds => holds
    · rintro db state fine ⟨record, here⟩ _ job found
      have isLive := Table.get_of_mem (finds _ job found)
      exact fine.always.1 job (List.mem_append_left _
        (Table.mem_of_get (here.live_of_plain rfl isLive)))
  refine (then_goes (finds _ ?_) fun found => ?_).weaken
    fun _ _ _ calm => ⟨calm, trivial⟩
  · intro db job found
    exact Table.mem_of_get (Option.filter_eq_some_iff.mp found).1
  · cases found with
    | some job =>
        exact calm_pure (lasting_of_remembers fun _ _ _ holds => holds)
          fun _ holds => holds
    | none =>
        cases byId with
        | true =>
            exact (finds (fun db => db.live.get entry.jobId)
              fun _ _ => Table.mem_of_get).weaken
                fun _ _ _ holds => ⟨holds.1, trivial⟩
        | false =>
            exact calm_pure (lasting_of_remembers fun _ _ _ holds => holds)
              fun _ holds => holds

theorem ifWaiting_goes (found : Option Job) :
    (backend cfg).Yields (claiming specs) (Calm cfg) (ifWaiting found)
      (fun waiting => Calmly cfg fun _ =>
        ∀ job, waiting = some job → found = some job) anyhow := by
  have answers : ∀ waiting : Option Job,
      (∀ job, waiting = some job → found = some job) →
      (backend cfg).Yields (claiming specs) (Calm cfg)
        (pure waiting : Sql (Option Job)) (fun waiting => Calmly cfg fun _ =>
          ∀ job, waiting = some job → found = some job) anyhow :=
    fun waiting same => .pure (Setting.Stable.lasts calm_stable)
      fun _ _ _ _ calm => ⟨calm, same⟩
  unfold ifWaiting
  cases found with
  | none => exact answers none fun _ impossible => by cases impossible
  | some job =>
      dsimp only
      split
      · exact answers none fun _ impossible => by cases impossible
      · refine then_goes (calm_trans (Inner.read _).trans) fun running => ?_
        cases running with
        | true => exact answers none fun _ impossible => by cases impossible
        | false => exact answers (some job) fun _ same => same

theorem claimRound_goes {queues : List String} {now : Time} {byId : Bool}
    {candidate : Ready → Job → Sql Round}
    (takes : ∀ entry job, job.toJobSpec = specs job.id →
      (backend cfg).Yields (claiming specs) (Calm cfg) (candidate entry job)
        (RoundLeaves cfg) anyhow)
    (cursor : Option Cursor) :
    (backend cfg).Yields (claiming specs) (Calm cfg)
      (claimRound cfg queues now byId candidate cursor) (RoundLeaves cfg)
      anyhow := by
  refine then_goes (calm_trans (Inner.nextEntryStmt _ _ _).trans)
    fun next => ?_
  cases next with
  | none =>
      refine then_goes (calm_trans Trans.commit) fun _ => ?_
      exact .pure (Setting.Stable.lasts calm_stable) fun _ _ _ _ _ => trivial
  | some entry =>
      refine then_goes (jobOfEntry_goes entry byId) fun found => ?_
      refine (Yields.fact fun specified => ?_).weaken
        fun _ _ _ holds => ⟨holds.2, holds.1⟩
      refine then_goes (ifWaiting_goes found) fun waiting => ?_
      refine (Yields.fact fun same => ?_).weaken
        fun _ _ _ holds => ⟨holds.2, holds.1⟩
      cases waiting with
      | none =>
          refine then_goes (calm_trans (Inner.deleteEntryStmt _ _).trans)
            fun _ => ?_
          exact commit_goes_again
      | some job => exact takes entry job (specified job (same job rfl))

/-- The induction is on the fuel; a round that goes on leaves the transaction
calm. -/
theorem claimLoop_goes {round : Option Cursor → Sql Round}
    (rounds : ∀ cursor, (backend cfg).Yields (claiming specs) (Calm cfg)
      (round cursor) (RoundLeaves cfg) anyhow)
    (fuel : Nat) (cursor : Option Cursor) (trail : Trail) {db : Db}
    {state : Loc} (fine : (backend cfg).Fine (claiming specs) db)
    (guarded : Guarded (backend cfg).sys.schema state)
    (calm : Calm cfg db state) :
    (backend cfg).Ends (claiming specs) (fun _ _ _ => True)
      (claimLoop round fuel cursor trail) db state := by
  induction fuel generalizing cursor trail db state with
  | zero => trivial
  | succ fuel ih =>
      apply Ends.bind claiming_chains ?_ fine guarded
        (rounds cursor db state fine guarded calm)
      intro result db state fine guarded ended
      cases result with
      | error exception => exact fun _ _ => trivial
      | ok round =>
          cases round with
          | stop claimed => exact fun _ _ => trivial
          | again next blocked failed => exact ih next _ fine guarded ended

/-- Wherever a claim is run, it sees to what it commits. -/
theorem claimJob_ends (queues : List String) (worker : String) {db : Db}
    (fine : (backend cfg).Fine (claiming specs) db) :
    (backend cfg).Ends (claiming specs) (fun _ _ _ => True)
      (claimJob cfg queues worker).run db {} := by
  have goes : (backend cfg).Yields (claiming specs) (Calm cfg)
      (claimJob cfg queues worker) (fun _ _ _ => True) anyhow := by
    refine then_goes (calm_trans Inner.currentTime.trans) fun now => ?_
    intro db state fine guarded calm
    have rounds : ∀ cursor, (backend cfg).Yields (claiming specs) (Calm cfg)
        (claimRound cfg queues now true (fun entry job =>
          claimCandidate cfg entry job (attemptWorkerId cfg worker) now) cursor)
        (RoundLeaves cfg) anyhow :=
      claimRound_goes fun entry job => claimCandidate_goes
        (.claimJob queues worker) rfl rfl entry job _ now
    have loop := claimLoop_goes rounds cfg.fuel none {} fine guarded calm
    refine Ends.bind claiming_chains ?_ fine guarded loop
    intro outcome db state fine guarded _ after mild
    have quiet := Setting.guarded_rolledBack (C := backend cfg) state
    refine Ends.bind claiming_chains ?_ mild.fine quiet
      (calm_trans (Outer.followUp outcome.2).trans after state.rolledBack
        mild.fine quiet (calm_of_idle rfl))
    intro followed db state fine guarded _ after mild
    cases outcome.1 <;> trivial
  refine (goes db {} fine (by simp [Guarded]) (calm_of_idle rfl)).mono ?_
  exact fun _ _ _ _ _ => trivial

end Claim

/-! ## Runs -/

/-- The claims of a run are watched. -/
def claims (cfg : Config) (specs : Specs) : (backend cfg).Watch where
  watched call := ∃ queues worker, call = .claimJob queues worker
  before _ _ := True
  terms _ := claiming specs
  ending _ _ _ _ := True
  chains _ := claiming_chains
  ends := by
    rintro _ ⟨queues, worker, rfl⟩ db fine _
    have maps : ∀ script : Sql (Option Claimed),
        (backend cfg).Ends (claiming specs) (fun _ _ _ => True) script.run db
          {} →
        (backend cfg).Ends (claiming specs) (fun _ _ _ => True)
          (Result.claimed <$> script : Sql Result).run db {} := by
      intro script ends
      refine Ends.bind claiming_chains ?_ fine (by simp [Guarded]) ends
      intro result db state _ _ _
      cases result <;> exact fun _ _ => trivial
    exact maps _ (claimJob_ends queues worker fine)

section Runs

variable {cfg : Config} {n : Nat} {state next : World n}
variable {allowed : World n → Action Write Call n → Prop}

/-- The second job is a retry of the first: its row says so, or a new job of
its name has replaced the row that did. -/
inductive RetryOf (state : World n) (parent job : JobId) : Prop where
  | stored : IsRetry parent job state.db → RetryOf state parent job
  | replaced (row : Job) : job ∈ state.db.replaced → Inserted state row →
      row.id = job → row.parentJobId = some parent → RetryOf state parent job

/-- The retry chain that starts at a job. -/
def ChainOf (state : World n) : JobId → JobId → Prop :=
  Relation.ReflTransGen (RetryOf state)

theorem RetryLink.retryOf {specs : Specs} (chronicled : Chronicled state)
    (insertedWith : InsertedWith specs state) {parent job : JobId}
    (link : RetryLink specs state.db parent job) :
    RetryOf state parent job := by
  obtain ⟨isParent, ⟨row, member, isJob⟩ | replaced⟩ := link
  · have spec := chronicled.storedWith insertedWith row member
    rw [isJob] at spec
    have isChild : row.parentJobId = (specs job).parentJobId :=
      congrArg JobSpec.parentJobId spec
    exact .stored ⟨row, member, isJob, isChild.trans isParent⟩
  · obtain ⟨new, inserted, isJob⟩ := chronicled.replaced job replaced
    have spec := insertedWith new inserted
    rw [isJob] at spec
    have isChild : new.parentJobId = (specs job).parentJobId :=
      congrArg JobSpec.parentJobId spec
    exact .replaced new replaced inserted isJob (isChild.trans isParent)

theorem Reached.claimsHold {specs : Specs}
    (reached : Reached cfg allowed state)
    (insertedWith : InsertedWith specs state) :
    (claims cfg specs).Holds state := by
  revert insertedWith
  apply reached.induct
  · exact fun tasks workers clock _ => (claims cfg specs).holds_initial _
  · intro state action next before ih permitted taken insertedWith
    have good := before.good
    have later := before.step permitted taken
    refine (claims cfg specs).holds_act good later.good
      (ih (insertedWith.earlier good taken)) taken ?_
    constructor
    · exact fun _ _ _ _ => trivial
    · intro process call isCall isWatched
      exact ⟨later.chronicled.storedWith insertedWith,
        later.chronicled.unsuccessful⟩
    · exact fun _ _ _ _ _ _ => trivial

/-- When `claim_job` opens an attempt, the retry chain of every dependency of
the job contains a success. -/
theorem dependencies_before_run (cfg : Config) {n : Nat}
    {state next : World n} {action : Action Write Call n}
    {process : Fin n} {queues : List String} {worker : String}
    {attempt : Attempt} (reached : Reached cfg System.anyStep state)
    (taken : (system cfg).act state action = some next)
    (claims : System.committing state action =
      some (process, .claimJob queues worker))
    (opened : attempt ∈ next.db.attempts.rows)
    (isOpen : attempt.isOpen = true)
    (new : attempt ∉ state.db.attempts.rows) :
    ∃ job, next.db.live.get attempt.jobId = some job ∧
      ∀ dependency ∈ dependencyIds job, ∃ last,
        ChainOf next dependency last ∧
        ∃ row ∈ next.db.jobAll, row.id = last ∧ row.status = .success := by
  have good := reached.good
  have later : Reached cfg System.anyStep next := reached.step trivial taken
  obtain ⟨specs, insertedWith⟩ := later.chronicled.insertedWith
  have holds := reached.claimsHold (insertedWith.earlier good taken)
  have vowed := (Sqlery.Standalone.claims cfg specs).vowed good holds claims
    ⟨queues, worker, rfl⟩
  rcases good.act_cases taken with ⟨committer, call, commits⟩ | quiet
  · have same := commits.committing
    rw [claims] at same
    cases same
    obtain ⟨stage, complete, lawful⟩ := commits.promised
    have isAfter : next.db = after (state.session process).state.pending
        state.db := commits.db
    have inserted : .insertAttempt attempt ∈
        (state.session process).state.pending := by
      rw [isAfter] at opened
      exact (open_after_cases opened isOpen).resolve_left new
    obtain ⟨row, found, _⟩ := (lawful.opened attempt inserted).2.2.row
    obtain ⟨onlyOpening, met⟩ := vowed attempt inserted
    have untouched : ∀ write ∈ (state.session process).state.pending,
        write.rowLock ≠ some (.live attempt.jobId) := by
      intro write member
      have isKind := onlyOpening write member
      cases write <;> simp_all [opening, plain, Write.rowLock]
    refine ⟨row, ?_, fun dependency member => ?_⟩
    · rw [isAfter, live_after_untouched untouched]
      exact found
    · obtain ⟨last, chain, succeeded⟩ := (met row found dependency member).later
        (remembers_commit good.inv lawful)
      rw [← isAfter] at chain succeeded
      obtain ⟨success, finished, isLast, isSuccess⟩ := succeeded
      refine ⟨last, Relation.ReflTransGen.mono ?_ _ _ chain, success,
        mem_jobAll.mpr (Or.inr finished), isLast, isSuccess⟩
      exact fun _ _ link => RetryLink.retryOf later.chronicled insertedWith link
  · rw [quiet.committing] at claims
    cases claims

end Runs

/-- The first job has succeeded; a job that depends on it is created and
claimed, and the claim is about to commit. -/
def claimingDependent : List (Action Write Call 1) :=
  completing ++ List.replicate 6 (.step 0) ++
    makes 0 (.createJob { dependencies := [some 1] }) 13 ++
    makes 0 (.claimJob ["default"] "worker") 11

theorem dependencies_before_run_claimingDependent :
    ∃ (state next : World 1) (job : Job),
      Reached sqlite System.anyStep state ∧
      (system sqlite).act state (.step 0) = some next ∧
      next.db.live.get 2 = some job ∧ dependencyIds job = [1] ∧
      ∀ dependency ∈ dependencyIds job, ∃ last,
        ChainOf next dependency last ∧
        ∃ row ∈ next.db.jobAll, row.id = last ∧ row.status = .success := by
  have ran : (ranTo sqlite claimingDependent).isSome = true := rfl
  have taken : ((system sqlite).act ((ranTo sqlite claimingDependent).get ran)
      (.step 0)).isSome = true := rfl
  have opened : (((system sqlite).act
      ((ranTo sqlite claimingDependent).get ran) (.step 0)).get
        taken).db.attempts.get 2 = some
      { id := 2, jobId := 2, token := "", workerId := some 0,
        workerPid := some 0, claimedAt := 0 } := rfl
  have absent : ((ranTo sqlite claimingDependent).get ran).db.attempts.get 2 =
      none := rfl
  have claims : System.committing ((ranTo sqlite claimingDependent).get ran)
      (.step 0) = some (0, .claimJob ["default"] "worker") := rfl
  obtain ⟨job, isJob, met⟩ := dependencies_before_run sqlite
    (reached_ranTo ran) (Option.some_get taken).symm claims
    (Table.mem_of_get opened) rfl fun member => by
      rw [Table.get_of_mem member] at absent
      cases absent
  refine ⟨_, _, job, reached_ranTo ran, (Option.some_get taken).symm, isJob,
    ?_, met⟩
  cases isJob
  rfl

end Sqlery.Standalone
