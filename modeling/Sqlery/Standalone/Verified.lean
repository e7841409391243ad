import Sqlery.ReadCommitted.Steps
import Sqlery.Standalone.ClaimSpecs
import Sqlery.Standalone.RetrySpecs

/-!
# The verified backend

The body of every call keeps its promise, so every state the system reaches
satisfies the invariant of the data, and every transaction that commits is
lawful.
-/

namespace Sqlery.Standalone

open ReadCommitted
open Script

section Bodies

variable {cfg : Config} {call : Call}

/-- A claim that returned a job has one attempt on record, the job's own. -/
def Returned (cfg : Config) (call : Call) (result : Result) :
    Db → Loc → Prop :=
  match result with
  | .claimed claimed => Claims cfg call {} claimed
  | _ => Loose cfg call {}

theorem returned_stable (result : Result) :
    (backend cfg).Stable (Returned cfg call result) := by
  cases result with
  | claimed claimed => exact claims_stable claimed
  | _ => exact loose_stable

theorem returns_claim {script : Sql (Option Claimed)}
    (spec : (backend cfg).Spec call (Between cfg call {}) script
      (Claims cfg call {}) (Between cfg call {})) :
    (backend cfg).Spec call (Between cfg call {}) (.claimed <$> script)
      (Returned cfg call) (Loose cfg call {}) :=
  .map (spec.strengthen (fun _ _ _ _ holds => holds)
    fun _ _ _ holds => At.loose holds) (fun _ => claims_stable _) loose_stable

theorem returns_loose {β : Type} {script : Sql β} {result : β → Result}
    (other : ∀ value, Returned cfg call (result value) = Loose cfg call {})
    (spec : (backend cfg).Spec call (Between cfg call {}) script
      (fun _ => Loose cfg call {}) (Loose cfg call {})) :
    (backend cfg).Spec call (Between cfg call {}) (result <$> script)
      (Returned cfg call) (Loose cfg call {}) := by
  refine .map (spec.strengthen (fun value db state _ holds => ?_)
    fun _ _ _ holds => holds) (fun _ => returned_stable _) loose_stable
  rw [other value]
  exact holds

theorem returns_outer {β : Type} {script : Sql β} {result : β → Result}
    (other : ∀ value, Returned cfg call (result value) = Loose cfg call {})
    (outer : Outer cfg call script) :
    (backend cfg).Spec call (Between cfg call {}) (result <$> script)
      (Returned cfg call) (Loose cfg call {}) :=
  returns_loose other ((outer {}).strengthen
    (fun _ _ _ _ holds => At.loose holds) fun _ _ _ holds => At.loose holds)

theorem returns_between {β : Type} {script : Sql β} {result : β → Result}
    {post : β → Db → Loc → Prop}
    (other : ∀ value, Returned cfg call (result value) = Loose cfg call {})
    (spec : (backend cfg).Spec call (Between cfg call {}) script post
      (Between cfg call {}))
    (still : ∀ value db state, post value db state →
      Between cfg call {} db state) :
    (backend cfg).Spec call (Between cfg call {}) (result <$> script)
      (Returned cfg call) (Loose cfg call {}) :=
  returns_loose other (spec.strengthen
    (fun value db state _ holds => At.loose (still value db state holds))
    fun _ _ _ holds => At.loose holds)

end Bodies

theorem takesUp_of_sweeps {call : Call} (sweeps : call.sweeps = true) :
    call.takesUp = true := by
  cases call <;> first | rfl | cases sweeps

theorem mayCreate_first {call : Call} {record : Record} {spec : JobSpec}
    (creates : call.creates = true) (retries : call.retries = false)
    (takesUp : call.takesUp = false) : MayCreate call record spec where
  creates := creates
  ahead := fun isRetry => by
    rw [retries] at isRetry
    cases isRetry
  takenUp := fun isTaken => by
    rw [takesUp] at isTaken
    cases isTaken
  judged := fun sweeps => by
    rw [takesUp_of_sweeps sweeps] at takesUp
    cases takesUp

theorem scriptOf_spec (cfg : Config) (call : Call) :
    (backend cfg).Spec call (Between cfg call {}) (scriptOf cfg call)
      (Returned cfg call) (Loose cfg call {}) := by
  cases call with
  | claimJob queues worker =>
      exact returns_claim (claimJob_spec rfl queues worker)
  | claimJobById jobId worker =>
      exact returns_claim (claimJobById_spec rfl jobId worker)
  | atomicClaimJob job worker =>
      exact returns_claim (atomicClaimJob_spec rfl job worker)
  | aclaimJob queues worker =>
      exact returns_claim (aclaimJob_spec rfl queues worker)
  | amarkRunning jobId worker =>
      exact returns_loose (fun _ => rfl) (amarkRunning_spec rfl jobId worker)
  | blockJob job => exact returns_outer (fun _ => rfl) (Outer.blockJob job)
  | markJobSuccess jobId output version attempt =>
      exact returns_between (fun _ => rfl) (markJobSuccess_spec rfl)
        fun _ _ _ holds => holds.2
  | markJobFailed jobId error traceback version reason attempt =>
      have may : MayEnd (.markJobFailed jobId error traceback version reason
          attempt) {} jobId attempt := by
        constructor
        · rintro handle rfl
          rfl
        · intro _
          exact judged_of_quiet rfl jobId
      exact returns_between (fun _ => rfl) (markJobFailed_spec may
        (.marked error traceback version reason attempt rfl))
        fun _ _ _ holds => holds.2
  | cancelJob jobId =>
      exact returns_outer (fun _ => rfl) (Outer.cancelJob jobId rfl)
  | expireQueuedJob job error reason =>
      exact returns_outer (fun _ => rfl)
        (Outer.expireQueuedJob job error reason
          (.expired job error reason rfl rfl))
  | failZombieJob jobId reason =>
      exact returns_outer (fun _ => rfl)
        (Outer.failZombieJob jobId reason rfl rfl)
  | markJobArchived jobId =>
      exact returns_between (fun _ => rfl)
        (markJobArchived_spec jobId (Or.inl rfl) (judged_of_quiet rfl _))
        fun _ _ _ holds => holds
  | settleRetryPending jobId =>
      exact returns_between (fun _ => rfl)
        (settleRetryPending_spec jobId (Or.inl rfl) (judged_of_quiet rfl _))
        fun _ _ _ holds => holds
  | cascadeAncestorStatus jobId status =>
      exact returns_between (fun _ => rfl)
        (cascadeAncestorStatus_spec jobId status rfl) fun _ _ _ holds => holds
  | settleFinishedJobs limit =>
      exact returns_outer (fun _ => rfl)
        (Outer.settleFinishedJobs limit rfl rfl)
  | releaseJob jobId =>
      exact returns_between (fun _ => rfl) (releaseJob_spec jobId rfl)
        fun _ _ _ holds => holds
  | releaseClaimedJob job worker status jobsProcessed kwargs =>
      exact returns_outer (fun _ => rfl) (Outer.releaseClaimedJob job worker
        status jobsProcessed kwargs rfl rfl fun isSuccess => by
          simp [Call.succeedsUnfenced, isSuccess])
  | maintainReadyQueue queues limit afterJobId =>
      exact returns_outer (fun _ => rfl)
        (Outer.maintainReadyQueue queues limit afterJobId rfl rfl)
  | releaseDependents jobId parent =>
      exact returns_outer (fun _ => rfl) (Outer.releaseDependents jobId parent)
  | recheckBlocked jobId createdAt =>
      exact returns_outer (fun _ => rfl) (Outer.recheckBlocked jobId createdAt)
  | createJob spec =>
      exact returns_loose (fun _ => rfl)
        (createJob_spec spec (mayCreate_first rfl rfl rfl))
  | advanceScheduledTaskIfDue taskId observed next spec =>
      exact returns_loose (fun _ => rfl) (advanceScheduledTaskIfDue_spec
        taskId observed next spec (mayCreate_first rfl rfl rfl))
  | failExecution job attempt error traceback willRetry =>
      exact returns_loose (fun _ => rfl)
        (failExecution_spec job attempt error traceback willRetry rfl)
  | recoverLostRetries grace limit =>
      exact returns_loose (fun _ => rfl)
        (recoverLostRetries_spec grace limit rfl rfl)
  | cleanupStaleJobs queue =>
      exact returns_loose (fun _ => rfl) (cleanupStaleJobs_spec queue rfl rfl)

/-- What holds when a call has returned. -/
def Returns (cfg : Config) (call : Call) (value : Return) :
    Db → Loc → Prop :=
  match value with
  | .ok result => Returned cfg call result
  | .error _ => Loose cfg call {}

theorem backend_verified (cfg : Config) :
    (backend cfg).Verified (Returns cfg) := by
  intro call db state inv guarded isInitial
  subst isInitial
  have safe := scriptOf_spec cfg call db {} inv guarded (at_initial db)
  refine Setting.Safe.mono ?_ safe
  intro value db state _ holds
  cases value with
  | ok result => exact holds
  | error exception => exact holds

/-! ## Reachable states -/

/-- The database before the first job. -/
def installed (tasks : Table ScheduledTask.id) (workers : Table Worker.id)
    (clock : Time) : Db :=
  { tasks, workers, clock }

theorem inv_installed (tasks : Table ScheduledTask.id)
    (workers : Table Worker.id) (clock : Time) :
    Inv (installed tasks workers clock) := by
  constructor <;> simp [installed, Table.empty, Versioned]

abbrev World (n : Nat) := State Db Write Lock Call Return n

/-- The states the processes reach from a fresh database, under the steps that
are allowed. -/
def Reached (cfg : Config) {n : Nat}
    (allowed : World n → Action Write Call n → Prop) (state : World n) :
    Prop :=
  ∃ tasks workers clock, (system cfg).Reaches allowed
    (System.initial (installed tasks workers clock)) state

/-- The state a list of actions leads to on an empty database. -/
def ranTo (cfg : Config) {n : Nat} (actions : List (Action Write Call n)) :
    Option (World n) :=
  (system cfg).run (System.initial (installed .empty .empty 0)) actions

theorem reached_ranTo {cfg : Config} {n : Nat}
    {actions : List (Action Write Call n)}
    (ran : (ranTo cfg actions).isSome = true) :
    Reached cfg System.anyStep ((ranTo cfg actions).get ran) :=
  ⟨.empty, .empty, 0, System.reaches_of_run _ (Option.some_get ran).symm⟩

/-- The state a list of actions leads to that all pass a check. -/
def checkedTo (cfg : Config) {n : Nat}
    (check : World n → Action Write Call n → Bool)
    (actions : List (Action Write Call n)) : Option (World n) :=
  (system cfg).runWhile check (System.initial (installed .empty .empty 0))
    actions

theorem reached_checkedTo {cfg : Config} {n : Nat}
    {check : World n → Action Write Call n → Bool}
    {allowed : World n → Action Write Call n → Prop}
    (sound : ∀ state action, check state action = true →
      allowed state action)
    {actions : List (Action Write Call n)}
    (ran : (checkedTo cfg check actions).isSome = true) :
    Reached cfg allowed ((checkedTo cfg check actions).get ran) :=
  ⟨.empty, .empty, 0,
    System.reaches_of_runWhile _ sound (Option.some_get ran).symm⟩

/-- The actions of a process that makes one call and takes so many steps. -/
def makes {n : Nat} (process : Fin n) (call : Call) (steps : Nat) :
    List (Action Write Call n) :=
  .start process call :: List.replicate steps (.step process)

section Reached

variable {cfg : Config} {n : Nat} {state : World n}
variable {allowed : World n → Action Write Call n → Prop}

theorem Reached.good (reached : Reached cfg allowed state) :
    (backend cfg).Good (Returns cfg) state := by
  obtain ⟨tasks, workers, clock, run⟩ := reached
  exact Setting.sound (backend_verified cfg)
    (inv_installed tasks workers clock) run

theorem Reached.mono {weaker : World n → Action Write Call n → Prop}
    (implies : ∀ state action, allowed state action → weaker state action)
    (reached : Reached cfg allowed state) : Reached cfg weaker state := by
  obtain ⟨tasks, workers, clock, run⟩ := reached
  exact ⟨tasks, workers, clock, run.mono (system cfg) implies⟩

theorem Reached.step {next : World n} {action : Action Write Call n}
    (reached : Reached cfg allowed state) (permitted : allowed state action)
    (taken : (system cfg).act state action = some next) :
    Reached cfg allowed next := by
  obtain ⟨tasks, workers, clock, run⟩ := reached
  exact ⟨tasks, workers, clock, .step run permitted taken⟩

/-- A property of the start that every allowed step from a reached state keeps
holds of every reached state. -/
theorem Reached.induct {holds : World n → Prop}
    (start : ∀ tasks workers clock,
      holds (System.initial (installed tasks workers clock)))
    (step : ∀ state action next, Reached cfg allowed state → holds state →
      allowed state action → (system cfg).act state action = some next →
      holds next)
    (reached : Reached cfg allowed state) : holds state := by
  obtain ⟨tasks, workers, clock, run⟩ := reached
  induction run with
  | refl => exact start tasks workers clock
  | step before permitted taken ih =>
      exact step _ _ _ ⟨tasks, workers, clock, before⟩ ih permitted taken

theorem sameTables_of_drifts {action : Action Write Call n} {first second : Db}
    (drifts : (backend cfg).Drifts action first second) :
    SameTables first second := by
  cases drifts with
  | same isSame => exact isSame ▸ .refl _
  | instant call local_ writes promised isAfter =>
      exact isAfter ▸ sameTables_after promised _
  | ambient write _ isAmbient isAfter =>
      exact isAfter ▸
        sameTables_apply (isCounter_of_isAmbient isAmbient) _

end Reached

end Sqlery.Standalone
