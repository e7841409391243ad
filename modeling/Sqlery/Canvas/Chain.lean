import Mathlib.Algebra.GroupWithZero.Nat
import Mathlib.Data.List.Nodup
import Mathlib.Logic.Relation
import Sqlery.Core.Job

/-!
# Chains of tasks

`Signature`, `group` and `chain` of the canvas, down to the jobs that
`apply_async_job` creates, and the order that the dependencies put on them.
-/

namespace Sqlery.Canvas

/-! ## Creating jobs -/

/-- A job as `apply_async_job` hands it to the backend; `passResult` is its
`meta`. -/
structure CanvasJob where
  id : JobId
  spec : JobSpec
  dependencies : List JobId
  passResult : Option String
  deriving DecidableEq, Repr

/-- The jobs created so far, oldest first. -/
structure Store where
  jobs : List CanvasJob := []
  nextJob : JobId := 1
  clock : Time := 0
  deriving DecidableEq, Repr

structure Config where
  defaultQueue : String := "default"
  defaultPriority : Int := 0
  defaultMaxRetries : Int := 0
  defaultRetryBackoff : Rat := 1

/-- Seconds, here in microseconds, or a moment. -/
inductive Expires where
  | after (elapsed : Time)
  | on (moment : Time)
  deriving DecidableEq, Repr

/-- The keyword arguments of a step: the defaults of its task under the options
of the signature. -/
structure Options where
  queue : Option String := none
  priority : Option Int := none
  maxRetries : Option Int := none
  retryBackoff : Option Rat := none
  allowParallel : Bool := false
  timeoutSeconds : Option Int := none
  tags : List String := []
  countdown : Option Time := none
  eta : Option Time := none
  expires : Option Expires := none
  deriving DecidableEq, Repr

/-- Code that creates jobs and may raise. -/
abbrev Enqueue (α : Type) : Type := Store → Except String (α × Store)

namespace Enqueue

variable {α β : Type}

instance : Monad Enqueue where
  pure value := fun store => .ok (value, store)
  bind first next := fun store =>
    match first store with
    | .ok (value, later) => next value later
    | .error message => .error message

theorem pure_ok {value result : α} {store later : Store} :
    (pure value : Enqueue α) store = .ok (result, later) ↔
      value = result ∧ store = later := by
  simp [pure]

theorem bind_ok {first : Enqueue α} {next : α → Enqueue β} {result : β}
    {store last : Store} :
    (first >>= next) store = .ok (result, last) ↔
      ∃ value later, first store = .ok (value, later) ∧
        next value later = .ok (result, last) := by
  cases ran : first store with
  | error message => simp [bind, ran]
  | ok returned =>
      obtain ⟨value, later⟩ := returned
      simp [bind, ran]

end Enqueue

/-- When the job may run. -/
def scheduledAt (opts : Options) (now : Time) : Option Time :=
  match opts.eta with
  | some eta => some eta
  | none => opts.countdown.map fun countdown => now + countdown

/-- `max(1, int(expires))`. -/
def ttl (opts : Options) (now : Time) : Option Int :=
  opts.expires.map fun expires =>
    let left := match expires with
      | .after elapsed => elapsed
      | .on moment => moment - now
    max 1 (left.tdiv 1000000)

def jobSpec (cfg : Config) (taskPath payload : String) (opts : Options)
    (now : Time) : JobSpec where
  taskPath
  kwargs := payload
  queueName := opts.queue.getD cfg.defaultQueue
  priority := opts.priority.getD cfg.defaultPriority
  scheduledAt := scheduledAt opts now
  maxRetries := opts.maxRetries.getD cfg.defaultMaxRetries
  retryBackoff := opts.retryBackoff.getD cfg.defaultRetryBackoff
  allowParallel := opts.allowParallel
  timeoutSeconds := opts.timeoutSeconds
  ttl := ttl opts now
  tags := opts.tags

/-- `apply_async_job`. -/
def applyAsyncJob (cfg : Config) (taskPath payload : String) (opts : Options)
    (dependencies : List JobId) (passResult : Option String) :
    Enqueue JobId := fun store =>
  if opts.countdown.isSome && opts.eta.isSome then
    .error "Specify either countdown or eta, not both"
  else
    let spec := jobSpec cfg taskPath payload opts store.clock
    let job : CanvasJob :=
      { id := store.nextJob, spec, dependencies, passResult }
    .ok (store.nextJob,
      { store with jobs := store.jobs ++ [job], nextJob := store.nextJob + 1 })

/-! ## Signatures, groups and chains -/

/-- A task with its bound arguments; `payload` is what `_payload` makes of them
when so many leading arguments come from upstream. -/
structure Signature where
  taskPath : String
  payload : Nat → String
  opts : Options := {}
  immutable : Bool := false

/-- A step of a chain. -/
inductive Step where
  | signature (signature : Signature)
  | group (signatures : List Signature)

/-- What a step returns. -/
inductive Handle where
  | result (id : JobId)
  | group (ids : List JobId)
  deriving DecidableEq, Repr

def Handle.ids : Handle → List JobId
  | .result id => [id]
  | .group ids => ids

def Handle.isSingle : Handle → Bool
  | .result _ => true
  | .group _ => false

/-- `Signature._enqueue`. -/
def Signature.enqueue (cfg : Config) (signature : Signature)
    (dependsOn : List JobId) (passResult : Option String) : Enqueue JobId :=
  let lead := if signature.immutable || passResult.isNone then 0 else 1
  applyAsyncJob cfg signature.taskPath (signature.payload lead) signature.opts
    dependsOn (if lead = 1 then passResult else none)

/-- `group._enqueue`: one signature after the other. -/
def enqueueAll (cfg : Config) (dependsOn : List JobId)
    (passResult : Option String) : List Signature → Enqueue (List JobId)
  | [] => pure []
  | signature :: signatures => do
      let id ← signature.enqueue cfg dependsOn passResult
      let ids ← enqueueAll cfg dependsOn passResult signatures
      pure (id :: ids)

def Step.enqueue (cfg : Config) (dependsOn : List JobId)
    (passResult : Option String) : Step → Enqueue Handle
  | .signature sig => do
      let id ← sig.enqueue cfg dependsOn passResult
      pure (.result id)
  | .group signatures => do
      let ids ← enqueueAll cfg dependsOn passResult signatures
      pure (.group ids)

/-- The number of signatures of a step. -/
def Step.size : Step → Nat
  | .signature _ => 1
  | .group signatures => signatures.length

/-- `mode`. -/
def passMode (prevIds : Option (List JobId)) (prevSingle : Bool) :
    Option String :=
  if (prevIds.getD []).isEmpty then none
  else some (if prevSingle then "single" else "list")

/-- The loop of `chain.apply_async`.  The handle of a step is the parent of the
next one's, so that the last one leads back to the first. -/
def applySteps (cfg : Config) : List Step → Option (List JobId) → Bool →
    List Handle → Enqueue (List Handle)
  | [], _, _, handles => pure handles
  | step :: steps, prevIds, prevSingle, handles => do
      let handle ← step.enqueue cfg (prevIds.getD [])
        (passMode prevIds prevSingle)
      applySteps cfg steps (some handle.ids) handle.isSingle
        (handle :: handles)

/-- What the constructor of a chain is given. -/
inductive Item where
  | step (step : Step)
  | chain (steps : List Step)

/-- `chain.__init__`. -/
def chainSteps (items : List Item) : Except String (List Step) :=
  match items.flatMap fun
    | .step step => [step]
    | .chain steps => steps with
  | [] => .error "chain needs at least one step"
  | step :: steps => .ok (step :: steps)

/-- `chain.apply_async`: the handle of the last step, then its parents. -/
def applyAsync (cfg : Config) (steps : List Step) : Enqueue (List Handle) :=
  applySteps cfg steps none false []

/-! ## The order of a chain -/

/-- The jobs that were created between two moments. -/
def created (before after : Store) : List CanvasJob :=
  after.jobs.drop before.jobs.length

/-- The job waits for the other one. -/
def DependsOn (jobs : List CanvasJob) (job other : JobId) : Prop :=
  ∃ row ∈ jobs, row.id = job ∧ other ∈ row.dependencies

/-- Every job of a later step depends on every job of an earlier one, there is
one job for each signature, and no job depends on one that was created after
it. -/
structure Orders (steps : List Step) (handles : List Handle)
    (jobs : List CanvasJob) : Prop where
  ordered : (handles.reverse.map Handle.ids).Pairwise fun earlier later =>
    ∀ job ∈ later, ∀ other ∈ earlier,
      Relation.TransGen (DependsOn jobs) job other
  count : jobs.length = (steps.map Step.size).sum
  backward : ∀ earlier job later, jobs = earlier ++ job :: later →
    ∀ other ∈ job.dependencies, other ∈ earlier.map CanvasJob.id

/-- No empty group stands between two steps with jobs. -/
def NoGap (sizes : List Nat) : Prop :=
  ∀ before after, sizes = before ++ 0 :: after →
    (∀ size ∈ before, size = 0) ∨ ∀ size ∈ after, size = 0

/-! ## Layers of jobs -/

/-- The jobs of every layer depend on the layer before, the first ones on
`prev`. -/
inductive Layered : List JobId → List (List JobId) → List CanvasJob → Prop where
  | nil (prev : List JobId) : Layered prev [] []
  | cons {prev : List JobId} {layers : List (List JobId)}
      {jobs rest : List CanvasJob} :
      (∀ job ∈ jobs, job.dependencies = prev) →
      Layered (jobs.map CanvasJob.id) layers rest →
      Layered prev (jobs.map CanvasJob.id :: layers) (jobs ++ rest)

/-- Once a layer is empty, all the later ones are. -/
def Solid : List (List JobId) → Prop
  | [] => True
  | [] :: layers => ∀ layer ∈ layers, layer = []
  | (_ :: _) :: layers => Solid layers

section Layers

variable {prev : List JobId} {layers : List (List JobId)}
variable {jobs all : List CanvasJob}

/-- In layers without a gap every job reaches what the first layer depends
on. -/
theorem Layered.reaches (layered : Layered prev layers jobs)
    (inAll : ∀ job ∈ jobs, job ∈ all) (solid : Solid layers) :
    ∀ layer ∈ layers, ∀ job ∈ layer, ∀ other ∈ prev,
      Relation.TransGen (DependsOn all) job other := by
  induction layered with
  | nil prev =>
      intro layer member
      cases member
  | @cons prev layers jobs rest direct layered ih =>
      have firstIn : ∀ job ∈ jobs, job ∈ all := fun job member =>
        inAll job (List.mem_append_left _ member)
      have restIn : ∀ job ∈ rest, job ∈ all := fun job member =>
        inAll job (List.mem_append_right _ member)
      have first : ∀ job ∈ jobs.map CanvasJob.id, ∀ other ∈ prev,
          DependsOn all job other := by
        intro job member other isPrev
        obtain ⟨row, isRow, rfl⟩ := List.mem_map.mp member
        refine ⟨row, firstIn row isRow, rfl, ?_⟩
        rw [direct row isRow]
        exact isPrev
      intro layer isLayer job isJob other isPrev
      rcases List.mem_cons.mp isLayer with rfl | later
      · exact .single (first job isJob other isPrev)
      · cases jobs with
        | nil =>
            have isEmpty : layer = [] := solid layer later
            rw [isEmpty] at isJob
            cases isJob
        | cons row rows =>
            have solidRest : Solid layers := solid
            have toRow := ih restIn solidRest layer later job isJob row.id
              (by simp)
            exact .tail toRow (first row.id (by simp) other isPrev)

/-- Layers without a gap are ordered. -/
theorem Layered.ordered (layered : Layered prev layers jobs)
    (inAll : ∀ job ∈ jobs, job ∈ all)
    (noGap : ∀ layer later, layer :: later <:+ layers → layer ≠ [] →
      Solid later) :
    layers.Pairwise fun earlier later => ∀ job ∈ later, ∀ other ∈ earlier,
      Relation.TransGen (DependsOn all) job other := by
  induction layered with
  | nil prev => exact .nil
  | @cons prev layers jobs rest direct layered ih =>
      have restIn : ∀ job ∈ rest, job ∈ all := fun job member =>
        inAll job (List.mem_append_right _ member)
      refine .cons ?_ (ih restIn ?_)
      · intro layer member job isJob other isOther
        have nonempty : jobs.map CanvasJob.id ≠ [] :=
          List.ne_nil_of_mem isOther
        have solid := noGap _ layers (List.suffix_refl _) nonempty
        exact layered.reaches restIn solid layer member job isJob other isOther
      · intro layer later suffix
        exact noGap layer later (suffix.trans (List.suffix_cons _ _))

/-- A job that depends on something is not in the first layers with jobs when
these have nothing to depend on. -/
theorem Layered.empty_of_waiting
    (layered : Layered prev layers jobs) (isFirst : prev = [])
    (inAll : ∀ job ∈ jobs, job ∈ all)
    (once : (all.map CanvasJob.id).Nodup)
    (waits : ∀ layer ∈ layers, ∀ job ∈ layer, ∃ other,
      DependsOn all job other) : ∀ layer ∈ layers, layer = [] := by
  induction layered with
  | nil prev =>
      intro layer member
      cases member
  | @cons prev layers jobs rest direct layered ih =>
      have noJobs : jobs = [] := by
        cases jobs with
        | nil => rfl
        | cons row rows =>
            obtain ⟨other, found, isFound, sameId, isDependency⟩ :=
              waits _ List.mem_cons_self row.id (by simp)
            have inRows : row ∈ all := inAll row (by simp)
            have same : found = row :=
              List.inj_on_of_nodup_map once isFound inRows sameId
            rw [same, direct row List.mem_cons_self, isFirst] at isDependency
            cases isDependency
      subst noJobs
      intro layer member
      rcases List.mem_cons.mp member with rfl | later
      · rfl
      · exact ih rfl (fun job isJob => inAll job (by simpa using isJob))
          (fun layer isLayer => waits layer (List.mem_cons_of_mem _ isLayer))
          layer later

/-- If every job waits for something, there is no gap. -/
theorem Layered.solid (layered : Layered prev layers jobs)
    (inAll : ∀ job ∈ jobs, job ∈ all) (once : (all.map CanvasJob.id).Nodup)
    (waits : ∀ layer ∈ layers, ∀ job ∈ layer, ∃ other,
      DependsOn all job other) : Solid layers := by
  induction layered with
  | nil prev => trivial
  | @cons prev layers jobs rest direct layered ih =>
      have restIn : ∀ job ∈ rest, job ∈ all := fun job member =>
        inAll job (List.mem_append_right _ member)
      have later : ∀ layer ∈ layers, ∀ job ∈ layer, ∃ other,
          DependsOn all job other := fun layer member =>
        waits layer (List.mem_cons_of_mem _ member)
      cases jobs with
      | nil => exact layered.empty_of_waiting rfl restIn once later
      | cons row rows => exact ih restIn later

/-- Ordered layers have no gap. -/
theorem Layered.noGap (layered : Layered prev layers jobs)
    (inAll : ∀ job ∈ jobs, job ∈ all) (once : (all.map CanvasJob.id).Nodup)
    (ordered : layers.Pairwise fun earlier later =>
      ∀ job ∈ later, ∀ other ∈ earlier,
        Relation.TransGen (DependsOn all) job other) :
    ∀ layer later, layer :: later <:+ layers → layer ≠ [] → Solid later := by
  induction layered with
  | nil prev =>
      intro layer later suffix
      simp at suffix
  | @cons prev layers jobs rest direct layered ih =>
      have restIn : ∀ job ∈ rest, job ∈ all := fun job member =>
        inAll job (List.mem_append_right _ member)
      obtain ⟨fromFirst, orderedRest⟩ := List.pairwise_cons.mp ordered
      intro layer later suffix nonempty
      rcases List.suffix_cons_iff.mp suffix with whole | inRest
      · cases whole
        apply layered.solid restIn once
        intro layer member job isJob
        obtain ⟨other, isOther⟩ := List.exists_mem_of_ne_nil _ nonempty
        obtain ⟨middle, isMiddle, _⟩ := Relation.TransGen.head'_iff.mp
          (fromFirst layer member job isJob other isOther)
        exact ⟨middle, isMiddle⟩
      · exact ih restIn orderedRest layer later inRest nonempty

/-- A job depends on what came before its layers or before itself. -/
theorem Layered.backward (layered : Layered prev layers jobs)
    {earlier later : List CanvasJob} {job : CanvasJob}
    (split : jobs = earlier ++ job :: later) :
    ∀ other ∈ job.dependencies,
      other ∈ prev ∨ other ∈ earlier.map CanvasJob.id := by
  induction layered generalizing earlier with
  | nil prev => simp at split
  | @cons prev layers jobs rest direct layered ih =>
      intro other isDependency
      rcases List.append_eq_append_iff.mp split with
        ⟨more, isEarlier, isRest⟩ | ⟨more, isJobs, isLater⟩
      · rcases ih isRest other isDependency with inLayer | inMore
        · right
          rw [isEarlier, List.map_append]
          exact List.mem_append_left _ inLayer
        · right
          rw [isEarlier, List.map_append]
          exact List.mem_append_right _ inMore
      · cases more with
        | nil =>
            rw [List.append_nil] at isJobs
            rw [List.nil_append] at isLater
            have isRest : rest = [] ++ job :: later := isLater.symm
            rcases ih isRest other isDependency with inLayer | inNone
            · right
              rw [← isJobs]
              exact inLayer
            · cases inNone
        | cons first more =>
            obtain ⟨rfl, _⟩ := List.cons.inj isLater
            have isJob : job ∈ jobs := by
              rw [isJobs]
              simp
            left
            rw [← direct job isJob]
            exact isDependency

end Layers

/-! ## Gaps -/

theorem solid_iff {layers : List (List JobId)} :
    Solid layers ↔ ∀ before after,
      layers.map List.length = before ++ 0 :: after →
        ∀ size ∈ after, size = 0 := by
  induction layers with
  | nil =>
      constructor
      · intro _ before after split
        simp at split
      · intro _
        trivial
  | cons layer layers ih =>
      cases layer with
      | nil =>
          constructor
          · intro empty before after split size member
            have inLayers : size ∈ layers.map List.length := by
              cases before with
              | nil =>
                  obtain ⟨_, rest⟩ := List.cons.inj split
                  rw [rest]
                  exact member
              | cons first before =>
                  obtain ⟨_, rest⟩ := List.cons.inj split
                  rw [rest]
                  exact List.mem_append_right _ (List.mem_cons_of_mem _ member)
            obtain ⟨other, isOther, rfl⟩ := List.mem_map.mp inLayers
            rw [empty other isOther]
            rfl
          · intro zeros other isOther
            have isZero := zeros [] (layers.map List.length) rfl other.length
              (List.mem_map_of_mem isOther)
            exact List.length_eq_zero_iff.mp isZero
      | cons first rest =>
          constructor
          · intro solid before after split
            cases before with
            | nil =>
                obtain ⟨noJobs, _⟩ := List.cons.inj split
                simp at noJobs
            | cons size before =>
                obtain ⟨_, isRest⟩ := List.cons.inj split
                exact ih.mp solid before after isRest
          · intro zeros
            apply ih.mpr
            intro before after split
            apply zeros ((first :: rest).length :: before) after
            rw [List.map_cons, split]
            rfl

/-- The layers have no gap when their sizes have none. -/
theorem noGap_iff {layers : List (List JobId)} :
    (∀ layer later, layer :: later <:+ layers → layer ≠ [] → Solid later) ↔
      NoGap (layers.map List.length) := by
  constructor
  · intro solid before after split
    by_cases empty : ∀ size ∈ before, size = 0
    · exact Or.inl empty
    · right
      push Not at empty
      obtain ⟨size, isSize, nonzero⟩ := empty
      obtain ⟨first, second, rfl⟩ := List.append_of_mem isSize
      rw [List.append_assoc] at split
      obtain ⟨firstLayers, restLayers, isLayers, _, isRest⟩ :=
        List.map_eq_append_iff.mp split
      obtain ⟨layer, later, rfl, isLayer, isLater⟩ :=
        List.map_eq_cons_iff.mp isRest
      have nonempty : layer ≠ [] := by
        intro isEmpty
        rw [isEmpty] at isLayer
        exact nonzero isLayer.symm
      have suffix : layer :: later <:+ layers := ⟨firstLayers, isLayers.symm⟩
      exact solid_iff.mp (solid layer later suffix nonempty) second after
        isLater
  · intro noGap layer later suffix nonempty
    obtain ⟨front, rfl⟩ := suffix
    apply solid_iff.mpr
    intro before after split
    have whole : (front ++ layer :: later).map List.length =
        (front.map List.length ++ layer.length :: before) ++ 0 :: after := by
      simp [split]
    rcases noGap _ after whole with empty | done
    · have isZero := empty layer.length (by simp)
      exact (nonempty (List.length_eq_zero_iff.mp isZero)).elim
    · exact done

/-! ## What the loop creates -/

/-- New jobs, each waiting for the same ones. -/
structure Adds (dependencies : List JobId) (ids : List JobId)
    (jobs : List CanvasJob) (before after : Store) : Prop where
  added : after.jobs = before.jobs ++ jobs
  ids : jobs.map CanvasJob.id = ids
  direct : ∀ job ∈ jobs, job.dependencies = dependencies
  fresh : ∀ job ∈ jobs, before.nextJob ≤ job.id ∧ job.id < after.nextJob
  once : (jobs.map CanvasJob.id).Nodup
  later : before.nextJob ≤ after.nextJob

section Runs

variable {cfg : Config} {dependsOn : List JobId} {passResult : Option String}
variable {before after : Store}

/-- Ids of two batches, one after the other, are different. -/
theorem once_append {first second : List CanvasJob} {low middle : JobId}
    {high : JobId} (onceFirst : (first.map CanvasJob.id).Nodup)
    (onceSecond : (second.map CanvasJob.id).Nodup)
    (below : ∀ job ∈ first, low ≤ job.id ∧ job.id < middle)
    (above : ∀ job ∈ second, middle ≤ job.id ∧ job.id < high) :
    ((first ++ second).map CanvasJob.id).Nodup := by
  rw [List.map_append]
  apply List.Nodup.append onceFirst onceSecond
  intro id inFirst inSecond
  obtain ⟨job, isJob, rfl⟩ := List.mem_map.mp inFirst
  obtain ⟨other, isOther, same⟩ := List.mem_map.mp inSecond
  have lower := (below job isJob).2
  have upper := (above other isOther).1
  rw [same] at upper
  exact Int.lt_irrefl _ (Int.lt_of_lt_of_le lower upper)

theorem Signature.enqueue_adds {sig : Signature} {id : JobId}
    (ran : sig.enqueue cfg dependsOn passResult before = .ok (id, after)) :
    ∃ jobs, Adds dependsOn [id] jobs before after := by
  unfold Signature.enqueue applyAsyncJob at ran
  split at ran
  · cases ran
  · cases ran
    have grows : before.nextJob < before.nextJob + 1 :=
      Int.lt_succ before.nextJob
    refine ⟨[_], rfl, rfl, ?_, ?_, by simp, Int.le_of_lt grows⟩
    · intro job member
      cases List.mem_singleton.mp member
      rfl
    · intro job member
      cases List.mem_singleton.mp member
      exact ⟨Int.le_refl _, grows⟩

theorem enqueueAll_adds {signatures : List Signature} {ids : List JobId}
    (ran : enqueueAll cfg dependsOn passResult signatures before =
      .ok (ids, after)) :
    ids.length = signatures.length ∧
      ∃ jobs, Adds dependsOn ids jobs before after := by
  induction signatures generalizing before ids with
  | nil =>
      obtain ⟨rfl, rfl⟩ := Enqueue.pure_ok.mp ran
      refine ⟨rfl, [], ?_⟩
      exact ⟨by simp, rfl, by simp, by simp, by simp, Int.le_refl _⟩
  | cons sig signatures ih =>
      obtain ⟨id, middle, first, ran⟩ := Enqueue.bind_ok.mp ran
      obtain ⟨rest, last, second, ran⟩ := Enqueue.bind_ok.mp ran
      obtain ⟨rfl, rfl⟩ := Enqueue.pure_ok.mp ran
      obtain ⟨firstJobs, adds⟩ := sig.enqueue_adds first
      obtain ⟨sameLength, restJobs, addsRest⟩ := ih second
      refine ⟨by simp [sameLength], firstJobs ++ restJobs, ?_⟩
      constructor
      · rw [addsRest.added, adds.added, List.append_assoc]
      · rw [List.map_append, adds.ids, addsRest.ids]
        rfl
      · intro job member
        rcases List.mem_append.mp member with inFirst | inRest
        · exact adds.direct job inFirst
        · exact addsRest.direct job inRest
      · intro job member
        rcases List.mem_append.mp member with inFirst | inRest
        · have bounds := adds.fresh job inFirst
          exact ⟨bounds.1, Int.lt_of_lt_of_le bounds.2 addsRest.later⟩
        · have bounds := addsRest.fresh job inRest
          exact ⟨Int.le_trans adds.later bounds.1, bounds.2⟩
      · exact once_append adds.once addsRest.once adds.fresh addsRest.fresh
      · exact Int.le_trans adds.later addsRest.later

theorem Step.enqueue_adds {step : Step} {handle : Handle}
    (ran : step.enqueue cfg dependsOn passResult before =
      .ok (handle, after)) :
    handle.ids.length = step.size ∧
      ∃ jobs, Adds dependsOn handle.ids jobs before after := by
  cases step with
  | signature sig =>
      obtain ⟨id, middle, first, ran⟩ := Enqueue.bind_ok.mp ran
      obtain ⟨rfl, rfl⟩ := Enqueue.pure_ok.mp ran
      exact ⟨rfl, sig.enqueue_adds first⟩
  | group signatures =>
      obtain ⟨ids, middle, first, ran⟩ := Enqueue.bind_ok.mp ran
      obtain ⟨rfl, rfl⟩ := Enqueue.pure_ok.mp ran
      exact enqueueAll_adds first

/-- The loop adds one layer for each step. -/
theorem applySteps_layered {steps : List Step}
    {prevIds : Option (List JobId)} {prevSingle : Bool}
    {handles last : List Handle}
    (ran : applySteps cfg steps prevIds prevSingle handles before =
      .ok (last, after)) :
    ∃ newer jobs, last = newer ++ handles ∧
      after.jobs = before.jobs ++ jobs ∧
      (newer.reverse.map fun handle => handle.ids.length) =
        steps.map Step.size ∧
      Layered (prevIds.getD []) (newer.reverse.map Handle.ids) jobs ∧
      (∀ job ∈ jobs, before.nextJob ≤ job.id ∧ job.id < after.nextJob) ∧
      (jobs.map CanvasJob.id).Nodup ∧ before.nextJob ≤ after.nextJob := by
  induction steps generalizing before prevIds prevSingle handles with
  | nil =>
      obtain ⟨rfl, rfl⟩ := Enqueue.pure_ok.mp ran
      exact ⟨[], [], rfl, by simp, rfl, .nil _, by simp, by simp, Int.le_refl _⟩
  | cons step steps ih =>
      obtain ⟨handle, middle, first, ran⟩ := Enqueue.bind_ok.mp ran
      obtain ⟨size, jobs, adds⟩ := step.enqueue_adds first
      obtain ⟨newer, rest, isLast, added, sizes, layered, fresh, once, later⟩ :=
        ih ran
      refine ⟨newer ++ [handle], jobs ++ rest, ?_, ?_, ?_, ?_, ?_, ?_, ?_⟩
      · rw [isLast, List.append_assoc]
        rfl
      · rw [added, adds.added, List.append_assoc]
      · simp [sizes, size]
      · rw [List.reverse_append, List.reverse_singleton, List.singleton_append,
          List.map_cons, ← adds.ids]
        refine .cons adds.direct ?_
        rw [adds.ids]
        exact layered
      · intro job member
        rcases List.mem_append.mp member with inFirst | inRest
        · have bounds := adds.fresh job inFirst
          exact ⟨bounds.1, Int.lt_of_lt_of_le bounds.2 later⟩
        · have bounds := fresh job inRest
          exact ⟨Int.le_trans adds.later bounds.1, bounds.2⟩
      · exact once_append adds.once once adds.fresh fresh
      · exact Int.le_trans adds.later later

/-- There are as many jobs as ids in the layers. -/
theorem Layered.length {prev : List JobId} {layers : List (List JobId)}
    {jobs : List CanvasJob} (layered : Layered prev layers jobs) :
    jobs.length = (layers.map List.length).sum := by
  induction layered with
  | nil prev => rfl
  | cons direct layered ih => simp [ih]

end Runs

/-- The jobs of a chain are ordered, one for each signature and with
dependencies on earlier jobs only, exactly when no empty group stands between
two steps with jobs. -/
theorem chain_orders_iff (cfg : Config) (steps : List Step)
    (before after : Store) (handles : List Handle)
    (applied : applyAsync cfg steps before = .ok (handles, after)) :
    Orders steps handles (created before after) ↔
      NoGap (steps.map Step.size) := by
  obtain ⟨newer, jobs, isLast, added, sizes, layered, _, once, _⟩ :=
    applySteps_layered applied
  rw [List.append_nil] at isLast
  subst isLast
  have isCreated : created before after = jobs := by
    simp [created, added]
  have isSizes : (handles.reverse.map Handle.ids).map List.length =
      steps.map Step.size := by
    rw [← sizes, List.map_map]
    rfl
  rw [isCreated]
  constructor
  · intro orders
    rw [← isSizes]
    exact noGap_iff.mp
      (layered.noGap (fun _ member => member) once orders.ordered)
  · intro noGap
    rw [← isSizes] at noGap
    constructor
    · exact layered.ordered (fun _ member => member) (noGap_iff.mpr noGap)
    · rw [layered.length, isSizes]
    · intro earlier job later split other isDependency
      rcases layered.backward split other isDependency with inNone | found
      · cases inNone
      · exact found

/-! ## Runs -/

def callOf (name : String) : Signature where
  taskPath := name
  payload := fun _ => "\x7b\x7d"

/-- A step, a group of two and a last step. -/
theorem chain_orders_iff_fan :
    ∃ handles after,
      applyAsync {} [.signature (callOf "a"),
        .group [callOf "b", callOf "c"], .signature (callOf "d")] {} =
          .ok (handles, after) ∧
      Orders [.signature (callOf "a"), .group [callOf "b", callOf "c"],
        .signature (callOf "d")] handles (created {} after) := by
  refine ⟨_, _, rfl, (chain_orders_iff {} _ {} _ _ rfl).mpr ?_⟩
  intro before after split
  have zero : 0 ∈ [1, 2, 1] := by
    have member : 0 ∈ before ++ 0 :: after := by simp
    rw [← split] at member
    exact member
  simp at zero

/-- An empty group cuts the chain: the last job waits for nothing. -/
theorem chain_cut_by_empty_group :
    ∃ handles after,
      applyAsync {} [.signature (callOf "a"), .group [],
        .signature (callOf "b")] {} = .ok (handles, after) ∧
      (created {} after).map CanvasJob.dependencies = [[], []] ∧
      ¬Orders [.signature (callOf "a"), .group [], .signature (callOf "b")]
        handles (created {} after) := by
  refine ⟨_, _, rfl, by decide, ?_⟩
  intro orders
  have noGap := (chain_orders_iff {} _ {} _ _ rfl).mp orders
  rcases noGap [1] [1] rfl with empty | empty
  · exact absurd (empty 1 (by simp)) (by decide)
  · exact absurd (empty 1 (by simp)) (by decide)

end Sqlery.Canvas
