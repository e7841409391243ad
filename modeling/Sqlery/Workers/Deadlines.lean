import Mathlib.Logic.Function.Basic
import Sqlery.Runs.Machine

/-!
# Deadline files

A worker leaves a file while it executes a job, and the daemon enforces the
deadline in it: SIGTERM and a marker in one cycle, SIGKILL in a later one.  The
two files of a worker are the only link between the two phases.
-/

namespace Sqlery.Workers.Deadlines

open Runs

/-! ## The worker -/

/-- Times are counted in microseconds. -/
def second : Nat := 1000000

/-- `worker-{id}.json`.  The execution it was written for is no part of it. -/
structure DeadlineFile where
  jobId : Nat
  timeoutSeconds : Nat
  deadline : Nat
  execution : Nat
  deriving DecidableEq

/-- `job.timeout_seconds or _get_default_timeout()`. -/
def timeoutOf (defaultTimeout : Nat) : Option Nat → Nat
  | none => defaultTimeout
  | some 0 => defaultTimeout
  | some seconds => seconds

/-- Where `run_worker` stands in its loop. -/
inductive Phase where
  /-- Before the test of `shutdown_requested`. -/
  | top
  | claiming
  | claimed (jobId : Nat) (timeoutSeconds : Option Nat)
  | executing
  /-- The job has been released, its files are still there. -/
  | finished
  /-- `clear_deadline` has removed the first of the two files. -/
  | cleared
  | left
  deriving DecidableEq

/-- A job attempt, of an execution by this worker. -/
structure Attempt where
  jobId : Nat
  execution : Nat
  isOpen : Bool
  deriving DecidableEq

/-! ## The daemon -/

/-- Where `enforce_deadlines` stands with the file of the worker. -/
inductive Stage where
  | resting
  | started (now : Nat)
  | read (now : Nat) (data : DeadlineFile)
  /-- The marker has been found. -/
  | escalating (data : DeadlineFile)
  /-- The deadline has passed, and there is no marker. -/
  | overdue (now : Nat) (data : DeadlineFile)
  /-- SIGTERM has been sent. -/
  | terminated (data : DeadlineFile)
  | reconciling (data : DeadlineFile) (marked : Bool)
  | removing (marked : Bool)
  | removingMarker
  deriving DecidableEq

/-- SIGTERM was sent for an execution, in a cycle that began at a time. -/
structure Warning where
  execution : Nat
  now : Nat
  deriving DecidableEq

structure State where
  clock : Nat
  phase : Phase
  shutdownRequested : Bool
  /-- SIGTERM has been sent, and its handler has not run. -/
  signalled : Bool
  /-- SIGKILL has been sent. -/
  killed : Bool
  file : Option DeadlineFile
  marker : Bool
  attempts : List Attempt
  stage : Stage
  /-- The rounds of the loop so far, by which executions are told apart. -/
  round : Nat
  /-- The deadline written for an execution. -/
  deadlines : Nat → Option Nat
  warnings : List Warning
  /-- The executions SIGKILL was sent for or met, and those whose job
  `_reconcile_overdue_job` failed. -/
  harmed : List Nat

inductive WorkerAction where
  | loop
  | idle
  | claim (jobId : Nat) (timeoutSeconds : Option Nat)
  | write
  | finish
  | clearFile
  | clearMarker

/-- `write_deadline`. -/
def State.writeDeadline (state : State) (defaultTimeout jobId : Nat)
    (timeoutSeconds : Option Nat) : State :=
  let timeout := timeoutOf defaultTimeout timeoutSeconds
  let deadline := state.clock + (timeout + 1) * second
  { state with
    phase := .executing
    file := some ⟨jobId, timeout, deadline, state.round⟩
    deadlines := Function.update state.deadlines state.round (some deadline) }

def Attempt.released (execution : Nat) (attempt : Attempt) : Attempt :=
  if attempt.execution = execution then { attempt with isOpen := false }
  else attempt

/-- One step of `run_worker`. -/
def State.work (defaultTimeout : Nat) (state : State) :
    WorkerAction → Option State
  | .loop =>
      match state.phase with
      | .top =>
          if state.shutdownRequested then some { state with phase := .left }
          else some { state with phase := .claiming, round := state.round + 1 }
      | _ => none
  | .idle =>
      match state.phase with
      | .claiming => some { state with phase := .top }
      | _ => none
  | .claim jobId timeoutSeconds =>
      match state.phase with
      | .claiming =>
          some { state with
            phase := .claimed jobId timeoutSeconds
            attempts := state.attempts ++ [⟨jobId, state.round, true⟩] }
      | _ => none
  | .write =>
      match state.phase with
      | .claimed jobId timeoutSeconds =>
          some (state.writeDeadline defaultTimeout jobId timeoutSeconds)
      | _ => none
  | .finish =>
      match state.phase with
      | .executing =>
          some { state with
            phase := .finished
            attempts := state.attempts.map (·.released state.round) }
      | _ => none
  | .clearFile =>
      match state.phase with
      | .finished => some { state with phase := .cleared, file := none }
      | _ => none
  | .clearMarker =>
      match state.phase with
      | .cleared => some { state with phase := .top, marker := false }
      | _ => none

def Attempt.isOpenFor (jobId : Nat) (attempt : Attempt) : Bool :=
  attempt.jobId == jobId && attempt.isOpen

/-- `JobAttempt.close_open`. -/
def Attempt.closed (jobId : Nat) (attempt : Attempt) : Attempt :=
  if attempt.isOpenFor jobId then { attempt with isOpen := false }
  else attempt

/-- `_reconcile_overdue_job`: a job with an open attempt fails. -/
def State.reconcile (state : State) (jobId : Nat) : State :=
  { state with
    attempts := state.attempts.map (·.closed jobId)
    harmed := state.harmed ++
      (state.attempts.filter (·.isOpenFor jobId)).map (·.execution) }

/-- The execution the worker is in, which SIGKILL ends. -/
def State.victim (state : State) : List Nat :=
  match state.phase with
  | .claimed _ _ => [state.round]
  | .executing => [state.round]
  | _ => []

/-- One step of `enforce_deadlines`.  The process of the worker is alive until
SIGKILL is sent to it. -/
def State.enforce (state : State) : State :=
  match state.stage with
  | .resting => { state with stage := .started state.clock }
  | .started now =>
      match state.file with
      | none => { state with stage := .resting }
      | some data => { state with stage := .read now data }
  | .read now data =>
      if state.marker then { state with stage := .escalating data }
      else if now ≤ data.deadline then { state with stage := .resting }
      else { state with stage := .overdue now data }
  | .escalating data =>
      if state.killed then { state with stage := .reconciling data true }
      else
        { state with
          killed := true
          harmed := state.harmed ++ data.execution :: state.victim
          stage := .reconciling data true }
  | .overdue now data =>
      if state.killed then { state with stage := .reconciling data false }
      else
        { state with
          signalled := true
          warnings := state.warnings ++ [⟨data.execution, now⟩]
          stage := .terminated data }
  | .terminated _ => { state with marker := true, stage := .resting }
  | .reconciling data marked =>
      { state.reconcile data.jobId with stage := .removing marked }
  | .removing marked =>
      { state with
        file := none
        stage := if marked then .removingMarker else .resting }
  | .removingMarker => { state with marker := false, stage := .resting }

inductive Action where
  | tick (passed : Nat)
  | work (action : WorkerAction)
  /-- The handler of SIGTERM runs. -/
  | signalHandler
  | enforce

def act (defaultTimeout : Nat) : Machine State Action := fun state action =>
  match action with
  | .tick passed => some { state with clock := state.clock + passed }
  | .work action =>
      if state.killed then none else state.work defaultTimeout action
  | .signalHandler =>
      if state.signalled && !state.killed then
        some { state with shutdownRequested := true, signalled := false }
      else none
  | .enforce => some state.enforce

def initial : State where
  clock := 0
  phase := .top
  shutdownRequested := false
  signalled := false
  killed := false
  file := none
  marker := false
  attempts := []
  stage := .resting
  round := 0
  deadlines := fun _ => none
  warnings := []
  harmed := []

/-! ## What is spared -/

/-- SIGTERM was sent for an execution in a cycle in which its own deadline had
passed. -/
def Warned (state : State) (execution : Nat) : Prop :=
  ∃ warning ∈ state.warnings, warning.execution = execution ∧
    ∃ deadline, state.deadlines execution = some deadline ∧
      deadline < warning.now

/-- Nothing else was killed or failed. -/
def Spared (state : State) : Prop :=
  ∀ execution ∈ state.harmed, Warned state execution

/-- The daemon is about to leave a marker, or to send SIGKILL, for the file it
has read. -/
def Stage.isPursuing : Stage → Bool
  | .read now data => data.deadline < now
  | .escalating _ => true
  | .overdue _ _ => true
  | .terminated _ => true
  | _ => false

/-- The worker begins another round of its loop only when it has no marker, and
the daemon is not about to act on the file of an earlier one. -/
def Settled (state : State) : Action → Prop
  | .work .loop => state.shutdownRequested = false →
      state.marker = false ∧ state.stage.isPursuing = false
  | _ => True

/-! ## The invariant -/

/-- The deadline in a file is that of its execution. -/
def Dated (state : State) (data : DeadlineFile) : Prop :=
  state.deadlines data.execution = some data.deadline

/-- What the daemon knows of the file it has read. -/
def StageHolds (state : State) : Prop :=
  match state.stage with
  | .read now data => Dated state data ∧
      (state.marker = true ∨ data.deadline < now →
        data.execution = state.round)
  | .overdue now data => Dated state data ∧ data.execution = state.round ∧
      data.deadline < now
  | .terminated data => data.execution = state.round ∧
      Warned state state.round
  | .escalating data => data.execution = state.round ∧
      Warned state state.round
  | .reconciling _ _ => state.killed = true ∧ Warned state state.round
  | _ => True

def Phase.isWorking : Phase → Bool
  | .claimed _ _ => true
  | .executing => true
  | _ => false

def Phase.hasFile : Phase → Bool
  | .executing => true
  | .finished => true
  | _ => false

def Phase.isUnwritten : Phase → Bool
  | .claiming => true
  | .claimed _ _ => true
  | _ => false

structure Sound (state : State) : Prop where
  file : ∀ data, state.file = some data →
    state.phase.hasFile = true ∧ data.execution = state.round ∧
      Dated state data
  marker : state.marker = true → Warned state state.round
  killed : state.killed = true → Warned state state.round
  stage : StageHolds state
  working : ∀ attempt ∈ state.attempts, attempt.isOpen = true →
    state.phase.isWorking = true ∧ attempt.execution = state.round
  later : ∀ execution, state.round < execution →
    state.deadlines execution = none
  unwritten : state.phase.isUnwritten = true →
    state.deadlines state.round = none
  spared : Spared state

theorem Warned.mono {before after : State} {execution : Nat}
    (warned : Warned before execution)
    (warnings : before.warnings ⊆ after.warnings)
    (deadlines : ∀ other deadline, before.deadlines other = some deadline →
      after.deadlines other = some deadline) : Warned after execution := by
  obtain ⟨warning, known, same, deadline, own, passed⟩ := warned
  exact ⟨warning, warnings known, same, deadline, deadlines _ _ own, passed⟩

/-! ## Steps of the worker -/

theorem sound_initial : Sound initial where
  file := by
    intro data found
    cases found
  marker := by
    intro found
    cases found
  killed := by
    intro found
    cases found
  stage := trivial
  working := by
    intro attempt member
    cases member
  later := by
    intro execution _
    rfl
  unwritten := by
    intro claiming
    cases claiming
  spared := by
    intro execution member
    cases member

/-- A worker that has no file is in no round the daemon can know of. -/
theorem Sound.no_file {state : State} (sound : Sound state)
    (without : state.phase.hasFile = false) : state.file = none := by
  cases found : state.file with
  | none => rfl
  | some data =>
      have has := (sound.file data found).1
      rw [without] at has
      cases has

theorem Sound.not_open {state : State} (sound : Sound state)
    (idle : state.phase.isWorking = false) {attempt : Attempt}
    (member : attempt ∈ state.attempts) : attempt.isOpen = false := by
  cases isOpen : attempt.isOpen with
  | false => rfl
  | true =>
      have working := (sound.working attempt member isOpen).1
      rw [idle] at working
      cases working

variable {state : State} {defaultTimeout : Nat}

/-- A step between two phases of one round that leaves the files alone. -/
theorem Sound.move (sound : Sound state) (phase : Phase)
    (file : state.phase.hasFile = true → phase.hasFile = true)
    (working : state.phase.isWorking = true → phase.isWorking = true)
    (unwritten : phase.isUnwritten = true → state.phase.isUnwritten = true) :
    Sound { state with phase := phase } where
  file := by
    intro data found
    obtain ⟨has, same, dated⟩ := sound.file data found
    exact ⟨file has, same, dated⟩
  marker := sound.marker
  killed := sound.killed
  stage := sound.stage
  working := by
    intro attempt member isOpen
    obtain ⟨works, same⟩ := sound.working attempt member isOpen
    exact ⟨working works, same⟩
  later := sound.later
  unwritten := by
    intro claiming
    exact sound.unwritten (unwritten claiming)
  spared := sound.spared

/-- The worker passes the test of `shutdown_requested`. -/
theorem Sound.begins (sound : Sound state) (top : state.phase = .top)
    (alive : state.killed = false) (unmarked : state.marker = false)
    (undisturbed : state.stage.isPursuing = false) :
    Sound { state with phase := .claiming, round := state.round + 1 } where
  file := by
    intro data found
    have missing := sound.no_file (by rw [top]; rfl)
    rw [missing] at found
    cases found
  marker := by
    intro marked
    rw [unmarked] at marked
    cases marked
  killed := by
    intro killed
    rw [alive] at killed
    cases killed
  stage := by
    have before := sound.stage
    simp only [StageHolds] at before ⊢
    cases stage : state.stage with
    | read now data =>
        simp only [stage] at before ⊢
        refine ⟨before.1, ?_⟩
        intro pursued
        rcases pursued with marked | passed
        · rw [unmarked] at marked
          cases marked
        · simp [stage, Stage.isPursuing] at undisturbed
          omega
    | reconciling data marked =>
        simp only [stage] at before
        rw [alive] at before
        cases before.1
    | escalating data => simp [stage, Stage.isPursuing] at undisturbed
    | overdue now data => simp [stage, Stage.isPursuing] at undisturbed
    | terminated data => simp [stage, Stage.isPursuing] at undisturbed
    | resting => trivial
    | started now => trivial
    | removing marked => trivial
    | removingMarker => trivial
  working := by
    intro attempt member isOpen
    have closed := sound.not_open (by rw [top]; rfl) member
    rw [isOpen] at closed
    cases closed
  later := by
    intro execution after
    exact sound.later execution (Nat.lt_of_succ_lt after)
  unwritten := by
    intro _
    exact sound.later _ (Nat.lt_succ_self _)
  spared := sound.spared

theorem Sound.claims (sound : Sound state) (claiming : state.phase = .claiming)
    (jobId : Nat) (timeoutSeconds : Option Nat) :
    Sound { state with
      phase := .claimed jobId timeoutSeconds
      attempts := state.attempts ++ [⟨jobId, state.round, true⟩] } where
  file := by
    intro data found
    have missing := sound.no_file (by rw [claiming]; rfl)
    rw [missing] at found
    cases found
  marker := sound.marker
  killed := sound.killed
  stage := sound.stage
  working := by
    intro attempt member isOpen
    rcases List.mem_append.mp member with old | new
    · have closed := sound.not_open (by rw [claiming]; rfl) old
      rw [isOpen] at closed
      cases closed
    · cases List.mem_singleton.mp new
      exact ⟨rfl, rfl⟩
  later := sound.later
  unwritten := by
    intro _
    exact sound.unwritten (by rw [claiming]; rfl)
  spared := sound.spared

/-- A deadline is written for an execution that has none. -/
theorem deadlines_writeDeadline (unwritten : state.deadlines state.round = none)
    (jobId : Nat) (timeoutSeconds : Option Nat) (execution deadline : Nat)
    (own : state.deadlines execution = some deadline) :
    (state.writeDeadline defaultTimeout jobId timeoutSeconds).deadlines
      execution = some deadline := by
  have apart : execution ≠ state.round := by
    intro same
    rw [same, unwritten] at own
    cases own
  simpa [State.writeDeadline, Function.update_of_ne apart] using own

theorem Sound.writes (sound : Sound state) {jobId : Nat}
    {timeoutSeconds : Option Nat}
    (claimed : state.phase = .claimed jobId timeoutSeconds) :
    Sound (state.writeDeadline defaultTimeout jobId timeoutSeconds) := by
  have fresh : state.deadlines state.round = none :=
    sound.unwritten (by rw [claimed]; rfl)
  have kept := @deadlines_writeDeadline state defaultTimeout fresh jobId
    timeoutSeconds
  have warned : ∀ execution, Warned state execution →
      Warned (state.writeDeadline defaultTimeout jobId timeoutSeconds)
        execution := by
    intro execution before
    exact before.mono (fun _ member => member) kept
  refine ⟨?_, ?_, ?_, ?_, ?_, ?_, ?_, ?_⟩
  · intro data found
    cases found
    refine ⟨rfl, rfl, ?_⟩
    simp [Dated, State.writeDeadline]
  · intro marked
    exact warned _ (sound.marker marked)
  · intro killed
    exact warned _ (sound.killed killed)
  · have before := sound.stage
    simp only [StageHolds, State.writeDeadline] at before ⊢
    cases stage : state.stage with
    | read now data =>
        simp only [stage] at before
        exact ⟨kept _ _ before.1, before.2⟩
    | overdue now data =>
        simp only [stage] at before
        exact ⟨kept _ _ before.1, before.2⟩
    | terminated data =>
        simp only [stage] at before
        exact ⟨before.1, warned _ before.2⟩
    | escalating data =>
        simp only [stage] at before
        exact ⟨before.1, warned _ before.2⟩
    | reconciling data marked =>
        simp only [stage] at before
        exact ⟨before.1, warned _ before.2⟩
    | resting => trivial
    | started now => trivial
    | removing marked => trivial
    | removingMarker => trivial
  · intro attempt member isOpen
    exact ⟨rfl, (sound.working attempt member isOpen).2⟩
  · intro execution after
    have apart : execution ≠ state.round := Nat.ne_of_gt after
    simpa [State.writeDeadline, Function.update_of_ne apart] using
      sound.later execution after
  · intro claiming
    cases claiming
  · intro execution member
    exact warned execution (sound.spared execution member)

theorem Sound.finishes (sound : Sound state) :
    Sound { state with
      phase := .finished
      attempts := state.attempts.map (·.released state.round) } where
  file := by
    intro data found
    exact ⟨rfl, (sound.file data found).2⟩
  marker := sound.marker
  killed := sound.killed
  stage := sound.stage
  working := by
    intro attempt member isOpen
    obtain ⟨old, known, rfl⟩ := List.mem_map.mp member
    unfold Attempt.released at isOpen
    split at isOpen
    · cases isOpen
    · rename_i apart
      exact absurd (sound.working old known isOpen).2 apart
  later := sound.later
  unwritten := by
    intro claiming
    cases claiming
  spared := sound.spared

theorem Sound.clearsFile (sound : Sound state)
    (finished : state.phase = .finished) :
    Sound { state with phase := .cleared, file := none } where
  file := by
    intro data found
    cases found
  marker := sound.marker
  killed := sound.killed
  stage := sound.stage
  working := by
    intro attempt member isOpen
    have closed := sound.not_open (by rw [finished]; rfl) member
    rw [isOpen] at closed
    cases closed
  later := sound.later
  unwritten := by
    intro claiming
    cases claiming
  spared := sound.spared

/-- Without its marker the daemon pursues at most what it has read. -/
theorem StageHolds.unmarked (holds : StageHolds state) :
    StageHolds { state with marker := false } := by
  simp only [StageHolds] at holds ⊢
  cases stage : state.stage with
  | read now data =>
      simp only [stage] at holds ⊢
      refine ⟨holds.1, ?_⟩
      intro pursued
      rcases pursued with marked | passed
      · cases marked
      · exact holds.2 (.inr passed)
  | overdue now data =>
      simp only [stage] at holds
      exact holds
  | terminated data =>
      simp only [stage] at holds
      exact holds
  | escalating data =>
      simp only [stage] at holds
      exact holds
  | reconciling data marked =>
      simp only [stage] at holds
      exact holds
  | resting => trivial
  | started now => trivial
  | removing marked => trivial
  | removingMarker => trivial

theorem Sound.unmarked (sound : Sound state) :
    Sound { state with marker := false } where
  file := sound.file
  marker := by
    intro marked
    cases marked
  killed := sound.killed
  stage := sound.stage.unmarked
  working := sound.working
  later := sound.later
  unwritten := sound.unwritten
  spared := sound.spared

theorem sound_work {next : State} {action : WorkerAction} (sound : Sound state)
    (alive : state.killed = false) (settled : Settled state (.work action))
    (taken : state.work defaultTimeout action = some next) : Sound next := by
  cases action with
  | loop =>
      cases phase : state.phase <;> simp only [State.work, phase] at taken <;>
        try cases taken
      split at taken
      · cases taken
        exact sound.move .left (by simp [phase, Phase.hasFile])
          (by simp [phase, Phase.isWorking]) (by simp [Phase.isUnwritten])
      · rename_i going
        cases taken
        obtain ⟨unmarked, undisturbed⟩ :=
          settled (eq_false_of_ne_true going)
        exact sound.begins phase alive unmarked undisturbed
  | idle =>
      cases phase : state.phase <;> simp only [State.work, phase] at taken <;>
        try cases taken
      exact sound.move .top (by simp [phase, Phase.hasFile])
        (by simp [phase, Phase.isWorking]) (by simp [Phase.isUnwritten])
  | claim jobId timeoutSeconds =>
      cases phase : state.phase <;> simp only [State.work, phase] at taken <;>
        try cases taken
      exact sound.claims phase jobId timeoutSeconds
  | write =>
      cases phase : state.phase <;> simp only [State.work, phase] at taken <;>
        try cases taken
      exact sound.writes phase
  | finish =>
      cases phase : state.phase <;> simp only [State.work, phase] at taken <;>
        try cases taken
      exact sound.finishes
  | clearFile =>
      cases phase : state.phase <;> simp only [State.work, phase] at taken <;>
        try cases taken
      exact sound.clearsFile phase
  | clearMarker =>
      cases phase : state.phase <;> simp only [State.work, phase] at taken <;>
        try cases taken
      have moved := sound.move .top (by simp [phase, Phase.hasFile])
        (by simp [phase, Phase.isWorking]) (by simp [Phase.isUnwritten])
      exact moved.unmarked

/-! ## Steps of the daemon -/

/-- A step that changes nothing but where the daemon stands. -/
theorem Sound.to_stage (sound : Sound state) {stage : Stage}
    (holds : StageHolds { state with stage := stage }) :
    Sound { state with stage := stage } where
  file := sound.file
  marker := sound.marker
  killed := sound.killed
  stage := holds
  working := sound.working
  later := sound.later
  unwritten := sound.unwritten
  spared := sound.spared

/-- SIGTERM is sent for the execution the worker is in. -/
theorem Sound.warns (sound : Sound state) {now : Nat} {data : DeadlineFile}
    (dated : Dated state data) (same : data.execution = state.round)
    (passed : data.deadline < now) :
    Sound { state with
      signalled := true
      warnings := state.warnings ++ [⟨data.execution, now⟩]
      stage := .terminated data } := by
  have grows : state.warnings ⊆ state.warnings ++ [⟨data.execution, now⟩] :=
    List.subset_append_left _ _
  have kept : ∀ execution, Warned state execution →
      Warned { state with
        signalled := true
        warnings := state.warnings ++ [⟨data.execution, now⟩]
        stage := .terminated data } execution := by
    intro execution before
    exact before.mono grows (fun _ _ own => own)
  refine ⟨sound.file, ?_, ?_, ?_, sound.working, sound.later, sound.unwritten,
    ?_⟩
  · intro marked
    exact kept _ (sound.marker marked)
  · intro killed
    exact kept _ (sound.killed killed)
  · refine ⟨same, ⟨data.execution, now⟩, ?_, same, data.deadline, ?_, passed⟩
    · exact List.mem_append_right _ List.mem_cons_self
    · simpa only [Dated, same] using dated
  · intro execution member
    exact kept execution (sound.spared execution member)

theorem victim_eq {execution : Nat} (member : execution ∈ state.victim) :
    execution = state.round := by
  unfold State.victim at member
  split at member
  · exact List.mem_singleton.mp member
  · exact List.mem_singleton.mp member
  · cases member

/-- SIGKILL is sent for the execution the worker is in. -/
theorem Sound.kills (sound : Sound state) {data : DeadlineFile}
    (same : data.execution = state.round)
    (warned : Warned state state.round) :
    Sound { state with
      killed := true
      harmed := state.harmed ++ data.execution :: state.victim
      stage := .reconciling data true } where
  file := sound.file
  marker := sound.marker
  killed := fun _ => warned
  stage := ⟨rfl, warned⟩
  working := sound.working
  later := sound.later
  unwritten := sound.unwritten
  spared := by
    intro execution member
    rcases List.mem_append.mp member with old | new
    · exact sound.spared execution old
    · rcases List.mem_cons.mp new with own | met
      · rw [own, same]
        exact warned
      · rw [victim_eq met]
        exact warned

theorem Sound.reconciles (sound : Sound state) (jobId : Nat) (marked : Bool)
    (warned : Warned state state.round) :
    Sound { state.reconcile jobId with stage := .removing marked } where
  file := sound.file
  marker := sound.marker
  killed := sound.killed
  stage := trivial
  working := by
    intro attempt member isOpen
    obtain ⟨old, known, rfl⟩ := List.mem_map.mp member
    by_cases isFor : old.isOpenFor jobId = true
    · simp [Attempt.closed, isFor] at isOpen
    · have kept : old.closed jobId = old := by simp [Attempt.closed, isFor]
      rw [kept] at isOpen ⊢
      exact sound.working old known isOpen
  later := sound.later
  unwritten := sound.unwritten
  spared := by
    intro execution member
    rcases List.mem_append.mp member with old | new
    · exact sound.spared execution old
    · obtain ⟨attempt, found, same⟩ := List.mem_map.mp new
      obtain ⟨known, isOpen⟩ := List.mem_filter.mp found
      simp only [Attempt.isOpenFor, Bool.and_eq_true] at isOpen
      rw [← same, (sound.working attempt known isOpen.2).2]
      exact warned

theorem Sound.removes (sound : Sound state) (stage : Stage)
    (holds : StageHolds { state with file := none, stage := stage }) :
    Sound { state with file := none, stage := stage } where
  file := by
    intro data found
    cases found
  marker := sound.marker
  killed := sound.killed
  stage := holds
  working := sound.working
  later := sound.later
  unwritten := sound.unwritten
  spared := sound.spared

theorem Sound.marks (sound : Sound state) (warned : Warned state state.round) :
    Sound { state with marker := true, stage := .resting } where
  file := sound.file
  marker := fun _ => warned
  killed := sound.killed
  stage := trivial
  working := sound.working
  later := sound.later
  unwritten := sound.unwritten
  spared := sound.spared

theorem sound_enforce (sound : Sound state) : Sound state.enforce := by
  have holds := sound.stage
  unfold StageHolds at holds
  unfold State.enforce
  cases stage : state.stage with
  | resting => exact sound.to_stage trivial
  | started now =>
      dsimp only
      split
      · exact sound.to_stage trivial
      · rename_i data found
        obtain ⟨_, same, dated⟩ := sound.file data found
        exact sound.to_stage ⟨dated, fun _ => same⟩
  | read now data =>
      simp only [stage] at holds ⊢
      obtain ⟨dated, same⟩ := holds
      split
      · rename_i marked
        exact sound.to_stage ⟨same (.inl marked), sound.marker marked⟩
      · split
        · exact sound.to_stage trivial
        · rename_i passed
          have overdue : data.deadline < now := Nat.lt_of_not_le passed
          exact sound.to_stage ⟨dated, same (.inr overdue), overdue⟩
  | escalating data =>
      simp only [stage] at holds ⊢
      obtain ⟨same, warned⟩ := holds
      split
      · rename_i killed
        exact sound.to_stage ⟨killed, warned⟩
      · exact sound.kills same warned
  | overdue now data =>
      simp only [stage] at holds ⊢
      obtain ⟨dated, same, passed⟩ := holds
      split
      · rename_i killed
        exact sound.to_stage ⟨killed, sound.killed killed⟩
      · exact sound.warns dated same passed
  | terminated data =>
      simp only [stage] at holds
      exact sound.marks holds.2
  | reconciling data marked =>
      simp only [stage] at holds
      exact sound.reconciles data.jobId marked holds.2
  | removing marked =>
      cases marked with
      | true => exact sound.removes .removingMarker trivial
      | false => exact sound.removes .resting trivial
  | removingMarker =>
      have resting := sound.unmarked
      exact resting.to_stage trivial

/-! ## Runs -/

theorem sound_step {next : State} {action : Action} (sound : Sound state)
    (settled : Settled state action)
    (taken : act defaultTimeout state action = some next) : Sound next := by
  cases action with
  | tick passed =>
      cases taken
      exact ⟨sound.file, sound.marker, sound.killed, sound.stage,
        sound.working, sound.later, sound.unwritten, sound.spared⟩
  | work action =>
      simp only [act] at taken
      split at taken
      · cases taken
      · rename_i alive
        exact sound_work sound (eq_false_of_ne_true alive) settled
          taken
  | signalHandler =>
      simp only [act] at taken
      split at taken
      · cases taken
        exact ⟨sound.file, sound.marker, sound.killed, sound.stage,
          sound.working, sound.later, sound.unwritten, sound.spared⟩
      · cases taken
  | enforce =>
      cases taken
      exact sound_enforce sound

/-- While the worker begins no round over the marker of an earlier one, only
executions that were warned of their own deadline are killed or failed. -/
theorem enforce_spares (defaultTimeout : Nat) {state : State}
    (reached : Reaches (act defaultTimeout) Settled initial state) :
    Spared state :=
  (reached.invariant sound_initial
    (fun _ _ _ sound settled taken => sound_step sound settled taken)).spared

def isSettled (state : State) : Action → Bool
  | .work .loop => state.shutdownRequested ||
      (!state.marker && !state.stage.isPursuing)
  | _ => true

theorem settled_of_isSettled (state : State) (action : Action)
    (passed : isSettled state action = true) : Settled state action := by
  cases action with
  | work action =>
      cases action with
      | loop =>
          intro going
          simpa [isSettled, going] using passed
      | _ => trivial
  | _ => trivial

/-- A job of five seconds that ignores SIGTERM for ten. -/
def ignoredSignal : List Action :=
  [.work .loop, .work (.claim 1 (some 5)), .work .write, .tick 10000000,
    .enforce, .enforce, .enforce, .enforce, .enforce, .signalHandler,
    .enforce, .enforce, .enforce, .enforce, .enforce]

theorem enforce_spares_ignoredSignal : ∃ state,
    runWhile (act 3600) isSettled initial ignoredSignal = some state ∧
      state.warnings = [⟨1, 10000000⟩] ∧ state.killed = true ∧
      state.harmed = [1, 1, 1] ∧ Spared state := by
  refine ⟨_, rfl, rfl, rfl, rfl, ?_⟩
  exact enforce_spares 3600 (reaches_of_runWhile settled_of_isSettled
    (show runWhile (act 3600) isSettled initial ignoredSignal = some _
      from rfl))

/-- The daemon reads the file of a job that is overdue, the worker ends it and
starts another, and the marker of the first is taken for one of the second. -/
def nextJob : List Action :=
  [.work .loop, .work (.claim 1 (some 5)), .work .write, .tick 10000000,
    .enforce, .enforce, .enforce, .work .finish, .work .clearFile,
    .work .clearMarker, .work .loop, .work (.claim 2 none), .work .write,
    .enforce, .enforce, .enforce, .enforce, .enforce, .enforce]

theorem enforce_kills_next_job :
    ¬ ∀ state, Reaches (act 3600) anyAction initial state → Spared state := by
  intro always
  have ran : ∃ state,
      runWhile (act 3600) (fun _ _ => true) initial nextJob = some state ∧
        state.harmed = [2, 2] ∧ state.warnings = [⟨1, 10000000⟩] :=
    ⟨_, rfl, rfl, rfl⟩
  obtain ⟨state, ran, harmed, warnings⟩ := ran
  have spared := always state
    (reaches_of_runWhile (fun _ _ _ => trivial) ran)
  obtain ⟨warning, known, same, -⟩ :=
    spared 2 (harmed ▸ List.mem_cons_self)
  rw [warnings] at known
  cases List.mem_singleton.mp known
  cases same

end Sqlery.Workers.Deadlines
