import Mathlib.Data.List.Nodup
import Mathlib.Data.List.Pairwise
import Sqlery.Workers.Launcher

/-!
# Tracked workers

Replies are matched with requests by their order alone.  While every spawn call
waits for its answer, each worker has the object that its own request asked
for, as soon as the replies have been read.  The invariant is stated of the
daemon that will have read what the launcher has sent.
-/

namespace Sqlery.Workers

open Runs

/-! ## The table of workers -/

/-- Two tables that differ at most in what `returncode` an object has. -/
structure AgreesOff (position : Nat) (left right : WorkerTable) : Prop where
  made : left.made = right.made
  entries : left.entries = right.entries
  returncode : ∀ other, other ≠ position →
    left.returncode other = right.returncode other

theorem AgreesOff.handle {position : Nat} {left right : WorkerTable}
    (agrees : AgreesOff position left right) (message : Reply) :
    AgreesOff position (left.handle message) (right.handle message) := by
  obtain ⟨made, returncode, entries⟩ := right
  obtain ⟨sameMade, sameEntries, sameCode⟩ := agrees
  obtain ⟨leftMade, leftCode, leftEntries⟩ := left
  dsimp only at sameMade sameEntries sameCode
  subst sameMade
  subst sameEntries
  cases message with
  | spawned pid => exact ⟨rfl, rfl, sameCode⟩
  | error text => exact ⟨rfl, rfl, sameCode⟩
  | exited pid code =>
      cases found : leftEntries pid with
      | none =>
          simp only [WorkerTable.handle, found]
          exact ⟨rfl, rfl, sameCode⟩
      | some known =>
          simp only [WorkerTable.handle, found]
          refine ⟨rfl, rfl, ?_⟩
          intro other apart
          by_cases same : other = known
          · simp [same]
          · simpa [Function.update_of_ne same] using sameCode other apart

@[simp] theorem made_handle (table : WorkerTable) (message : Reply) :
    (table.handle message).made = table.made := by
  cases message with
  | exited pid code =>
      simp only [WorkerTable.handle]
      split <;> rfl
  | spawned pid => rfl
  | error text => rfl

@[simp] theorem made_foldl_handle (messages : List Reply)
    (table : WorkerTable) :
    (messages.foldl WorkerTable.handle table).made = table.made := by
  induction messages generalizing table with
  | nil => rfl
  | cons message messages ih =>
      rw [List.foldl_cons, ih, made_handle]

/-! ## Reading -/

/-- How many answers the daemon waits for. -/
def Daemon.expects (daemon : Daemon) : Nat :=
  daemon.spawning.toList.length

def answers (messages : List Reply) : Nat :=
  messages.countP (·.isAnswer)

theorem reads_exited (launcherPid : Nat) (daemon : Daemon) (pid : Nat)
    (code : Int) :
    daemon.reads launcherPid (.exited pid code) =
      { daemon with table := daemon.table.handle (.exited pid code) } := by
  unfold Daemon.reads
  split <;> rfl

@[simp] theorem calls_reads (launcherPid : Nat) (daemon : Daemon)
    (message : Reply) :
    (daemon.reads launcherPid message).calls = daemon.calls := by
  unfold Daemon.reads
  split
  · cases message <;> rfl
  · rfl

@[simp] theorem calls_foldl_reads (launcherPid : Nat) (messages : List Reply)
    (daemon : Daemon) :
    (messages.foldl (Daemon.reads launcherPid) daemon).calls =
      daemon.calls := by
  induction messages generalizing daemon with
  | nil => rfl
  | cons message messages ih => rw [List.foldl_cons, ih, calls_reads]

/-- Nothing leaves the list of objects. -/
theorem made_reads (launcherPid : Nat) (daemon : Daemon) (message : Reply) :
    daemon.table.made <+: (daemon.reads launcherPid message).table.made := by
  unfold Daemon.reads
  split
  · cases message with
    | spawned pid => exact List.prefix_append _ _
    | error text => exact List.prefix_rfl
    | exited pid code => simp [Daemon.spawnReads]
  · simp [Daemon.drainReads]

theorem made_foldl_reads (launcherPid : Nat) (messages : List Reply)
    (daemon : Daemon) :
    daemon.table.made <+:
      (messages.foldl (Daemon.reads launcherPid) daemon).table.made := by
  induction messages generalizing daemon with
  | nil => exact List.prefix_rfl
  | cons message messages ih =>
      exact (made_reads launcherPid daemon message).trans (ih _)

/-- Exit reports are read the same way by whoever reads them. -/
theorem foldl_reads_of_no_answer (launcherPid : Nat) {messages : List Reply}
    (nothing : answers messages = 0) (daemon : Daemon) :
    messages.foldl (Daemon.reads launcherPid) daemon =
      { daemon with
        table := messages.foldl WorkerTable.handle daemon.table } := by
  induction messages generalizing daemon with
  | nil => rfl
  | cons message messages ih =>
      cases message with
      | spawned pid => simp [answers, Reply.isAnswer] at nothing
      | error text => simp [answers, Reply.isAnswer] at nothing
      | exited pid code =>
          have later : answers messages = 0 := by
            simpa [answers, Reply.isAnswer] using nothing
          rw [List.foldl_cons, List.foldl_cons, reads_exited, ih later]

/-- An answer read by the call that waits is the last one expected. -/
theorem expects_reads {launcherPid : Nat} {daemon : Daemon}
    {message : Reply} (enough : answers [message] ≤ daemon.expects) :
    answers [message] + (daemon.reads launcherPid message).expects =
      daemon.expects := by
  unfold Daemon.reads
  cases waiting : daemon.spawning with
  | none =>
      have nothing : answers [message] = 0 := by
        simpa [Daemon.expects, waiting] using enough
      simp [nothing, Daemon.drainReads, Daemon.expects, waiting]
  | some call =>
      cases message <;>
        simp [answers, Reply.isAnswer, Daemon.spawnReads, Daemon.fails,
          Daemon.expects, waiting]

theorem answers_cons (message : Reply) (messages : List Reply) :
    answers (message :: messages) = answers [message] + answers messages := by
  simp [answers, List.countP_cons, Nat.add_comm]

@[simp] theorem answers_append (left right : List Reply) :
    answers (left ++ right) = answers left + answers right :=
  List.countP_append

/-! ## What the daemon will have read -/

/-- The daemon, once it has read all that was sent. -/
def State.ahead (state : State) : Daemon :=
  match state.launcher with
  | some launcher =>
      launcher.replies.foldl (Daemon.reads launcher.pid) state.daemon
  | none => state.daemon

theorem ahead_eq_daemon {state : State} {launcher : Launcher}
    (current : state.launcher = some launcher)
    (read : launcher.replies = []) : state.ahead = state.daemon := by
  simp [State.ahead, current, read]

theorem made_ahead (state : State) :
    state.daemon.table.made <+: state.ahead.table.made := by
  unfold State.ahead
  split
  · exact made_foldl_reads _ _ _
  · exact List.prefix_rfl

@[simp] theorem calls_ahead (state : State) :
    state.ahead.calls = state.daemon.calls := by
  unfold State.ahead
  split
  · exact calls_foldl_reads _ _ _
  · rfl

/-- The object of a worker, with what its exit report left. -/
def Holds (table : WorkerTable) (launcherPid : Nat) (worker : Worker) : Prop :=
  ∃ position,
    table.made[position]? = some ⟨worker.pid, launcherPid, worker.call⟩ ∧
    if worker.reported then
      table.returncode position = worker.status.map exitCode
    else
      table.entries worker.pid = some position

/-- Two workers of one launcher were forked for different calls, and share a
process id only when one of them has been reaped. -/
def Apart (left right : Worker) : Prop :=
  left.call ≠ right.call ∧
    (left.reported = false → right.reported = false → left.pid ≠ right.pid)

/-- What a launcher and the daemon that has read its replies agree on. -/
structure Follows (launcher : Launcher) (ahead : Daemon) (forks : List Fork) :
    Prop where
  waited : ∀ request ∈ launcher.requests,
    ahead.spawning = some request.call ∧
      request.call ∉ forks.map (·.call) ∧ request.call < ahead.calls
  held : ∀ worker ∈ launcher.workers, Holds ahead.table launcher.pid worker
  exited : ∀ worker ∈ launcher.workers, worker.reported = true →
    worker.status.isSome
  apart : launcher.workers.Pairwise Apart
  forked : ∀ worker ∈ launcher.workers, ⟨worker.call, worker.pid⟩ ∈ forks

/-- Every object is of the one worker forked for its call. -/
structure Owned (made : List LaunchedWorker) (forks : List Fork)
    (calls : Nat) : Prop where
  forked : ∀ worker ∈ made, ⟨worker.call, worker.pid⟩ ∈ forks
  once : (made.map (·.call)).Nodup
  answered : (forks.map (·.call)).Nodup
  below : ∀ fork ∈ forks, fork.call < calls

structure Sound (state : State) : Prop where
  owned : Owned state.ahead.table.made state.forks state.daemon.calls
  follows : ∀ launcher, state.launcher = some launcher →
    Follows launcher state.ahead state.forks
  expected : ∀ launcher, state.launcher = some launcher →
    answers launcher.replies + launcher.requests.length ≤
      state.daemon.expects

theorem sound_of_ahead {state : State} {launcher : Launcher} {ahead : Daemon}
    (current : state.launcher = some launcher) (same : state.ahead = ahead)
    (owned : Owned ahead.table.made state.forks state.daemon.calls)
    (follows : Follows launcher ahead state.forks)
    (expected : answers launcher.replies + launcher.requests.length ≤
      state.daemon.expects) : Sound state := by
  subst same
  refine ⟨owned, ?_, ?_⟩
  · intro other found
    cases current.symm.trans found
    exact follows
  · intro other found
    cases current.symm.trans found
    exact expected

theorem sound_of_none {state : State} (gone : state.launcher = none)
    (owned : Owned state.daemon.table.made state.forks state.daemon.calls) :
    Sound state := by
  have same : state.ahead = state.daemon := by simp [State.ahead, gone]
  refine ⟨same ▸ owned, ?_, ?_⟩
  · intro launcher found
    cases gone.symm.trans found
  · intro launcher found
    cases gone.symm.trans found

theorem Sound.owned_of_none {state : State} (sound : Sound state)
    (gone : state.launcher = none) :
    Owned state.daemon.table.made state.forks state.daemon.calls := by
  have same : state.ahead = state.daemon := by simp [State.ahead, gone]
  exact same ▸ sound.owned

/-! ## Steps of the daemon -/

theorem ahead_of_no_answer {state : State} {launcher : Launcher}
    (current : state.launcher = some launcher)
    (quiet : answers launcher.replies = 0) :
    state.ahead =
      { state.daemon with
        table :=
          launcher.replies.foldl WorkerTable.handle state.daemon.table } := by
  simp only [State.ahead, current]
  exact foldl_reads_of_no_answer launcher.pid quiet state.daemon

theorem Owned.of_prefix {left right : List LaunchedWorker}
    {forks : List Fork} {calls : Nat} (owned : Owned right forks calls)
    (within : left <+: right) : Owned left forks calls where
  forked := fun worker member => owned.forked worker (within.subset member)
  once := owned.once.sublist (within.sublist.map _)
  answered := owned.answered
  below := owned.below

theorem Owned.mono {made : List LaunchedWorker} {forks : List Fork}
    {calls later : Nat} (owned : Owned made forks calls)
    (grows : calls ≤ later) : Owned made forks later where
  forked := owned.forked
  once := owned.once
  answered := owned.answered
  below := fun fork member =>
    Nat.lt_of_lt_of_le (owned.below fork member) grows

theorem Owned.fresh {made : List LaunchedWorker} {forks : List Fork}
    {calls : Nat} (owned : Owned made forks calls) :
    calls ∉ forks.map (·.call) := by
  intro member
  obtain ⟨fork, known, same⟩ := List.mem_map.mp member
  have earlier := owned.below fork known
  omega

/-- A daemon that waits for nothing has nothing coming. -/
theorem Sound.idle {state : State} (sound : Sound state)
    (idle : state.daemon.spawning = none) {launcher : Launcher}
    (current : state.launcher = some launcher) :
    answers launcher.replies = 0 ∧ launcher.requests = [] := by
  have expected := sound.expected launcher current
  have nothing : state.daemon.expects = 0 := by simp [Daemon.expects, idle]
  rw [nothing] at expected
  constructor
  · omega
  · exact List.length_eq_zero_iff.mp (by omega)

/-- A request to a launcher that has been started for it. -/
theorem sound_spawn_started {daemon : Daemon} {forks : List Fork}
    (queues : List String) (launcherPid : Nat)
    (owned : Owned daemon.table.made forks daemon.calls) :
    Sound {
      daemon := { daemon with
        spawning := some daemon.calls
        calls := daemon.calls + 1 }
      launcher :=
        some ((Launcher.start launcherPid).asked ⟨queues, daemon.calls⟩)
      forks := forks } := by
  refine sound_of_ahead rfl rfl (owned.mono (Nat.le_succ _)) ?_ (Nat.le_refl 1)
  refine ⟨?_, ?_, ?_, List.Pairwise.nil, ?_⟩
  · intro request member
    cases List.mem_singleton.mp member
    exact ⟨rfl, owned.fresh, Nat.lt_succ_self _⟩
  · intro worker member
    cases member
  · intro worker member
    cases member
  · intro worker member
    cases member

/-- A request to a launcher whose replies hold exit reports alone. -/
theorem sound_spawn_running {state : State} {launcher : Launcher}
    (sound : Sound state) (idle : state.daemon.spawning = none)
    (current : state.launcher = some launcher) (queues : List String) :
    Sound { state with
      daemon := { state.daemon with
        spawning := some state.daemon.calls
        calls := state.daemon.calls + 1 }
      launcher := some (launcher.asked ⟨queues, state.daemon.calls⟩) } := by
  obtain ⟨quiet, nothing⟩ := sound.idle idle current
  have before := ahead_of_no_answer current quiet
  obtain ⟨waited, held, exited, apart, forked⟩ := sound.follows launcher current
  have owned := sound.owned
  rw [before] at held owned
  have asked : (launcher.asked ⟨queues, state.daemon.calls⟩).requests =
      [⟨queues, state.daemon.calls⟩] := by
    simp [Launcher.asked, nothing]
  refine sound_of_ahead rfl (@ahead_of_no_answer _ (launcher.asked _) rfl quiet)
    (owned.mono (Nat.le_succ _)) ⟨?_, held, exited, apart, forked⟩ ?_
  · intro request member
    rw [asked] at member
    cases List.mem_singleton.mp member
    exact ⟨rfl, owned.fresh, Nat.lt_succ_self _⟩
  · rw [asked]
    simp [Launcher.asked, quiet, Daemon.expects]

theorem sound_spawn {state next : State} {queues : List String}
    {launcherPid : Nat} (sound : Sound state)
    (taken : state.spawn queues launcherPid = some next) : Sound next := by
  unfold State.spawn at taken
  cases idle : state.daemon.spawning with
  | some call => simp [idle] at taken
  | none =>
      simp only [idle, Option.some.injEq] at taken
      subst taken
      have owned := sound.owned.of_prefix (made_ahead state)
      cases current : state.launcher with
      | none => exact sound_spawn_started queues launcherPid owned
      | some launcher =>
          cases running : launcher.running with
          | true =>
              simpa only [launcherFor, running, if_true] using
                sound_spawn_running sound idle current queues
          | false =>
              simpa only [launcherFor, running, Bool.false_eq_true,
                if_false] using
                sound_spawn_started queues launcherPid owned

theorem sound_read {state next : State} (sound : Sound state)
    (taken : state.read = some next) : Sound next := by
  unfold State.read at taken
  cases current : state.launcher with
  | none => simp [current] at taken
  | some launcher =>
      cases unread : launcher.replies with
      | nil => simp [current, unread] at taken
      | cons message replies =>
          simp only [current, unread, Option.some.injEq] at taken
          subst taken
          have same : state.ahead = State.ahead { state with
              daemon := state.daemon.reads launcher.pid message
              launcher := some { launcher with replies := replies } } := by
            simp only [State.ahead, current, unread, List.foldl_cons]
          have expected := sound.expected launcher current
          rw [unread, answers_cons] at expected
          have left : answers [message] +
              (state.daemon.reads launcher.pid message).expects =
                state.daemon.expects :=
            expects_reads (by omega)
          obtain ⟨waited, held, exited, apart, forked⟩ :=
            sound.follows launcher current
          have owned := sound.owned
          rw [← calls_reads launcher.pid state.daemon message] at owned
          refine sound_of_ahead rfl same.symm owned
            ⟨waited, held, exited, apart, forked⟩ ?_
          simp only
          omega

/-- The answer to a spawn call may still come. -/
def Launcher.owes (launcher : Launcher) : Bool :=
  !launcher.requests.isEmpty || launcher.replies.any (·.isAnswer)

/-- A spawn call gives up only when no answer to it can come any more. -/
def Waits (state : State) : Action → Prop
  | .timeOut => ∀ launcher, state.launcher = some launcher →
      launcher.owes = false
  | _ => True

theorem answers_of_not_owes {launcher : Launcher}
    (settled : launcher.owes = false) :
    answers launcher.replies = 0 ∧ launcher.requests = [] := by
  simp only [Launcher.owes, Bool.or_eq_false_iff, Bool.not_eq_false',
    List.isEmpty_iff, List.any_eq_false] at settled
  exact ⟨List.countP_eq_zero.mpr settled.2, settled.1⟩

theorem sound_fails {state : State} (sound : Sound state) (call : Nat)
    (settled : ∀ launcher, state.launcher = some launcher →
      launcher.owes = false) :
    Sound { state with daemon := state.daemon.fails call } := by
  cases current : state.launcher with
  | none => exact sound_of_none rfl (sound.owned_of_none current)
  | some launcher =>
      obtain ⟨quiet, nothing⟩ := answers_of_not_owes (settled _ current)
      have before := ahead_of_no_answer current quiet
      have owned := sound.owned
      obtain ⟨-, held, exited, apart, forked⟩ := sound.follows launcher current
      rw [before] at owned held
      refine sound_of_ahead rfl (ahead_of_no_answer rfl quiet) owned
        ⟨?_, held, exited, apart, forked⟩ ?_
      · intro request member
        rw [nothing] at member
        cases member
      · simp [quiet, nothing]

theorem sound_timeOut {state next : State} (sound : Sound state)
    (settled : Waits state .timeOut) (taken : state.timeOut = some next) :
    Sound next := by
  unfold State.timeOut at taken
  cases waiting : state.daemon.spawning with
  | none => simp [waiting] at taken
  | some call =>
      simp only [waiting, Option.some.injEq] at taken
      subst taken
      exact sound_fails sound call settled

theorem sound_forget {state next : State} (sound : Sound state)
    (taken : state.forget = some next) : Sound next := by
  have owned := sound.owned.of_prefix (made_ahead state)
  have same : state.daemon.forgets.table = state.daemon.table ∧
      state.daemon.forgets.calls = state.daemon.calls := by
    unfold Daemon.forgets
    split
    · exact ⟨rfl, rfl⟩
    · exact ⟨rfl, rfl⟩
  unfold State.forget at taken
  cases current : state.launcher with
  | none => simp [current] at taken
  | some launcher =>
      simp only [current] at taken
      split at taken
      · cases taken
        rw [← same.1, ← same.2] at owned
        exact sound_of_none rfl owned
      · cases taken

theorem AgreesOff.foldl_handle {position : Nat} {left right : WorkerTable}
    (agrees : AgreesOff position left right) (messages : List Reply) :
    AgreesOff position (messages.foldl WorkerTable.handle left)
      (messages.foldl WorkerTable.handle right) := by
  induction messages generalizing left right with
  | nil => exact agrees
  | cons message messages ih => exact ih (agrees.handle message)

theorem Holds.of_agreesOff {position : Nat} {left right : WorkerTable}
    {launcherPid : Nat} {worker : Worker} {other : LaunchedWorker}
    (held : Holds left launcherPid worker)
    (agrees : AgreesOff position left right)
    (foreign : left.made[position]? = some other)
    (apart : launcherPid ≠ other.launcherPid) :
    Holds right launcherPid worker := by
  obtain ⟨known, object, told⟩ := held
  have elsewhere : known ≠ position := by
    intro same
    subst same
    rw [object] at foreign
    cases foreign
    exact apart rfl
  refine ⟨known, agrees.made ▸ object, ?_⟩
  rwa [← agrees.returncode known elsewhere, ← agrees.entries]

theorem sound_orphaned {state next : State} {position : Nat} {code : Int}
    (sound : Sound state)
    (taken : state.orphaned position code = some next) : Sound next := by
  unfold State.orphaned at taken
  cases object : state.daemon.table.made[position]? with
  | none => simp [object] at taken
  | some worker =>
      simp only [object] at taken
      split at taken
      case isFalse => cases taken
      case isTrue guard =>
        cases taken
        simp only [Bool.and_eq_true, Option.isNone_iff_eq_none] at guard
        obtain ⟨⟨idle, -⟩, foreign⟩ := guard
        have learnt : AgreesOff position state.daemon.table
            (state.daemon.learns position code).table := by
          refine ⟨rfl, rfl, ?_⟩
          intro other apart
          exact (Function.update_of_ne apart _ _).symm
        cases current : state.launcher with
        | none => exact sound_of_none rfl (sound.owned_of_none current)
        | some launcher =>
            obtain ⟨quiet, nothing⟩ := sound.idle idle current
            have before := ahead_of_no_answer current quiet
            have agrees := learnt.foldl_handle launcher.replies
            have owned := sound.owned
            obtain ⟨waited, held, exited, apart, forked⟩ :=
              sound.follows launcher current
            rw [before] at owned held
            have there : (launcher.replies.foldl WorkerTable.handle
                state.daemon.table).made[position]? = some worker := by
              rw [made_foldl_handle]
              exact object
            have elsewhere : launcher.pid ≠ worker.launcherPid := by
              simpa [current] using foreign
            rw [agrees.made] at owned
            refine sound_of_ahead rfl (ahead_of_no_answer rfl quiet)
              owned ⟨?_, ?_, exited, apart, forked⟩ ?_
            · intro request member
              rw [nothing] at member
              cases member
            · intro other member
              exact (held other member).of_agreesOff agrees there elsewhere
            · simp [quiet, nothing]

/-! ## Steps of the launcher -/

instance : Std.Symm Apart where
  symm := by
    intro left right apart
    obtain ⟨calls, pids⟩ := apart
    refine ⟨calls.symm, ?_⟩
    intro first second
    exact (pids second first).symm

theorem Follows.apart_of_mem {launcher : Launcher} {ahead : Daemon}
    {forks : List Fork} (follows : Follows launcher ahead forks)
    {left right : Worker} (here : left ∈ launcher.workers)
    (there : right ∈ launcher.workers) (ne : left ≠ right) :
    Apart left right :=
  follows.apart.forall here there ne

/-- A process id that has not been reaped is that of one worker. -/
theorem Follows.unique {launcher : Launcher} {ahead : Daemon}
    {forks : List Fork} (follows : Follows launcher ahead forks)
    {left right : Worker} (here : left ∈ launcher.workers)
    (there : right ∈ launcher.workers) (first : left.reported = false)
    (second : right.reported = false) (same : left.pid = right.pid) :
    left = right := by
  by_contra ne
  exact (follows.apart_of_mem here there ne).2 first second same

/-- The launcher sends one more message. -/
theorem Sound.of_sent {state next : State} {launcher later : Launcher}
    {message : Reply} (current : state.launcher = some launcher)
    (kept : next.daemon = state.daemon)
    (arrived : next.launcher = some later)
    (same : later.pid = launcher.pid)
    (sent : later.replies = launcher.replies ++ [message])
    (owned : Owned (state.ahead.reads launcher.pid message).table.made
      next.forks state.daemon.calls)
    (follows : Follows later (state.ahead.reads launcher.pid message)
      next.forks)
    (expected : answers later.replies + later.requests.length ≤
      state.daemon.expects) : Sound next := by
  have ahead : next.ahead = state.ahead.reads launcher.pid message := by
    simp [State.ahead, current, arrived, kept, same, sent, List.foldl_append]
  rw [← kept] at owned expected
  exact sound_of_ahead arrived ahead owned follows expected

/-- The launcher sends nothing. -/
theorem Sound.of_silent {state : State} (sound : Sound state)
    {launcher later : Launcher} (current : state.launcher = some launcher)
    (same : later.pid = launcher.pid)
    (silent : later.replies = launcher.replies)
    (follows : Follows later state.ahead state.forks)
    (fewer : later.requests.length ≤ launcher.requests.length) :
    Sound { state with launcher := some later } := by
  have expected := sound.expected launcher current
  have ahead : State.ahead { state with launcher := some later } =
      state.ahead := by
    simp [State.ahead, current, same, silent]
  refine sound_of_ahead rfl ahead sound.owned follows ?_
  rw [silent]
  exact Nat.le_trans (Nat.add_le_add_left fewer _) expected

/-- At most one request is unread, and it is the one waited for. -/
theorem Sound.last_request {state : State} (sound : Sound state)
    {launcher : Launcher} (current : state.launcher = some launcher)
    {request : Request} {requests : List Request}
    (unread : launcher.requests = request :: requests) :
    requests = [] ∧ answers launcher.replies + 1 ≤ state.daemon.expects ∧
      state.ahead.spawning = some request.call ∧
      request.call ∉ state.forks.map (·.call) ∧
      request.call < state.daemon.calls := by
  have expected := sound.expected launcher current
  have most : state.daemon.expects ≤ 1 := by
    unfold Daemon.expects
    cases state.daemon.spawning with
    | none => exact Nat.zero_le 1
    | some call => exact Nat.le_refl 1
  rw [unread, List.length_cons] at expected
  have waited := (sound.follows launcher current).waited request
    (unread ▸ List.mem_cons_self)
  rw [calls_ahead] at waited
  refine ⟨List.length_eq_zero_iff.mp (by omega), by omega, waited⟩

/-- A new object leaves those of the others. -/
theorem Holds.add {table : WorkerTable} {launcherPid : Nat} {worker : Worker}
    (held : Holds table launcherPid worker) {added : LaunchedWorker}
    (apart : worker.reported = false → worker.pid ≠ added.pid) :
    Holds (table.add added) launcherPid worker := by
  obtain ⟨position, object, told⟩ := held
  have within : position < table.made.length :=
    (List.getElem?_eq_some_iff.mp object).1
  refine ⟨position, ?_, ?_⟩
  · simpa [WorkerTable.add, List.getElem?_append_left within] using object
  · cases reported : worker.reported with
    | true =>
        have before := Nat.ne_of_lt within
        simp only [reported, if_true] at told
        simpa [WorkerTable.add, Function.update_of_ne before] using told
    | false =>
        have elsewhere := apart reported
        simp only [reported, Bool.false_eq_true, if_false] at told
        simpa [WorkerTable.add, Function.update_of_ne elsewhere] using told

theorem holds_added (table : WorkerTable) (launcherPid pid call : Nat)
    (queues : List String) :
    Holds (table.add ⟨pid, launcherPid, call⟩) launcherPid
      ⟨pid, queues, none, false, call⟩ := by
  refine ⟨table.made.length, ?_, ?_⟩
  · simp [WorkerTable.add]
  · simp [WorkerTable.add]

theorem Owned.add {made : List LaunchedWorker} {forks : List Fork}
    {calls : Nat} (owned : Owned made forks calls) {pid launcherPid call : Nat}
    (unanswered : call ∉ forks.map (·.call)) (asked : call < calls) :
    Owned (made ++ [⟨pid, launcherPid, call⟩]) (forks ++ [⟨call, pid⟩])
      calls where
  forked := by
    intro worker member
    rcases List.mem_append.mp member with old | new
    · exact List.mem_append_left _ (owned.forked worker old)
    · cases List.mem_singleton.mp new
      exact List.mem_append_right _ List.mem_cons_self
  once := by
    have fresh : call ∉ made.map (·.call) := by
      intro member
      obtain ⟨worker, known, same⟩ := List.mem_map.mp member
      exact unanswered
        (List.mem_map.mpr ⟨_, owned.forked worker known, same⟩)
    rw [List.map_append]
    exact owned.once.append (List.nodup_singleton _)
      (List.disjoint_singleton.mpr fresh)
  answered := by
    rw [List.map_append]
    exact owned.answered.append (List.nodup_singleton _)
      (List.disjoint_singleton.mpr unanswered)
  below := by
    intro fork member
    rcases List.mem_append.mp member with old | new
    · exact owned.below fork old
    · cases List.mem_singleton.mp new
      exact asked

theorem sound_fork {state next : State} {pid : Nat} (sound : Sound state)
    (taken : act state (.fork pid) = some next) : Sound next := by
  simp only [act] at taken
  cases current : state.launcher with
  | none => simp [current] at taken
  | some launcher =>
      cases unread : launcher.requests with
      | nil => simp [current, Launcher.forks, unread] at taken
      | cons request requests =>
          simp only [current, Option.bind_some, Launcher.forks, unread]
            at taken
          obtain ⟨last, expected, waits, unanswered, asked⟩ :=
            sound.last_request current unread
          subst last
          split at taken
          · cases taken
          rename_i later asker forked
          split at forked
          case isFalse => cases forked
          case isTrue guard =>
            cases forked
            cases taken
            simp only [Bool.and_eq_true, Bool.not_eq_true'] at guard
            have free : ∀ worker ∈ launcher.workers,
                worker.reported = false → worker.pid ≠ pid := by
              intro worker member unreported same
              have taken := guard.2
              simp only [Launcher.holds, List.any_eq_false] at taken
              exact taken worker member (by simp [same, unreported])
            have read : state.ahead.reads launcher.pid (.spawned pid) =
                state.ahead.spawnReads launcher.pid request.call
                  (.spawned pid) := by
              simp only [Daemon.reads, waits]
            obtain ⟨-, held, exited, apart, known⟩ :=
              sound.follows launcher current
            refine Sound.of_sent current rfl rfl rfl rfl ?_ ?_ ?_
            · rw [read]
              exact sound.owned.add unanswered asked
            · rw [read]
              refine ⟨?_, ?_, ?_, ?_, ?_⟩
              · intro request member
                cases member
              · intro worker member
                rcases List.mem_append.mp member with old | new
                · exact (held worker old).add (free worker old)
                · cases List.mem_singleton.mp new
                  exact holds_added _ _ _ _ _
              · intro worker member reported
                rcases List.mem_append.mp member with old | new
                · exact exited worker old reported
                · cases List.mem_singleton.mp new
                  cases reported
              · refine List.pairwise_append.mpr
                  ⟨apart, List.pairwise_singleton _ _, ?_⟩
                intro worker old other new
                cases List.mem_singleton.mp new
                refine ⟨?_, fun unreported _ => free worker old unreported⟩
                intro same
                exact unanswered (List.mem_map.mpr ⟨_, known worker old, same⟩)
              · intro worker member
                rcases List.mem_append.mp member with old | new
                · exact List.mem_append_left _ (known worker old)
                · cases List.mem_singleton.mp new
                  exact List.mem_append_right _ List.mem_cons_self
            · simpa [answers, Reply.isAnswer] using expected

theorem sound_refuse {state next : State} {text : String}
    (sound : Sound state) (taken : act state (.refuse text) = some next) :
    Sound next := by
  simp only [act] at taken
  cases current : state.launcher with
  | none => simp [current] at taken
  | some launcher =>
      cases unread : launcher.requests with
      | nil => simp [current, Launcher.refuses, unread] at taken
      | cons request requests =>
          simp only [current, Option.bind_some, Launcher.refuses, unread]
            at taken
          obtain ⟨last, expected, waits, -, -⟩ :=
            sound.last_request current unread
          subst last
          split at taken
          · cases taken
          rename_i later refused
          split at refused
          case isFalse => cases refused
          case isTrue =>
            cases refused
            cases taken
            have read : state.ahead.reads launcher.pid (.error text) =
                state.ahead.fails request.call := by
              simp only [Daemon.reads, waits, Daemon.spawnReads]
            obtain ⟨-, held, exited, apart, known⟩ :=
              sound.follows launcher current
            refine Sound.of_sent current rfl rfl rfl rfl ?_ ?_ ?_
            · rw [read]
              exact sound.owned
            · rw [read]
              refine ⟨?_, held, exited, apart, known⟩
              intro request member
              cases member
            · simpa [answers, Reply.isAnswer] using expected

@[simp] theorem Worker.pid_exits (worker : Worker) (pid : Nat)
    (status : WaitStatus) : (worker.exits pid status).pid = worker.pid := by
  unfold Worker.exits
  split <;> rfl

@[simp] theorem Worker.call_exits (worker : Worker) (pid : Nat)
    (status : WaitStatus) : (worker.exits pid status).call = worker.call := by
  unfold Worker.exits
  split <;> rfl

@[simp] theorem Worker.reported_exits (worker : Worker) (pid : Nat)
    (status : WaitStatus) :
    (worker.exits pid status).reported = worker.reported := by
  unfold Worker.exits
  split <;> rfl

theorem Worker.exits_of_reported {worker : Worker}
    (reported : worker.reported = true) (pid : Nat) (status : WaitStatus) :
    worker.exits pid status = worker := by
  simp [Worker.exits, reported]

theorem Holds.exits {table : WorkerTable} {launcherPid : Nat}
    {worker : Worker} (held : Holds table launcherPid worker) (pid : Nat)
    (status : WaitStatus) :
    Holds table launcherPid (worker.exits pid status) := by
  cases reported : worker.reported with
  | true =>
      rw [Worker.exits_of_reported reported]
      exact held
  | false =>
      obtain ⟨position, object, told⟩ := held
      simp only [reported, Bool.false_eq_true, if_false] at told
      exact ⟨position, by simpa using object, by simpa [reported] using told⟩

theorem sound_exit {state next : State} {pid : Nat} {status : WaitStatus}
    (sound : Sound state) (taken : act state (.exit pid status) = some next) :
    Sound next := by
  simp only [act, Option.some.injEq] at taken
  subst taken
  cases current : state.launcher with
  | none => exact sound_of_none rfl (sound.owned_of_none current)
  | some launcher =>
      obtain ⟨waited, held, exited, apart, known⟩ :=
        sound.follows launcher current
      refine sound.of_silent current rfl rfl ⟨waited, ?_, ?_, ?_, ?_⟩
        (Nat.le_refl _)
      · intro worker member
        obtain ⟨old, there, rfl⟩ := List.mem_map.mp member
        exact (held old there).exits pid status
      · intro worker member reported
        obtain ⟨old, there, rfl⟩ := List.mem_map.mp member
        rw [Worker.reported_exits] at reported
        rw [Worker.exits_of_reported reported]
        exact exited old there reported
      · refine List.pairwise_map.mpr (apart.imp ?_)
        intro left right distinct
        simpa [Apart] using distinct
      · intro worker member
        obtain ⟨old, there, rfl⟩ := List.mem_map.mp member
        simpa using known old there

@[simp] theorem Worker.pid_reaped (worker : Worker) (pid : Nat) :
    (worker.reaped pid).pid = worker.pid := by
  unfold Worker.reaped
  split <;> rfl

@[simp] theorem Worker.call_reaped (worker : Worker) (pid : Nat) :
    (worker.reaped pid).call = worker.call := by
  unfold Worker.reaped
  split <;> rfl

@[simp] theorem Worker.status_reaped (worker : Worker) (pid : Nat) :
    (worker.reaped pid).status = worker.status := by
  unfold Worker.reaped
  split <;> rfl

theorem Worker.reported_of_reaped {worker : Worker} {pid : Nat}
    (still : (worker.reaped pid).reported = false) :
    worker.reported = false := by
  unfold Worker.reaped at still
  split at still
  · cases still
  · exact still

theorem Worker.isZombie_iff {worker : Worker} {pid : Nat} :
    worker.isZombie pid = true ↔
      worker.pid = pid ∧ worker.reported = false ∧ worker.status.isSome := by
  simp [Worker.isZombie, and_assoc]

/-- An exit report reaches the object of its worker, and no other. -/
theorem Follows.reaps {launcher : Launcher} {ahead : Daemon}
    {forks : List Fork} (follows : Follows launcher ahead forks)
    {zombie : Worker} (there : zombie ∈ launcher.workers)
    (dead : zombie.isZombie zombie.pid = true) {status : WaitStatus}
    (left : zombie.status = some status) {worker : Worker}
    (member : worker ∈ launcher.workers) :
    Holds (ahead.table.handle (.exited zombie.pid (exitCode status)))
      launcher.pid (worker.reaped zombie.pid) := by
  obtain ⟨-, unreported, -⟩ := Worker.isZombie_iff.mp dead
  obtain ⟨position, object, told⟩ := follows.held zombie there
  simp only [unreported, Bool.false_eq_true, if_false] at told
  by_cases same : worker = zombie
  · subst same
    refine ⟨position, by simpa using object, ?_⟩
    simp [Worker.reaped, dead, WorkerTable.handle, told, left]
  · have apart := follows.apart_of_mem member there same
    have alive : worker.isZombie zombie.pid = false := by
      by_contra isZombie
      obtain ⟨samePid, also, -⟩ :=
        Worker.isZombie_iff.mp (Bool.not_eq_false _ ▸ isZombie)
      exact apart.2 also unreported samePid
    obtain ⟨other, known, kept⟩ := follows.held worker member
    have kept' : worker.reaped zombie.pid = worker := by
      simp [Worker.reaped, alive]
    rw [kept']
    refine ⟨other, by simpa using known, ?_⟩
    have elsewhere : other ≠ position := by
      intro samePosition
      rw [samePosition, object, Option.some.injEq] at known
      exact apart.1 (congrArg LaunchedWorker.call known).symm
    cases reported : worker.reported with
    | true =>
        simp only [reported, if_true] at kept
        simpa [WorkerTable.handle, told, Function.update_of_ne elsewhere]
          using kept
    | false =>
        have pids := apart.2 reported unreported
        simp only [reported, Bool.false_eq_true, if_false] at kept
        simpa [WorkerTable.handle, told, Function.update_of_ne pids] using kept

theorem sound_reap {state next : State} {pid : Nat} (sound : Sound state)
    (taken : act state (.reap pid) = some next) : Sound next := by
  simp only [act] at taken
  cases current : state.launcher with
  | none => simp [current] at taken
  | some launcher =>
      simp only [current, Option.bind_some, Launcher.reaps] at taken
      cases found : launcher.workers.find? (·.isZombie pid) with
      | none => simp [found] at taken
      | some zombie =>
          have dead : zombie.isZombie pid = true := by
            simpa using List.find?_some found
          have there := List.mem_of_find?_eq_some found
          obtain ⟨samePid, unreported, exited⟩ := Worker.isZombie_iff.mp dead
          obtain ⟨status, left⟩ := Option.isSome_iff_exists.mp exited
          simp only [found, Option.bind_some, left] at taken
          split at taken
          · cases taken
          rename_i later reaped
          split at reaped
          case isFalse => cases reaped
          case isTrue =>
            cases reaped
            cases taken
            subst samePid
            have follows := sound.follows launcher current
            have expected := sound.expected launcher current
            have read := reads_exited launcher.pid state.ahead zombie.pid
              (exitCode status)
            refine Sound.of_sent current rfl rfl rfl rfl ?_ ?_ ?_
            · rw [read]
              simpa using sound.owned
            · rw [read]
              refine ⟨follows.waited, ?_, ?_, ?_, ?_⟩
              · intro worker member
                obtain ⟨old, known, rfl⟩ := List.mem_map.mp member
                exact follows.reaps there dead left known
              · intro worker member reported
                obtain ⟨old, known, rfl⟩ := List.mem_map.mp member
                rw [Worker.status_reaped]
                cases before : old.reported with
                | true => exact follows.exited old known before
                | false =>
                    have zombied : old.isZombie zombie.pid = true := by
                      by_contra alive
                      simp [Worker.reaped, alive, before] at reported
                    exact (Worker.isZombie_iff.mp zombied).2.2
              · refine List.pairwise_map.mpr (follows.apart.imp ?_)
                intro left right distinct
                refine ⟨by simpa using distinct.1, ?_⟩
                intro first second
                simpa using distinct.2 (Worker.reported_of_reaped first)
                  (Worker.reported_of_reaped second)
              · intro worker member
                obtain ⟨old, known, rfl⟩ := List.mem_map.mp member
                simpa using follows.forked old known
            · simpa [answers, Reply.isAnswer] using expected

theorem sound_die {state next : State} (sound : Sound state)
    (taken : act state .die = some next) : Sound next := by
  simp only [act, Option.some.injEq] at taken
  subst taken
  cases current : state.launcher with
  | none => exact sound_of_none rfl (sound.owned_of_none current)
  | some launcher =>
      obtain ⟨-, held, exited, apart, known⟩ := sound.follows launcher current
      refine sound.of_silent current rfl rfl ⟨?_, held, exited, apart, known⟩
        (Nat.zero_le _)
      intro request member
      cases member

/-! ## Runs -/

theorem sound_initial : Sound initial := by
  refine sound_of_none rfl ⟨?_, List.nodup_nil, List.nodup_nil, ?_⟩
  · intro worker member
    cases member
  · intro fork member
    cases member

theorem sound_step {state next : State} {action : Action}
    (sound : Sound state) (waits : Waits state action)
    (taken : act state action = some next) : Sound next := by
  cases action with
  | spawn queues launcherPid => exact sound_spawn sound taken
  | read => exact sound_read sound taken
  | timeOut => exact sound_timeOut sound waits taken
  | forget => exact sound_forget sound taken
  | orphaned position code => exact sound_orphaned sound taken
  | fork pid => exact sound_fork sound taken
  | refuse text => exact sound_refuse sound taken
  | exit pid status => exact sound_exit sound taken
  | reap pid => exact sound_reap sound taken
  | die => exact sound_die sound taken

theorem sound_of_reaches {state : State}
    (reached : Reaches act Waits initial state) : Sound state :=
  reached.invariant sound_initial
    (fun _ _ _ sound waits taken => sound_step sound waits taken)

/-- Once the replies are read, every worker that is not reported as exited has
its object in `_workers`, and every one that is has left its exit code there.
Each object is of the worker forked for the call that returned it. -/
structure Tracked (state : State) : Prop where
  known : ∀ launcher, state.launcher = some launcher →
    launcher.replies = [] → ∀ worker ∈ launcher.workers,
      worker.reported = false →
        ∃ position,
          state.daemon.table.entries worker.pid = some position ∧
          state.daemon.table.made[position]? =
            some ⟨worker.pid, launcher.pid, worker.call⟩
  own : ∀ worker ∈ state.daemon.table.made,
    ⟨worker.call, worker.pid⟩ ∈ state.forks ∧
      ∀ fork ∈ state.forks, fork.call = worker.call → fork.pid = worker.pid
  heard : ∀ launcher, state.launcher = some launcher →
    launcher.replies = [] → ∀ worker ∈ launcher.workers,
      worker.reported = true →
        ∀ position object, state.daemon.table.made[position]? = some object →
          object.call = worker.call → ∃ status,
            worker.status = some status ∧
              state.daemon.table.returncode position = some (exitCode status)

theorem Sound.tracked {state : State} (sound : Sound state) :
    Tracked state where
  known := by
    intro launcher current read worker member unreported
    obtain ⟨position, object, told⟩ :=
      (sound.follows launcher current).held worker member
    rw [ahead_eq_daemon current read] at object told
    simp only [unreported, Bool.false_eq_true, if_false] at told
    exact ⟨position, told, object⟩
  own := by
    intro worker member
    have forked := sound.owned.forked worker
      ((made_ahead state).subset member)
    refine ⟨forked, ?_⟩
    intro fork known same
    have unique := List.inj_on_of_nodup_map sound.owned.answered known forked
      same
    rw [unique]
  heard := by
    intro launcher current read worker member reported position object made
      same
    have follows := sound.follows launcher current
    obtain ⟨known, own, told⟩ := follows.held worker member
    have once := sound.owned.once
    rw [ahead_eq_daemon current read] at own told once
    simp only [reported, if_true] at told
    have here : position = known := by
      have first : (state.daemon.table.made.map (·.call))[position]? =
          some worker.call := by simp [made, same]
      have second : (state.daemon.table.made.map (·.call))[known]? =
          some worker.call := by simp [own]
      have within := (List.getElem?_eq_some_iff.mp first).1
      exact (List.getElem?_inj within once).mp (first.trans second.symm)
    obtain ⟨status, left⟩ :=
      Option.isSome_iff_exists.mp (follows.exited worker member reported)
    rw [left] at told
    exact ⟨status, left, here ▸ told⟩

/-- While no spawn call gives up an answer that may still come, every forked
worker is tracked. -/
theorem spawn_tracks {state : State}
    (reached : Reaches act Waits initial state) : Tracked state :=
  (sound_of_reaches reached).tracked

/-- No spawn call gives up. -/
def isPatient (_ : State) : Action → Bool
  | .timeOut => false
  | _ => true

theorem waits_of_isPatient (state : State) (action : Action)
    (patient : isPatient state action = true) : Waits state action := by
  cases action with
  | timeOut => cases patient
  | _ => trivial

/-- Two workers, of which the first has ended by a signal. -/
def twoWorkers : List Action :=
  [.spawn ["default"] 100, .fork 7, .read, .exit 7 (.signaled 9),
    .spawn ["reports"] 101, .reap 7, .read, .fork 8, .read]

theorem spawn_tracks_twoWorkers : ∃ state,
    runWhile act isPatient initial twoWorkers = some state ∧
      state.daemon.table.made = [⟨7, 100, 0⟩, ⟨8, 100, 1⟩] ∧
      state.daemon.table.returncode 0 = some (-9) ∧
      state.daemon.table.entries 8 = some 1 ∧ Tracked state := by
  refine ⟨_, rfl, rfl, rfl, rfl, ?_⟩
  exact spawn_tracks (reaches_of_runWhile waits_of_isPatient
    (show runWhile act isPatient initial twoWorkers = some _ from rfl))

/-- A call that timed out has its reply read and dropped by `drain`. -/
theorem drain_drops_spawned :
    ¬ ∀ state, Reaches act anyAction initial state → Tracked state := by
  intro always
  have ran : ∃ state,
      runWhile act (fun _ _ => true) initial
        [.spawn ["default"] 100, .timeOut, .fork 7, .read] = some state ∧
      state.launcher = some ⟨100, true, [], [],
        [⟨7, ["default"], none, false, 0⟩]⟩ ∧
      state.daemon.table.entries 7 = none :=
    ⟨_, rfl, rfl, rfl⟩
  obtain ⟨state, ran, current, missing⟩ := ran
  have reached := reaches_of_runWhile (fun _ _ _ => trivial) ran
  obtain ⟨position, entry, -⟩ := (always state reached).known _ current rfl _
    List.mem_cons_self rfl
  rw [missing] at entry
  cases entry

end Sqlery.Workers
