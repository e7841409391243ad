import Mathlib.Logic.Function.Basic
import Sqlery.Runs.Machine

/-!
# The worker launcher

The daemon has a preloaded process fork its workers.  It writes a request to
one pipe and waits for the reply on another, which also carries the exits of
the workers.  Neither frame names the call it belongs to.
-/

namespace Sqlery.Workers

open Runs

/-- A status of `os.waitpid`. -/
inductive WaitStatus where
  | signaled (signal : Nat)
  | exited (code : Nat)
  | other
  deriving DecidableEq

def exitCode : WaitStatus → Int
  | .signaled signal => -signal
  | .exited code => code
  | .other => 1

/-- A `("spawn", queues)` frame.  The spawn call that wrote it is no part of
the frame. -/
structure Request where
  queues : List String
  call : Nat

inductive Reply where
  | spawned (pid : Nat)
  | error (text : String)
  | exited (pid : Nat) (code : Int)
  deriving DecidableEq

/-- A reply to a request, which an exit report is not. -/
def Reply.isAnswer : Reply → Bool
  | .spawned _ => true
  | .error _ => true
  | .exited _ _ => false

/-! ## The daemon -/

/-- What a `LaunchedWorker` is made with, and the spawn call that returned
it. -/
structure LaunchedWorker where
  pid : Nat
  launcherPid : Nat
  call : Nat
  deriving DecidableEq

/-- The objects made so far with their `returncode`, and `_workers`, which
gives the object of a process. -/
structure WorkerTable where
  made : List LaunchedWorker
  returncode : Nat → Option Int
  entries : Nat → Option Nat

/-- `_handle`. -/
def WorkerTable.handle (table : WorkerTable) : Reply → WorkerTable
  | .exited pid code =>
      match table.entries pid with
      | some position =>
          { table with
            returncode :=
              Function.update table.returncode position (some code)
            entries := Function.update table.entries pid none }
      | none => table
  | _ => table

/-- A new `LaunchedWorker` enters `_workers`. -/
def WorkerTable.add (table : WorkerTable) (worker : LaunchedWorker) :
    WorkerTable :=
  { made := table.made ++ [worker]
    returncode := Function.update table.returncode table.made.length none
    entries :=
      Function.update table.entries worker.pid (some table.made.length) }

/-- A child of the pool, forked by the launcher or a fresh interpreter. -/
inductive ChildProcess where
  | launched (position : Nat)
  | interpreter (call : Nat)
  deriving DecidableEq

structure Daemon where
  table : WorkerTable
  /-- The spawn call that waits for its reply. -/
  spawning : Option Nat
  calls : Nat
  childProcesses : List ChildProcess

/-- A spawn call raises, and `spawn_worker` starts a fresh interpreter. -/
def Daemon.fails (daemon : Daemon) (call : Nat) : Daemon :=
  { daemon with
    spawning := none
    childProcesses := daemon.childProcesses ++ [.interpreter call] }

/-- `spawn` reads a message while it waits. -/
def Daemon.spawnReads (daemon : Daemon) (launcherPid call : Nat) :
    Reply → Daemon
  | .spawned pid =>
      { daemon with
        table := daemon.table.add ⟨pid, launcherPid, call⟩
        spawning := none
        childProcesses := daemon.childProcesses ++
          [.launched daemon.table.made.length] }
  | .error _ => daemon.fails call
  | .exited pid code =>
      { daemon with table := daemon.table.handle (.exited pid code) }

/-- `drain` reads a message. -/
def Daemon.drainReads (daemon : Daemon) (message : Reply) : Daemon :=
  { daemon with table := daemon.table.handle message }

/-- The next message goes to the spawn call that waits, else to `drain`. -/
def Daemon.reads (launcherPid : Nat) (daemon : Daemon) (message : Reply) :
    Daemon :=
  match daemon.spawning with
  | some call => daemon.spawnReads launcherPid call message
  | none => daemon.drainReads message

/-- `_forget`, seen by a spawn call that waits as the end of the pipe. -/
def Daemon.forgets (daemon : Daemon) : Daemon :=
  match daemon.spawning with
  | some call => daemon.fails call
  | none => daemon

/-- `poll` asks the kernel for the exit code of an orphan. -/
def Daemon.learns (daemon : Daemon) (position : Nat) (code : Int) : Daemon :=
  { daemon with table := { daemon.table with
      returncode :=
        Function.update daemon.table.returncode position (some code) } }

/-! ## The launcher -/

/-- A process the launcher forked, for the queues of a request. -/
structure Worker where
  pid : Nat
  queues : List String
  /-- Its status, once it has exited. -/
  status : Option WaitStatus
  /-- It has been reaped, and its exit reported. -/
  reported : Bool
  call : Nat

structure Launcher where
  pid : Nat
  running : Bool
  requests : List Request
  replies : List Reply
  workers : List Worker

/-- A launcher the daemon has just forked. -/
def Launcher.start (pid : Nat) : Launcher := ⟨pid, true, [], [], []⟩

def Launcher.asked (launcher : Launcher) (request : Request) : Launcher :=
  { launcher with requests := launcher.requests ++ [request] }

/-- A process id is taken until its process has been reaped. -/
def Launcher.holds (launcher : Launcher) (pid : Nat) : Bool :=
  launcher.workers.any fun worker => worker.pid == pid && !worker.reported

/-- The launcher reads a request and forks a worker. -/
def Launcher.forks (launcher : Launcher) (pid : Nat) :
    Option (Launcher × Request) :=
  match launcher.requests with
  | [] => none
  | request :: requests =>
      if launcher.running && !launcher.holds pid then
        some ({ launcher with
          requests := requests
          replies := launcher.replies ++ [.spawned pid]
          workers := launcher.workers ++
            [⟨pid, request.queues, none, false, request.call⟩] }, request)
      else none

/-- The launcher reads a request, and the fork raises. -/
def Launcher.refuses (launcher : Launcher) (text : String) :
    Option Launcher :=
  match launcher.requests with
  | [] => none
  | _ :: requests =>
      if launcher.running then
        some { launcher with
          requests := requests
          replies := launcher.replies ++ [.error text] }
      else none

def Worker.exits (pid : Nat) (status : WaitStatus) (worker : Worker) :
    Worker :=
  if worker.pid = pid ∧ worker.reported = false ∧ worker.status = none then
    { worker with status := some status }
  else worker

/-- A worker process ends. -/
def Launcher.loses (launcher : Launcher) (pid : Nat) (status : WaitStatus) :
    Launcher :=
  { launcher with workers := launcher.workers.map (·.exits pid status) }

/-- `os.waitpid(-1, os.WNOHANG)` can return the process. -/
def Worker.isZombie (worker : Worker) (pid : Nat) : Bool :=
  worker.pid == pid && !worker.reported && worker.status.isSome

def Worker.reaped (pid : Nat) (worker : Worker) : Worker :=
  if worker.isZombie pid then { worker with reported := true } else worker

/-- The launcher reaps a worker and reports its exit. -/
def Launcher.reaps (launcher : Launcher) (pid : Nat) : Option Launcher :=
  match (launcher.workers.find? (·.isZombie pid)).bind (·.status) with
  | none => none
  | some status =>
      if launcher.running then
        some { launcher with
          workers := launcher.workers.map (·.reaped pid)
          replies := launcher.replies ++ [.exited pid (exitCode status)] }
      else none

/-- The launcher dies.  What is unread in the request pipe is lost with it. -/
def Launcher.dies (launcher : Launcher) : Launcher :=
  { launcher with running := false, requests := [] }

/-! ## Runs -/

/-- A fork done by a launcher, and the spawn call that asked for it. -/
structure Fork where
  call : Nat
  pid : Nat
  deriving DecidableEq

structure State where
  daemon : Daemon
  /-- The launcher of `pid`, `_request_fd` and `_reply_fd`. -/
  launcher : Option Launcher
  /-- Every fork so far, which nothing reads. -/
  forks : List Fork

inductive Action where
  /-- `spawn` up to its request, with the process id of a launcher it starts. -/
  | spawn (queues : List String) (launcherPid : Nat)
  | read
  | timeOut
  | forget
  | orphaned (position : Nat) (code : Int)
  | fork (pid : Nat)
  | refuse (text : String)
  | exit (pid : Nat) (status : WaitStatus)
  | reap (pid : Nat)
  | die

/-- The launcher a request is written to. -/
def launcherFor (launcher : Option Launcher) (launcherPid : Nat) : Launcher :=
  match launcher with
  | some launcher =>
      if launcher.running then launcher else .start launcherPid
  | none => .start launcherPid

def State.spawn (state : State) (queues : List String) (launcherPid : Nat) :
    Option State :=
  match state.daemon.spawning with
  | some _ => none
  | none =>
      some { state with
        daemon := { state.daemon with
          spawning := some state.daemon.calls
          calls := state.daemon.calls + 1 }
        launcher := some ((launcherFor state.launcher launcherPid).asked
          ⟨queues, state.daemon.calls⟩) }

def State.read (state : State) : Option State :=
  match state.launcher with
  | none => none
  | some launcher =>
      match launcher.replies with
      | [] => none
      | message :: replies =>
          some { state with
            daemon := state.daemon.reads launcher.pid message
            launcher := some { launcher with replies := replies } }

/-- A spawn call stops waiting, whatever the pipes hold. -/
def State.timeOut (state : State) : Option State :=
  match state.daemon.spawning with
  | none => none
  | some call => some { state with daemon := state.daemon.fails call }

/-- The death of the launcher is noticed: by `alive` outside a spawn call, or
by the end of the pipe once every reply has been read. -/
def State.forget (state : State) : Option State :=
  match state.launcher with
  | none => none
  | some launcher =>
      if !launcher.running &&
          (launcher.replies.isEmpty || state.daemon.spawning.isNone) then
        some { state with daemon := state.daemon.forgets, launcher := none }
      else none

/-- `poll` of a worker whose launcher is gone. -/
def State.orphaned (state : State) (position : Nat) (code : Int) :
    Option State :=
  match state.daemon.table.made[position]? with
  | none => none
  | some worker =>
      if state.daemon.spawning.isNone &&
          (state.daemon.table.returncode position).isNone &&
          state.launcher.all (fun launcher =>
            launcher.pid != worker.launcherPid) then
        some { state with daemon := state.daemon.learns position code }
      else none

def act : Machine State Action := fun state action =>
  match action with
  | .spawn queues launcherPid => state.spawn queues launcherPid
  | .read => state.read
  | .timeOut => state.timeOut
  | .forget => state.forget
  | .orphaned position code => state.orphaned position code
  | .fork pid =>
      match state.launcher.bind (·.forks pid) with
      | none => none
      | some (launcher, request) =>
          some { state with
            launcher := some launcher
            forks := state.forks ++ [⟨request.call, pid⟩] }
  | .refuse text =>
      match state.launcher.bind (·.refuses text) with
      | none => none
      | some launcher => some { state with launcher := some launcher }
  | .exit pid status =>
      some { state with
        launcher := state.launcher.map (·.loses pid status) }
  | .reap pid =>
      match state.launcher.bind (·.reaps pid) with
      | none => none
      | some launcher => some { state with launcher := some launcher }
  | .die => some { state with launcher := state.launcher.map (·.dies) }

/-- A daemon that has not spawned a worker yet. -/
def initial : State :=
  { daemon := ⟨⟨[], fun _ => none, fun _ => none⟩, none, 0, []⟩
    launcher := none
    forks := [] }

end Sqlery.Workers
