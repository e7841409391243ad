import Sqlery.Lease.Exclusion

/-!
# The lease step of the daemon loop

A daemon keeps the queues it leads in a local set.  Each iteration renews their
leases, claims the queues that are not in the set and adds those it got.  The
renewal reports nothing, and nothing ever leaves the set.
-/

namespace Sqlery.Lease

open ReadCommitted

/-- What a daemon runs with. -/
structure Settings where
  queues : List String
  daemonId : String
  nodeId : String
  pid : Nat
  leaseSecs : Int
  deriving DecidableEq, Repr

def Settings.claim (settings : Settings) (queueName : String) : Claim where
  queueName := queueName
  daemonId := settings.daemonId
  nodeId := settings.nodeId
  pid := settings.pid
  leaseSecs := settings.leaseSecs

/-- Where a daemon stands.  Between two lease steps it is `coordinating`, which
includes its pauses. -/
inductive Phase where
  | absent
  | renewing
  | claiming (queueName : String) (rest : List String)
  | coordinating
  | releasing
  deriving DecidableEq, Repr

/-- The local data of a daemon: `owned_queues`, and `claimed` of the call of
`claim_queue_leases` that is under way.  Nothing it does depends on the times:
when its last lease step began, and when the last one began whose renewal is
committed. -/
structure Daemon where
  phase : Phase := .absent
  ownedQueues : List String := []
  claimed : List String := []
  begun : Time := 0
  since : Time := 0
  deriving DecidableEq, Repr

/-- The daemon was launched, and is not shutting down. -/
def Daemon.Running (daemon : Daemon) : Prop :=
  daemon.phase ≠ .absent ∧ daemon.phase ≠ .releasing

/-- The daemons and the database they share. -/
structure Fleet (n : Nat) where
  world : World n
  daemon : Fin n → Daemon := fun _ => {}

inductive Move (n : Nat) where
  | launch (process : Fin n)
  | cycle (process : Fin n)
  /-- The daemon takes the result of the call it made. -/
  | proceed (process : Fin n)
  | shutDown (process : Fin n)
  | step (process : Fin n)
  | crash (process : Fin n)
  | tick (elapsed : Nat)
  deriving DecidableEq, Repr

namespace Fleet

variable {n : Nat}

def initial (clock : Time) : Fleet n :=
  { world := System.initial { clock } }

def become (fleet : Fleet n) (process : Fin n) (daemon : Daemon) : Fleet n :=
  { fleet with daemon := Function.update fleet.daemon process daemon }

/-- The daemon makes a call. -/
def make (cfg : Config) (fleet : Fleet n) (process : Fin n) (daemon : Daemon)
    (call : Call) : Option (Fleet n) :=
  ((system cfg).act fleet.world (.start process call)).map fun world =>
    Fleet.become { fleet with world } process daemon

/-- The claims of `claim_queue_leases` that are left; after the last one
`owned_queues |= newly_claimed` ends the lease step. -/
def claimRest (cfg : Config) (settings : Settings) (fleet : Fleet n)
    (process : Fin n) (daemon : Daemon) : List String → Option (Fleet n)
  | [] => some (fleet.become process
      { daemon with
        phase := .coordinating
        ownedQueues := daemon.ownedQueues ∪ daemon.claimed
        claimed := [] })
  | queueName :: rest =>
      fleet.make cfg process
        { daemon with phase := .claiming queueName rest }
        (.claim (settings.claim queueName))

/-- `sorted(queues)` of a set. -/
def sorted (queues : List String) : List String :=
  queues.dedup.insertionSort fun left right => left ≤ right

/-- The second half of the lease step: claim `set(queues) - owned_queues`. -/
def claimUnowned (cfg : Config) (settings : Settings) (fleet : Fleet n)
    (process : Fin n) (daemon : Daemon) : Option (Fleet n) :=
  fleet.claimRest cfg settings process daemon
    (sorted (settings.queues.filter fun queueName =>
      queueName ∉ daemon.ownedQueues))

/-- The end of the loop: the leases are released. -/
def release (cfg : Config) (settings : Settings) (fleet : Fleet n)
    (process : Fin n) (daemon : Daemon) : Option (Fleet n) :=
  fleet.make cfg process { daemon with phase := .releasing, claimed := [] }
    (.release (sorted daemon.ownedQueues) settings.daemonId)

/-- The call of a daemon has returned.  An exception ends the loop. -/
def proceed (cfg : Config) (settings : Settings) (fleet : Fleet n)
    (process : Fin n) (result : Return) : Option (Fleet n) :=
  let daemon := fleet.daemon process
  match daemon.phase, result with
  | .absent, _ => none
  | .coordinating, _ => none
  | .renewing, .ok _ => fleet.claimUnowned cfg settings process daemon
  | .claiming queueName rest, .ok isClaimed =>
      fleet.claimRest cfg settings process
        { daemon with
          claimed := if isClaimed then daemon.claimed ++ [queueName]
            else daemon.claimed }
        rest
  | .renewing, .error _ => fleet.release cfg settings process daemon
  | .claiming _ _, .error _ => fleet.release cfg settings process daemon
  | .releasing, _ => some (fleet.become process {})

/-- The daemon when its session has made a step: a renewal that commits is one
of the lease step under way. -/
def stepped (fleet : Fleet n) (process : Fin n) : Daemon :=
  match (fleet.daemon process).phase, (fleet.world.session process).prog with
  | .renewing, .commit _ =>
      { fleet.daemon process with since := (fleet.daemon process).begun }
  | _, _ => fleet.daemon process

def moved (cfg : Config) (settings : Fin n → Settings) (fleet : Fleet n) :
    Move n → Option (Fleet n)
  | .launch process =>
      let now := fleet.world.db.clock
      if (fleet.daemon process).phase = .absent then
        fleet.claimRest cfg (settings process) process
          { begun := now, since := now } (settings process).queues
      else none
  | .cycle process =>
      let daemon := fleet.daemon process
      let now := fleet.world.db.clock
      if daemon.phase = .coordinating then
        if daemon.ownedQueues = [] then
          fleet.claimUnowned cfg (settings process) process
            { daemon with begun := now, since := now }
        else
          fleet.make cfg process
            { daemon with phase := .renewing, begun := now }
            (.renew (sorted daemon.ownedQueues) (settings process).daemonId
              (settings process).leaseSecs)
      else none
  | .proceed process =>
      match (fleet.world.session process).prog with
      | .done result => fleet.proceed cfg (settings process) process result
      | _ => none
  | .shutDown process =>
      if (fleet.daemon process).phase = .coordinating then
        fleet.release cfg (settings process) process (fleet.daemon process)
      else none
  | .step process =>
      ((system cfg).act fleet.world (.step process)).map fun world =>
        Fleet.become { fleet with world } process (fleet.stepped process)
  | .crash process =>
      ((system cfg).act fleet.world (.crash process)).map fun world =>
        Fleet.become { fleet with world } process {}
  | .tick elapsed =>
      ((system cfg).act fleet.world (.ambient (.tick elapsed))).map
        fun world => { fleet with world }

/-- The fleets that allowed moves lead to from an empty table. -/
inductive Reached (cfg : Config) (settings : Fin n → Settings)
    (allowed : Fleet n → Move n → Prop) : Fleet n → Prop where
  | initial (clock : Time) : Reached cfg settings allowed (.initial clock)
  | move {fleet next : Fleet n} {move : Move n} :
      Reached cfg settings allowed fleet → allowed fleet move →
      fleet.moved cfg settings move = some next →
      Reached cfg settings allowed next

/-- The run of a list of moves that all pass a check. -/
def runWhile (cfg : Config) (settings : Fin n → Settings)
    (check : Fleet n → Move n → Bool) (fleet : Fleet n) :
    List (Move n) → Option (Fleet n)
  | [] => some fleet
  | move :: moves =>
      if check fleet move then
        match fleet.moved cfg settings move with
        | some next => runWhile cfg settings check next moves
        | none => none
      else none

theorem reached_of_runWhile {cfg : Config} {settings : Fin n → Settings}
    {check : Fleet n → Move n → Bool} {allowed : Fleet n → Move n → Prop}
    (sound : ∀ fleet move, check fleet move = true → allowed fleet move)
    {moves : List (Move n)} {fleet last : Fleet n}
    (reached : Reached cfg settings allowed fleet)
    (ran : fleet.runWhile cfg settings check moves = some last) :
    Reached cfg settings allowed last := by
  induction moves generalizing fleet with
  | nil =>
      cases ran
      exact reached
  | cons move moves ih =>
      simp only [runWhile] at ran
      split at ran
      · rename_i checked
        split at ran
        · rename_i next taken
          exact ih (.move reached (sound fleet move checked) taken) ran
        · cases ran
      · cases ran

end Fleet

end Sqlery.Lease
