import Sqlery.ReadCommitted.Rows
import Sqlery.Standalone.Store

/-!
# Queue leases

The table `sqlery_daemon_lease` and the calls that claim, renew and release
the lease of a queue: the standalone backend on PostgreSQL (a row lock) and on
SQLite (a compare-and-set on the version), the Django backend (a conditional
`UPDATE`, then an `INSERT`), and the asynchronous backend, which reads the row
of its table `sqlery_lease` and writes it back.

The remarks record what a call read before it wrote.  Nothing depends on them.
-/

namespace Sqlery.Lease

open ReadCommitted
open Script
open Standalone (Dialect)

/-- A row of `sqlery_daemon_lease` or `sqlery_lease`.  Only the standalone
backend uses the version. -/
structure DaemonLease where
  queueName : String
  daemonId : String
  nodeId : String
  pid : Nat
  acquiredAt : Time
  expiresAt : Time
  version : Nat := 0
  deriving DecidableEq, Repr

structure Db where
  leases : Table DaemonLease.queueName := .empty
  clock : Time := 0
  deriving DecidableEq

inductive Remark where
  /-- The time the call took for now. -/
  | began (now : Time)
  /-- The row the call read without locking it. -/
  | found (lease : DaemonLease)
  deriving DecidableEq, Repr

inductive Write where
  | insertLease (lease : DaemonLease)
  | setLease (lease : DaemonLease)
  | deleteLease (queueName : String)
  | tick (elapsed : Nat)
  | remark (remark : Remark)
  deriving DecidableEq, Repr

inductive Lock where
  | lease (queueName : String)
  | writer
  deriving DecidableEq, Repr

def Write.apply : Write → Db → Db
  | .insertLease lease, db => { db with leases := db.leases.insert lease }
  | .setLease lease, db => { db with leases := db.leases.set lease }
  | .deleteLease queueName, db =>
      { db with leases := db.leases.erase queueName }
  | .tick elapsed, db => { db with clock := db.clock + elapsed }
  | .remark _, db => db

/-- The queue whose row a write touches. -/
def Write.queueName : Write → Option String
  | .insertLease lease => some lease.queueName
  | .setLease lease => some lease.queueName
  | .deleteLease queueName => some queueName
  | _ => none

/-- The lock of a queue's row; SQLite has one lock for all writers. -/
def lockOf (dialect : Dialect) (queueName : String) : Lock :=
  match dialect with
  | .postgresql => .lease queueName
  | .sqlite => .writer

def writerOf (dialect : Dialect) : Option Lock :=
  match dialect with
  | .postgresql => none
  | .sqlite => some .writer

def schema (dialect : Dialect) : Schema Db Write Lock where
  apply := Write.apply
  guards write := (write.queueName.map (lockOf dialect)).toList
  conflicts left right := left = right
  conflicts_symm left right := by simp [eq_comm]

inductive Backend where
  | standalone
  | django
  | async
  deriving DecidableEq, Repr

structure Config where
  dialect : Dialect
  backend : Backend

inductive Exc where
  /-- `IntegrityError`. -/
  | integrity
  /-- `StaleDataError`: an `UPDATE` of one row matched none. -/
  | stale
  deriving DecidableEq, Repr

abbrev Sql (α : Type) : Type 1 := Script Db Write Lock Exc α

/-! ## Statements -/

/-- `datetime.now(UTC)`. -/
def currentTime : Sql Time :=
  observe Db.clock fun now => [.remark (.began now)]

def readLease (queueName : String) : Sql (Option DaemonLease) :=
  observe (fun db => db.leases.get queueName) fun found =>
    found.toList.map fun lease => .remark (.found lease)

def lockLease (queueName : String) : Sql (Option DaemonLease) := do
  let rows ← exec (lockRows Db.leases (fun lease => .lease lease.queueName)
    fun lease => lease.queueName = queueName)
  pure rows.head?

def updateLeases (cfg : Config) (admits : DaemonLease → Bool)
    (change : DaemonLease → DaemonLease) : Sql Nat := do
  let rows ← exec (modifyRows Db.leases (writerOf cfg.dialect) admits
    fun lease => .setLease (change lease))
  pure rows.length

def deleteLeases (cfg : Config) (admits : DaemonLease → Bool) : Sql Unit := do
  let _ ← exec (modifyRows Db.leases (writerOf cfg.dialect) admits
    fun lease => .deleteLease lease.queueName)
  pure ()

/-- Whether the queue had no row. -/
def insertLease (cfg : Config) (lease : DaemonLease) : Sql Bool :=
  exec (insertNew Db.leases (writerOf cfg.dialect)
    (lockOf cfg.dialect lease.queueName) .insertLease lease)

/-- The `UPDATE` of a mapped object: the columns whose value is not the one
that was loaded. -/
def flushChanges (loaded changed stored : DaemonLease) : DaemonLease where
  queueName := stored.queueName
  daemonId := if changed.daemonId = loaded.daemonId then stored.daemonId
    else changed.daemonId
  nodeId := if changed.nodeId = loaded.nodeId then stored.nodeId
    else changed.nodeId
  pid := if changed.pid = loaded.pid then stored.pid else changed.pid
  acquiredAt := if changed.acquiredAt = loaded.acquiredAt then
      stored.acquiredAt
    else changed.acquiredAt
  expiresAt := if changed.expiresAt = loaded.expiresAt then stored.expiresAt
    else changed.expiresAt
  version := if changed.version = loaded.version then stored.version
    else changed.version

/-- Flush a changed object; there must be a row to update. -/
def flush (cfg : Config) (loaded changed : DaemonLease) : Sql Unit := do
  let updated ← updateLeases cfg
    (fun lease => lease.queueName = loaded.queueName)
    (flushChanges loaded changed)
  if updated = 1 then pure () else raise .stale

/-! ## `_claim_one_lease` -/

/-- What a daemon asks for. -/
structure Claim where
  queueName : String
  daemonId : String
  nodeId : String
  pid : Nat
  leaseSecs : Int
  deriving DecidableEq, Repr

def Claim.lease (claim : Claim) (now : Time) : DaemonLease where
  queueName := claim.queueName
  daemonId := claim.daemonId
  nodeId := claim.nodeId
  pid := claim.pid
  acquiredAt := now
  expiresAt := now + seconds claim.leaseSecs

/-- The row of a lease that is taken over, or claimed again by its holder. -/
def Claim.takeOver (claim : Claim) (now : Time) (lease : DaemonLease) :
    DaemonLease :=
  { claim.lease now with version := lease.version + 1 }

/-- The queue has no row: insert one, unless another claimer was faster. -/
def insertOrLose (cfg : Config) (lease : DaemonLease) : Sql Bool := do
  if ← insertLease cfg lease then do
    commit
    pure true
  else do
    rollback
    pure false

/-- PostgreSQL: the row is locked, then compared and written. -/
def claimSkipLocked (cfg : Config) (claim : Claim) : Sql Bool := do
  let now ← currentTime
  match ← lockLease claim.queueName with
  | none => insertOrLose cfg (claim.lease now)
  | some existing =>
      if existing.expiresAt < now || existing.daemonId = claim.daemonId then do
        flush cfg existing (claim.takeOver now existing)
        commit
        pure true
      else pure false

/-- The compare-and-set on the version. -/
def compareAndSet (cfg : Config) (claim : Claim) (now : Time)
    (admits : DaemonLease → Bool) : Sql Bool := do
  let updated ← updateLeases cfg admits (claim.takeOver now)
  commit
  pure (updated = 1)

/-- SQLite: the row is read, then written where it still has the version. -/
def claimOptimistic (cfg : Config) (claim : Claim) : Sql Bool := do
  let now ← currentTime
  match ← readLease claim.queueName with
  | none => insertOrLose cfg (claim.lease now)
  | some existing =>
      if existing.daemonId = claim.daemonId then
        compareAndSet cfg claim now fun lease =>
          lease.queueName = claim.queueName &&
            lease.version = existing.version
      else if existing.expiresAt < now then
        compareAndSet cfg claim now fun lease =>
          lease.queueName = claim.queueName &&
            lease.version = existing.version && lease.expiresAt < now
      else pure false

/-- Django: take over an expired lease, or insert one. -/
def claimDjango (cfg : Config) (claim : Claim) : Sql Bool := do
  let now ← currentTime
  let updated ← updateLeases cfg
    (fun lease => lease.queueName = claim.queueName && lease.expiresAt < now)
    fun lease => { claim.lease now with version := lease.version }
  if updated = 0 then insertOrLose cfg (claim.lease now)
  else do
    commit
    pure true

/-- `aclaim_lease`.  The insert is not guarded, and neither is the write of the
row that was read. -/
def aclaimLease (cfg : Config) (claim : Claim) : Sql Bool := do
  let now ← currentTime
  match ← readLease claim.queueName with
  | none =>
      if ← insertLease cfg
          { claim.lease now with nodeId := claim.daemonId, pid := 0 } then do
        commit
        pure true
      else raise .integrity
  | some existing =>
      if existing.daemonId = claim.daemonId || existing.expiresAt < now then do
        flush cfg existing
          { claim.lease now with
            nodeId := claim.daemonId
            pid := existing.pid
            version := existing.version }
        commit
        pure true
      else do
        commit
        pure false

def claimOneLease (cfg : Config) (claim : Claim) : Sql Bool :=
  match cfg.backend, cfg.dialect with
  | .standalone, .postgresql => claimSkipLocked cfg claim
  | .standalone, .sqlite => claimOptimistic cfg claim
  | .django, _ => claimDjango cfg claim
  | .async, _ => aclaimLease cfg claim

/-! ## Renewal and release -/

/-- `renew_queue_leases`, and `arenew_lease` with its one queue and 30 s; the
result is whether a row was renewed. -/
def renewQueueLeases (cfg : Config) (ownedQueues : List String)
    (daemonId : String) (leaseSecs : Int) : Sql Bool :=
  if ownedQueues = [] then pure false
  else do
    let now ← currentTime
    let renewed ← updateLeases cfg
      (fun lease => lease.queueName ∈ ownedQueues && lease.daemonId = daemonId)
      fun lease => { lease with expiresAt := now + seconds leaseSecs }
    commit
    pure (0 < renewed)

/-- `release_queue_leases`, and `arelease_lease` with its one queue. -/
def releaseQueueLeases (cfg : Config) (ownedQueues : List String)
    (daemonId : String) : Sql Bool :=
  if ownedQueues = [] then pure false
  else do
    deleteLeases cfg fun lease =>
      lease.queueName ∈ ownedQueues && lease.daemonId = daemonId
    commit
    pure false

/-! ## The system -/

inductive Call where
  | claim (request : Claim)
  | renew (ownedQueues : List String) (daemonId : String) (leaseSecs : Int)
  | release (ownedQueues : List String) (daemonId : String)
  deriving DecidableEq, Repr

def Call.daemonId : Call → String
  | .claim request => request.daemonId
  | .renew _ daemonId _ => daemonId
  | .release _ daemonId => daemonId

def scriptOf (cfg : Config) : Call → Sql Bool
  | .claim request => session (claimOneLease cfg request)
  | .renew ownedQueues daemonId leaseSecs =>
      session (renewQueueLeases cfg ownedQueues daemonId leaseSecs)
  | .release ownedQueues daemonId =>
      session (releaseQueueLeases cfg ownedQueues daemonId)

abbrev Return := Except Exc Bool

/-- Only the clock moves by itself. -/
def isTick : Write → Bool
  | .tick _ => true
  | _ => false

def system (cfg : Config) : System Db Write Lock Call Return where
  schema := schema cfg.dialect
  body call := (scriptOf cfg call).run
  ambient := isTick

end Sqlery.Lease
