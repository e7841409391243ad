import Mathlib.Data.List.Dedup
import Sqlery.Lease.Daemons
import Sqlery.Lease.Fleet
import Sqlery.Lease.Renewals

/-!
# Daemons that renew in time

A daemon keeps every lease it knows of while it begins its next lease step
before the time of a lease is over.
-/

namespace Sqlery.Lease

open ReadCommitted

namespace Fleet

variable {n : Nat}

/-- Between two lease steps the daemon treats itself as the coordinator of the
queue. -/
def Leads (fleet : Fleet n) (process : Fin n) (queueName : String) : Prop :=
  (fleet.daemon process).phase = .coordinating ∧
    queueName ∈ (fleet.daemon process).ownedQueues

/-- The row of the queue names the daemon. -/
def Holds (settings : Fin n → Settings) (fleet : Fleet n) (process : Fin n)
    (queueName : String) : Prop :=
  ∃ row, fleet.world.db.leases.get queueName = some row ∧
    row.daemonId = (settings process).daemonId

/-- The move commits the daemon's claim of the queue. -/
def Takes (fleet : Fleet n) (move : Move n) (process : Fin n)
    (queueName : String) : Prop :=
  move = .step process ∧
    (∃ rest, (fleet.daemon process).phase = .claiming queueName rest) ∧
    (∃ rest, (fleet.world.session process).prog = .commit rest) ∧
    (fleet.world.session process).state.pending ≠ []

/-- The daemon began its last renewed lease step less than the time of a lease
ago. -/
def InTime (settings : Fin n → Settings) (fleet : Fleet n)
    (process : Fin n) : Prop :=
  fleet.world.db.clock ≤
    (fleet.daemon process).since + seconds (settings process).leaseSecs

/-- A running daemon has renewed its leases in time whenever a queue whose row
names it is claimed by another one.  Where claims compare and set, nobody
releases a lease while its former holder is claiming it again. -/
structure Punctual (cfg : Config) (settings : Fin n → Settings)
    (fleet : Fleet n) (move : Move n) : Prop where
  inTime : ∀ process queueName, fleet.Takes move process queueName →
    ∀ other, other ≠ process → fleet.Holds settings other queueName →
      (fleet.daemon other).Running → fleet.InTime settings other
  unreleased : cfg.Optimistic → ∀ process, move = .step process →
    ∀ call,
    System.committing fleet.world (.step process) = some (process, call) →
    ∀ other, other ≠ process → ∀ seen,
      Reclaiming fleet.world other seen →
      .deleteLease seen.queueName ∉
        (fleet.world.session process).state.pending

/-- Every daemon holds the queues it leads, and nobody else leads them. -/
structure Led (settings : Fin n → Settings) (fleet : Fleet n) : Prop where
  held : ∀ process queueName, fleet.Leads process queueName →
    fleet.Holds settings process queueName
  alone : ∀ process other queueName, fleet.Leads process queueName →
    fleet.Leads other queueName → other = process

end Fleet

/-! ## What the calls of a daemon leave in the rows -/

section Rows

variable {cfg : Config} {db : Db} {state : Loc} {write : Write}

theorem about_of_mem {writes : List Write} {queueName : String}
    (once : (writes.filterMap Write.queueName).Nodup)
    (member : write ∈ writes) (isQueue : write.queueName = some queueName) :
    about queueName writes = some write := by
  induction writes with
  | nil => cases member
  | cons head tail ih =>
      rcases List.mem_cons.mp member with rfl | later
      · simp [about, isQueue]
      · have apart : head.queueName ≠ some queueName := by
          intro same
          rw [List.filterMap_cons_some same, List.nodup_cons] at once
          exact once.1 (List.mem_filterMap.mpr ⟨write, later, isQueue⟩)
        have tailOnce : (tail.filterMap Write.queueName).Nodup :=
          once.sublist ((List.sublist_cons_self head tail).filterMap _)
        calc about queueName (head :: tail)
            = about queueName tail := by simp [about, apart]
          _ = some write := ih tailOnce later

/-- After a claim that wrote anything its daemon has the lease from the time
the call took for now. -/
theorem Lawful.takes {request : Claim}
    (lawful : Lawful cfg (.claim request) db state)
    (sync : cfg.backend ≠ .async)
    (rightful : ∀ write ∈ state.pending,
      Rightful (.claim request) db write)
    (wrote : state.pending ≠ []) :
    ∃ row now,
      (after state.pending db).leases.get request.queueName = some row ∧
      row.daemonId = request.daemonId ∧
      .remark (.began now) ∈ state.noted ∧
      row.expiresAt = now + seconds request.leaseSecs := by
  obtain ⟨write, rest, isPending⟩ := List.exists_cons_of_ne_nil wrote
  have member : write ∈ state.pending := by simp [isPending]
  have isQueue := (lawful.legal write member).claimed
  rw [get_after_written lawful.once (about_of_mem lawful.once member isQueue)]
  obtain ⟨rfl, _⟩ | ⟨row, isRow, own, granted⟩ :=
    (rightful write member).row isQueue
  · exact ((lawful.legal _ member).not_delete request.queueName rfl).elim
  · obtain ⟨now, length, began, asks, isExpiry⟩ :=
      (lawful.legal write member).granted sync granted
    cases asks
    exact ⟨row, now, isRow, own, began.1, isExpiry⟩

/-- A claim leaves the other queues alone. -/
theorem Lawful.claim_other {request : Claim} {queueName : String}
    (lawful : Lawful cfg (.claim request) db state)
    (other : queueName ≠ request.queueName) :
    (after state.pending db).leases.get queueName =
      db.leases.get queueName := by
  apply get_after_of_ne
  intro write member isQueue
  have claimed := (lawful.legal write member).claimed
  rw [claimed] at isQueue
  exact other (Option.some.inj isQueue).symm

/-- Only a claim replaces the row of another daemon. -/
theorem Rightful.foreign_claims {call : Call} {queueName : String}
    {row : DaemonLease} (rightful : Rightful call db write)
    (isQueue : write.queueName = some queueName)
    (found : db.leases.get queueName = some row)
    (foreign : row.daemonId ≠ call.daemonId) :
    ∃ request, call = .claim request := by
  cases rightful with
  | inserts request lease isCall own absent => exact ⟨request, isCall⟩
  | takes request lease old isCall own stored may => exact ⟨request, isCall⟩
  | renews queues daemonId leaseSecs lease old isCall own stored mine =>
      cases isQueue
      subst isCall
      rw [stored] at found
      cases found
      exact (foreign mine).elim
  | releases queues daemonId old isCall stored mine =>
      cases isQueue
      subst isCall
      rw [stored] at found
      cases found
      exact (foreign mine).elim

end Rows

/-- The row of the queue names the daemon, and the lease lasts for its time
from then on. -/
def Leased (settings : Settings) (since : Time) (queueName : String)
    (db : Db) : Prop :=
  ∃ row, db.leases.get queueName = some row ∧
    row.daemonId = settings.daemonId ∧
    since + seconds settings.leaseSecs ≤ row.expiresAt

/-! ## Every daemon makes the call its phase says -/

namespace Fleet

variable {cfg : Config} {n : Nat} {settings : Fin n → Settings}
variable {fleet next : Fleet n} {world : World n}

theorem mem_sorted {queues : List String} {queueName : String} :
    queueName ∈ sorted queues ↔ queueName ∈ queues := by
  simp [sorted, List.mem_dedup]

/-- The session runs the call the daemon is waiting for. -/
def Making (cfg : Config) (settings : Settings) (daemon : Daemon)
    (session : Session Db Write Lock Call Return) : Prop :=
  match daemon.phase with
  | .absent => session.prog.idle = true
  | .coordinating => session.prog.idle = true
  | .renewing => daemon.ownedQueues ≠ [] ∧
      session.call = some (.renew (sorted daemon.ownedQueues)
        settings.daemonId settings.leaseSecs) ∧
      Renewing cfg (sorted daemon.ownedQueues) settings.daemonId
        settings.leaseSecs session
  | .claiming queueName _ =>
      session.call = some (.claim (settings.claim queueName))
  | .releasing => ∃ queues, session.call =
      some (.release queues settings.daemonId)

theorem sorted_ne_nil {queues : List String} (some_ : queues ≠ []) :
    sorted queues ≠ [] := by
  obtain ⟨first, rest, isQueues⟩ := List.exists_cons_of_ne_nil some_
  intro none_
  have member : first ∈ sorted queues := mem_sorted.mpr (by simp [isQueues])
  rw [none_] at member
  cases member

/-- The local data of a running daemon fit the table. -/
structure Fits (settings : Settings) (daemon : Daemon) (db : Db) : Prop where
  ordered : daemon.since ≤ daemon.begun
  past : daemon.begun ≤ db.clock
  leased : ∀ queueName,
    queueName ∈ daemon.ownedQueues ∨ queueName ∈ daemon.claimed →
    Leased settings daemon.since queueName db

/-- The daemon is inside its lease step. -/
def Stepping : Phase → Prop
  | .renewing => True
  | .claiming _ _ => True
  | _ => False

/-- What the moves of a fleet keep. -/
structure Crewed (cfg : Config) (settings : Fin n → Settings)
    (fleet : Fleet n) : Prop where
  reached : Lease.Reached cfg
    (Unreleased cfg (fun process => (settings process).daemonId)
      fun process => (settings process).leaseSecs) fleet.world
  making : ∀ process, Making cfg (settings process) (fleet.daemon process)
    (fleet.world.session process)
  fits : ∀ process, (fleet.daemon process).Running →
    Fits (settings process) (fleet.daemon process) fleet.world.db
  /-- Nothing is left over from an earlier lease step. -/
  collected : ∀ process, (fleet.daemon process).phase = .coordinating ∨
      (fleet.daemon process).phase = .renewing →
    (fleet.daemon process).claimed = []
  /-- A call takes no time for now that is before its lease step. -/
  began : ∀ process, Stepping (fleet.daemon process).phase → ∀ now,
    .remark (.began now) ∈ (fleet.world.session process).state.noted →
    (fleet.daemon process).begun ≤ now
  /-- A claim that is committed and not yet in the set. -/
  won : ∀ process queueName rest,
    (fleet.daemon process).phase = .claiming queueName rest →
    (fleet.world.session process).state.written ≠ [] →
    Leased (settings process) (fleet.daemon process).since queueName
      fleet.world.db

theorem Stepping.running {daemon : Daemon} (stepping : Stepping daemon.phase) :
    daemon.Running := by
  constructor
  · intro phase
    rw [phase] at stepping
    exact stepping
  · intro phase
    rw [phase] at stepping
    exact stepping

/-- A daemon at rest makes no step. -/
theorem no_step {process : Fin n}
    (isIdle : (fleet.world.session process).prog.idle = true)
    (taken : (system cfg).act fleet.world (.step process) = some world) :
    False := by
  cases isProg : (fleet.world.session process).prog with
  | done value => simp [System.act, System.advance, isProg] at taken
  | halt => simp [System.act, System.advance, isProg] at taken
  | query read remark rest => simp [isProg, Prog.idle] at isIdle
  | exec statement rest => simp [isProg, Prog.idle] at isIdle
  | commit rest => simp [isProg, Prog.idle] at isIdle
  | rollback rest => simp [isProg, Prog.idle] at isIdle

section Steps

variable (crewed : Crewed cfg settings fleet)
variable (sync : cfg.backend ≠ .async)
variable (injective : Function.Injective fun process =>
  (settings process).daemonId)

include crewed

theorem Crewed.named {process : Fin n} {queueName : String}
    (running : (fleet.daemon process).Running)
    (owned : queueName ∈ (fleet.daemon process).ownedQueues) :
    fleet.Holds settings process queueName := by
  obtain ⟨row, found, own, _⟩ :=
    (crewed.fits process running).leased queueName (Or.inl owned)
  exact ⟨row, found, own⟩

theorem Crewed.reaches {action : Action Write Call n}
    (unreleased : Unreleased cfg (fun process => (settings process).daemonId)
      (fun process => (settings process).leaseSecs) fleet.world action)
    (taken : (system cfg).act fleet.world action = some world) :
    Lease.Reached cfg (Unreleased cfg
      (fun process => (settings process).daemonId)
      fun process => (settings process).leaseSecs) world := by
  obtain ⟨clock, reached⟩ := crewed.reached
  exact ⟨clock, .step reached unreleased taken⟩

/-- What the commit of its renewal leaves the daemon. -/
theorem Crewed.leased_renewal {process : Fin n} {call : Call}
    (commits : (leases cfg).Commits fleet.world world (.step process)
      process call)
    (phase : (fleet.daemon process).phase = .renewing) {queueName : String}
    (owned : queueName ∈ (fleet.daemon process).ownedQueues) :
    Leased (settings process) (fleet.daemon process).begun queueName
      world.db := by
  have making := crewed.making process
  simp only [Making, phase] at making
  obtain ⟨some_, isCall, renewing⟩ := making
  have lawful : Lawful cfg call fleet.world.db
      (fleet.world.session process).state := commits.promised
  obtain ⟨rest, isCommit⟩ := commits.isCommit
  have isAfter : world.db = after _ fleet.world.db := commits.db
  obtain ⟨now, began, written⟩ :=
    renewing.written (sorted_ne_nil some_) isCommit
  obtain ⟨lease, member, isQueue, own, isExpiry⟩ :=
    written queueName (mem_sorted.mpr owned)
  have isAbout := about_of_mem lawful.once member
    (show Write.queueName (.setLease lease) = some queueName from
      congrArg some isQueue)
  have running : (fleet.daemon process).Running := by
    simp [Daemon.Running, phase]
  obtain ⟨row, found, _⟩ := crewed.named running owned
  refine ⟨lease, ?_, own, ?_⟩
  · rw [isAfter, get_after_written lawful.once isAbout]
    subst isQueue
    exact get_setLease found
  · have after_ := crewed.began process (by rw [phase]; trivial) now began
    rw [isExpiry]
    exact Int.add_le_add_right after_ _

include sync injective

theorem Crewed.good : (leases cfg).Good Returns fleet.world :=
  (orderly_reached sync injective crewed.reached).1

theorem Crewed.orderly :
    Orderly cfg (fun process => (settings process).daemonId)
      (fun process => (settings process).leaseSecs) fleet.world :=
  (orderly_reached sync injective crewed.reached).2

theorem Crewed.rightful {process : Fin n} {call : Call}
    {rest : Prog Db Write Lock Return}
    (isCall : (fleet.world.session process).call = some call)
    (isCommit : (fleet.world.session process).prog = .commit rest) :
    ∀ write ∈ (fleet.world.session process).state.pending,
      Rightful call fleet.world.db write :=
  (crewed.orderly sync injective).rightful (crewed.good sync injective) sync
    isCall isCommit

/-- The clock never goes back. -/
theorem Crewed.later {action : Action Write Call n}
    (taken : (system cfg).act fleet.world action = some world) :
    fleet.world.db.clock ≤ world.db.clock := by
  rcases (crewed.good sync injective).act_cases taken with
    ⟨committer, call, commits⟩ | quiet
  · obtain ⟨rest, isCommit⟩ := commits.isCommit
    have isAfter : world.db = after _ fleet.world.db := commits.db
    rw [isAfter, clock_after
      (crewed.rightful sync injective commits.isCall isCommit)]
  · exact (drift_cases quiet.db).2

/-- A commit of another daemon leaves a lease as it is, as long as its holder
renews it in time. -/
theorem Crewed.leased_beside {committer process : Fin n} {call : Call}
    (punctual : Punctual cfg settings fleet (.step committer))
    (commits : (leases cfg).Commits fleet.world world (.step committer)
      committer call)
    (different : process ≠ committer)
    (running : (fleet.daemon process).Running) {queueName : String}
    (leased : Leased (settings process) (fleet.daemon process).since
      queueName fleet.world.db) :
    Leased (settings process) (fleet.daemon process).since queueName
      world.db := by
  obtain ⟨row, found, own, lasts⟩ := leased
  have lawful : Lawful cfg call fleet.world.db
      (fleet.world.session committer).state := commits.promised
  obtain ⟨rest, isCommit⟩ := commits.isCommit
  have isAfter : world.db = after _ fleet.world.db := commits.db
  rw [isAfter]
  cases isAbout : about queueName
      (fleet.world.session committer).state.pending with
  | none =>
      exact ⟨row, by rw [get_after_unwritten isAbout, found], own, lasts⟩
  | some write =>
      exfalso
      have member := List.mem_of_find?_eq_some isAbout
      have isQueue : write.queueName = some queueName := by
        simpa using List.find?_some isAbout
      have rightful := crewed.rightful sync injective commits.isCall isCommit
        write member
      have isName : call.daemonId = (settings committer).daemonId :=
        ((crewed.orderly sync injective).lengths.belongs committer call
          commits.isCall).1
      have foreign : row.daemonId ≠ call.daemonId := by
        intro same
        exact different (injective (own.symm.trans (same.trans isName)))
      obtain ⟨request, rfl⟩ := rightful.foreign_claims isQueue found foreign
      have making := crewed.making committer
      have isCall := commits.isCall
      have isClaim := (lawful.legal write member).claimed
      rw [isQueue] at isClaim
      cases phase : (fleet.daemon committer).phase with
      | absent => simp [Making, phase, isCommit, Prog.idle] at making
      | coordinating => simp [Making, phase, isCommit, Prog.idle] at making
      | renewing =>
          simp only [Making, phase] at making
          rw [making.2.1] at isCall
          cases isCall
      | releasing =>
          simp only [Making, phase] at making
          obtain ⟨queues, making⟩ := making
          rw [making] at isCall
          cases isCall
      | claiming claimed left =>
          simp only [Making, phase] at making
          rw [making] at isCall
          cases isCall
          have isClaimed : claimed = queueName :=
            (Option.some.inj isClaim).symm
          subst isClaimed
          -- The lease has expired, though its holder has renewed it in time.
          have inTime := punctual.inTime committer claimed
            ⟨rfl, ⟨left, phase⟩, ⟨rest, isCommit⟩,
              List.ne_nil_of_mem member⟩
            process different ⟨row, found, own⟩ running
          have expired := rightful.foreign isQueue found foreign
          exact absurd (lt_of_le_of_lt (le_trans inTime lasts) expired)
            (lt_irrefl _)

/-- What the commit of its own claim leaves the daemon. -/
theorem Crewed.leased_claim {process : Fin n} {call : Call}
    (commits : (leases cfg).Commits fleet.world world (.step process)
      process call) {claimed : String} {rest : List String}
    (phase : (fleet.daemon process).phase = .claiming claimed rest)
    {queueName : String}
    (leased : Leased (settings process) (fleet.daemon process).since
        queueName fleet.world.db ∨
      queueName = claimed ∧
        (fleet.world.session process).state.pending ≠ []) :
    Leased (settings process) (fleet.daemon process).since queueName
      world.db := by
  have making := crewed.making process
  simp only [Making, phase] at making
  have isCall := commits.isCall
  rw [making] at isCall
  cases isCall
  have lawful : Lawful cfg (.claim ((settings process).claim claimed))
      fleet.world.db (fleet.world.session process).state := commits.promised
  obtain ⟨next, isCommit⟩ := commits.isCommit
  have isAfter : world.db = after _ fleet.world.db := commits.db
  rw [isAfter]
  by_cases wrote : (fleet.world.session process).state.pending = []
  · rw [wrote]
    rcases leased with leased | ⟨_, some_⟩
    · exact leased
    · exact (some_ wrote).elim
  · by_cases same : queueName = claimed
    · subst same
      obtain ⟨row, now, found, own, began, isExpiry⟩ := lawful.takes sync
        (crewed.rightful sync injective commits.isCall isCommit) wrote
      refine ⟨row, found, own, ?_⟩
      have after_ := crewed.began process (by rw [phase]; trivial) now began
      have ordered := (crewed.fits process
        (by simp [Daemon.Running, phase])).ordered
      rw [isExpiry]
      exact Int.add_le_add_right (le_trans ordered after_) _
    · rcases leased with ⟨row, found, own, lasts⟩ | ⟨isClaimed, _⟩
      · exact ⟨row, (lawful.claim_other same).trans found, own, lasts⟩
      · exact (same isClaimed).elim

end Steps

/-! ## Moves -/

section Moves

theorem stepped_kept (fleet : Fleet n) (process : Fin n) :
    (fleet.stepped process).phase = (fleet.daemon process).phase ∧
      (fleet.stepped process).ownedQueues =
        (fleet.daemon process).ownedQueues ∧
      (fleet.stepped process).claimed = (fleet.daemon process).claimed ∧
      (fleet.stepped process).begun = (fleet.daemon process).begun := by
  unfold stepped
  split
  · exact ⟨rfl, rfl, rfl, rfl⟩
  · exact ⟨rfl, rfl, rfl, rfl⟩

/-- Only the commit of a renewal moves the daemon on. -/
theorem stepped_eq {process : Fin n}
    (other : ∀ rest, (fleet.daemon process).phase = .renewing →
      (fleet.world.session process).prog ≠ .commit rest) :
    fleet.stepped process = fleet.daemon process := by
  unfold stepped
  split
  · rename_i rest phase isCommit
    exact (other _ phase isCommit).elim
  · rfl

theorem stepped_renewal {process : Fin n} {rest : Prog Db Write Lock Return}
    (phase : (fleet.daemon process).phase = .renewing)
    (isCommit : (fleet.world.session process).prog = .commit rest) :
    fleet.stepped process = { fleet.daemon process with
      since := (fleet.daemon process).begun } := by
  unfold stepped
  simp only [phase, isCommit]

variable (crewed : Crewed cfg settings fleet)
variable (sync : cfg.backend ≠ .async)
variable (injective : Function.Injective fun process =>
  (settings process).daemonId)

include crewed sync injective

/-- A session keeps its call while its process makes a step. -/
theorem Crewed.call_kept {action : Action Write Call n}
    (taken : (system cfg).act fleet.world action = some world)
    (notStart : ∀ process call, action ≠ .start process call)
    (process : Fin n) :
    (world.session process).call = (fleet.world.session process).call := by
  rcases (crewed.good sync injective).act_cases taken with
    ⟨committer, call, commits⟩ | quiet
  · by_cases same : process = committer
    · subst same
      rw [commits.call, commits.isCall]
    · rw [commits.others process same]
  · cases quiet.sessions process with
    | rests rests => exact rests.call
    | remarks call remarks _ isCall _ after_ _ _ => rw [after_, isCall]
    | starts call isStart => exact (notStart process call isStart).elim

theorem Crewed.making_step {process : Fin n}
    (taken : (system cfg).act fleet.world (.step process) = some world) :
    Making cfg (settings process) (fleet.stepped process)
      (world.session process) := by
  obtain ⟨samePhase, sameQueues, _⟩ := stepped_kept fleet process
  have sameCall := crewed.call_kept sync injective taken
    (fun _ _ isStart => by cases isStart) process
  have making := crewed.making process
  unfold Making
  rw [samePhase, sameQueues, sameCall]
  cases phase : (fleet.daemon process).phase with
  | absent =>
      simp only [Making, phase] at making
      exact (no_step making taken).elim
  | coordinating =>
      simp only [Making, phase] at making
      exact (no_step making taken).elim
  | renewing =>
      simp only [Making, phase] at making
      obtain ⟨some_, isCall, renewing⟩ := making
      refine ⟨some_, isCall,
        renewing.step (sorted_ne_nil some_) ?_ taken⟩
      intro queueName owned
      exact crewed.named (by simp [Daemon.Running, phase])
        (mem_sorted.mp owned)
  | claiming queueName rest =>
      simp only [Making, phase] at making
      exact making
  | releasing =>
      simp only [Making, phase] at making
      exact making

/-- No call of a lease step takes a time for now that is before the step. -/
theorem Crewed.began_step {action : Action Write Call n}
    (taken : (system cfg).act fleet.world action = some world)
    (notStart : ∀ process call, action ≠ .start process call)
    {process : Fin n} (stepping : Stepping (fleet.daemon process).phase)
    {now : Time}
    (began : .remark (.began now) ∈ (world.session process).state.noted) :
    (fleet.daemon process).begun ≤ now := by
  rcases (crewed.good sync injective).act_cases taken with
    ⟨committer, call, commits⟩ | quiet
  · rw [noted_commits commits] at began
    exact crewed.began process stepping now began
  · cases quiet.sessions process with
    | rests rests =>
        rw [rests.noted] at began
        exact crewed.began process stepping now began
    | remarks call remarks _ _ notes _ isNoted _ =>
        rw [isNoted] at began
        rcases List.mem_append.mp began with old | new
        · exact crewed.began process stepping now old
        · rw [notes.began now new]
          exact (crewed.fits process stepping.running).past
    | starts call isStart => exact (notStart process call isStart).elim

/-- What has happened to the leases of a daemon: its own claim or renewal, the
commit of another daemon, or nothing. -/
theorem Crewed.leased_step {process other : Fin n}
    (punctual : Punctual cfg settings fleet (.step process))
    (taken : (system cfg).act fleet.world (.step process) = some world)
    (running : (fleet.daemon other).Running) {queueName : String}
    (known : queueName ∈ (fleet.daemon other).ownedQueues ∨
      queueName ∈ (fleet.daemon other).claimed ∨
      (∃ rest, (fleet.daemon other).phase = .claiming queueName rest) ∧
        (world.session other).state.written ≠ []) :
    Leased (settings other)
      (if other = process then fleet.stepped process
        else fleet.daemon other).since queueName world.db := by
  have before : queueName ∈ (fleet.daemon other).ownedQueues ∨
      queueName ∈ (fleet.daemon other).claimed ∨
      (∃ rest, (fleet.daemon other).phase = .claiming queueName rest) ∧
        (fleet.world.session other).state.written ≠ [] →
      Leased (settings other) (fleet.daemon other).since queueName
        fleet.world.db := by
    rintro (owned | claimed | ⟨⟨rest, phase⟩, wrote⟩)
    · exact (crewed.fits other running).leased queueName (Or.inl owned)
    · exact (crewed.fits other running).leased queueName (Or.inr claimed)
    · exact crewed.won other queueName rest phase wrote
  rcases (crewed.good sync injective).act_cases taken with
    ⟨committer, call, commits⟩ | quiet
  · cases commits.isStep
    obtain ⟨rest, isCommit⟩ := commits.isCommit
    by_cases same : other = process
    · subst same
      rw [if_pos rfl]
      have making := crewed.making other
      cases phase : (fleet.daemon other).phase with
      | absent => exact (running.1 phase).elim
      | releasing => exact (running.2 phase).elim
      | coordinating => simp [Making, phase, isCommit, Prog.idle] at making
      | renewing =>
          rw [stepped_renewal phase isCommit]
          apply crewed.leased_renewal commits phase
          rcases known with owned | claimed | ⟨⟨left, isClaiming⟩, _⟩
          · exact owned
          · rw [crewed.collected other (Or.inr phase)] at claimed
            cases claimed
          · rw [phase] at isClaiming
            cases isClaiming
      | claiming claimed left =>
          rw [stepped_eq (fun _ isRenewing => by
            rw [phase] at isRenewing
            cases isRenewing)]
          apply crewed.leased_claim sync injective commits phase
          by_cases wrote : (fleet.world.session other).state.pending = []
          · left
            apply before
            rcases known with owned | known | ⟨claiming, written⟩
            · exact Or.inl owned
            · exact Or.inr (Or.inl known)
            · refine Or.inr (Or.inr ⟨claiming, ?_⟩)
              rw [commits.committed] at written
              simpa [Local.committed, wrote] using written
          · rcases known with owned | known | ⟨⟨rest, isClaiming⟩, _⟩
            · exact Or.inl (before (Or.inl owned))
            · exact Or.inl (before (Or.inr (Or.inl known)))
            · rw [phase] at isClaiming
              cases isClaiming
              exact Or.inr ⟨rfl, wrote⟩
    · rw [if_neg same]
      apply crewed.leased_beside sync injective punctual commits same running
      apply before
      rw [commits.others other same] at known
      exact known
  · have sameRows := (drift_cases quiet.db).1
    have unwritten : (world.session other).state.written =
        (fleet.world.session other).state.written := by
      cases quiet.sessions other with
      | rests rests => exact rests.written
      | remarks call remarks _ _ _ _ noted _ => rw [noted]; rfl
      | starts call isStart => cases isStart
    rw [unwritten] at known
    obtain ⟨row, found, own, lasts⟩ := before known
    refine ⟨row, by rw [sameRows]; exact found, own, ?_⟩
    have same : (if other = process then fleet.stepped process
        else fleet.daemon other).since = (fleet.daemon other).since := by
      split
      · rename_i isProcess
        subst isProcess
        rw [stepped_eq]
        intro rest phase isCommit
        have making := crewed.making other
        simp only [Making, phase] at making
        have noCommit := quiet.committing
        simp [System.committing, isCommit, making.2.1] at noCommit
      · rfl
    rw [same]
    exact lasts

theorem Crewed.step {process : Fin n}
    (punctual : Punctual cfg settings fleet (.step process))
    (taken : (system cfg).act fleet.world (.step process) = some world) :
    Crewed cfg settings
      (Fleet.become { fleet with world } process (fleet.stepped process)) := by
  obtain ⟨samePhase, sameQueues, sameClaimed, sameBegun⟩ :=
    stepped_kept fleet process
  have isDaemon : ∀ other, (Fleet.become { fleet with world } process
      (fleet.stepped process)).daemon other =
        if other = process then fleet.stepped process
        else fleet.daemon other := by
    intro other
    simp only [Fleet.become, Function.update_apply]
  have phaseOf : ∀ other, (if other = process then fleet.stepped process
      else fleet.daemon other).phase = (fleet.daemon other).phase := by
    intro other
    split
    · rename_i same
      rw [same]
      exact samePhase
    · rfl
  have queuesOf : ∀ other, (if other = process then fleet.stepped process
      else fleet.daemon other).ownedQueues =
        (fleet.daemon other).ownedQueues := by
    intro other
    split
    · rename_i same
      rw [same]
      exact sameQueues
    · rfl
  have claimedOf : ∀ other, (if other = process then fleet.stepped process
      else fleet.daemon other).claimed = (fleet.daemon other).claimed := by
    intro other
    split
    · rename_i same
      rw [same]
      exact sameClaimed
    · rfl
  have begunOf : ∀ other, (if other = process then fleet.stepped process
      else fleet.daemon other).begun = (fleet.daemon other).begun := by
    intro other
    split
    · rename_i same
      rw [same]
      exact sameBegun
    · rfl
  have notStart : ∀ other call,
      (Action.step process : Action Write Call n) ≠ .start other call :=
    fun _ _ isStart => by cases isStart
  constructor
  · apply crewed.reaches _ taken
    constructor
    · intro other call isStart
      exact (notStart other call isStart).elim
    · intro optimistic committer call committing other different seen
        reclaiming
      have isProcess : committer = process := by
        simp only [System.committing] at committing
        split at committing
        · obtain ⟨_, _, same⟩ := Option.map_eq_some_iff.mp committing
          exact (congrArg Prod.fst same).symm
        · cases committing
      subst isProcess
      exact punctual.unreleased optimistic committer rfl call committing
        other different seen reclaiming
  · intro other
    rw [isDaemon]
    by_cases same : other = process
    · subst same
      rw [if_pos rfl]
      exact crewed.making_step sync injective taken
    · rw [if_neg same]
      have isSession : (Fleet.become { fleet with world } process
          (fleet.stepped process)).world.session other =
            fleet.world.session other := step_session_of_ne taken same
      rw [isSession]
      exact crewed.making other
  · intro other isRunning
    rw [isDaemon] at isRunning ⊢
    have running : (fleet.daemon other).Running := by
      simpa only [Daemon.Running, phaseOf] using isRunning
    have fits := crewed.fits other running
    constructor
    · rw [begunOf]
      split
      · rename_i same
        subst same
        unfold stepped
        split
        · exact le_refl _
        · exact fits.ordered
      · exact fits.ordered
    · rw [begunOf]
      exact le_trans fits.past (crewed.later sync injective taken)
    · intro queueName known
      rw [queuesOf, claimedOf] at known
      apply crewed.leased_step sync injective punctual taken running
      exact known.imp_right Or.inl
  · intro other
    rw [isDaemon, phaseOf, claimedOf]
    exact crewed.collected other
  · intro other stepping now began
    rw [isDaemon] at stepping ⊢
    rw [phaseOf] at stepping
    rw [begunOf]
    exact crewed.began_step sync injective taken notStart stepping began
  · intro other queueName rest phase wrote
    rw [isDaemon] at phase ⊢
    rw [phaseOf] at phase
    apply crewed.leased_step sync injective punctual taken
    · simp [Daemon.Running, phase]
    · exact Or.inr (Or.inr ⟨⟨rest, phase⟩, wrote⟩)

end Moves

theorem unreleased_start {process : Fin n} {call : Call}
    (belongs : Belongs (settings process).daemonId
      (settings process).leaseSecs call) :
    Unreleased cfg (fun process => (settings process).daemonId)
      (fun process => (settings process).leaseSecs) fleet.world
      (.start process call) := by
  constructor
  · intro other started isStart
    cases isStart
    exact belongs
  · intro _ committer started committing
    cases committing

theorem unreleased_still {action : Action Write Call n}
    (still : System.committing fleet.world action = none)
    (notStart : ∀ process call, action ≠ .start process call) :
    Unreleased cfg (fun process => (settings process).daemonId)
      (fun process => (settings process).leaseSecs) fleet.world action := by
  constructor
  · intro process call isStart
    exact (notStart process call isStart).elim
  · intro _ committer call committing
    rw [still] at committing
    cases committing

section Daemons

variable (crewed : Crewed cfg settings fleet)

include crewed

theorem Crewed.tick {elapsed : Nat}
    (taken : (system cfg).act fleet.world (.ambient (.tick elapsed)) =
      some world) :
    Crewed cfg settings { fleet with world } := by
  have reached := crewed.reaches
    (unreleased_still rfl (fun _ _ isStart => by cases isStart)) taken
  simp only [System.act] at taken
  split at taken
  · cases taken
    constructor
    · exact reached
    · exact crewed.making
    · intro process running
      have fits := crewed.fits process running
      constructor
      · exact fits.ordered
      · exact le_trans fits.past (Int.le_add_of_nonneg_right
          (Int.natCast_nonneg elapsed))
      · exact fits.leased
    · exact crewed.collected
    · exact crewed.began
    · exact crewed.won
  · cases taken

/-- A daemon that waits for no call changes its local data. -/
theorem Crewed.become {process : Fin n} {daemon : Daemon}
    (isIdle : (fleet.world.session process).prog.idle = true)
    (waits : daemon.phase = .absent ∨ daemon.phase = .coordinating)
    (fits : daemon.Running →
      Fits (settings process) daemon fleet.world.db)
    (collected : daemon.phase = .coordinating ∨ daemon.phase = .renewing →
      daemon.claimed = []) :
    Crewed cfg settings (fleet.become process daemon) := by
  have notStepping : ¬Stepping daemon.phase := by
    rcases waits with phase | phase
    · rw [phase]
      exact id
    · rw [phase]
      exact id
  constructor
  · exact crewed.reached
  · intro other
    by_cases same : other = process
    · subst same
      unfold Making
      rcases waits with phase | phase
      · simpa [Fleet.become, phase] using isIdle
      · simpa [Fleet.become, phase] using isIdle
    · simpa [Fleet.become, same] using crewed.making other
  · intro other
    by_cases same : other = process
    · subst same
      simpa [Fleet.become] using fits
    · simpa [Fleet.become, same] using crewed.fits other
  · intro other
    by_cases same : other = process
    · subst same
      simpa [Fleet.become] using collected
    · simpa [Fleet.become, same] using crewed.collected other
  · intro other stepping
    by_cases same : other = process
    · subst same
      simp only [Fleet.become, Function.update_self] at stepping
      exact (notStepping stepping).elim
    · simp only [Fleet.become, Function.update_of_ne same] at stepping ⊢
      exact crewed.began other stepping
  · intro other queueName rest phase
    by_cases same : other = process
    · subst same
      simp only [Fleet.become, Function.update_self] at phase
      rw [phase] at notStepping
      exact (notStepping trivial).elim
    · simp only [Fleet.become, Function.update_of_ne same] at phase ⊢
      exact crewed.won other queueName rest phase

/-- A daemon makes a call. -/
theorem Crewed.make {process : Fin n} {daemon : Daemon} {call : Call}
    (taken : fleet.make cfg process daemon call = some next)
    (making : Making cfg (settings process) daemon
      { call := some call, prog := (system cfg).body call })
    (belongs : Belongs (settings process).daemonId
      (settings process).leaseSecs call)
    (fits : daemon.Running →
      Fits (settings process) daemon fleet.world.db)
    (collected : daemon.phase = .coordinating ∨ daemon.phase = .renewing →
      daemon.claimed = []) :
    Crewed cfg settings next := by
  unfold Fleet.make at taken
  obtain ⟨world, started, isNext⟩ := Option.map_eq_some_iff.mp taken
  subst isNext
  have reached := crewed.reaches (unreleased_start belongs) started
  simp only [System.act] at started
  split at started
  · cases started
    constructor
    · exact reached
    · intro other
      by_cases same : other = process
      · subst same
        simpa [Fleet.become, State.replace] using making
      · simpa [Fleet.become, State.replace, same] using crewed.making other
    · intro other
      by_cases same : other = process
      · subst same
        simpa [Fleet.become, State.replace] using fits
      · simpa [Fleet.become, State.replace, same] using crewed.fits other
    · intro other
      by_cases same : other = process
      · subst same
        simpa [Fleet.become, State.replace] using collected
      · simpa [Fleet.become, State.replace, same]
          using crewed.collected other
    · intro other stepping now began
      by_cases same : other = process
      · subst same
        simp only [Fleet.become, State.replace, Function.update_self]
          at began
        cases began
      · simp only [Fleet.become, State.replace, Function.update_of_ne same]
          at stepping began ⊢
        exact crewed.began other stepping now began
    · intro other queueName rest phase wrote
      by_cases same : other = process
      · subst same
        simp only [Fleet.become, State.replace, Function.update_self]
          at wrote
        exact (wrote rfl).elim
      · simp only [Fleet.become, State.replace, Function.update_of_ne same]
          at phase wrote ⊢
        exact crewed.won other queueName rest phase wrote
  · cases started

theorem Crewed.claimRest {process : Fin n} {daemon : Daemon}
    {queues : List String}
    (isIdle : (fleet.world.session process).prog.idle = true)
    (fits : Fits (settings process) daemon fleet.world.db)
    (taken : fleet.claimRest cfg (settings process) process daemon queues =
      some next) : Crewed cfg settings next := by
  cases queues with
  | nil =>
      cases taken
      apply crewed.become isIdle (Or.inr rfl)
      · intro _
        refine ⟨fits.ordered, fits.past, ?_⟩
        rintro queueName (owned | claimed)
        · exact fits.leased queueName (List.mem_union_iff.mp owned)
        · cases claimed
      · exact fun _ => rfl
  | cons queueName rest =>
      apply crewed.make taken rfl
      · refine ⟨rfl, fun asked isAsked => ?_⟩
        cases isAsked
        rfl
      · exact fun _ => ⟨fits.ordered, fits.past, fits.leased⟩
      · rintro (phase | phase)
        · cases phase
        · cases phase

theorem Crewed.release {process : Fin n} {daemon : Daemon}
    (taken : fleet.release cfg (settings process) process daemon =
      some next) : Crewed cfg settings next := by
  apply crewed.make taken ⟨_, rfl⟩
  · refine ⟨rfl, fun asked isAsked => ?_⟩
    cases isAsked
  · exact fun running => (running.2 rfl).elim
  · exact fun _ => rfl

/-- The next lease step of a daemon that leads anything. -/
theorem Crewed.renew {process : Fin n}
    (phase : (fleet.daemon process).phase = .coordinating)
    (some_ : (fleet.daemon process).ownedQueues ≠ [])
    (taken : fleet.make cfg process
      { fleet.daemon process with
        phase := .renewing, begun := fleet.world.db.clock }
      (.renew (sorted (fleet.daemon process).ownedQueues)
        (settings process).daemonId (settings process).leaseSecs) =
      some next) : Crewed cfg settings next := by
  have fits := crewed.fits process (by simp [Daemon.Running, phase])
  apply crewed.make taken
  · exact ⟨some_, rfl, .begins rfl rfl rfl⟩
  · refine ⟨rfl, fun asked isAsked => ?_⟩
    cases isAsked
    rfl
  · exact fun _ =>
      ⟨le_trans fits.ordered fits.past, le_refl _, fits.leased⟩
  · exact fun _ => crewed.collected process (Or.inl phase)

/-- The next lease step of a daemon that leads nothing. -/
theorem Crewed.restart {process : Fin n}
    (phase : (fleet.daemon process).phase = .coordinating)
    (none_ : (fleet.daemon process).ownedQueues = []) :
    Fits (settings process)
      { fleet.daemon process with
        begun := fleet.world.db.clock, since := fleet.world.db.clock }
      fleet.world.db := by
  refine ⟨le_refl _, le_refl _, ?_⟩
  rintro queueName (owned | claimed)
  · have member : queueName ∈ (fleet.daemon process).ownedQueues := owned
    rw [none_] at member
    cases member
  · have member : queueName ∈ (fleet.daemon process).claimed := claimed
    rw [crewed.collected process (Or.inl phase)] at member
    cases member

theorem Crewed.crash {process : Fin n}
    (taken : (system cfg).act fleet.world (.crash process) = some world) :
    Crewed cfg settings (Fleet.become { fleet with world } process {}) := by
  have reached := crewed.reaches
    (unreleased_still rfl (fun _ _ isStart => by cases isStart)) taken
  cases taken
  constructor
  · exact reached
  · intro other
    by_cases same : other = process
    · subst same
      simp [Making, Fleet.become, State.replace, Prog.idle]
    · simpa [Fleet.become, State.replace, same] using crewed.making other
  · intro other running
    by_cases same : other = process
    · subst same
      simp [Fleet.become, Daemon.Running] at running
    · simp only [Fleet.become, State.replace, Function.update_of_ne same]
        at running ⊢
      exact crewed.fits other running
  · intro other
    by_cases same : other = process
    · subst same
      simp [Fleet.become]
    · simpa [Fleet.become, State.replace, same] using crewed.collected other
  · intro other stepping now began
    by_cases same : other = process
    · subst same
      simp [Fleet.become, Stepping] at stepping
    · simp only [Fleet.become, State.replace, Function.update_of_ne same]
        at stepping began ⊢
      exact crewed.began other stepping now began
  · intro other queueName rest phase wrote
    by_cases same : other = process
    · subst same
      simp [Fleet.become] at phase
    · simp only [Fleet.become, State.replace, Function.update_of_ne same]
        at phase wrote ⊢
      exact crewed.won other queueName rest phase wrote

end Daemons

section Moved

variable (crewed : Crewed cfg settings fleet)
variable (sync : cfg.backend ≠ .async)
variable (injective : Function.Injective fun process =>
  (settings process).daemonId)

include crewed sync injective

/-- A claim that reported success is one the daemon had committed. -/
theorem Crewed.fits_claimed {process : Fin n} {queueName : String}
    {rest : List String} {isClaimed : Bool}
    (phase : (fleet.daemon process).phase = .claiming queueName rest)
    (returned : (fleet.world.session process).prog =
      .done (.ok isClaimed)) :
    Fits (settings process) { fleet.daemon process with
      claimed := if isClaimed then
          (fleet.daemon process).claimed ++ [queueName]
        else (fleet.daemon process).claimed } fleet.world.db := by
  have fits := crewed.fits process (by simp [Daemon.Running, phase])
  cases isClaimed with
  | false => exact ⟨fits.ordered, fits.past, fits.leased⟩
  | true =>
      have making := crewed.making process
      simp only [Making, phase] at making
      have told : true = true ↔
          (fleet.world.session process).state.written ≠ [] :=
        (crewed.good sync injective).atReturn making returned
      refine ⟨fits.ordered, fits.past, ?_⟩
      rintro other (owned | claimed)
      · exact fits.leased other (Or.inl owned)
      · simp only [if_true, List.mem_append, List.mem_singleton] at claimed
        rcases claimed with earlier | new
        · exact fits.leased other (Or.inr earlier)
        · subst new
          exact crewed.won process other rest phase (told.mp rfl)

theorem Crewed.proceed {process : Fin n} {result : Return}
    (returned : (fleet.world.session process).prog = .done result)
    (taken : fleet.proceed cfg (settings process) process result =
      some next) : Crewed cfg settings next := by
  have isIdle : (fleet.world.session process).prog.idle = true := by
    rw [returned]
    rfl
  cases phase : (fleet.daemon process).phase with
  | absent => simp [Fleet.proceed, phase] at taken
  | coordinating => simp [Fleet.proceed, phase] at taken
  | releasing =>
      simp only [Fleet.proceed, phase] at taken
      cases taken
      exact crewed.become isIdle (Or.inl rfl)
        (fun running => (running.1 rfl).elim) fun _ => rfl
  | renewing =>
      simp only [Fleet.proceed, phase] at taken
      cases result with
      | ok renewed =>
          exact crewed.claimRest isIdle
            (crewed.fits process (by simp [Daemon.Running, phase])) taken
      | error exc => exact crewed.release taken
  | claiming queueName rest =>
      simp only [Fleet.proceed, phase] at taken
      cases result with
      | ok isClaimed =>
          exact crewed.claimRest isIdle
            (crewed.fits_claimed sync injective phase returned) taken
      | error exc => exact crewed.release taken

/-- Every move keeps the fleet crewed. -/
theorem Crewed.moved {move : Move n}
    (punctual : Punctual cfg settings fleet move)
    (taken : fleet.moved cfg settings move = some next) :
    Crewed cfg settings next := by
  cases move with
  | launch process =>
      simp only [Fleet.moved] at taken
      split at taken
      · rename_i phase
        have isIdle := crewed.making process
        simp only [Making, phase] at isIdle
        apply crewed.claimRest isIdle _ taken
        refine ⟨le_refl _, le_refl _, ?_⟩
        rintro queueName (owned | claimed)
        · cases owned
        · cases claimed
      · cases taken
  | cycle process =>
      simp only [Fleet.moved] at taken
      split at taken
      · rename_i phase
        have isIdle := crewed.making process
        simp only [Making, phase] at isIdle
        split at taken
        · rename_i none_
          exact crewed.claimRest isIdle (crewed.restart phase none_) taken
        · rename_i some_
          exact crewed.renew phase some_ taken
      · cases taken
  | proceed process =>
      simp only [Fleet.moved] at taken
      split at taken
      · rename_i result returned
        exact crewed.proceed sync injective returned taken
      · cases taken
  | shutDown process =>
      simp only [Fleet.moved] at taken
      split at taken
      · exact crewed.release taken
      · cases taken
  | step process =>
      simp only [Fleet.moved] at taken
      obtain ⟨world, stepped, isNext⟩ := Option.map_eq_some_iff.mp taken
      subst isNext
      exact crewed.step sync injective punctual stepped
  | crash process =>
      simp only [Fleet.moved] at taken
      obtain ⟨world, stepped, isNext⟩ := Option.map_eq_some_iff.mp taken
      subst isNext
      exact crewed.crash stepped
  | tick elapsed =>
      simp only [Fleet.moved] at taken
      obtain ⟨world, stepped, isNext⟩ := Option.map_eq_some_iff.mp taken
      subst isNext
      exact crewed.tick stepped

end Moved

theorem crewed_initial (cfg : Config) (settings : Fin n → Settings)
    (clock : Time) : Crewed cfg settings (.initial clock) where
  reached := ⟨clock, .refl⟩
  making := fun _ => rfl
  fits := fun _ running => (running.1 rfl).elim
  collected := fun _ _ => rfl
  began := fun _ stepping => stepping.elim
  won := fun _ _ _ phase => by cases phase

theorem crewed_reached (sync : cfg.backend ≠ .async)
    (injective : Function.Injective fun process =>
      (settings process).daemonId)
    (reached : Reached cfg settings (Punctual cfg settings) fleet) :
    Crewed cfg settings fleet := by
  induction reached with
  | initial clock => exact crewed_initial cfg settings clock
  | move _ punctual taken ih =>
      exact ih.moved sync injective punctual taken

end Fleet

end Sqlery.Lease
