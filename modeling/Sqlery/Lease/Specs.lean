import Sqlery.Lease.Leases
import Sqlery.ReadCommitted.Steps

/-!
# What the lease calls commit

Every transaction writes the rows it may write: a claim inserts a row that is
not there or writes one that is its own or has expired, a renewal and a release
touch rows of their daemon.  Two kinds of claim know less.  The re-claim on
SQLite knows only that the row still has the version it read, and the
asynchronous claim only what it read.
-/

namespace Sqlery.Lease

open ReadCommitted
open Script

abbrev Loc := Local Write Lock

/-- The time the call took for now. -/
def Began (noted : List Write) (now : Time) : Prop :=
  .remark (.began now) ∈ noted ∧
    ∀ other, .remark (.began other) ∈ noted → other = now

/-- The row gives the claimer what it asks for. -/
structure Grants (claim : Claim) (now : Time) (lease : DaemonLease) :
    Prop where
  queueName : lease.queueName = claim.queueName
  daemonId : lease.daemonId = claim.daemonId
  acquiredAt : lease.acquiredAt = now
  expiresAt : lease.expiresAt = now + seconds claim.leaseSecs

/-- The backend claims by compare-and-set. -/
def Config.Optimistic (cfg : Config) : Prop :=
  cfg.backend = .standalone ∧ cfg.dialect = .sqlite

inductive Legal (cfg : Config) (call : Call) (db : Db) (noted : List Write) :
    Write → Prop where
  | inserts (claim : Claim) (now : Time) (lease : DaemonLease) :
      call = .claim claim → Began noted now → Grants claim now lease →
      db.leases.get claim.queueName = none →
      Legal cfg call db noted (.insertLease lease)
  | takes (claim : Claim) (now : Time) (lease old : DaemonLease) :
      call = .claim claim → Began noted now → Grants claim now lease →
      db.leases.get claim.queueName = some old →
      old.daemonId = claim.daemonId ∨ old.expiresAt < now →
      (cfg.backend = .standalone → lease.version = old.version + 1) →
      Legal cfg call db noted (.setLease lease)
  /-- The row has the version of the claimer's own row. -/
  | again (claim : Claim) (now : Time) (lease old seen : DaemonLease) :
      call = .claim claim → Began noted now → Grants claim now lease →
      db.leases.get claim.queueName = some old →
      cfg.Optimistic → .remark (.found seen) ∈ noted →
      seen.queueName = claim.queueName → seen.daemonId = claim.daemonId →
      old.version = seen.version → lease.version = old.version + 1 →
      Legal cfg call db noted (.setLease lease)
  /-- The row that was read was the claimer's own or had expired. -/
  | rewrites (claim : Claim) (now : Time) (changed old seen : DaemonLease) :
      call = .claim claim → Began noted now → Grants claim now changed →
      db.leases.get claim.queueName = some old →
      cfg.backend = .async → .remark (.found seen) ∈ noted →
      seen.queueName = claim.queueName →
      seen.daemonId = claim.daemonId ∨ seen.expiresAt < now →
      Legal cfg call db noted (.setLease (flushChanges seen changed old))
  | renews (queues : List String) (daemonId : String) (leaseSecs : Int)
      (now : Time) (old : DaemonLease) :
      call = .renew queues daemonId leaseSecs → Began noted now →
      db.leases.get old.queueName = some old → old.daemonId = daemonId →
      Legal cfg call db noted
        (.setLease { old with expiresAt := now + seconds leaseSecs })
  | releases (queues : List String) (daemonId : String)
      (old : DaemonLease) :
      call = .release queues daemonId →
      db.leases.get old.queueName = some old → old.daemonId = daemonId →
      Legal cfg call db noted (.deleteLease old.queueName)

structure Lawful (cfg : Config) (call : Call) (db : Db) (state : Loc) :
    Prop where
  first : state.written = []
  once : (state.pending.filterMap Write.queueName).Nodup
  legal : ∀ write ∈ state.pending, Legal cfg call db state.noted write

/-- What a remark says was true when it was made. -/
structure Noted (db : Db) (remarks : List Write) : Prop where
  began : ∀ now, .remark (.began now) ∈ remarks → now = db.clock
  found : ∀ lease, .remark (.found lease) ∈ remarks →
    db.leases.get lease.queueName = some lease

def leases (cfg : Config) : Setting Db Write Lock Call Return where
  sys := system cfg
  inv := fun _ => True
  promise call := {
    commits := Lawful cfg call
    instant := fun _ _ writes => writes = []
    notes := fun db _ remarks => Noted db remarks }
  commit_inv := fun _ _ _ _ _ _ => trivial
  instant_inv := fun _ _ _ _ _ _ => trivial
  ambient_inv := fun _ _ _ _ => trivial

/-! ## Rows and their locks -/

section Rows

variable {cfg : Config} {call : Call} {db next : Db} {noted : List Write}

def after (writes : List Write) (db : Db) : Db :=
  (schema .postgresql).applyAll writes db

theorem get_apply_of_ne {write : Write} {queue : String}
    (elsewhere : write.queueName ≠ some queue) (db : Db) :
    (write.apply db).leases.get queue = db.leases.get queue := by
  have other : ∀ {name : String}, some name ≠ some queue → queue ≠ name :=
    fun different same => different (same ▸ rfl)
  cases write with
  | insertLease lease => exact Table.get_insert_of_ne (other elsewhere)
  | setLease lease => exact Table.get_set_of_ne (other elsewhere)
  | deleteLease name => exact Table.get_erase_of_ne (other elsewhere)
  | tick elapsed => rfl
  | remark remark => rfl

/-- A row no write is about stays as it is. -/
theorem get_after_of_ne {writes : List Write} {queue : String}
    (elsewhere : ∀ write ∈ writes, write.queueName ≠ some queue) (db : Db) :
    (after writes db).leases.get queue = db.leases.get queue := by
  induction writes generalizing db with
  | nil => rfl
  | cons write writes ih =>
      have rest : ∀ later ∈ writes, later.queueName ≠ some queue :=
        fun later member => elsewhere later (List.mem_cons_of_mem _ member)
      calc (after (write :: writes) db).leases.get queue
          = (write.apply db).leases.get queue := ih rest _
        _ = db.leases.get queue :=
            get_apply_of_ne (elsewhere write List.mem_cons_self) db

theorem Legal.sameRow {write : Write} {queue : String}
    (legal : Legal cfg call db noted write)
    (isQueue : write.queueName = some queue)
    (same : next.leases.get queue = db.leases.get queue) :
    Legal cfg call next noted write := by
  cases legal with
  | inserts claim now lease isCall began grants absent =>
      have keyed : claim.queueName = queue :=
        grants.queueName.symm.trans (Option.some.inj isQueue)
      exact .inserts claim now lease isCall began grants
        (by rw [keyed, same, ← keyed, absent])
  | takes claim now lease old isCall began grants found may newer =>
      have keyed : claim.queueName = queue :=
        grants.queueName.symm.trans (Option.some.inj isQueue)
      exact .takes claim now lease old isCall began grants
        (by rw [keyed, same, ← keyed, found]) may newer
  | again claim now lease old seen isCall began grants found isBackend noted
      sameQueue own version newer =>
      have keyed : claim.queueName = queue :=
        grants.queueName.symm.trans (Option.some.inj isQueue)
      exact .again claim now lease old seen isCall began grants
        (by rw [keyed, same, ← keyed, found]) isBackend noted sameQueue own
        version newer
  | rewrites claim now changed old seen isCall began grants found isBackend
      noted sameQueue may =>
      have keyed : claim.queueName = queue :=
        (Table.key_of_get found).symm.trans (Option.some.inj isQueue)
      exact .rewrites claim now changed old seen isCall began grants
        (by rw [keyed, same, ← keyed, found]) isBackend noted sameQueue may
  | renews queues daemonId leaseSecs now old isCall began found own =>
      have keyed : old.queueName = queue := Option.some.inj isQueue
      exact .renews queues daemonId leaseSecs now old isCall began
        (by rw [keyed, same, ← keyed, found]) own
  | releases queues daemonId old isCall found own =>
      have keyed : old.queueName = queue := Option.some.inj isQueue
      exact .releases queues daemonId old isCall
        (by rw [keyed, same, ← keyed, found]) own

/-- A legal write is about a row. -/
theorem Legal.queueName_ne_none {write : Write}
    (legal : Legal cfg call db noted write) : write.queueName ≠ none := by
  cases legal <;> simp [Write.queueName]

/-- A claim writes the row of its queue. -/
theorem Legal.claimed {request : Claim} {write : Write}
    (legal : Legal cfg (.claim request) db noted write) :
    write.queueName = some request.queueName := by
  cases legal with
  | inserts claim now lease isCall began grants absent =>
      cases isCall
      exact congrArg some grants.queueName
  | takes claim now lease old isCall began grants found may newer =>
      cases isCall
      exact congrArg some grants.queueName
  | again claim now lease old seen isCall began grants found isBackend noted
      sameQueue own version newer =>
      cases isCall
      exact congrArg some grants.queueName
  | rewrites claim now changed old seen isCall began grants found isBackend
      noted sameQueue may =>
      cases isCall
      have keyed : old.queueName = request.queueName := Table.key_of_get found
      exact congrArg some keyed
  | renews queues daemonId leaseSecs now old isCall began found own =>
      cases isCall
  | releases queues daemonId old isCall found own => cases isCall

end Rows

/-! ## Specifications -/

section Specifications

variable {cfg : Config} {call : Call}

theorem row_locked (queue : String) (row : Option DaemonLease) :
    (leases cfg).LockedBy (lockOf cfg.dialect queue)
      fun db => db.leases.get queue = row where
  excludes := by simp [leases, system, schema]
  writes := by
    intro write db free holds
    refine Eq.trans (get_apply_of_ne ?_ db) holds
    intro isQueue
    exact free (by simp [leases, system, schema, isQueue])
  instant := by
    rintro _ db _ _ _ rfl holds
    exact holds
  ambient := by
    intro write db isAmbient holds
    refine Eq.trans (get_apply_of_ne ?_ db) holds
    cases write with
    | tick elapsed => simp [Write.queueName]
    | _ => cases isAmbient

theorem lawful_stable : (leases cfg).Stable (Lawful cfg call) := by
  intro first second state changed inv guarded lawful
  refine ⟨lawful.first, lawful.once, ?_⟩
  intro write member
  have legal := lawful.legal write member
  obtain ⟨queue, isQueue⟩ :=
    Option.ne_none_iff_exists'.mp legal.queueName_ne_none
  have held : lockOf cfg.dialect queue ∈ state.held :=
    guarded write member _ (by simp [leases, system, schema, isQueue])
  have same := Setting.stable_locked
    (row_locked queue (first.leases.get queue)) first second state changed
    inv guarded ⟨held, rfl⟩
  exact legal.sameRow isQueue same.2

theorem local_stable {known : Loc → Prop} :
    (leases cfg).Stable fun _ state => known state :=
  fun _ _ _ _ _ _ holds => holds

/-- The call has written nothing yet. -/
structure Idle (noted : List Write) (state : Loc) : Prop where
  pending : state.pending = []
  written : state.written = []
  noted : state.noted = noted

/-- The transaction has made so many legal writes. -/
structure Prepared (cfg : Config) (call : Call) (noted : List Write)
    (count : Nat) (db : Db) (state : Loc) : Prop where
  lawful : Lawful cfg call db state
  written : state.written = []
  noted : state.noted = noted
  count : state.pending.length = count

theorem prepared_stable (noted : List Write) (count : Nat) :
    (leases cfg).Stable (Prepared cfg call noted count) := by
  intro first second state changed inv guarded holds
  exact ⟨lawful_stable first second state changed inv guarded holds.lawful,
    holds.written, holds.noted, holds.count⟩

/-- The call has written something exactly if it says so. -/
structure Finished (result : Bool) (state : Loc) : Prop where
  pending : state.pending = []
  told : result = true ↔ state.written ≠ []

/-- The call was cut short. -/
def Failed (_ : Db) (state : Loc) : Prop := state.written = []

theorem failed_stable : (leases cfg).Stable Failed :=
  fun _ _ _ _ _ _ holds => holds

theorem view_of_idle {noted : List Write} {state : Loc}
    (idle : Idle noted state) (db : Db) :
    (leases cfg).sys.view db state = db := by
  simp [System.view, idle.pending]

/-- A statement that is about one queue finds at most its row. -/
def Single (admits : DaemonLease → Bool) (count : Nat) : Prop :=
  ∀ queue, (∀ row, admits row = true → row.queueName = queue) → count ≤ 1

theorem single_hits (admits : DaemonLease → Bool) (snapshot current : Db) :
    Single admits (hits Db.leases admits snapshot current).length := by
  intro queue about
  have names : ∀ name ∈ (hits Db.leases admits snapshot current).map
      DaemonLease.queueName, name = queue := by
    intro name member
    obtain ⟨row, isHit, rfl⟩ := List.mem_map.mp member
    exact about row (mem_hits Db.leases isHit).2
  have same := List.eq_replicate_of_mem names
  have nodup := hits_nodup Db.leases admits snapshot current
  rw [same, List.nodup_replicate, List.length_map] at nodup
  exact nodup

/-- A statement that writes one legal write for every row it finds. -/
theorem modify_spec {noted : List Write} {known : Db → Loc → Prop}
    {admits : DaemonLease → Bool} {write : DaemonLease → Write}
    (stable : (leases cfg).Stable known)
    (keyed : ∀ row, admits row = true →
      (write row).queueName = some row.queueName)
    (legal : ∀ db state row, known db state →
      db.leases.get row.queueName = some row → admits row = true →
      Legal cfg call db noted (write row)) :
    (leases cfg).Spec call
      (fun db state => Idle noted state ∧ known db state)
      (exec (modifyRows Db.leases (writerOf cfg.dialect) admits write) :
        Sql (List DaemonLease))
      (fun rows db state => Single admits rows.length ∧
        Prepared cfg call noted rows.length db state) Failed := by
  apply Setting.Spec.exec
  · exact Setting.stable_and local_stable stable
  · exact fun rows =>
      Setting.stable_and local_stable (prepared_stable noted rows.length)
  · rintro snapshot current state others effect _ _ _ _ _ ⟨idle, holds⟩ ran
    rw [view_of_idle idle, view_of_idle idle] at ran
    simp only [modifyRows, Option.some.injEq] at ran
    subst ran
    refine ⟨rfl, single_hits admits _ current, ?_, idle.written, idle.noted,
      by simp [Local.extend, idle.pending]⟩
    constructor
    · exact idle.written
    · simp only [Local.extend, idle.pending, List.nil_append]
      exact hits_writes_nodup Db.leases keyed _ current
    · intro made member
      simp only [Local.extend, idle.pending, List.nil_append,
        List.mem_map] at member
      obtain ⟨row, isHit, rfl⟩ := member
      obtain ⟨found, admitted⟩ := mem_hits Db.leases isHit
      simp only [Local.extend, idle.noted]
      exact legal current state row holds found admitted

theorem updateLeases_spec {noted : List Write} {known : Db → Loc → Prop}
    {admits : DaemonLease → Bool} {change : DaemonLease → DaemonLease}
    (stable : (leases cfg).Stable known)
    (keyed : ∀ row, admits row = true →
      (change row).queueName = row.queueName)
    (legal : ∀ db state row, known db state →
      db.leases.get row.queueName = some row → admits row = true →
      Legal cfg call db noted (.setLease (change row))) :
    (leases cfg).Spec call
      (fun db state => Idle noted state ∧ known db state)
      (updateLeases cfg admits change)
      (fun count db state => Single admits count ∧
        Prepared cfg call noted count db state) Failed := by
  apply Setting.Spec.bind failed_stable
  · apply modify_spec stable _ legal
    intro row admitted
    simp [Write.queueName, keyed row admitted]
  · intro rows
    exact Setting.Spec.pure
      (Setting.stable_and local_stable (prepared_stable _ _))
      fun _ _ _ _ holds => holds

/-- An update whose condition says all that is needed. -/
theorem updateLeases_idle {noted : List Write} {admits : DaemonLease → Bool}
    {change : DaemonLease → DaemonLease}
    (keyed : ∀ row, admits row = true →
      (change row).queueName = row.queueName)
    (legal : ∀ db row, db.leases.get row.queueName = some row →
      admits row = true →
      Legal cfg call db noted (.setLease (change row))) :
    (leases cfg).Spec call (fun _ state => Idle noted state)
      (updateLeases cfg admits change)
      (fun count db state => Single admits count ∧
        Prepared cfg call noted count db state) Failed := by
  have spec : (leases cfg).Spec call
      (fun _ state => Idle noted state ∧ True) (updateLeases cfg admits change)
      (fun count db state => Single admits count ∧
        Prepared cfg call noted count db state) Failed :=
    updateLeases_spec local_stable keyed fun db _ row _ => legal db row
  exact spec.weaken fun _ _ _ idle => ⟨idle, trivial⟩

theorem commit_spec (noted : List Write) (count : Nat) :
    (leases cfg).Spec call (Prepared cfg call noted count)
      (commit : Sql Unit)
      (fun _ _ state => Finished (0 < count) state) Failed := by
  apply Setting.Spec.commit (prepared_stable noted count) local_stable
  intro db state _ _ holds
  refine ⟨holds.lawful, rfl, ?_⟩
  have count := holds.count
  simp only [Local.committed, holds.written, List.nil_append,
    decide_eq_true_eq, ne_eq, ← List.length_eq_zero_iff]
  omega

/-- What a call has noted that has read the clock, and perhaps the row. -/
def readings (now : Time) (seen : Option DaemonLease) : List Write :=
  .remark (.began now) ::
    seen.toList.map fun lease => .remark (.found lease)

theorem began_readings (now : Time) (seen : Option DaemonLease) :
    Began (readings now seen) now := by
  constructor
  · exact List.mem_cons_self
  · intro other member
    simpa [readings] using member

theorem currentTime_spec :
    (leases cfg).Spec call (fun _ state => state = {}) currentTime
      (fun now _ state => Idle (readings now none) state) Failed := by
  apply Setting.Spec.observe local_stable fun _ => local_stable
  rintro db state _ _ rfl
  refine ⟨⟨?_, ?_⟩, rfl, rfl, rfl⟩
  · intro now member
    simpa [System.view] using member
  · intro lease member
    simp at member

theorem readLease_spec (now : Time) (queue : String) :
    (leases cfg).Spec call (fun _ state => Idle (readings now none) state)
      (readLease queue)
      (fun seen _ state =>
        (∀ lease, seen = some lease → lease.queueName = queue) ∧
          Idle (readings now seen) state) Failed := by
  apply Setting.Spec.observe local_stable fun _ => local_stable
  intro db state _ _ idle
  rw [view_of_idle idle]
  refine ⟨⟨?_, ?_⟩, ?_, idle.pending, idle.written, ?_⟩
  · intro now member
    simp at member
  · intro lease member
    simp only [List.mem_map, Option.mem_toList] at member
    obtain ⟨found, isFound, isLease⟩ := member
    cases isLease
    rw [Table.key_of_get isFound]
    exact isFound
  · intro lease isFound
    exact Table.key_of_get isFound
  · simp [Local.note, idle.noted, readings]

/-- The insert of a claim that sees no row. -/
theorem insertLease_spec {claim : Claim} {lease : DaemonLease} {now : Time}
    {noted : List Write} (isCall : call = .claim claim)
    (began : Began noted now) (grants : Grants claim now lease) :
    (leases cfg).Spec call (fun _ state => Idle noted state)
      (insertLease cfg lease)
      (fun inserted => Prepared cfg call noted (if inserted then 1 else 0))
      Failed := by
  apply Setting.Spec.exec local_stable fun _ => prepared_stable _ _
  intro snapshot current state others effect _ _ _ _ _ idle ran
  rw [view_of_idle idle, view_of_idle idle] at ran
  simp only [insertNew] at ran
  split at ran
  · cases ran
  · split at ran
    · cases ran
      refine ⟨rfl, ⟨idle.written, ?_, ?_⟩, idle.written, idle.noted, ?_⟩
      · simp [Local.extend, idle.pending]
      · simp [Local.extend, idle.pending]
      · simp [Local.extend, idle.pending]
    · rename_i absent
      cases ran
      refine ⟨rfl, ⟨idle.written, ?_, ?_⟩, idle.written, idle.noted, ?_⟩
      · simp [Local.extend, idle.pending, Write.queueName]
      · intro write member
        simp only [Local.extend, idle.pending, List.nil_append,
          List.mem_singleton] at member
        subst member
        refine .inserts claim now lease isCall (idle.noted ▸ began) grants ?_
        rw [← grants.queueName]
        simpa using absent
      · simp [Local.extend, idle.pending]

/-- What is known after the lock of the row. -/
def Locked (cfg : Config) (queue : String) (found : Option DaemonLease)
    (db : Db) (state : Loc) : Prop :=
  ∀ lease, found = some lease → lockOf cfg.dialect queue ∈ state.held ∧
    db.leases.get queue = some lease

theorem locked_stable (queue : String) (found : Option DaemonLease) :
    (leases cfg).Stable (Locked cfg queue found) := by
  intro first second state changed inv guarded holds lease isFound
  exact Setting.stable_locked (row_locked queue (some lease)) first second
    state changed inv guarded (holds lease isFound)

theorem lockLease_spec (isPostgresql : cfg.dialect = .postgresql)
    (noted : List Write) (queue : String) :
    (leases cfg).Spec call (fun _ state => Idle noted state)
      (lockLease queue)
      (fun found db state => Idle noted state ∧
        Locked cfg queue found db state) Failed := by
  have stable : ∀ found : Option DaemonLease, (leases cfg).Stable
      fun db state => Idle noted state ∧ Locked cfg queue found db state :=
    fun found => Setting.stable_and local_stable (locked_stable queue found)
  have locks : (leases cfg).Spec call (fun _ state => Idle noted state)
      (exec (lockRows Db.leases (fun lease => .lease lease.queueName)
        fun lease => lease.queueName = queue) : Sql (List DaemonLease))
      (fun rows db state => Idle noted state ∧
        Locked cfg queue rows.head? db state) Failed := by
    apply Setting.Spec.exec local_stable fun _ => stable _
    intro snapshot current state others effect _ _ _ _ _ idle ran
    rw [view_of_idle idle, view_of_idle idle] at ran
    simp only [lockRows, Option.some.injEq] at ran
    subst ran
    refine ⟨rfl, ⟨?_, idle.written, idle.noted⟩, ?_⟩
    · simp [Local.extend, idle.pending]
    · intro lease isFound
      have member := List.mem_of_mem_head? isFound
      obtain ⟨found, admitted⟩ := mem_hits Db.leases member
      have keyed : lease.queueName = queue := by simpa using admitted
      subst keyed
      refine ⟨?_, found⟩
      simp only [Local.extend, System.acquired, lockOf, isPostgresql]
      apply List.mem_append_right
      apply List.mem_append_left
      exact List.mem_map.mpr ⟨lease, member, rfl⟩
  apply Setting.Spec.bind failed_stable locks
  intro rows
  exact Setting.Spec.pure (stable _) fun _ _ _ _ holds => holds

/-! ## The calls -/

theorem finish_spec (noted : List Write) (count : Nat) :
    (leases cfg).Spec call (Prepared cfg call noted count)
      (do commit; pure (decide (0 < count)) : Sql Bool)
      (fun result _ state => Finished result state) Failed := by
  apply Setting.Spec.bind failed_stable (commit_spec noted count)
  intro _
  exact Setting.Spec.pure local_stable fun _ _ _ _ holds => holds

theorem lost_spec {noted : List Write} :
    (leases cfg).Spec call (fun _ state => Idle noted state)
      (pure false : Sql Bool)
      (fun result _ state => Finished result state) Failed := by
  apply Setting.Spec.pure local_stable
  intro db state _ _ idle
  exact ⟨idle.pending, by simp [idle.written]⟩

theorem insertOrLose_spec {claim : Claim} {lease : DaemonLease} {now : Time}
    {noted : List Write} (isCall : call = .claim claim)
    (began : Began noted now) (grants : Grants claim now lease) :
    (leases cfg).Spec call (fun _ state => Idle noted state)
      (insertOrLose cfg lease)
      (fun result _ state => Finished result state) Failed := by
  apply Setting.Spec.bind failed_stable (insertLease_spec isCall began grants)
  intro inserted
  cases inserted with
  | true => exact finish_spec noted 1
  | false =>
      have undo : (leases cfg).Spec call (Prepared cfg call noted 0)
          (rollback : Sql Unit)
          (fun _ _ state => Idle noted state) Failed := by
        apply Setting.Spec.rollback (prepared_stable noted 0) local_stable
        intro db state _ holds
        exact ⟨rfl, holds.written, holds.noted⟩
      exact Setting.Spec.bind failed_stable undo fun _ => lost_spec

theorem grants_lease (claim : Claim) (now : Time) :
    Grants claim now (claim.lease now) := ⟨rfl, rfl, rfl, rfl⟩

theorem grants_takeOver (claim : Claim) (now : Time) (lease : DaemonLease) :
    Grants claim now (claim.takeOver now lease) := ⟨rfl, rfl, rfl, rfl⟩

/-- A row that is flushed as it was loaded gets the changed object. -/
theorem flushChanges_self {loaded changed : DaemonLease}
    (sameQueue : changed.queueName = loaded.queueName) :
    flushChanges loaded changed loaded = changed := by
  cases changed
  simp only [flushChanges] at sameQueue ⊢
  simp only [DaemonLease.mk.injEq, ite_eq_right_iff]
  simp only [sameQueue, true_and]
  exact ⟨Eq.symm, Eq.symm, Eq.symm, Eq.symm, Eq.symm, Eq.symm⟩

theorem flush_spec {noted : List Write} {known : Db → Loc → Prop}
    {loaded changed : DaemonLease} (stable : (leases cfg).Stable known)
    (legal : ∀ db state row, known db state →
      db.leases.get row.queueName = some row →
      row.queueName = loaded.queueName →
      Legal cfg call db noted
        (.setLease (flushChanges loaded changed row))) :
    (leases cfg).Spec call
      (fun db state => Idle noted state ∧ known db state)
      (flush cfg loaded changed) (fun _ => Prepared cfg call noted 1)
      Failed := by
  apply Setting.Spec.bind failed_stable
  · apply updateLeases_spec stable
    · intro row _
      rfl
    · intro db state row holds found isQueue
      exact legal db state row holds found (by simpa using isQueue)
  · intro updated
    apply Setting.Spec.fact
    intro _
    by_cases one : updated = 1
    · simp only [one, if_true]
      exact Setting.Spec.pure (prepared_stable noted 1)
        fun _ _ _ _ holds => holds
    · simp only [one, if_false]
      exact Setting.Spec.raise (prepared_stable noted _)
        fun _ _ _ holds => holds.written

/-- The row is the claimer's own or has expired. -/
def MayTake (claim : Claim) (now : Time) (lease : DaemonLease) : Prop :=
  lease.daemonId = claim.daemonId ∨ lease.expiresAt < now

theorem claimSkipLocked_spec {claim : Claim} (isCall : call = .claim claim)
    (isPostgresql : cfg.dialect = .postgresql) :
    (leases cfg).Spec call (fun _ state => state = {})
      (claimSkipLocked cfg claim)
      (fun result _ state => Finished result state) Failed := by
  apply Setting.Spec.bind failed_stable currentTime_spec
  intro now
  apply Setting.Spec.bind failed_stable
    (lockLease_spec isPostgresql _ claim.queueName)
  intro found
  cases found with
  | none =>
      exact (insertOrLose_spec isCall (began_readings now none)
        (grants_lease claim now)).weaken fun _ _ _ holds => holds.1
  | some existing =>
      by_cases may : MayTake claim now existing
      · have taken : (decide (existing.expiresAt < now) ||
            decide (existing.daemonId = claim.daemonId)) = true := by
          simpa [MayTake, or_comm] using may
        simp only [taken, if_true]
        apply Setting.Spec.bind failed_stable
        · apply flush_spec (locked_stable _ _)
          intro db state row isLocked found isQueue
          obtain ⟨_, stored⟩ := isLocked existing rfl
          have keyed : existing.queueName = claim.queueName :=
            Table.key_of_get stored
          rw [isQueue, keyed, stored] at found
          cases found
          have flushed : flushChanges existing (claim.takeOver now existing)
              existing = claim.takeOver now existing :=
            flushChanges_self keyed.symm
          rw [flushed]
          exact .takes claim now _ existing isCall (began_readings now none)
            (grants_takeOver claim now existing) stored may fun _ => rfl
        · intro _
          exact finish_spec _ 1
      · have kept : (decide (existing.expiresAt < now) ||
            decide (existing.daemonId = claim.daemonId)) = false := by
          simpa [MayTake, and_comm] using may
        simp only [kept, Bool.false_eq_true, if_false]
        exact lost_spec.weaken fun _ _ _ holds => holds.1

theorem compareAndSet_spec {claim : Claim} {now : Time}
    {noted : List Write} {admits : DaemonLease → Bool}
    (keyed : ∀ row, admits row = true → row.queueName = claim.queueName)
    (legal : ∀ db row, db.leases.get claim.queueName = some row →
      admits row = true →
      Legal cfg call db noted (.setLease (claim.takeOver now row))) :
    (leases cfg).Spec call (fun _ state => Idle noted state)
      (compareAndSet cfg claim now admits)
      (fun result _ state => Finished result state) Failed := by
  apply Setting.Spec.bind failed_stable
  · apply updateLeases_idle
    · intro row admitted
      exact (keyed row admitted).symm
    · intro db row found admitted
      rw [keyed row admitted] at found
      exact legal db row found admitted
  · intro count
    apply Setting.Spec.fact
    intro single
    have same : decide (count = 1) = decide (0 < count) := by
      have bound := single claim.queueName keyed
      apply decide_eq_decide.mpr
      omega
    rw [same]
    exact finish_spec noted count

theorem claimOptimistic_spec {claim : Claim} (isCall : call = .claim claim)
    (optimistic : cfg.Optimistic) :
    (leases cfg).Spec call (fun _ state => state = {})
      (claimOptimistic cfg claim)
      (fun result _ state => Finished result state) Failed := by
  apply Setting.Spec.bind failed_stable currentTime_spec
  intro now
  apply Setting.Spec.bind failed_stable (readLease_spec now claim.queueName)
  intro found
  apply Setting.Spec.fact
  intro sameQueue
  cases found with
  | none =>
      exact insertOrLose_spec isCall (began_readings now none)
        (grants_lease claim now)
  | some existing =>
      by_cases own : existing.daemonId = claim.daemonId
      · simp only [own, if_true]
        apply compareAndSet_spec
        · intro row admitted
          exact of_decide_eq_true (Bool.and_eq_true_iff.mp admitted).1
        · -- nothing but the version says that the row is still the same
          intro db row stored admitted
          have version :=
            of_decide_eq_true (Bool.and_eq_true_iff.mp admitted).2
          exact .again claim now _ row existing isCall
            (began_readings now (some existing))
            (grants_takeOver claim now row) stored optimistic
            (by simp [readings]) (sameQueue existing rfl) own version rfl
      · simp only [own, if_false]
        by_cases expired : existing.expiresAt < now
        · simp only [expired, if_true]
          apply compareAndSet_spec
          · intro row admitted
            simp only [Bool.and_eq_true, decide_eq_true_eq] at admitted
            exact admitted.1.1
          · intro db row stored admitted
            simp only [Bool.and_eq_true, decide_eq_true_eq] at admitted
            exact .takes claim now _ row isCall
              (began_readings now (some existing))
              (grants_takeOver claim now row) stored (Or.inr admitted.2)
              fun _ => rfl
        · simp only [expired, if_false]
          exact lost_spec

theorem claimDjango_spec {claim : Claim} (isCall : call = .claim claim)
    (isDjango : cfg.backend = .django) :
    (leases cfg).Spec call (fun _ state => state = {})
      (claimDjango cfg claim)
      (fun result _ state => Finished result state) Failed := by
  apply Setting.Spec.bind failed_stable currentTime_spec
  intro now
  apply Setting.Spec.bind failed_stable
  · apply updateLeases_idle
    · intro row admitted
      simp only [Bool.and_eq_true, decide_eq_true_eq] at admitted
      exact admitted.1.symm
    · intro db row stored admitted
      simp only [Bool.and_eq_true, decide_eq_true_eq] at admitted
      rw [admitted.1] at stored
      exact .takes claim now _ row isCall (began_readings now none)
        ⟨rfl, rfl, rfl, rfl⟩ stored (Or.inr admitted.2)
        fun isStandalone => by simp [isDjango] at isStandalone
  · intro updated
    apply Setting.Spec.fact
    intro _
    by_cases none_ : updated = 0
    · simp only [none_, if_true]
      apply (insertOrLose_spec isCall (began_readings now none)
        (grants_lease claim now)).weaken
      intro db state _ holds
      exact ⟨List.length_eq_zero_iff.mp holds.count, holds.written,
        holds.noted⟩
    · simp only [none_, if_false]
      have some_ : decide (0 < updated) = true := by
        simpa using Nat.pos_of_ne_zero none_
      rw [← some_]
      exact finish_spec _ updated

theorem aclaimLease_spec {claim : Claim} (isCall : call = .claim claim)
    (isAsync : cfg.backend = .async) :
    (leases cfg).Spec call (fun _ state => state = {})
      (aclaimLease cfg claim)
      (fun result _ state => Finished result state) Failed := by
  apply Setting.Spec.bind failed_stable currentTime_spec
  intro now
  apply Setting.Spec.bind failed_stable (readLease_spec now claim.queueName)
  intro found
  apply Setting.Spec.fact
  intro sameQueue
  cases found with
  | none =>
      apply Setting.Spec.bind failed_stable
      · exact insertLease_spec isCall (began_readings now none)
          ⟨rfl, rfl, rfl, rfl⟩
      · intro inserted
        cases inserted with
        | true => exact finish_spec _ 1
        | false =>
            exact Setting.Spec.raise (prepared_stable _ _)
              fun _ _ _ holds => holds.written
  | some existing =>
      by_cases may : MayTake claim now existing
      · have taken : (decide (existing.daemonId = claim.daemonId) ||
            decide (existing.expiresAt < now)) = true := by
          simpa [MayTake] using may
        simp only [taken, if_true]
        have flushed : (leases cfg).Spec call
            (fun _ state => Idle (readings now (some existing)) state ∧ True)
            (flush cfg existing
              { claim.lease now with
                nodeId := claim.daemonId
                pid := existing.pid
                version := existing.version })
            (fun _ => Prepared cfg call (readings now (some existing)) 1)
            Failed := by
          apply flush_spec local_stable
          intro db state row _ stored isQueue
          have keyed := sameQueue existing rfl
          rw [isQueue, keyed] at stored
          exact .rewrites claim now _ row existing isCall
            (began_readings now (some existing)) ⟨rfl, rfl, rfl, rfl⟩ stored
            isAsync (by simp [readings]) keyed may
        apply Setting.Spec.bind failed_stable
        · exact flushed.weaken fun _ _ _ idle => ⟨idle, trivial⟩
        · intro _
          exact finish_spec _ 1
      · have kept : (decide (existing.daemonId = claim.daemonId) ||
            decide (existing.expiresAt < now)) = false := by
          simpa [MayTake] using may
        simp only [kept, Bool.false_eq_true, if_false]
        apply Setting.Spec.weaken (finish_spec _ 0)
        intro db state _ idle
        refine ⟨⟨idle.written, ?_, ?_⟩, idle.written, idle.noted, ?_⟩
        · simp [idle.pending]
        · simp [idle.pending]
        · simp [idle.pending]

theorem renewQueueLeases_spec {queues : List String} {daemonId : String}
    {leaseSecs : Int} (isCall : call = .renew queues daemonId leaseSecs) :
    (leases cfg).Spec call (fun _ state => state = {})
      (renewQueueLeases cfg queues daemonId leaseSecs)
      (fun result _ state => Finished result state) Failed := by
  unfold renewQueueLeases
  split
  · apply Setting.Spec.pure local_stable
    rintro db state _ _ rfl
    exact ⟨rfl, by simp⟩
  · apply Setting.Spec.bind failed_stable currentTime_spec
    intro now
    apply Setting.Spec.bind failed_stable
    · apply updateLeases_idle
      · intro row _
        rfl
      · intro db row stored admitted
        simp only [Bool.and_eq_true, decide_eq_true_eq] at admitted
        exact .renews queues daemonId leaseSecs now row isCall
          (began_readings now none) stored admitted.2
    · intro renewed
      apply Setting.Spec.fact
      intro _
      exact finish_spec _ renewed

theorem deleteLeases_spec {admits : DaemonLease → Bool}
    (legal : ∀ db row, db.leases.get row.queueName = some row →
      admits row = true →
      Legal cfg call db [] (.deleteLease row.queueName)) :
    (leases cfg).Spec call (fun _ state => state = {})
      (deleteLeases cfg admits)
      (fun _ db state => ∃ count, Prepared cfg call [] count db state)
      Failed := by
  have deleted : (leases cfg).Spec call (fun _ state => Idle [] state ∧ True)
      (exec (modifyRows Db.leases (writerOf cfg.dialect) admits
        fun lease => .deleteLease lease.queueName) : Sql (List DaemonLease))
      (fun rows db state => Single admits rows.length ∧
        Prepared cfg call [] rows.length db state) Failed := by
    apply modify_spec local_stable
    · intro row _
      rfl
    · intro db state row _ stored admitted
      exact legal db row stored admitted
  apply Setting.Spec.bind failed_stable
  · apply deleted.weaken
    rintro db state _ rfl
    exact ⟨⟨rfl, rfl, rfl⟩, trivial⟩
  · intro rows
    apply Setting.Spec.fact
    intro _
    exact Setting.Spec.pure (prepared_stable _ _)
      fun _ _ _ _ holds => ⟨_, holds⟩

theorem releaseQueueLeases_spec {queues : List String} {daemonId : String}
    (isCall : call = .release queues daemonId) :
    (leases cfg).Spec call (fun _ state => state = {})
      (releaseQueueLeases cfg queues daemonId) (fun _ _ _ => True)
      fun _ _ => True := by
  have free : ∀ {first : Sql Bool}, (leases cfg).Spec call
      (fun _ state => state = {}) first (fun _ _ _ => True) Failed →
      (leases cfg).Spec call (fun _ state => state = {}) first
        (fun _ _ _ => True) fun _ _ => True := fun spec =>
    spec.strengthen (fun _ _ _ _ holds => holds) fun _ _ _ _ => trivial
  apply free
  unfold releaseQueueLeases
  split
  · exact Setting.Spec.pure local_stable fun _ _ _ _ _ => trivial
  · apply Setting.Spec.bind failed_stable
    · apply deleteLeases_spec
      intro db row stored admitted
      simp only [Bool.and_eq_true, decide_eq_true_eq] at admitted
      exact .releases queues daemonId row isCall stored admitted.2
    · intro _
      apply Setting.Spec.exists_
      intro count
      apply Setting.Spec.bind failed_stable (commit_spec [] count)
      intro _
      exact Setting.Spec.pure local_stable fun _ _ _ _ _ => trivial

theorem claimOneLease_spec {claim : Claim} (isCall : call = .claim claim) :
    (leases cfg).Spec call (fun _ state => state = {})
      (claimOneLease cfg claim)
      (fun result _ state => Finished result state) Failed := by
  unfold claimOneLease
  split
  · rename_i isPostgresql
    exact claimSkipLocked_spec isCall isPostgresql
  · rename_i isStandalone isSqlite
    exact claimOptimistic_spec isCall ⟨isStandalone, isSqlite⟩
  · rename_i isDjango
    exact claimDjango_spec isCall isDjango
  · rename_i isAsync
    exact aclaimLease_spec isCall isAsync

/-- What a call that returned has done; a release says nothing. -/
def Returns (call : Call) (value : Return) (_ : Db) (state : Loc) : Prop :=
  match call, value with
  | .release _ _, _ => True
  | _, .ok result => result = true ↔ state.written ≠ []
  | _, .error _ => state.written = []

theorem session_finished {body : Sql Bool}
    (spec : (leases cfg).Spec call (fun _ state => state = {}) body
      (fun result _ state => Finished result state) Failed) :
    (leases cfg).Spec call (fun _ state => state = {}) (session body)
      (fun result _ state => result = true ↔ state.written ≠ []) Failed :=
  Setting.Spec.session spec (fun _ => local_stable) failed_stable
    (fun _ => local_stable) failed_stable (fun _ _ _ _ holds => holds.told)
    fun _ _ _ holds => holds

theorem leases_verified (cfg : Config) :
    (leases cfg).Verified Returns := by
  intro call db state inv guarded isInitial
  cases call with
  | claim request =>
      have safe := session_finished
        (claimOneLease_spec (rfl : Call.claim request = .claim request)) db
        state inv guarded isInitial
      refine Setting.Safe.mono ?_ safe
      intro value db state _ holds
      cases value <;> exact holds
  | renew queues daemonId leaseSecs =>
      have safe := session_finished (renewQueueLeases_spec
        (rfl : Call.renew queues daemonId leaseSecs = .renew _ _ _)) db state
        inv guarded isInitial
      refine Setting.Safe.mono ?_ safe
      intro value db state _ holds
      cases value <;> exact holds
  | release queues daemonId =>
      have spec : (leases cfg).Spec (.release queues daemonId)
          (fun _ state => state = {})
          (session (releaseQueueLeases cfg queues daemonId))
          (fun _ _ _ => True) fun _ _ => True :=
        Setting.Spec.session (releaseQueueLeases_spec rfl)
          (fun _ => local_stable) local_stable (fun _ => local_stable)
          local_stable (fun _ _ _ _ _ => trivial) fun _ _ _ _ => trivial
      refine Setting.Safe.mono ?_ (spec db state inv guarded isInitial)
      intro value db state _ _
      cases value <;> trivial

end Specifications

end Sqlery.Lease
