import Sqlery.Lease.Specs

/-!
# One holder at a time

A lease that was granted until some time keeps other daemons out until then.
The proof is about rightful commits: a claim that writes a row which is not
there, is its own or has expired, and renewals and releases of the holder.
Every commit is rightful on PostgreSQL and under Django.  On SQLite a re-claim
is rightful unless the row it read was released meanwhile, and an asynchronous
claim unless the row it read was written meanwhile.
-/

namespace Sqlery.Lease

open ReadCommitted

abbrev World (n : Nat) := State Db Write Lock Call Return n

/-- The states the daemons reach from an empty table, under the steps that are
allowed. -/
def Reached (cfg : Config) {n : Nat}
    (allowed : World n → Action Write Call n → Prop) (state : World n) :
    Prop :=
  ∃ clock, (system cfg).Reaches allowed (System.initial { clock }) state

/-- The state a list of actions leads to that all pass a check. -/
def checkedTo (cfg : Config) {n : Nat}
    (check : World n → Action Write Call n → Bool)
    (actions : List (Action Write Call n)) : Option (World n) :=
  (system cfg).runWhile check (System.initial {}) actions

theorem reached_checkedTo {cfg : Config} {n : Nat}
    {check : World n → Action Write Call n → Bool}
    {allowed : World n → Action Write Call n → Prop}
    (sound : ∀ state action, check state action = true →
      allowed state action)
    {actions : List (Action Write Call n)}
    (ran : (checkedTo cfg check actions).isSome = true) :
    Reached cfg allowed ((checkedTo cfg check actions).get ran) :=
  ⟨0, System.reaches_of_runWhile _ sound (Option.some_get ran).symm⟩

/-! ## What the journal says about a queue -/

section Journal

abbrev Entry := Call × List Write

/-- What a transaction did to the row of the queue. -/
def about (queue : String) (writes : List Write) : Option Write :=
  writes.find? fun write => write.queueName = some queue

def Write.expiresAt : Write → Option Time
  | .insertLease lease => some lease.expiresAt
  | .setLease lease => some lease.expiresAt
  | _ => none

/-- The time until which a transaction granted the queue to the daemon. -/
def grantOf (queue daemon : String) (entry : Entry) : Option Time :=
  if entry.1.daemonId = daemon then
    (about queue entry.2).bind Write.expiresAt
  else none

def releases (queue daemon : String) (entry : Entry) : Bool :=
  entry.1.daemonId = daemon &&
    about queue entry.2 = some (.deleteLease queue)

/-- The daemon whose claim of the queue a transaction made good. -/
def claimer (queue : String) : Entry → Option String
  | (.claim request, writes) =>
      if (about queue writes).isSome then some request.daemonId else none
  | _ => none

/-- The grants of the queue to the daemon since it last released it, newest
first. -/
def grants (queue daemon : String) (journal : List Entry) : List Time :=
  journal.foldl (fun grants entry =>
    if releases queue daemon entry then []
    else (grantOf queue daemon entry).toList ++ grants) []

def latest (queue daemon : String) (journal : List Entry) : Option Time :=
  (grants queue daemon journal).head?

/-- The daemon whose claim of the queue succeeded last. -/
def lastClaimer (queue : String) (journal : List Entry) : Option String :=
  journal.foldl (fun last entry => (claimer queue entry).or last) none

theorem grants_append (queue daemon : String) (journal : List Entry)
    (entry : Entry) :
    grants queue daemon (journal ++ [entry]) =
      if releases queue daemon entry then []
      else (grantOf queue daemon entry).toList ++
        grants queue daemon journal := by
  simp [grants]

theorem latest_append (queue daemon : String) (journal : List Entry)
    (entry : Entry) :
    latest queue daemon (journal ++ [entry]) =
      if releases queue daemon entry then none
      else (grantOf queue daemon entry).or (latest queue daemon journal) := by
  rw [latest, grants_append]
  split
  · rfl
  · cases grantOf queue daemon entry <;> rfl

theorem lastClaimer_append (queue : String) (journal : List Entry)
    (entry : Entry) :
    lastClaimer queue (journal ++ [entry]) =
      (claimer queue entry).or (lastClaimer queue journal) := by
  simp [lastClaimer]

/-- What a write makes of a row depends on that row alone. -/
theorem get_apply_congr {first second : Db} {queue : String}
    (same : first.leases.get queue = second.leases.get queue)
    (write : Write) :
    (write.apply first).leases.get queue =
      (write.apply second).leases.get queue := by
  cases write with
  | insertLease lease => simp [Write.apply, Table.get_insert, same]
  | setLease lease => simp [Write.apply, Table.get_set, same]
  | deleteLease name => simp [Write.apply, Table.get_erase, same]
  | tick elapsed => exact same
  | remark remark => exact same

theorem get_after_unwritten {writes : List Write} {queue : String}
    (unwritten : about queue writes = none) (db : Db) :
    (after writes db).leases.get queue = db.leases.get queue := by
  apply get_after_of_ne
  intro write member
  simpa using List.find?_eq_none.mp unwritten write member

/-- The row after a transaction is what its one write made of it. -/
theorem get_after_written {writes : List Write} {queue : String}
    {write : Write} (once : (writes.filterMap Write.queueName).Nodup)
    (written : about queue writes = some write) (db : Db) :
    (after writes db).leases.get queue =
      (write.apply db).leases.get queue := by
  induction writes generalizing db with
  | nil => cases written
  | cons head tail ih =>
      by_cases isHere : head.queueName = some queue
      · have isHead : head = write := by
          simpa [about, isHere] using written
        subst isHead
        rw [List.filterMap_cons_some isHere, List.nodup_cons] at once
        have elsewhere : ∀ later ∈ tail, later.queueName ≠ some queue := by
          intro later member isLater
          exact once.1 (List.mem_filterMap.mpr ⟨later, member, isLater⟩)
        exact get_after_of_ne elsewhere (head.apply db)
      · have isLater : about queue tail = some write := by
          simpa [about, isHere] using written
        have tailOnce : (tail.filterMap Write.queueName).Nodup := by
          cases named : head.queueName with
          | none =>
              rwa [List.filterMap_cons_none named] at once
          | some name =>
              rw [List.filterMap_cons_some named, List.nodup_cons] at once
              exact once.2
        calc (after (head :: tail) db).leases.get queue
            = (write.apply (head.apply db)).leases.get queue :=
              ih tailOnce isLater _
          _ = (write.apply db).leases.get queue :=
              get_apply_congr (get_apply_of_ne isHere db) write

end Journal

/-! ## Rightful commits -/

section Rightful

/-- The write is one the daemon has a right to. -/
inductive Rightful (call : Call) (db : Db) : Write → Prop where
  | inserts (request : Claim) (lease : DaemonLease) :
      call = .claim request → lease.daemonId = request.daemonId →
      db.leases.get lease.queueName = none →
      Rightful call db (.insertLease lease)
  | takes (request : Claim) (lease old : DaemonLease) :
      call = .claim request → lease.daemonId = request.daemonId →
      db.leases.get lease.queueName = some old →
      old.daemonId = request.daemonId ∨ old.expiresAt < db.clock →
      Rightful call db (.setLease lease)
  | renews (queues : List String) (daemonId : String) (leaseSecs : Int)
      (lease old : DaemonLease) :
      call = .renew queues daemonId leaseSecs → lease.daemonId = daemonId →
      db.leases.get lease.queueName = some old → old.daemonId = daemonId →
      Rightful call db (.setLease lease)
  | releases (queues : List String) (daemonId : String)
      (old : DaemonLease) :
      call = .release queues daemonId →
      db.leases.get old.queueName = some old → old.daemonId = daemonId →
      Rightful call db (.deleteLease old.queueName)

theorem get_setLease {db : Db} {lease old : DaemonLease}
    (found : db.leases.get lease.queueName = some old) :
    (Write.apply (.setLease lease) db).leases.get lease.queueName =
      some lease := by
  simp [Write.apply, Table.get_set, found]

/-- The row a rightful write leaves names the daemon, and says what was
granted. -/
theorem Rightful.row {call : Call} {db : Db} {write : Write}
    {queue : String} (rightful : Rightful call db write)
    (isQueue : write.queueName = some queue) :
    write = .deleteLease queue ∧ (write.apply db).leases.get queue = none ∨
      ∃ row, (write.apply db).leases.get queue = some row ∧
        row.daemonId = call.daemonId ∧
        write.expiresAt = some row.expiresAt := by
  cases rightful with
  | inserts request lease isCall own absent =>
      cases isQueue
      subst isCall
      exact Or.inr ⟨lease, Table.get_insert_self absent, own, rfl⟩
  | takes request lease old isCall own found may =>
      cases isQueue
      subst isCall
      exact Or.inr ⟨lease, get_setLease found, own, rfl⟩
  | renews queues daemonId leaseSecs lease old isCall own found mine =>
      cases isQueue
      subst isCall
      exact Or.inr ⟨lease, get_setLease found, own, rfl⟩
  | releases queues daemonId old isCall found mine =>
      cases isQueue
      exact Or.inl ⟨rfl, Table.get_erase_self _ _⟩

/-- Whose row a rightful write of another daemon can replace. -/
theorem Rightful.foreign {call : Call} {db : Db} {write : Write}
    {queue : String} {row : DaemonLease}
    (rightful : Rightful call db write)
    (isQueue : write.queueName = some queue)
    (found : db.leases.get queue = some row)
    (foreign : row.daemonId ≠ call.daemonId) : row.expiresAt < db.clock := by
  cases rightful with
  | inserts request lease isCall own absent =>
      cases isQueue
      rw [absent] at found
      cases found
  | takes request lease old isCall own stored may =>
      cases isQueue
      subst isCall
      rw [stored] at found
      cases found
      exact may.resolve_left foreign
  | renews queues daemonId leaseSecs lease old isCall own stored mine =>
      cases isQueue
      subst isCall
      rw [stored] at found
      cases found
      exact (foreign mine).elim
  | releases queues daemonId old isCall stored mine =>
      cases isQueue
      subst isCall
      rw [stored] at found
      cases found
      exact (foreign mine).elim

/-- What the row says against the journal. -/
structure Accounted (db : Db) (journal : List Entry) : Prop where
  /-- A grant that has not expired is in the row. -/
  granted : ∀ queue daemon expiry,
    latest queue daemon journal = some expiry → expiry < db.clock ∨
      ∃ row, db.leases.get queue = some row ∧ row.daemonId = daemon ∧
        row.expiresAt = expiry
  holder : ∀ queue row, db.leases.get queue = some row →
    lastClaimer queue journal = some row.daemonId

theorem accounted_initial (clock : Time) : Accounted { clock } [] where
  granted := by
    intro queue daemon expiry isLatest
    cases isLatest
  holder := by
    intro queue row found
    cases found

theorem clock_after {call : Call} {writes : List Write} {db : Db}
    (rightful : ∀ write ∈ writes, Rightful call db write) :
    (after writes db).clock = db.clock := by
  have untimed : ∀ (writes : List Write) (db : Db),
      (∀ write ∈ writes, write.queueName ≠ none) →
      (after writes db).clock = db.clock := by
    intro writes
    induction writes with
    | nil => exact fun _ _ => rfl
    | cons write writes ih =>
        intro db named
        have rest := ih (write.apply db) fun later member =>
          named later (List.mem_cons_of_mem _ member)
        refine Eq.trans rest ?_
        have isNamed := named write List.mem_cons_self
        cases write with
        | tick elapsed => exact (isNamed rfl).elim
        | _ => rfl
  apply untimed
  intro write member
  cases rightful write member <;> simp [Write.queueName]

/-- The daemon a rightful write leaves in the row made the last claim. -/
theorem Rightful.claimer {call : Call} {db : Db} {journal : List Entry}
    {writes : List Write} {write : Write} {queue : String}
    {row : DaemonLease} (rightful : Rightful call db write)
    (isAbout : about queue writes = some write)
    (isQueue : write.queueName = some queue)
    (accounted : Accounted db journal)
    (found : (write.apply db).leases.get queue = some row) :
    (claimer queue (call, writes)).or (lastClaimer queue journal) =
      some row.daemonId := by
  obtain ⟨isDelete, absent⟩ | ⟨left, isLeft, own, _⟩ := rightful.row isQueue
  · rw [absent] at found
    cases found
  · rw [isLeft] at found
    cases found
    cases rightful with
    | inserts request lease isCall _ _ =>
        subst isCall
        simp [Lease.claimer, isAbout, own, Call.daemonId]
    | takes request lease old isCall _ _ _ =>
        subst isCall
        simp [Lease.claimer, isAbout, own, Call.daemonId]
    | renews queues daemonId leaseSecs lease old isCall _ stored mine =>
        subst isCall
        cases isQueue
        rw [accounted.holder _ old stored, mine, own]
        rfl
    | releases queues daemonId old isCall stored mine =>
        cases isQueue
        rw [show (Write.apply (.deleteLease old.queueName) db).leases.get
          old.queueName = none from Table.get_erase_self _ _] at isLeft
        cases isLeft

theorem accounted_commit {call : Call} {db : Db} {journal : List Entry}
    {writes : List Write} (accounted : Accounted db journal)
    (once : (writes.filterMap Write.queueName).Nodup)
    (rightful : ∀ write ∈ writes, Rightful call db write) :
    Accounted (after writes db) (journal ++ [(call, writes)]) := by
  have clock := clock_after rightful
  constructor
  · intro queue daemon expiry isLatest
    rw [latest_append] at isLatest
    rw [clock]
    cases isAbout : about queue writes with
    | none =>
        have old : latest queue daemon journal = some expiry := by
          simpa [releases, grantOf, isAbout] using isLatest
        rw [get_after_unwritten isAbout]
        exact accounted.granted queue daemon expiry old
    | some write =>
        have isQueue : write.queueName = some queue := by
          simpa using List.find?_some isAbout
        have mine := rightful write (List.mem_of_find?_eq_some isAbout)
        rw [get_after_written once isAbout]
        by_cases own : call.daemonId = daemon
        · obtain ⟨isDelete, _⟩ | ⟨row, isRow, named, granted⟩ :=
            mine.row isQueue
          · simp [releases, own, isAbout, isDelete] at isLatest
          · have notDelete : write ≠ .deleteLease queue := by
              rintro rfl
              cases granted
            have isExpiry : row.expiresAt = expiry := by
              simpa [releases, own, isAbout, notDelete, grantOf, granted]
                using isLatest
            exact Or.inr ⟨row, isRow, named.trans own, isExpiry⟩
        · have old : latest queue daemon journal = some expiry := by
            simpa [releases, own, grantOf] using isLatest
          refine Or.inl ?_
          rcases accounted.granted queue daemon expiry old with
            expired | ⟨row, isRow, named, isExpiry⟩
          · exact expired
          · rw [← isExpiry]
            exact mine.foreign isQueue isRow fun same =>
              own (same.symm.trans named)
  · intro queue row found
    rw [lastClaimer_append]
    cases isAbout : about queue writes with
    | none =>
        rw [get_after_unwritten isAbout] at found
        have silent : claimer queue (call, writes) = none := by
          cases call <;> simp [claimer, isAbout]
        rw [silent]
        exact accounted.holder queue row found
    | some write =>
        have isQueue : write.queueName = some queue := by
          simpa using List.find?_some isAbout
        rw [get_after_written once isAbout] at found
        exact (rightful write (List.mem_of_find?_eq_some isAbout)).claimer
          isAbout isQueue accounted found

/-- A claim that takes effect finds no grant of another daemon that is still
running. -/
theorem Accounted.alone {request : Claim} {db : Db} {journal : List Entry}
    {write : Write} {queue daemon : String} {expiry : Time}
    (accounted : Accounted db journal)
    (rightful : Rightful (.claim request) db write)
    (isQueue : write.queueName = some queue)
    (isLatest : latest queue daemon journal = some expiry)
    (other : daemon ≠ request.daemonId) : expiry < db.clock := by
  rcases accounted.granted queue daemon expiry isLatest with
    expired | ⟨row, found, named, isExpiry⟩
  · exact expired
  · rw [← isExpiry]
    exact rightful.foreign isQueue found fun same =>
      other (named.symm.trans same)

end Rightful

/-! ## Between commits -/

section Drift

variable {cfg : Config} {first second : Db} {n : Nat} {state next : World n}
variable {action : Action Write Call n}

/-- Without a commit only the clock moves, and only forwards. -/
theorem drift_cases (drifts : (leases cfg).Drifts action first second) :
    second.leases = first.leases ∧ first.clock ≤ second.clock := by
  cases drifts with
  | same isSame =>
      subst isSame
      exact ⟨rfl, le_refl _⟩
  | instant call local_ writes nothing isAfter =>
      cases nothing
      subst isAfter
      exact ⟨rfl, le_refl _⟩
  | ambient write _ isAmbient isAfter =>
      subst isAfter
      cases write with
      | tick elapsed =>
          exact ⟨rfl, Int.le_add_of_nonneg_right (Int.natCast_nonneg elapsed)⟩
      | _ => cases isAmbient

theorem Accounted.drift {journal : List Entry}
    (accounted : Accounted first journal)
    (same : second.leases = first.leases)
    (later : first.clock ≤ second.clock) : Accounted second journal where
  granted := by
    intro queue daemon expiry isLatest
    rw [same]
    exact (accounted.granted queue daemon expiry isLatest).imp_left
      fun expired => lt_of_lt_of_le expired later
  holder := by
    rw [same]
    exact accounted.holder

/-- The times the calls took for now are not in the future. -/
def Timed (state : World n) : Prop :=
  ∀ process now, .remark (.began now) ∈
    (state.session process).state.noted → now ≤ state.db.clock

theorem timed_quiet (quiet : (leases cfg).Quiet state next action)
    (timed : Timed state) : Timed next := by
  intro process now noted
  obtain ⟨_, later⟩ := drift_cases quiet.db
  apply le_trans _ later
  cases quiet.sessions process with
  | rests rests =>
      rw [rests.noted] at noted
      exact timed process now noted
  | remarks call remarks _ _ notes _ isNoted _ =>
      rw [isNoted] at noted
      rcases List.mem_append.mp noted with old | new
      · exact timed process now old
      · exact le_of_eq (notes.began now new)
  | starts call _ _ isFresh =>
      rw [isFresh] at noted
      cases noted

/-- A commit leaves the remarks of every session as they are. -/
theorem noted_commits {committer process : Fin n} {call : Call}
    (commits : (leases cfg).Commits state next action committer call) :
    (next.session process).state.noted =
      (state.session process).state.noted := by
  by_cases same : process = committer
  · subst same
    rw [commits.committed]
    rfl
  · rw [commits.others process same]

theorem timed_commits {committer : Fin n} {call : Call}
    (commits : (leases cfg).Commits state next action committer call)
    (clock : next.db.clock = state.db.clock) (timed : Timed state) :
    Timed next := by
  intro process now noted
  rw [noted_commits commits] at noted
  rw [clock]
  exact timed process now noted

end Drift

/-- What mutual exclusion means in a state: a claim that takes effect finds no
grant of another daemon running, the row names the daemon whose claim
succeeded last, a renewal takes effect on rows of its daemon only, and a call
says that it succeeded exactly if it has. -/
structure Exclusive {n : Nat} (standing : World n → String → String → Time →
    Prop) (state : World n) : Prop where
  claims : ∀ process request rest write,
    (state.session process).call = some (.claim request) →
    (state.session process).prog = .commit rest →
    write ∈ (state.session process).state.pending →
    write.queueName = some request.queueName ∧
    ∀ daemon expiry, standing state request.queueName daemon expiry →
      daemon ≠ request.daemonId → expiry < state.db.clock
  holder : ∀ queue row, state.db.leases.get queue = some row →
    lastClaimer queue state.journal = some row.daemonId
  renewals : ∀ process queues daemon leaseSecs rest write queue,
    (state.session process).call = some (.renew queues daemon leaseSecs) →
    (state.session process).prog = .commit rest →
    write ∈ (state.session process).state.pending →
    write.queueName = some queue →
    ∃ row, state.db.leases.get queue = some row ∧ row.daemonId = daemon
  told : ∀ process call value,
    (state.session process).call = some call →
    (state.session process).prog = .done value →
    Returns call value state.db (state.session process).state

/-- What is accounted for and rightful is exclusive. -/
theorem exclusive_of_rightful {cfg : Config} {n : Nat} {state : World n}
    {standing : World n → String → String → Time → Prop}
    (good : (leases cfg).Good Returns state)
    (accounted : Accounted state.db state.journal)
    (rightful : ∀ process call rest,
      (state.session process).call = some call →
      (state.session process).prog = .commit rest →
      ∀ write ∈ (state.session process).state.pending,
        Rightful call state.db write)
    (covered : ∀ queue daemon expiry, standing state queue daemon expiry →
      ∃ last, latest queue daemon state.journal = some last ∧
        expiry ≤ last) :
    Exclusive standing state where
  claims := by
    intro process request rest write isCall isCommit member
    have lawful := good.atCommit isCall isCommit
    have isQueue : write.queueName = some request.queueName :=
      (lawful.legal write member).claimed
    refine ⟨isQueue, ?_⟩
    intro daemon expiry stands other
    obtain ⟨last, isLatest, bound⟩ := covered _ _ _ stands
    have expired := accounted.alone
      (rightful process _ rest isCall isCommit write member) isQueue isLatest
      other
    exact lt_of_le_of_lt bound expired
  holder := accounted.holder
  renewals := by
    intro process queues daemon leaseSecs rest write queue isCall isCommit
      member isQueue
    cases rightful process _ rest isCall isCommit write member with
    | inserts request lease isClaim => cases isClaim
    | takes request lease old isClaim => cases isClaim
    | renews queues daemonId leaseSecs lease old isRenew _ found mine =>
        cases isRenew
        cases isQueue
        exact ⟨old, found, mine⟩
    | releases queues daemonId old isRelease => cases isRelease
  told := by
    intro process call value isCall isDone
    exact good.atReturn isCall isDone

end Sqlery.Lease
