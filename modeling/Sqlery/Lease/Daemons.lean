import Mathlib.Data.Fin.VecNotation
import Mathlib.Data.List.Induction
import Sqlery.Lease.Exclusion

/-!
# The leases of the daemons

A daemon is a process with a name of its own that makes its calls one after
the other and asks for leases of one length.  PostgreSQL and Django need
nothing more.  On SQLite the holder of a lease that claims it again looks at
the version only, and a lease that is released and claimed anew starts at
version zero.
-/

namespace Sqlery.Lease

open ReadCommitted

section Daemons

variable {cfg : Config} {n : Nat} {state next : World n}
variable {action : Action Write Call n}
variable {names : Fin n → String} {secs : Fin n → Int}

/-- The length of the lease a call asks for. -/
def Call.asks : Call → Option Int
  | .claim request => some request.leaseSecs
  | .renew _ _ leaseSecs => some leaseSecs
  | .release _ _ => none

/-- The call is one of this daemon. -/
def Belongs (name : String) (length : Int) (call : Call) : Prop :=
  call.daemonId = name ∧ ∀ asked, call.asks = some asked → asked = length

/-- The process is in the middle of a claim that has read a lease of its own
and locked nothing. -/
def Reclaiming (state : World n) (process : Fin n) (seen : DaemonLease) :
    Prop :=
  ∃ request, (state.session process).call = some (.claim request) ∧
    (state.session process).prog.idle = false ∧
    .remark (.found seen) ∈ (state.session process).state.noted ∧
    seen.daemonId = request.daemonId

/-- Every process is a daemon, and where claims compare and set, no other
daemon releases a lease while its former holder is claiming it again. -/
structure Unreleased (cfg : Config) (names : Fin n → String)
    (secs : Fin n → Int) (state : World n) (action : Action Write Call n) :
    Prop where
  belongs : ∀ process call, action = .start process call →
    Belongs (names process) (secs process) call
  unreleased : cfg.Optimistic → ∀ committer call,
    System.committing state action = some (committer, call) →
    ∀ process, process ≠ committer → ∀ seen,
      Reclaiming state process seen →
      .deleteLease seen.queueName ∉ (state.session committer).state.pending

/-- The row a re-claim has read is still there, in this or a later version. -/
def Recalled (state : World n) : Prop :=
  ∀ process seen, Reclaiming state process seen →
    ∃ row, state.db.leases.get seen.queueName = some row ∧
      seen.version ≤ row.version ∧
      (row.version = seen.version → row.daemonId = seen.daemonId)

theorem Legal.rightful {call : Call} {db : Db} {noted : List Write}
    {write : Write} (legal : Legal cfg call db noted write)
    (sync : cfg.backend ≠ .async)
    (timed : ∀ now, .remark (.began now) ∈ noted → now ≤ db.clock)
    (recalled : cfg.Optimistic → ∀ request seen,
      call = .claim request → .remark (.found seen) ∈ noted →
      seen.daemonId = request.daemonId →
      ∃ row, db.leases.get seen.queueName = some row ∧
        (row.version = seen.version → row.daemonId = seen.daemonId)) :
    Rightful call db write := by
  cases legal with
  | inserts claim now lease isCall began grants absent =>
      rw [← grants.queueName] at absent
      exact .inserts claim lease isCall grants.daemonId absent
  | takes claim now lease old isCall began grants found may newer =>
      rw [← grants.queueName] at found
      apply Rightful.takes claim lease old isCall grants.daemonId found
      exact may.imp_right fun expired =>
        lt_of_lt_of_le expired (timed now began.1)
  | again claim now lease old seen isCall began grants found isBackend isSeen
      sameQueue own version newer =>
      obtain ⟨row, stored, same⟩ :=
        recalled isBackend claim seen isCall isSeen own
      rw [sameQueue, found] at stored
      cases stored
      rw [← grants.queueName] at found
      exact .takes claim lease old isCall grants.daemonId found
        (Or.inl ((same version).trans own))
  | rewrites claim now changed old seen isCall began grants found isBackend
      isSeen sameQueue may => exact (sync isBackend).elim
  | renews queues daemonId leaseSecs now old isCall began found own =>
      exact .renews queues daemonId leaseSecs _ old isCall own found own
  | releases queues daemonId old isCall found own =>
      exact .releases queues daemonId old isCall found own

/-- A legal write of the standalone backend raises the version of a row when
it changes its holder. -/
theorem Legal.newer {call : Call} {db : Db} {noted : List Write}
    {write : Write} {queue : String} {row : DaemonLease}
    (legal : Legal cfg call db noted write)
    (isStandalone : cfg.backend = .standalone)
    (isQueue : write.queueName = some queue)
    (found : db.leases.get queue = some row)
    (notDelete : write ≠ .deleteLease queue) :
    ∃ last, (write.apply db).leases.get queue = some last ∧
      (row.version < last.version ∨
        last.version = row.version ∧ last.daemonId = row.daemonId ∧
          ∀ request, call ≠ .claim request) := by
  cases legal with
  | inserts claim now lease isCall began grants absent =>
      cases isQueue
      rw [← grants.queueName, found] at absent
      cases absent
  | takes claim now lease old isCall began grants stored may newer =>
      cases isQueue
      rw [← grants.queueName, found] at stored
      cases stored
      refine ⟨lease, get_setLease found, Or.inl ?_⟩
      rw [newer isStandalone]
      exact Nat.lt_succ_self _
  | again claim now lease old seen isCall began grants stored isBackend
      isSeen sameQueue own version newer =>
      cases isQueue
      rw [← grants.queueName, found] at stored
      cases stored
      refine ⟨lease, get_setLease found, Or.inl ?_⟩
      rw [newer]
      exact Nat.lt_succ_self _
  | rewrites claim now changed old seen isCall began grants stored isBackend
      isSeen sameQueue may =>
      rw [isStandalone] at isBackend
      cases isBackend
  | renews queues daemonId leaseSecs now old isCall began stored own =>
      cases isQueue
      rw [found] at stored
      cases stored
      refine ⟨_, get_setLease found, Or.inr ⟨rfl, rfl, ?_⟩⟩
      intro request isClaim
      rw [isCall] at isClaim
      cases isClaim
  | releases queues daemonId old isCall stored own =>
      cases isQueue
      exact (notDelete rfl).elim

theorem Legal.not_delete {request : Claim} {db : Db} {noted : List Write}
    {write : Write} (legal : Legal cfg (.claim request) db noted write)
    (queue : String) : write ≠ .deleteLease queue := by
  intro isDelete
  cases legal with
  | releases queues daemonId old isCall => cases isCall
  | _ => cases isDelete

theorem reclaiming_quiet (quiet : (leases cfg).Quiet state next action)
    {process : Fin n} {seen : DaemonLease}
    (reclaiming : Reclaiming next process seen) :
    Reclaiming state process seen ∨
      state.db.leases.get seen.queueName = some seen := by
  obtain ⟨request, isCall, running, noted, own⟩ := reclaiming
  cases quiet.sessions process with
  | rests rests =>
      rw [rests.call] at isCall
      rw [rests.noted] at noted
      refine Or.inl ⟨request, isCall, ?_, noted, own⟩
      cases idle : (state.session process).prog.idle with
      | false => rfl
      | true =>
          rw [rests.idle idle] at running
          cases running
  | remarks call remarks _ isOther notes sameCall isNoted wasRunning =>
      rw [sameCall, ← isOther] at isCall
      rw [isNoted] at noted
      rcases List.mem_append.mp noted with old | new
      · exact Or.inl ⟨request, isCall, wasRunning, old, own⟩
      · exact Or.inr (notes.found seen new)
  | starts call _ _ isFresh =>
      rw [isFresh] at noted
      cases noted

theorem recalled_quiet (quiet : (leases cfg).Quiet state next action)
    (recalled : Recalled state) : Recalled next := by
  intro process seen reclaiming
  rw [(drift_cases quiet.db).1]
  rcases reclaiming_quiet quiet reclaiming with before | found
  · exact recalled process seen before
  · exact ⟨seen, found, le_refl _, fun _ => rfl⟩

theorem recalled_commits {committer : Fin n} {call : Call}
    (commits : (leases cfg).Commits state next action committer call)
    (optimistic : cfg.Optimistic)
    (unreleased : Unreleased cfg names secs state action)
    (recalled : Recalled state) : Recalled next := by
  rintro process seen ⟨request, isCall, running, noted, own⟩
  have lawful : Lawful cfg call state.db (state.session committer).state :=
    commits.promised
  obtain ⟨rest, isCommit⟩ := commits.isCommit
  have before : Reclaiming state process seen := by
    rw [noted_commits commits] at noted
    by_cases same : process = committer
    · subst same
      rw [commits.call, ← commits.isCall] at isCall
      exact ⟨request, isCall, by simp [isCommit, Prog.idle], noted, own⟩
    · rw [commits.others process same] at isCall running
      exact ⟨request, isCall, running, noted, own⟩
  obtain ⟨row, found, newer, sameHolder⟩ := recalled process seen before
  have isAfter : next.db = after _ state.db := commits.db
  rw [isAfter]
  cases isAbout : about seen.queueName
      (state.session committer).state.pending with
  | none =>
      rw [get_after_unwritten isAbout]
      exact ⟨row, found, newer, sameHolder⟩
  | some write =>
      have isQueue : write.queueName = some seen.queueName := by
        simpa using List.find?_some isAbout
      have member := List.mem_of_find?_eq_some isAbout
      have legal := lawful.legal write member
      have notDelete : write ≠ .deleteLease seen.queueName := by
        rintro rfl
        by_cases same : process = committer
        · subst same
          rw [commits.call] at isCall
          cases isCall
          exact legal.not_delete seen.queueName rfl
        · exact unreleased.unreleased optimistic committer call
            commits.committing
            process same seen before member
      rw [get_after_written lawful.once isAbout]
      obtain ⟨last, isLast, later | ⟨sameVersion, sameDaemon, _⟩⟩ :=
        legal.newer optimistic.1 isQueue found notDelete
      · exact ⟨last, isLast, by omega, by omega⟩
      · refine ⟨last, isLast, by omega, ?_⟩
        intro isVersion
        rw [sameDaemon]
        exact sameHolder (sameVersion.symm.trans isVersion)

/-! ## Leases of one length -/

/-- The grants of a daemon, against the clock and against the time its current
call took for now. -/
structure Lengths (names : Fin n → String) (secs : Fin n → Int)
    (state : World n) : Prop where
  signed : ∀ entry ∈ state.journal, ∃ process,
    entry.1.daemonId = names process
  belongs : ∀ process call, (state.session process).call = some call →
    Belongs (names process) (secs process) call
  bounded : ∀ process queue expiry,
    expiry ∈ grants queue (names process) state.journal →
    expiry ≤ state.db.clock + seconds (secs process)
  behind : ∀ process now, .remark (.began now) ∈
      (state.session process).state.noted →
    ∀ queue expiry, expiry ∈ grants queue (names process) state.journal →
      expiry ≤ now + seconds (secs process)
  ordered : ∀ process queue expiry,
    expiry ∈ grants queue (names process) state.journal →
    ∃ last, latest queue (names process) state.journal = some last ∧
      expiry ≤ last

theorem lengths_quiet (quiet : (leases cfg).Quiet state next action)
    (unreleased : Unreleased cfg names secs state action)
    (lengths : Lengths names secs state) : Lengths names secs next := by
  obtain ⟨_, later⟩ := drift_cases quiet.db
  constructor
  · rw [quiet.journal]
    exact lengths.signed
  · intro process call isCall
    cases quiet.sessions process with
    | rests rests =>
        rw [rests.call] at isCall
        exact lengths.belongs process call isCall
    | remarks other remarks _ isOther _ sameCall _ _ =>
        rw [sameCall, ← isOther] at isCall
        exact lengths.belongs process call isCall
    | starts other isStart sameCall _ =>
        rw [sameCall] at isCall
        cases isCall
        exact unreleased.belongs process call isStart
  · intro process queue expiry member
    rw [quiet.journal] at member
    have bound := lengths.bounded process queue expiry member
    exact le_trans bound (Int.add_le_add_right later _)
  · intro process now noted queue expiry member
    rw [quiet.journal] at member
    cases quiet.sessions process with
    | rests rests =>
        rw [rests.noted] at noted
        exact lengths.behind process now noted queue expiry member
    | remarks call remarks _ _ notes _ isNoted _ =>
        rw [isNoted] at noted
        rcases List.mem_append.mp noted with old | new
        · exact lengths.behind process now old queue expiry member
        · rw [notes.began now new]
          exact lengths.bounded process queue expiry member
    | starts call _ _ isFresh =>
        rw [isFresh] at noted
        cases noted
  · rw [quiet.journal]
    exact lengths.ordered

/-- What a legal write of a synchronous call grants. -/
theorem Legal.granted {call : Call} {db : Db} {noted : List Write}
    {write : Write} {expiry : Time} (legal : Legal cfg call db noted write)
    (sync : cfg.backend ≠ .async) (isGrant : write.expiresAt = some expiry) :
    ∃ now length, Began noted now ∧ call.asks = some length ∧
      expiry = now + seconds length := by
  cases legal with
  | inserts claim now lease isCall began grants absent =>
      subst isCall
      exact ⟨now, _, began, rfl,
        (Option.some.inj isGrant).symm.trans grants.expiresAt⟩
  | takes claim now lease old isCall began grants found may newer =>
      subst isCall
      exact ⟨now, _, began, rfl,
        (Option.some.inj isGrant).symm.trans grants.expiresAt⟩
  | again claim now lease old seen isCall began grants found isBackend isSeen
      sameQueue own version newer =>
      subst isCall
      exact ⟨now, _, began, rfl,
        (Option.some.inj isGrant).symm.trans grants.expiresAt⟩
  | rewrites claim now changed old seen isCall began grants found isBackend
      isSeen sameQueue may => exact (sync isBackend).elim
  | renews queues daemonId leaseSecs now old isCall began found own =>
      subst isCall
      exact ⟨now, _, began, rfl, (Option.some.inj isGrant).symm⟩
  | releases queues daemonId old isCall found own => cases isGrant

/-- What a commit adds to the grants of a daemon. -/
theorem grants_commit {journal : List Entry} {entry : Entry}
    {queue daemon : String} {expiry : Time}
    (member : expiry ∈ grants queue daemon (journal ++ [entry])) :
    releases queue daemon entry = false ∧
      (expiry ∈ grants queue daemon journal ∨
        grantOf queue daemon entry = some expiry) := by
  rw [grants_append] at member
  split at member
  · cases member
  · rename_i kept
    refine ⟨by simpa using kept, ?_⟩
    rcases List.mem_append.mp member with new | old
    · exact Or.inr (by simpa using new)
    · exact Or.inl old

/-- Who was granted something signed a transaction. -/
theorem signed_of_grants {journal : List Entry} {queue daemon : String}
    {expiry : Time} (member : expiry ∈ grants queue daemon journal) :
    ∃ entry ∈ journal, entry.1.daemonId = daemon := by
  induction journal using List.reverseRecOn with
  | nil => cases member
  | append_singleton journal entry ih =>
      rcases (grants_commit member).2 with old | new
      · obtain ⟨earlier, isEarlier, isDaemon⟩ := ih old
        exact ⟨earlier, List.mem_append_left _ isEarlier, isDaemon⟩
      · refine ⟨entry, List.mem_append_right _ (List.mem_singleton_self _), ?_⟩
        unfold grantOf at new
        split at new
        · assumption
        · cases new

/-- A commit grants to the daemon that makes it, from the time its call took
for now. -/
theorem grantOf_commits {committer process : Fin n} {call : Call}
    (injective : Function.Injective names) (sync : cfg.backend ≠ .async)
    (commits : (leases cfg).Commits state next action committer call)
    (lengths : Lengths names secs state) {queue : String} {expiry : Time}
    (isGrant : grantOf queue (names process)
      (call, (state.session committer).state.pending) = some expiry) :
    process = committer ∧
      ∃ now, Began (state.session committer).state.noted now ∧
        expiry = now + seconds (secs process) := by
  have lawful : Lawful cfg call state.db (state.session committer).state :=
    commits.promised
  unfold grantOf at isGrant
  split at isGrant
  · rename_i own
    obtain ⟨write, isAbout, isExpiry⟩ := Option.bind_eq_some_iff.mp isGrant
    obtain ⟨named, asked⟩ := lengths.belongs committer call commits.isCall
    have same : process = committer := injective (own.symm.trans named)
    subst same
    have legal := lawful.legal write (List.mem_of_find?_eq_some isAbout)
    obtain ⟨now, length, began, isLength, rfl⟩ := legal.granted sync isExpiry
    rw [← asked length isLength]
    exact ⟨rfl, now, began, rfl⟩
  · cases isGrant

theorem lengths_commits {committer : Fin n} {call : Call}
    (injective : Function.Injective names) (sync : cfg.backend ≠ .async)
    (commits : (leases cfg).Commits state next action committer call)
    (clock : next.db.clock = state.db.clock) (timed : Timed state)
    (lengths : Lengths names secs state) : Lengths names secs next := by
  constructor
  · intro entry member
    rw [commits.journal] at member
    rcases List.mem_append.mp member with old | new
    · exact lengths.signed entry old
    · rw [List.mem_singleton.mp new]
      exact ⟨committer, (lengths.belongs committer call commits.isCall).1⟩
  · intro process other isCall
    by_cases same : process = committer
    · subst same
      rw [commits.call, ← commits.isCall] at isCall
      exact lengths.belongs process other isCall
    · rw [commits.others process same] at isCall
      exact lengths.belongs process other isCall
  · intro process queue expiry member
    rw [clock]
    rw [commits.journal] at member
    rcases (grants_commit member).2 with old | new
    · exact lengths.bounded process queue expiry old
    · obtain ⟨rfl, now, began, rfl⟩ :=
        grantOf_commits injective sync commits lengths new
      exact Int.add_le_add_right (timed process now began.1) _
  · intro process now noted queue expiry member
    rw [noted_commits commits] at noted
    rw [commits.journal] at member
    rcases (grants_commit member).2 with old | new
    · exact lengths.behind process now noted queue expiry old
    · obtain ⟨rfl, other, began, rfl⟩ :=
        grantOf_commits injective sync commits lengths new
      rw [began.2 now noted]
  · intro process queue expiry member
    rw [commits.journal] at member ⊢
    obtain ⟨kept, cases_⟩ := grants_commit member
    rw [latest_append, kept]
    simp only [Bool.false_eq_true, if_false]
    rcases cases_ with old | new
    · obtain ⟨last, isLast, bound⟩ := lengths.ordered process queue expiry old
      cases isGrant : grantOf queue (names process)
          (call, (state.session committer).state.pending) with
      | none => exact ⟨last, isLast, bound⟩
      | some newest =>
          -- the call read the clock after the earlier grants
          obtain ⟨rfl, now, began, rfl⟩ :=
            grantOf_commits injective sync commits lengths isGrant
          exact ⟨_, rfl,
            lengths.behind process now began.1 queue expiry old⟩
    · rw [new]
      exact ⟨expiry, rfl, le_refl _⟩

/-! ## Whole runs -/

/-- The invariant of the daemons. -/
structure Orderly (cfg : Config) (names : Fin n → String)
    (secs : Fin n → Int) (state : World n) : Prop where
  accounted : Accounted state.db state.journal
  timed : Timed state
  recalled : cfg.Optimistic → Recalled state
  lengths : Lengths names secs state

theorem Orderly.rightful (orderly : Orderly cfg names secs state)
    (good : (leases cfg).Good Returns state) (sync : cfg.backend ≠ .async)
    {process : Fin n} {call : Call} {rest : Prog Db Write Lock Return}
    (isCall : (state.session process).call = some call)
    (isCommit : (state.session process).prog = .commit rest) :
    ∀ write ∈ (state.session process).state.pending,
      Rightful call state.db write := by
  intro write member
  have lawful := good.atCommit isCall isCommit
  apply (lawful.legal write member).rightful sync
  · exact orderly.timed process
  · rintro optimistic request seen rfl noted own
    obtain ⟨row, found, _, same⟩ := orderly.recalled optimistic process seen
      ⟨request, isCall, by simp [isCommit, Prog.idle], noted, own⟩
    exact ⟨row, found, same⟩

theorem orderly_step (injective : Function.Injective names)
    (sync : cfg.backend ≠ .async)
    (good : (leases cfg).Good Returns state)
    (orderly : Orderly cfg names secs state)
    (unreleased : Unreleased cfg names secs state action)
    (taken : (system cfg).act state action = some next) :
    Orderly cfg names secs next := by
  rcases good.act_cases taken with ⟨committer, call, commits⟩ | quiet
  · have lawful : Lawful cfg call state.db (state.session committer).state :=
      commits.promised
    obtain ⟨rest, isCommit⟩ := commits.isCommit
    have rightful := orderly.rightful good sync commits.isCall isCommit
    have isAfter : next.db = after _ state.db := commits.db
    have clock : next.db.clock = state.db.clock := by
      rw [isAfter]
      exact clock_after rightful
    constructor
    · rw [isAfter, commits.journal]
      exact accounted_commit orderly.accounted lawful.once rightful
    · exact timed_commits commits clock orderly.timed
    · intro optimistic
      exact recalled_commits commits optimistic unreleased
        (orderly.recalled optimistic)
    · exact lengths_commits injective sync commits clock orderly.timed
        orderly.lengths
  · obtain ⟨same, later⟩ := drift_cases quiet.db
    constructor
    · rw [quiet.journal]
      exact orderly.accounted.drift same later
    · exact timed_quiet quiet orderly.timed
    · intro optimistic
      exact recalled_quiet quiet (orderly.recalled optimistic)
    · exact lengths_quiet quiet unreleased orderly.lengths

theorem orderly_initial (names : Fin n → String) (secs : Fin n → Int)
    (clock : Time) :
    Orderly cfg names secs (System.initial { clock }) where
  accounted := accounted_initial clock
  timed := by
    intro process now noted
    cases noted
  recalled := by
    rintro _ process seen ⟨request, isCall, _⟩
    cases isCall
  lengths := by
    constructor
    · intro entry member
      cases member
    · intro process call isCall
      cases isCall
    · intro process queue expiry member
      cases member
    · intro process now noted
      cases noted
    · intro process queue expiry member
      cases member

end Daemons

/-- The daemon was granted the queue until then and has not released it
since. -/
def Granted {n : Nat} (state : World n) (queue daemon : String)
    (expiry : Time) : Prop :=
  expiry ∈ grants queue daemon state.journal

theorem orderly_reached {cfg : Config} (sync : cfg.backend ≠ .async) {n : Nat}
    {names : Fin n → String} {secs : Fin n → Int}
    (injective : Function.Injective names) {state : World n}
    (reached : Reached cfg (Unreleased cfg names secs) state) :
    (leases cfg).Good Returns state ∧ Orderly cfg names secs state := by
  obtain ⟨clock, run⟩ := reached
  refine ⟨Setting.sound (leases_verified cfg) trivial run, ?_⟩
  apply (leases_verified cfg).induct trivial _ _ run
  · exact orderly_initial names secs clock
  · intro state action next good orderly unreleased taken
    exact orderly_step injective sync good orderly unreleased taken

/-- No daemon gets a lease that was granted to another until a later time. -/
theorem lease_exclusive (cfg : Config) (sync : cfg.backend ≠ .async)
    {n : Nat} {names : Fin n → String} {secs : Fin n → Int}
    (injective : Function.Injective names) {state : World n}
    (reached : Reached cfg (Unreleased cfg names secs) state) :
    Exclusive Granted state := by
  obtain ⟨good, orderly⟩ := orderly_reached sync injective reached
  apply exclusive_of_rightful good orderly.accounted
  · intro process call rest isCall isCommit
    exact orderly.rightful good sync isCall isCommit
  · intro queue daemon expiry granted
    obtain ⟨entry, member, isDaemon⟩ := signed_of_grants granted
    obtain ⟨process, named⟩ := orderly.lengths.signed entry member
    rw [isDaemon] at named
    subst named
    exact orderly.lengths.ordered process queue expiry granted

/-- Every process makes the calls of one daemon. -/
def Daemonic {n : Nat} (names : Fin n → String) (secs : Fin n → Int)
    (_ : World n) (action : Action Write Call n) : Prop :=
  ∀ process call, action = .start process call →
    Belongs (names process) (secs process) call

def isDaemonic {n : Nat} (names : Fin n → String) (secs : Fin n → Int)
    (_ : World n) : Action Write Call n → Bool
  | .start process call => call.daemonId = names process &&
      call.asks.all fun asked => asked = secs process
  | _ => true

theorem daemonic_of_check {n : Nat} (names : Fin n → String)
    (secs : Fin n → Int) (state : World n) (action : Action Write Call n)
    (checked : isDaemonic names secs state action = true) :
    Daemonic names secs state action := by
  rintro process call rfl
  simp only [isDaemonic, Bool.and_eq_true, decide_eq_true_eq] at checked
  refine ⟨checked.1, ?_⟩
  intro asked isAsked
  simpa [isAsked] using checked.2

/-- Two daemons, `a` and `b`. -/
def twoDaemons : Fin 2 → String := !["a", "b"]

def claimOf (process : Fin 2) : Call :=
  .claim {
    queueName := "default"
    daemonId := twoDaemons process
    nodeId := "node"
    pid := 1
    leaseSecs := 30 }

/-- The second daemon takes an expired lease over. -/
def takingOver : List (Action Write Call 2) :=
  Action.calls 0 (claimOf 0) 7 ++ [.ambient (.tick 40000000)] ++
    Action.calls 1 (claimOf 1) 5

def onPostgresql : Config := ⟨.postgresql, .standalone⟩

theorem lease_exclusive_takingOver :
    ∃ state : World 2,
      Reached onPostgresql
        (Unreleased onPostgresql twoDaemons fun _ => 30) state ∧
      (∃ rest, (state.session 1).prog = .commit rest) ∧
      (state.session 1).state.pending ≠ [] ∧
      grants "default" "a" state.journal = [30000000] ∧
      Exclusive Granted state := by
  have ran : (checkedTo onPostgresql (isDaemonic twoDaemons fun _ => 30)
      takingOver).isSome = true := rfl
  have allowed : ∀ (state : World 2) action,
      isDaemonic twoDaemons (fun _ => 30) state action = true →
      Unreleased onPostgresql twoDaemons (fun _ => 30) state action := by
    intro state action checked
    constructor
    · exact daemonic_of_check _ _ state action checked
    · rintro ⟨_, isSqlite⟩
      cases isSqlite
  have injective : Function.Injective twoDaemons := by
    intro first second same
    revert first second
    decide
  have reached := reached_checkedTo allowed ran
  exact ⟨_, reached, ⟨_, rfl⟩, List.cons_ne_nil _ _, rfl,
    lease_exclusive onPostgresql (by decide) injective reached⟩

def onSqlite : Config := ⟨.sqlite, .standalone⟩

/-- The first daemon reads its lease in order to claim it again.  Before it
writes, its lease expires, and the second daemon takes it over, releases it
and claims it anew. -/
def claimedAnew : List (Action Write Call 2) :=
  Action.calls 0 (claimOf 0) 6 ++ Action.calls 0 (claimOf 0) 2 ++
    [.ambient (.tick 40000000)] ++ Action.calls 1 (claimOf 1) 6 ++
    Action.calls 1 (.release ["default"] "b") 4 ++
    Action.calls 1 (claimOf 1) 6 ++ List.replicate 2 (.step 0)

theorem lease_taken_while_granted :
    ∃ state : World 2,
      Reached onSqlite (Daemonic twoDaemons fun _ => 30) state ∧
      ¬Exclusive Granted state := by
  have ran : (checkedTo onSqlite (isDaemonic twoDaemons fun _ => 30)
      claimedAnew).isSome = true := rfl
  refine ⟨_, reached_checkedTo (daemonic_of_check _ _) ran, ?_⟩
  intro exclusive
  have granted : Granted ((checkedTo onSqlite
      (isDaemonic twoDaemons fun _ => 30) claimedAnew).get ran)
      "default" "b" 70000000 := List.mem_singleton_self _
  have expired := (exclusive.claims 0 _ _ _ rfl rfl
    List.mem_cons_self).2 "b" 70000000 granted (by decide)
  have clock : ((checkedTo onSqlite (isDaemonic twoDaemons fun _ => 30)
      claimedAnew).get ran).db.clock = 40000000 := rfl
  rw [clock] at expired
  exact absurd expired (by decide)

end Sqlery.Lease
