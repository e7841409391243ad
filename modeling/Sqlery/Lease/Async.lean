import Sqlery.Lease.Daemons

/-!
# The leases of asynchronous workers

`aclaim_lease` reads the lease and writes it back under its primary key alone.
It is exclusive as long as nobody is granted the lease in between, and
`arenew_lease`, which renews for 30 s whatever was claimed, shortens no lease.
-/

namespace Sqlery.Lease

open ReadCommitted

section Async

variable {cfg : Config} {n : Nat} {state next : World n}
variable {action : Action Write Call n}

/-- The process is in the middle of a claim that has read the row, is going to
write it and has not done so yet. -/
structure Claiming (state : World n) (process : Fin n) (request : Claim)
    (seen : DaemonLease) : Prop where
  isCall : (state.session process).call = some (.claim request)
  running : (state.session process).prog.idle = false
  found : .remark (.found seen) ∈ (state.session process).state.noted
  may : ∀ now, .remark (.began now) ∈ (state.session process).state.noted →
    MayTake request now seen
  unwritten : (state.session process).state.written = []

/-- Nobody is granted a lease between the reading and the writing of another
worker's claim of it, and nobody shortens a lease of its own. -/
structure Steady (state : World n) (action : Action Write Call n) : Prop where
  untouched : ∀ committer call,
    System.committing state action = some (committer, call) →
    ∀ process, process ≠ committer → ∀ request seen,
      Claiming state process request seen →
      call.daemonId ≠ request.daemonId →
      ∀ write ∈ (state.session committer).state.pending,
        write.expiresAt ≠ none → write.queueName ≠ some seen.queueName
  lasting : ∀ committer call,
    System.committing state action = some (committer, call) →
    ∀ now length,
      .remark (.began now) ∈ (state.session committer).state.noted →
      call.asks = some length →
      ∀ write ∈ (state.session committer).state.pending, ∀ queue,
        write.queueName = some queue →
        ∀ expiry ∈ grants queue call.daemonId state.journal,
          expiry ≤ now + seconds length

/-- The row a claim has read is still the same, or the worker's own. -/
def Current (state : World n) : Prop :=
  ∀ process request seen, Claiming state process request seen →
    ∀ row, state.db.leases.get seen.queueName = some row →
      row = seen ∨ row.daemonId = request.daemonId

theorem flushChanges_daemonId {loaded changed stored : DaemonLease}
    (own : stored.daemonId = changed.daemonId) :
    (flushChanges loaded changed stored).daemonId = changed.daemonId := by
  simp only [flushChanges]
  split
  · exact own
  · rfl

theorem Legal.rightful_async {call : Call} {db : Db} {noted : List Write}
    {write : Write} (legal : Legal cfg call db noted write)
    (isAsync : cfg.backend = .async)
    (timed : ∀ now, .remark (.began now) ∈ noted → now ≤ db.clock)
    (current : ∀ request seen, call = .claim request →
      .remark (.found seen) ∈ noted →
      (∀ now, .remark (.began now) ∈ noted → MayTake request now seen) →
      ∀ row, db.leases.get seen.queueName = some row →
        row = seen ∨ row.daemonId = request.daemonId) :
    Rightful call db write := by
  cases legal with
  | inserts claim now lease isCall began grants absent =>
      rw [← grants.queueName] at absent
      exact .inserts claim lease isCall grants.daemonId absent
  | takes claim now lease old isCall began grants found may newer =>
      rw [← grants.queueName] at found
      apply Rightful.takes claim lease old isCall grants.daemonId found
      exact may.imp_right fun expired =>
        lt_of_lt_of_le expired (timed now began.1)
  | again claim now lease old seen isCall began grants found optimistic
      isSeen sameQueue own version newer =>
      have isStandalone := optimistic.1
      rw [isAsync] at isStandalone
      cases isStandalone
  | rewrites claim now changed old seen isCall began grants found isBackend
      isSeen sameQueue may =>
      have mayTake : ∀ other, .remark (.began other) ∈ noted →
          MayTake claim other seen := by
        intro other isOther
        rw [began.2 other isOther]
        exact may
      have queued : old.queueName = claim.queueName := Table.key_of_get found
      rcases current claim seen isCall isSeen mayTake old
        (sameQueue ▸ found) with rfl | own
      · rw [flushChanges_self (grants.queueName.trans sameQueue.symm)]
        rw [← grants.queueName] at found
        apply Rightful.takes claim changed old isCall grants.daemonId found
        exact may.imp_right fun expired =>
          lt_of_lt_of_le expired (timed now began.1)
      · have isOwn : (flushChanges seen changed old).daemonId =
            changed.daemonId :=
          flushChanges_daemonId (own.trans grants.daemonId.symm)
        exact .takes claim (flushChanges seen changed old) old isCall
          (isOwn.trans grants.daemonId) (queued ▸ found) (Or.inl own)
  | renews queues daemonId leaseSecs now old isCall began found own =>
      exact .renews queues daemonId leaseSecs _ old isCall own found own
  | releases queues daemonId old isCall found own =>
      exact .releases queues daemonId old isCall found own

/-- What a write grants: as long as the call asked for, or as long as the
worker has the lease already. -/
theorem Legal.granted_async {call : Call} {db : Db} {noted : List Write}
    {write : Write} {queue : String} {expiry : Time}
    (legal : Legal cfg call db noted write) (isAsync : cfg.backend = .async)
    (current : ∀ request seen, call = .claim request →
      .remark (.found seen) ∈ noted →
      (∀ now, .remark (.began now) ∈ noted → MayTake request now seen) →
      ∀ row, db.leases.get seen.queueName = some row →
        row = seen ∨ row.daemonId = request.daemonId)
    (isQueue : write.queueName = some queue)
    (isGrant : write.expiresAt = some expiry) :
    (∃ now length, .remark (.began now) ∈ noted ∧ call.asks = some length ∧
      expiry = now + seconds length) ∨
    ∃ row, db.leases.get queue = some row ∧ row.daemonId = call.daemonId ∧
      row.expiresAt = expiry := by
  cases legal with
  | inserts claim now lease isCall began grants absent =>
      subst isCall
      exact Or.inl ⟨now, _, began.1, rfl,
        (Option.some.inj isGrant).symm.trans grants.expiresAt⟩
  | takes claim now lease old isCall began grants found may newer =>
      subst isCall
      exact Or.inl ⟨now, _, began.1, rfl,
        (Option.some.inj isGrant).symm.trans grants.expiresAt⟩
  | again claim now lease old seen isCall began grants found optimistic =>
      have isStandalone := optimistic.1
      rw [isAsync] at isStandalone
      cases isStandalone
  | rewrites claim now changed old seen isCall began grants found isBackend
      isSeen sameQueue may =>
      subst isCall
      have mayTake : ∀ other, .remark (.began other) ∈ noted →
          MayTake claim other seen := by
        intro other isOther
        rw [began.2 other isOther]
        exact may
      have flushed : (flushChanges seen changed old).expiresAt = expiry :=
        Option.some.inj isGrant
      have queued : old.queueName = queue := Option.some.inj isQueue
      have stored : old.queueName = claim.queueName := Table.key_of_get found
      simp only [flushChanges] at flushed
      split at flushed
      · rename_i unchanged
        rcases current claim seen rfl isSeen mayTake old (sameQueue ▸ found)
          with rfl | own
        · exact Or.inl ⟨now, _, began.1, rfl,
            flushed.symm.trans (unchanged.symm.trans grants.expiresAt)⟩
        · rw [← stored, queued] at found
          exact Or.inr ⟨old, found, own, flushed⟩
      · exact Or.inl ⟨now, _, began.1, rfl,
          flushed.symm.trans grants.expiresAt⟩
  | renews queues daemonId leaseSecs now old isCall began found own =>
      subst isCall
      exact Or.inl ⟨now, _, began.1, rfl, (Option.some.inj isGrant).symm⟩
  | releases queues daemonId old isCall found own => cases isGrant

theorem current_quiet (quiet : (leases cfg).Quiet state next action)
    (current : Current state) : Current next := by
  intro process request seen claiming row
  rw [(drift_cases quiet.db).1]
  intro stored
  cases quiet.sessions process with
  | rests rests =>
      refine current process request seen ⟨?_, ?_, ?_, ?_, ?_⟩ row stored
      · rw [← rests.call]
        exact claiming.isCall
      · cases idle : (state.session process).prog.idle with
        | false => rfl
        | true =>
            have running := claiming.running
            rw [rests.idle idle] at running
            cases running
      · rw [← rests.noted]
        exact claiming.found
      · rw [← rests.noted]
        exact claiming.may
      · rw [← rests.written]
        exact claiming.unwritten
  | remarks call remarks _ isOther notes sameCall isNoted wasRunning =>
      have isCall := claiming.isCall
      have noted := claiming.found
      have unwritten := claiming.unwritten
      rw [sameCall, ← isOther] at isCall
      rw [isNoted] at noted unwritten
      rcases List.mem_append.mp noted with old | new
      · refine current process request seen
          ⟨isCall, wasRunning, old, ?_, unwritten⟩ row stored
        intro now began
        apply claiming.may now
        rw [isNoted]
        exact List.mem_append_left _ began
      · have isSeen := notes.found seen new
        rw [isSeen] at stored
        exact Or.inl (Option.some.inj stored).symm
  | starts call _ _ isFresh =>
      have noted := claiming.found
      rw [isFresh] at noted
      cases noted

theorem current_commits {committer : Fin n} {call : Call}
    (commits : (leases cfg).Commits state next action committer call)
    (rightful : ∀ write ∈ (state.session committer).state.pending,
      Rightful call state.db write)
    (steady : Steady state action) (current : Current state) :
    Current next := by
  intro process request seen claiming row stored
  have isAfter : next.db = after _ state.db := commits.db
  have lawful : Lawful cfg call state.db (state.session committer).state :=
    commits.promised
  obtain ⟨rest, isCommit⟩ := commits.isCommit
  have isCall := claiming.isCall
  have running := claiming.running
  have noted := claiming.found
  have may := claiming.may
  have unwritten := claiming.unwritten
  rw [noted_commits commits] at noted may
  rw [isAfter] at stored
  by_cases same : process = committer
  · subst same
    rw [commits.call, ← commits.isCall] at isCall
    rw [commits.committed] at unwritten
    obtain ⟨before, nothing⟩ := List.append_eq_nil_iff.mp unwritten
    rw [nothing] at stored
    exact current process request seen
      ⟨isCall, by simp [isCommit, Prog.idle], noted, may, before⟩ row stored
  · rw [commits.others process same] at isCall running unwritten
    have before : Claiming state process request seen :=
      ⟨isCall, running, noted, may, unwritten⟩
    cases isAbout : about seen.queueName
        (state.session committer).state.pending with
    | none =>
        rw [get_after_unwritten isAbout] at stored
        exact current process request seen before row stored
    | some write =>
        have isQueue : write.queueName = some seen.queueName := by
          simpa using List.find?_some isAbout
        have member := List.mem_of_find?_eq_some isAbout
        rw [get_after_written lawful.once isAbout] at stored
        obtain ⟨_, absent⟩ | ⟨left, isLeft, own, granted⟩ :=
          (rightful write member).row isQueue
        · rw [absent] at stored
          cases stored
        · rw [isLeft] at stored
          cases stored
          right
          rw [own]
          by_contra foreign
          exact steady.untouched committer call commits.committing process
            same request seen before foreign write member
            (by rw [granted]; exact Option.some_ne_none _) isQueue

/-- The row says what was granted last to the worker it names. -/
def Stored (db : Db) (journal : List Entry) : Prop :=
  ∀ queue row, db.leases.get queue = some row →
    latest queue row.daemonId journal = some row.expiresAt

/-- No worker was granted a queue for longer than it was granted it last. -/
def Ordered (journal : List Entry) : Prop :=
  ∀ queue worker expiry, expiry ∈ grants queue worker journal →
    ∃ last, latest queue worker journal = some last ∧ expiry ≤ last

theorem stored_commit {call : Call} {db : Db} {journal : List Entry}
    {writes : List Write} (stored : Stored db journal)
    (once : (writes.filterMap Write.queueName).Nodup)
    (rightful : ∀ write ∈ writes, Rightful call db write) :
    Stored (after writes db) (journal ++ [(call, writes)]) := by
  intro queue row found
  rw [latest_append]
  cases isAbout : about queue writes with
  | none =>
      rw [get_after_unwritten isAbout] at found
      simp only [releases, grantOf, isAbout, Option.bind_none, reduceCtorEq,
        decide_false, Bool.and_false, Bool.false_eq_true, if_false, ite_self,
        Option.none_or]
      exact stored queue row found
  | some write =>
      have isQueue : write.queueName = some queue := by
        simpa using List.find?_some isAbout
      have mine := rightful write (List.mem_of_find?_eq_some isAbout)
      rw [get_after_written once isAbout] at found
      obtain ⟨_, absent⟩ | ⟨left, isLeft, own, granted⟩ := mine.row isQueue
      · rw [absent] at found
        cases found
      · rw [isLeft] at found
        cases found
        have notDelete : write ≠ .deleteLease queue := by
          rintro rfl
          cases granted
        simp [releases, grantOf, own, isAbout, notDelete, granted]

/-- The invariant of the asynchronous workers. -/
structure Serial (state : World n) : Prop where
  accounted : Accounted state.db state.journal
  timed : Timed state
  current : Current state
  stored : Stored state.db state.journal
  ordered : Ordered state.journal

theorem Serial.knows (serial : Serial state)
    {process : Fin n} {call : Call} {rest : Prog Db Write Lock Return}
    (isCall : (state.session process).call = some call)
    (isCommit : (state.session process).prog = .commit rest)
    (first : (state.session process).state.written = []) :
    ∀ request seen, call = .claim request →
      .remark (.found seen) ∈ (state.session process).state.noted →
      (∀ now, .remark (.began now) ∈ (state.session process).state.noted →
        MayTake request now seen) →
      ∀ row, state.db.leases.get seen.queueName = some row →
        row = seen ∨ row.daemonId = request.daemonId := by
  rintro request seen rfl noted may
  exact serial.current process request seen
    ⟨isCall, by simp [isCommit, Prog.idle], noted, may, first⟩

theorem Serial.rightful (serial : Serial state)
    (good : (leases cfg).Good Returns state) (isAsync : cfg.backend = .async)
    {process : Fin n} {call : Call} {rest : Prog Db Write Lock Return}
    (isCall : (state.session process).call = some call)
    (isCommit : (state.session process).prog = .commit rest) :
    ∀ write ∈ (state.session process).state.pending,
      Rightful call state.db write := by
  intro write member
  have lawful := good.atCommit isCall isCommit
  apply (lawful.legal write member).rightful_async isAsync
  · exact serial.timed process
  · exact serial.knows isCall isCommit lawful.first

theorem ordered_commits (serial : Serial state)
    (isAsync : cfg.backend = .async) {committer : Fin n} {call : Call}
    (commits : (leases cfg).Commits state next action committer call)
    (steady : Steady state action) : Ordered next.journal := by
  have lawful : Lawful cfg call state.db (state.session committer).state :=
    commits.promised
  obtain ⟨rest, isCommit⟩ := commits.isCommit
  intro queue worker expiry member
  rw [commits.journal] at member ⊢
  obtain ⟨kept, cases_⟩ := grants_commit member
  rw [latest_append, kept]
  simp only [Bool.false_eq_true, if_false]
  cases isGrant : grantOf queue worker
      (call, (state.session committer).state.pending) with
  | none =>
      rcases cases_ with old | new
      · exact serial.ordered queue worker expiry old
      · rw [isGrant] at new
        cases new
  | some newest =>
      refine ⟨newest, rfl, ?_⟩
      rcases cases_ with old | new
      · unfold grantOf at isGrant
        split at isGrant
        · rename_i own
          have isWorker : call.daemonId = worker := own
          subst isWorker
          obtain ⟨write, isAbout, granted⟩ :=
            Option.bind_eq_some_iff.mp isGrant
          have isQueue : write.queueName = some queue := by
            simpa using List.find?_some isAbout
          have isWrite := List.mem_of_find?_eq_some isAbout
          rcases (lawful.legal write isWrite).granted_async isAsync
            (serial.knows commits.isCall isCommit lawful.first) isQueue
            granted with ⟨now, length, began, asks, rfl⟩ |
              ⟨row, found, isOwn, rfl⟩
          · exact steady.lasting committer call commits.committing now
              length began asks write isWrite queue isQueue expiry old
          · obtain ⟨last, isLast, bound⟩ :=
              serial.ordered queue call.daemonId expiry old
            have isLatest := serial.stored queue row found
            rw [isOwn, isLast] at isLatest
            cases isLatest
            exact bound
        · cases isGrant
      · rw [isGrant] at new
        cases new
        exact le_refl _

theorem serial_step (isAsync : cfg.backend = .async)
    (good : (leases cfg).Good Returns state) (serial : Serial state)
    (steady : Steady state action)
    (taken : (system cfg).act state action = some next) : Serial next := by
  rcases good.act_cases taken with ⟨committer, call, commits⟩ | quiet
  · have lawful : Lawful cfg call state.db (state.session committer).state :=
      commits.promised
    obtain ⟨rest, isCommit⟩ := commits.isCommit
    have rightful := serial.rightful good isAsync commits.isCall isCommit
    have isAfter : next.db = after _ state.db := commits.db
    constructor
    · rw [isAfter, commits.journal]
      exact accounted_commit serial.accounted lawful.once rightful
    · apply timed_commits commits _ serial.timed
      rw [isAfter]
      exact clock_after rightful
    · exact current_commits commits rightful steady serial.current
    · rw [isAfter, commits.journal]
      exact stored_commit serial.stored lawful.once rightful
    · exact ordered_commits serial isAsync commits steady
  · obtain ⟨same, later⟩ := drift_cases quiet.db
    constructor
    · rw [quiet.journal]
      exact serial.accounted.drift same later
    · exact timed_quiet quiet serial.timed
    · exact current_quiet quiet serial.current
    · rw [quiet.journal, Stored, same]
      exact serial.stored
    · rw [quiet.journal]
      exact serial.ordered

theorem serial_initial (clock : Time) :
    Serial (System.initial { clock } : World n) where
  accounted := accounted_initial clock
  timed := by
    intro process now noted
    cases noted
  current := by
    intro process request seen claiming
    cases claiming.isCall
  stored := by
    intro queue row found
    cases found
  ordered := by
    intro queue worker expiry member
    cases member

end Async

/-- Where nobody is granted a lease between the read and the write of a claim
and nobody shortens its own, no worker gets a lease that was granted to another
until a later time. -/
theorem async_lease_exclusive (cfg : Config) (isAsync : cfg.backend = .async)
    {n : Nat} {state : World n} (reached : Reached cfg Steady state) :
    Exclusive Granted state := by
  obtain ⟨clock, run⟩ := reached
  have good : (leases cfg).Good Returns state :=
    Setting.sound (leases_verified cfg) trivial run
  have serial : Serial state := by
    apply (leases_verified cfg).induct trivial _ _ run
    · exact serial_initial clock
    · intro state action next good serial steady taken
      exact serial_step isAsync good serial steady taken
  apply exclusive_of_rightful good serial.accounted
  · intro process call rest isCall isCommit
    exact serial.rightful good isAsync isCall isCommit
  · exact serial.ordered

/-- A check of one action that is enough for `Steady`. -/
def staysSteady {n : Nat} (state : World n)
    (action : Action Write Call n) : Bool :=
  (System.committing state action).all fun committing =>
    let mine := (state.session committing.1).state
    ((List.finRange n).all fun process =>
      process = committing.1 || (state.session process).prog.idle ||
        (state.session process).state.noted.all fun noted =>
          match noted with
          | .remark (.found seen) =>
              mine.pending.all fun write =>
                write.queueName ≠ some seen.queueName
          | _ => true) &&
    mine.noted.all fun noted =>
      match noted with
      | .remark (.began now) =>
          committing.2.asks.all fun length =>
            mine.pending.all fun write =>
              write.queueName.all fun queue =>
                (grants queue committing.2.daemonId state.journal).all
                  fun expiry => expiry ≤ now + seconds length
      | _ => true

theorem steady_of_check {n : Nat} (state : World n)
    (action : Action Write Call n)
    (checked : staysSteady state action = true) : Steady state action := by
  constructor
  · intro committer call committing process other request seen claiming _
      write member _
    simp only [staysSteady, committing, Option.all_some, Bool.and_eq_true,
      List.all_eq_true] at checked
    have free := checked.1 process (List.mem_finRange process)
    simp only [other, claiming.running, decide_false, Bool.false_or,
      List.all_eq_true] at free
    have unwritten := List.all_eq_true.mp (free _ claiming.found) write member
    simpa using unwritten
  · intro committer call committing now length began asks write member queue
      isQueue expiry isGrant
    simp only [staysSteady, committing, Option.all_some, Bool.and_eq_true,
      List.all_eq_true] at checked
    have lasts := checked.2 _ began
    simp only [asks, Option.all_some, List.all_eq_true] at lasts
    have queued := lasts write member
    rw [isQueue, Option.all_some, List.all_eq_true] at queued
    exact of_decide_eq_true (queued expiry isGrant)

def asynchronous : Config := ⟨.postgresql, .async⟩

/-- The second worker takes an expired lease over. -/
def takingOverAsync : List (Action Write Call 2) :=
  Action.calls 0 (claimOf 0) 6 ++ [.ambient (.tick 40000000)] ++
    Action.calls 1 (claimOf 1) 4

theorem async_lease_exclusive_takingOver :
    ∃ state : World 2, Reached asynchronous Steady state ∧
      (∃ rest, (state.session 1).prog = .commit rest) ∧
      (state.session 1).state.pending ≠ [] ∧
      grants "default" "a" state.journal = [30000000] ∧
      Exclusive Granted state := by
  have ran : (checkedTo asynchronous staysSteady
      takingOverAsync).isSome = true := rfl
  have reached := reached_checkedTo steady_of_check ran
  exact ⟨_, reached, ⟨_, rfl⟩, List.cons_ne_nil _ _, rfl,
    async_lease_exclusive asynchronous rfl reached⟩

/-- The lease of the first worker has expired.  The second one reads it, the
first one claims it again, and the second one writes what it read. -/
def claimedByBoth : List (Action Write Call 2) :=
  Action.calls 0 (claimOf 0) 6 ++ [.ambient (.tick 40000000)] ++
    Action.calls 1 (claimOf 1) 2 ++ Action.calls 0 (claimOf 0) 6 ++
    List.replicate 2 (.step 1)

theorem async_lease_taken_while_held :
    ∃ state : World 2, Reached asynchronous (fun _ _ => True) state ∧
      ¬Exclusive Granted state := by
  have ran : (checkedTo asynchronous (fun _ _ => true)
      claimedByBoth).isSome = true := rfl
  refine ⟨_, reached_checkedTo (fun _ _ _ => trivial) ran, ?_⟩
  intro exclusive
  have granted : Granted ((checkedTo asynchronous (fun _ _ => true)
      claimedByBoth).get ran) "default" "a" 70000000 := List.mem_cons_self
  have expired := (exclusive.claims 1 _ _ _ rfl rfl
    List.mem_cons_self).2 "a" 70000000 granted (by decide)
  have clock : ((checkedTo asynchronous (fun _ _ => true)
      claimedByBoth).get ran).db.clock = 40000000 := rfl
  rw [clock] at expired
  exact absurd expired (by decide)

end Sqlery.Lease
