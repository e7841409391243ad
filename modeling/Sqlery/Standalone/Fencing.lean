import Sqlery.Standalone.Attempts

/-!
# The fence of a completion

A completion that presents an attempt handle commits nothing before it has
closed the attempt the handle names.  This needs no invariant of the data: the
close is the first write of the first transaction the call commits.
-/

namespace Sqlery.Standalone

open ReadCommitted
open Setting (stable_and)
open Script

/-- The handle a completion presents. -/
def Call.presents : Call → Option AttemptHandle
  | .markJobSuccess _ _ _ attempt => attempt
  | .markJobFailed _ _ _ _ _ attempt => attempt
  | _ => none

/-- The handle names an attempt. -/
def Names (handle : AttemptHandle) (db : Db) : Prop :=
  ∃ attempt, db.attempts.get handle.id = some attempt ∧
    handle.names attempt = true

/-- The writes close the attempt. -/
def Closes (id : AttemptId) (writes : List Write) : Prop :=
  ∃ write ∈ writes, closes id write

/-- Every commit of a completion closes the attempt presented, or comes after
one that did. -/
def fences (cfg : Config) : Setting Db Write Lock Call Return where
  sys := system cfg
  inv := fun _ => True
  promise call := {
    commits := fun db state => ∀ handle, call.presents = some handle →
      Names handle db ∧ Closes handle.id (state.written ++ state.pending)
    instant := fun _ _ _ => True
    notes := fun _ _ _ => True }
  commit_inv := fun _ _ _ _ _ _ => trivial
  instant_inv := fun _ _ _ _ _ _ => trivial
  ambient_inv := fun _ _ _ _ => trivial

section Fences

variable {cfg : Config} {call : Call} {handle : AttemptHandle}

theorem Names.kept {db : Db} (names : Names handle db)
    (writes : List Write) : Names handle (after writes db) := by
  obtain ⟨attempt, found, isNamed⟩ := names
  obtain ⟨now, isNow, _, sameToken, _⟩ := attempts_after_present writes found
  refine ⟨now, isNow, ?_⟩
  have keyed : now.id = attempt.id :=
    (Table.key_of_get isNow).trans (Table.key_of_get found).symm
  simpa [AttemptHandle.names, keyed, sameToken] using isNamed

theorem names_lasting : (fences cfg).Lasting (Names handle) where
  commits := fun _ _ state _ _ _ names => names.kept state.pending
  instant := fun _ _ _ writes _ _ names => names.kept writes
  ambient := fun write _ _ _ names => names.kept [write]

theorem free_stable : (fences cfg).Stable fun _ _ => True :=
  fun _ _ _ _ _ _ holds => holds

/-- Inside a transaction nothing is promised. -/
theorem free_within {β : Type} {script : Sql β} (within : Within script) :
    (fences cfg).Spec call (fun _ _ => True) script (fun _ _ _ => True)
      fun _ _ => True := by
  have safe : ∀ (program : Prog Db Write Lock (Except Exc β)) db state,
      program.Within → (fences cfg).Safe call (fun _ _ _ => True) program db
        state := by
    intro program
    induction program with
    | done value => exact fun _ _ _ _ _ _ => trivial
    | halt => exact fun _ _ _ => trivial
    | query read remark next ih =>
        intro db state within after _ _
        exact ⟨trivial, ih _ _ _ (within _)⟩
    | exec statement next ih =>
        intro db state within snapshot current _ _ _ _ others effect _
        exact ⟨trivial, ih _ _ _ (within _)⟩
    | commit next => exact fun _ _ within => within.elim
    | rollback next => exact fun _ _ within => within.elim
  intro db state _ _ _
  refine Setting.Safe.mono ?_ (safe script.run db state within)
  intro value _ _ _ _
  cases value <;> trivial

/-- The transaction has written nothing. -/
def Blank (_ : Db) (state : Loc) : Prop := state.pending = []

theorem blank_stable : (fences cfg).Stable Blank :=
  fun _ _ _ _ _ _ holds => holds

theorem blank_read {β : Type} (query : Db → β) {fails : Db → Loc → Prop} :
    (fences cfg).Spec call Blank (read query : Sql β) (fun _ => Blank)
      fails := by
  refine .observe blank_stable (fun _ => blank_stable) ?_
  intro db state _ _ blank
  exact ⟨trivial, blank⟩

/-- A session leaves nothing uncommitted behind. -/
theorem blank_session {β : Type} {body : Sql β} {pre : Db → Loc → Prop}
    (spec : (fences cfg).Spec call pre body (fun _ _ _ => True)
      fun _ _ => True) :
    (fences cfg).Spec call pre (session body) (fun _ => Blank) Blank :=
  .session spec (fun _ => free_stable) free_stable (fun _ => blank_stable)
    blank_stable (fun _ _ _ _ _ => rfl) fun _ _ _ _ => rfl

/-- A call that presents nothing has nothing to keep. -/
theorem free_call (free : call.presents = none)
    (program : Prog Db Write Lock Return) :
    (fences cfg).Triple call (fun _ state => state = {}) program
      fun _ _ _ => True := by
  intro db state inv guarded _
  have kept : (fences cfg).Kept call fun _ _ => True :=
    ⟨free_stable, fun _ _ _ _ => trivial, fun _ _ _ _ _ => trivial,
      fun _ _ _ _ _ => trivial⟩
  apply Setting.Safe.always kept (fun _ _ _ _ => trivial)
    (fun _ _ _ _ => trivial) _ (fun _ _ _ => trivial) program inv guarded
    trivial
  intro db state _
  refine ⟨?_, trivial⟩
  intro handle presents
  rw [free] at presents
  cases presents

/-- The attempt presented is closed in the transaction. -/
def ClosedHere (handle : AttemptHandle) (db : Db) (state : Loc) : Prop :=
  Names handle db ∧ Closes handle.id state.pending

/-- The attempt presented was closed in an earlier transaction. -/
def ClosedBefore (handle : AttemptHandle) (db : Db) (state : Loc) : Prop :=
  Names handle db ∧ Closes handle.id state.written

theorem closedHere_kept : (fences cfg).Kept call (ClosedHere handle) where
  stable := fun _ _ _ env _ _ holds =>
    ⟨names_lasting.env env holds.1, holds.2⟩
  note := fun _ _ _ holds => holds
  extend := by
    rintro db state writes locks ⟨names, write, member, isClose⟩
    exact ⟨names, write, List.mem_append_left _ member, isClose⟩
  instant := fun _ _ writes _ holds => ⟨holds.1.kept writes, holds.2⟩

theorem closedBefore_kept : (fences cfg).Kept call (ClosedBefore handle) where
  stable := fun _ _ _ env _ _ holds =>
    ⟨names_lasting.env env holds.1, holds.2⟩
  note := fun _ _ _ holds => holds
  extend := fun _ _ _ _ holds => holds
  instant := fun _ _ writes _ holds => ⟨holds.1.kept writes, holds.2⟩

theorem Closes.append_left {id : AttemptId} {writes : List Write}
    (closed : Closes id writes) (more : List Write) :
    Closes id (writes ++ more) := by
  obtain ⟨write, member, isClose⟩ := closed
  exact ⟨write, List.mem_append_left _ member, isClose⟩

theorem Closes.append_right {id : AttemptId} {writes : List Write}
    (closed : Closes id writes) (earlier : List Write) :
    Closes id (earlier ++ writes) := by
  obtain ⟨write, member, isClose⟩ := closed
  exact ⟨write, List.mem_append_right _ member, isClose⟩

/-- After the close is committed the call is free. -/
theorem free_after {β : Type} (presents : call.presents = some handle)
    (script : Sql β) :
    (fences cfg).Spec call (ClosedBefore handle) script (fun _ _ _ => True)
      fun _ _ => True := by
  intro db state inv guarded holds
  refine Setting.Safe.mono ?_ (Setting.Safe.always closedBefore_kept
    (fun _ _ _ _ => trivial) (fun _ _ _ _ => trivial) ?_
    (fun _ _ holds => holds) script.run inv guarded holds)
  · intro value _ _ _ _
    cases value <;> trivial
  · rintro db state ⟨names, closed⟩
    refine ⟨?_, names.kept state.pending, closed.append_left _⟩
    intro other isOther
    rw [presents] at isOther
    cases isOther
    exact ⟨names, closed.append_left _⟩

theorem decideClose_ok {rowcount : Nat}
    (isOk : decideClose rowcount handle = .ok ()) : rowcount = 1 := by
  unfold decideClose at isOk
  split at isOk
  · cases isOk
  · rename_i single
    simpa using single

/-- The close of a handle touches attempts the handle names. -/
theorem closeExact_names (outcome : Outcome) (now : Time) :
    (fences cfg).Spec call Blank (closeExactStmt cfg handle outcome now)
      (fun count db state => count = 1 → ClosedHere handle db state)
      fun _ _ => True := by
  have kept : (fences cfg).Kept call (ClosedHere handle) := closedHere_kept
  have stable : ∀ count : Nat, (fences cfg).Stable fun db state =>
      count = 1 → ClosedHere handle db state :=
    fun count => Setting.stable_when kept.stable
  have closes : (fences cfg).Spec call Blank
      (exec (dml Db.attempts cfg
        (fun _ attempt => handle.names attempt && attempt.isOpen)
        fun attempt => .closeAttempt attempt.id attempt.jobId now outcome) :
        Sql (List Attempt))
      (fun closed db state => closed.length = 1 → ClosedHere handle db state)
      fun _ _ => True := by
    refine .exec blank_stable (fun closed => stable closed.length) ?_
    intro snapshot current state others effect _ _ _ _ _ blank ran
    cases ran
    refine ⟨trivial, ?_⟩
    intro single
    obtain ⟨attempt, isClosed⟩ := List.exists_mem_of_length_pos
      (lt_of_lt_of_eq Nat.one_pos single.symm)
    dsimp only at isClosed
    obtain ⟨isCurrent, isAdmitted, _⟩ := mem_targets_iff.mp isClosed
    have isNamed : handle.names attempt = true :=
      (Bool.and_eq_true _ _ ▸ isAdmitted).1
    have isId : attempt.id = handle.id := by
      simp only [AttemptHandle.names, Bool.and_eq_true,
        decide_eq_true_eq] at isNamed
      exact isNamed.1
    have unwritten : (fences cfg).sys.view current state = current := by
      simp only [System.view]
      rw [blank]
      rfl
    rw [unwritten, isId] at isCurrent
    exact ⟨⟨attempt, isCurrent, isNamed⟩, _,
      List.mem_append_right _ (List.mem_map_of_mem isClosed),
      attempt.jobId, now, outcome, isId ▸ rfl⟩
  exact .bind free_stable closes fun closed =>
    .pure (stable closed.length) fun _ _ _ _ holds => holds

theorem closeAttempt_names (job : JobId) (outcome : Outcome) :
    (fences cfg).Spec call Blank
      (closeAttempt cfg job (some handle) outcome)
      (fun _ => ClosedHere handle) fun _ _ => True := by
  have kept : (fences cfg).Kept call (ClosedHere handle) := closedHere_kept
  apply Setting.Spec.bind free_stable (blank_read Db.clock)
  intro now
  apply Setting.Spec.bind free_stable (closeExact_names outcome now)
  intro count
  have stable : (fences cfg).Stable fun db state =>
      count = 1 → ClosedHere handle db state :=
    Setting.stable_when kept.stable
  cases isOk : decideClose count handle with
  | error exception => exact .raise stable fun _ _ _ _ => trivial
  | ok _ =>
      exact .pure stable fun _ _ _ _ holds => holds (decideClose_ok isOk)

theorem within_updateLive (admits : Db → Job → Bool) (set : Job → Job) :
    Within (updateLive cfg admits set) := by
  apply Within.bind (Within.exec _)
  intro rows
  exact Within.pure _

theorem within_finishIn (fence : MoveFence) (status : Status)
    (values : Values) : Within (finishIn cfg fence status values) := by
  apply Within.bind (Within.read _)
  intro now
  apply Within.bind
  · unfold lockForMove
    cases cfg.dialect with
    | postgresql => exact Within.exec _
    | sqlite => exact Within.read _
  · intro locked
    split
    · exact Within.pure false
    · apply Within.bind (Within.exec _)
      intro inserted
      apply Within.bind (Within.bind (Within.exec _) fun _ => Within.pure _)
      intro deleted
      split
      · apply Within.bind (Within.read _)
        intro later
        apply Within.bind (Within.bind (Within.exec _) fun _ => Within.pure _)
        intro _
        exact Within.pure true
      · exact Within.raise _

theorem within_recordOutcome (jobId : JobId) (expectedVersion : Option Nat)
    (status : Status) (values : Values) :
    Within (recordOutcome cfg jobId expectedVersion status values) := by
  unfold recordOutcome
  split
  · apply Within.bind (within_updateLive _ _)
    intro updated
    exact Within.pure _
  · exact within_finishIn _ _ _

theorem commit_closed (presents : call.presents = some handle)
    {fails : Db → Loc → Prop} :
    (fences cfg).Spec call (ClosedHere handle) (commit : Sql Unit)
      (fun _ => ClosedBefore handle) fails := by
  have here : (fences cfg).Kept call (ClosedHere handle) := closedHere_kept
  have before : (fences cfg).Kept call (ClosedBefore handle) :=
    closedBefore_kept
  refine .commit here.stable before.stable ?_
  rintro db state _ _ ⟨names, closed⟩
  refine ⟨?_, names.kept state.pending, closed.append_right _⟩
  intro other isOther
  rw [presents] at isOther
  cases isOther
  exact ⟨names, closed.append_right _⟩

theorem fencedUpdate_fenced (presents : call.presents = some handle)
    (jobId : JobId) (expectedVersion : Option Nat) (status : Status)
    (values : Values) (outcome : Outcome) (parent : Option JobId) :
    (fences cfg).Spec call Blank
      (fencedUpdate cfg jobId expectedVersion status values (some handle)
        outcome parent) (fun _ _ _ => True) fun _ _ => True := by
  have kept : (fences cfg).Kept call (ClosedHere handle) := closedHere_kept
  apply Setting.Spec.bind free_stable (closeAttempt_names jobId outcome)
  intro _
  have within : Within
      (recordOutcome cfg jobId expectedVersion status values) :=
    within_recordOutcome jobId expectedVersion status values
  have records : (fences cfg).Spec call (ClosedHere handle)
      (recordOutcome cfg jobId expectedVersion status values)
      (fun _ => ClosedHere handle) fun _ _ => True :=
    (((free_within within).keep kept within).weaken
      fun _ _ _ holds => ⟨trivial, holds⟩).strengthen
      (fun _ _ _ _ holds => holds.2) fun _ _ _ _ => trivial
  apply Setting.Spec.bind free_stable records
  intro applied
  split
  · apply Setting.Spec.bind free_stable (commit_closed presents)
    intro _
    exact free_after presents _
  · have undone : (fences cfg).Spec call (ClosedHere handle)
        (rollback : Sql Unit) (fun _ _ _ => True) fun _ _ => True :=
      .rollback kept.stable free_stable fun _ _ _ _ => trivial
    apply Setting.Spec.bind free_stable undone
    intro _
    cases expectedVersion with
    | none => exact free_within (Within.pure none)
    | some version => exact free_within (Within.raise _)

theorem within_openAttemptIfQueued (job : Job) :
    Within (openAttemptIfQueued job) := by
  unfold openAttemptIfQueued
  split
  · exact Within.read _
  · exact Within.pure none

theorem getJobById_blank (jobId : JobId) :
    (fences cfg).Spec call (fun _ _ => True) (getJobById cfg jobId)
      (fun _ => Blank) Blank := by
  apply blank_session
  apply free_within
  apply Within.bind (Within.read _)
  intro found
  cases found with
  | some job =>
      apply Within.bind (within_openAttemptIfQueued job)
      intro attempt
      exact Within.pure _
  | none =>
      apply Within.bind (Within.read _)
      intro finished
      cases finished with
      | some row => exact Within.pure _
      | none =>
          dsimp only
          split
          · exact Within.read _
          · exact Within.pure none

theorem markJob_fenced (presents : call.presents = some handle)
    (jobId : JobId) (expectedVersion : Option Nat) (outcome : Outcome)
    (mark : Job → Time → Job) (values : Job → Values) :
    (fences cfg).Spec call (fun _ _ => True)
      (markJob cfg jobId expectedVersion (some handle) outcome mark values)
      (fun _ _ _ => True) fun _ _ => True := by
  have looked : (fences cfg).Spec call (fun _ _ => True)
      (getJobById cfg jobId) (fun _ => Blank) fun _ _ => True :=
    (getJobById_blank jobId).strengthen (fun _ _ _ _ holds => holds)
      fun _ _ _ _ => trivial
  have free : ∀ {β : Type} {script : Sql β}, Within script →
      (fences cfg).Spec call Blank script (fun _ _ _ => True)
        fun _ _ => True :=
    fun within => (free_within within).weaken fun _ _ _ _ => trivial
  apply Setting.Spec.bind free_stable looked
  intro found
  match found with
  | none => exact free (Within.pure none)
  | some (.staged row) => exact free (Within.pure _)
  | some (.finished row) =>
      apply free
      dsimp only
      unfold alreadyFinished
      split
      · exact Within.raise _
      · exact Within.pure _
  | some (.live job) =>
      refine (blank_session ?_).strengthen (fun _ _ _ _ _ => trivial)
        fun _ _ _ _ => trivial
      apply Setting.Spec.bind free_stable (blank_read _)
      intro current
      cases current with
      | none => exact free (Within.pure _)
      | some row =>
          apply Setting.Spec.bind free_stable (blank_read _)
          intro running
          apply Setting.Spec.bind free_stable (blank_read _)
          intro now
          exact fencedUpdate_fenced presents jobId expectedVersion _ _
            outcome _

theorem fences_verified (cfg : Config) :
    (fences cfg).Verified fun _ _ _ _ => True := by
  intro call
  cases presents : call.presents with
  | none => exact free_call presents _
  | some handle =>
      have fenced : ∀ {result : Option Found → Result}
          {script : Sql (Option Found)},
          (fences cfg).Spec call (fun _ _ => True) script
            (fun _ _ _ => True) (fun _ _ => True) →
          (fences cfg).Triple call (fun _ state => state = {})
            (result <$> script : Sql Result).run fun _ _ _ => True := by
        intro result script spec
        have mapped : (fences cfg).Spec call (fun _ _ => True)
            (result <$> script : Sql Result) (fun _ _ _ => True)
            fun _ _ => True :=
          .map spec (fun _ => free_stable) free_stable
        intro db state inv guarded _
        refine Setting.Safe.mono ?_ (mapped db state inv guarded trivial)
        intro _ _ _ _ _
        trivial
      cases call with
      | markJobSuccess jobId output version attempt =>
          cases presents
          exact fenced (markJob_fenced rfl _ _ _ _ _)
      | markJobFailed jobId error traceback version reason attempt =>
          cases presents
          exact fenced (markJob_fenced rfl _ _ _ _ _)
      | _ => cases presents

end Fences

/-! ## Whole runs -/

section Runs

variable {cfg : Config} {n : Nat} {state next : World n}
variable {allowed : World n → Action Write Call n → Prop}
variable {action : Action Write Call n}

theorem Reached.fenced (reached : Reached cfg allowed state) :
    (fences cfg).Good (fun _ _ _ _ => True) state := by
  obtain ⟨tasks, workers, clock, run⟩ := reached
  exact Setting.sound (fences_verified cfg) trivial run

/-- What a completion has committed is nothing, or it begins with the close of
the attempt presented. -/
def Fenced (state : World n) : Prop :=
  ∀ process call handle, (state.session process).call = some call →
    call.presents = some handle →
    (state.session process).state.written = [] ∨
      Closes handle.id (state.session process).state.written

theorem fenced_step (good : (fences cfg).Good (fun _ _ _ _ => True) state)
    (fenced : Fenced state)
    (taken : (system cfg).act state action = some next) : Fenced next := by
  intro process call handle isCall presents
  rcases good.act_cases taken with ⟨committer, other, commits⟩ | quiet
  · by_cases same : process = committer
    · subst same
      rw [commits.call] at isCall
      cases isCall
      rw [commits.committed]
      exact Or.inr (commits.promised handle presents).2
    · rw [commits.others process same] at isCall ⊢
      exact fenced process call handle isCall presents
  · cases quiet.sessions process with
    | rests rests =>
        rw [rests.call] at isCall
        rw [rests.written]
        exact fenced process call handle isCall presents
    | remarks other remarks _ isOther _ sameCall isNoted _ =>
        rw [sameCall, ← isOther] at isCall
        rw [isNoted]
        exact fenced process call handle isCall presents
    | starts other _ _ isFresh =>
        rw [isFresh]
        exact Or.inl rfl

theorem Reached.isFenced (reached : Reached cfg allowed state) :
    Fenced state := by
  apply reached.induct
  · intro tasks workers clock process call handle isCall
    cases isCall
  · intro state action next reached fenced _ taken
    exact fenced_step reached.fenced fenced taken

/-- The attempts the committed transactions closed, in order. -/
def closedIn (journal : List (Call × List Write)) : List AttemptId :=
  journal.flatMap fun entry => entry.2.filterMap closedId

/-- No attempt was closed twice, and what was closed is closed. -/
structure ClosedOnce (state : World n) : Prop where
  nodup : (closedIn state.journal).Nodup
  closed : ∀ id ∈ closedIn state.journal, ∃ attempt,
    state.db.attempts.get id = some attempt ∧ attempt.isOpen = false

theorem mem_closedIds {writes : List Write} {id : AttemptId} :
    id ∈ writes.filterMap closedId ↔ Closes id writes := by
  rw [List.mem_filterMap]
  constructor
  · rintro ⟨write, member, isId⟩
    cases write <;> cases isId
    exact ⟨_, member, _, _, _, rfl⟩
  · rintro ⟨write, member, job, now, outcome, rfl⟩
    exact ⟨_, member, rfl⟩

/-- A lawful transaction closes open attempts. -/
theorem Lawful.closesOpen {dialect : Dialect} {call : Call} {stage : Stage}
    {db : Db} {local_ : Loc} (lawful : Lawful dialect call stage db local_)
    {id : AttemptId} (closed : Closes id local_.pending) :
    ∃ attempt, db.attempts.get id = some attempt ∧ attempt.isOpen = true := by
  obtain ⟨write, member, job, now, outcome, rfl⟩ := closed
  obtain ⟨attempt, found, runs⟩ := lawful.closed id job now outcome member
  exact ⟨attempt, found, (runs_iff.mp runs).2⟩

/-- A closed attempt stays as it is. -/
theorem Lawful.keepsClosed {dialect : Dialect} {call : Call} {stage : Stage}
    {db : Db} {local_ : Loc} (lawful : Lawful dialect call stage db local_)
    {id : AttemptId} {attempt : Attempt}
    (found : db.attempts.get id = some attempt)
    (isClosed : attempt.isOpen = false) :
    (after local_.pending db).attempts.get id = some attempt := by
  apply attempts_after_kept found
  intro write member isClose
  obtain ⟨old, isOld, isOpen⟩ := lawful.closesOpen ⟨write, member, isClose⟩
  rw [found] at isOld
  cases isOld
  rw [isClosed] at isOpen
  cases isOpen

theorem closedOnce_step
    (good : (backend cfg).Good (Returns cfg) state)
    (once : ClosedOnce state)
    (taken : (system cfg).act state action = some next) :
    ClosedOnce next := by
  rcases good.act_cases taken with ⟨process, call, commits⟩ | quiet
  · obtain ⟨stage, _, lawful⟩ := commits.promised
    have isAfter : next.db = after _ state.db := commits.db
    have grows : closedIn next.journal = closedIn state.journal ++
        (state.session process).state.pending.filterMap closedId := by
      rw [commits.journal]
      simp [closedIn]
    constructor
    · rw [grows]
      refine List.nodup_append'.mpr ⟨once.nodup, lawful.closedOnce, ?_⟩
      intro id old new
      obtain ⟨attempt, found, isClosed⟩ := once.closed id old
      obtain ⟨other, isOther, isOpen⟩ :=
        lawful.closesOpen (mem_closedIds.mp new)
      rw [found] at isOther
      cases isOther
      rw [isClosed] at isOpen
      cases isOpen
    · intro id member
      rw [grows] at member
      rw [isAfter]
      rcases List.mem_append.mp member with old | new
      · obtain ⟨attempt, found, isClosed⟩ := once.closed id old
        exact ⟨attempt, lawful.keepsClosed found isClosed, isClosed⟩
      · obtain ⟨write, isWrite, isClose⟩ := mem_closedIds.mp new
        obtain ⟨attempt, found, _⟩ :=
          lawful.closesOpen ⟨write, isWrite, isClose⟩
        exact attempts_after_closed found isWrite isClose
  · have same := sameTables_of_drifts quiet.db
    constructor
    · rw [quiet.journal]
      exact once.nodup
    · rw [quiet.journal, same.attempts]
      exact once.closed

theorem Reached.closedOnce (reached : Reached cfg allowed state) :
    ClosedOnce state := by
  apply reached.induct
  · intro tasks workers clock
    exact ⟨List.nodup_nil, by simp [System.initial, closedIn]⟩
  · intro state action next reached once _ taken
    exact closedOnce_step reached.good once taken

/-- The rows a completion may touch are the same. -/
structure SameRows (db next : Db) : Prop where
  live : next.live = db.live
  history : next.history = db.history
  ready : next.ready = db.ready
  blocked : next.blocked = db.blocked
  attempts : next.attempts = db.attempts

end Runs

/-- A completion that presents a handle changes rows only by committing the
close of the attempt the handle names, which is open then, or afterwards; if it
never does, it has committed nothing.  An attempt is closed once and does not
change any more. -/
theorem completion_fenced (cfg : Config) {n : Nat} {state : World n}
    (reached : Reached cfg System.anyStep state) :
    (∀ process call handle, (state.session process).call = some call →
      call.presents = some handle →
      ((state.session process).state.written = [] ∨
        Closes handle.id (state.session process).state.written) ∧
      ∀ next, (system cfg).act state (.step process) = some next →
        SameRows state.db next.db ∨
          ∃ attempt, state.db.attempts.get handle.id = some attempt ∧
            handle.names attempt = true ∧
            (Closes handle.id (state.session process).state.written ∨
              attempt.isOpen = true ∧
                Closes handle.id (state.session process).state.pending)) ∧
    (∀ action next, (system cfg).act state action = some next →
      ∀ attempt ∈ state.db.attempts.rows, attempt.isOpen = false →
        attempt ∈ next.db.attempts.rows) ∧
    (closedIn state.journal).Nodup := by
  refine ⟨?_, ?_, reached.closedOnce.nodup⟩
  · intro process call handle isCall presents
    refine ⟨reached.isFenced process call handle isCall presents, ?_⟩
    intro next taken
    rcases reached.good.act_cases taken with ⟨committer, other, commits⟩ |
      quiet
    · cases commits.isStep
      obtain ⟨stage, _, lawful⟩ := commits.promised
      obtain ⟨rest, isCommit⟩ := commits.isCommit
      obtain ⟨⟨attempt, found, isNamed⟩, closed⟩ :=
        reached.fenced.atCommit isCall isCommit handle presents
      refine Or.inr ⟨attempt, found, isNamed, ?_⟩
      obtain ⟨write, member, isClose⟩ := closed
      rcases List.mem_append.mp member with old | new
      · exact Or.inl ⟨write, old, isClose⟩
      · obtain ⟨same, isSame, isOpen⟩ :=
          lawful.closesOpen ⟨write, new, isClose⟩
        rw [found] at isSame
        cases isSame
        exact Or.inr ⟨isOpen, write, new, isClose⟩
    · have same := sameTables_of_drifts quiet.db
      exact Or.inl ⟨same.live, same.history, same.ready, same.blocked,
        same.attempts⟩
  · intro action next taken attempt member isClosed
    have found := Table.get_of_mem member
    rcases reached.good.act_cases taken with ⟨process, call, commits⟩ | quiet
    · obtain ⟨stage, _, lawful⟩ := commits.promised
      have isAfter : next.db = after _ state.db := commits.db
      rw [isAfter]
      exact Table.mem_of_get (lawful.keepsClosed found isClosed)
    · rw [(sameTables_of_drifts quiet.db).attempts]
      exact member

theorem completion_fenced_completing :
    ∃ state : World 1, Reached sqlite System.anyStep state ∧
      (state.session 0).call =
        some (.markJobSuccess 1 "done" none (some firstHandle)) ∧
      ((state.session 0).state.written = [] ∨
        Closes firstHandle.id (state.session 0).state.written) ∧
      state.db.attempts.rows.map (fun row => (row.id, row.isOpen)) =
        [(1, true)] ∧
      ∀ next, (system sqlite).act state (.step 0) = some next →
        SameRows state.db next.db ∨
          ∃ attempt, state.db.attempts.get 1 = some attempt ∧
            firstHandle.names attempt = true ∧
            (Closes 1 (state.session 0).state.written ∨
              attempt.isOpen = true ∧
                Closes 1 (state.session 0).state.pending) := by
  have ran : (ranTo sqlite completing).isSome = true := rfl
  have fenced := (completion_fenced sqlite (reached_ranTo ran)).1 0
    (.markJobSuccess 1 "done" none (some firstHandle)) firstHandle rfl rfl
  exact ⟨_, reached_ranTo ran, rfl, fenced.1, rfl, fenced.2⟩

end Sqlery.Standalone
