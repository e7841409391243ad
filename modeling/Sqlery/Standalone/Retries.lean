import Mathlib.Algebra.BigOperators.Fin
import Mathlib.Algebra.Order.BigOperators.Group.Finset
import Sqlery.Standalone.Chronicle
import Sqlery.Standalone.StaleSweep

/-!
# Retries over whole runs

`_retry_job` looks for a retry in one transaction and creates one in another.
Between the two the look-up is outstanding.  At most one retry of a job is
created as long as at most one look-up of the job is outstanding and what was
created stays visible to the next look-up.
-/

namespace Sqlery.Standalone

open ReadCommitted

/-! ## What a look-up sees -/

section Visible

variable {cfg : Config} {dialect : Dialect} {call : Call} {stage : Stage}
variable {db : Db} {state : Loc} {parent : JobId}

/-- The job has a retry among the live and the finished jobs. -/
def HasRetry (parent : JobId) (db : Db) : Prop :=
  (∃ row ∈ db.live.rows, row.parentJobId = some parent) ∨
    ∃ row ∈ db.history.rows, row.parentJobId = some parent

theorem parentJobId_shown (db : Db) (row : Job) :
    (db.shown row).parentJobId = row.parentJobId := by
  unfold Db.shown
  split
  · unfold overlayRunning
    split <;> rfl
  · rfl

theorem latestRetry_ne_none (hasRetry : HasRetry parent db) :
    db.latestRetry parent ≠ none := by
  intro isNone
  have listed : ∃ row ∈ db.jobAll, row.parentJobId = some parent := by
    rcases hasRetry with ⟨row, member, isChild⟩ | ⟨row, member, isChild⟩
    · exact ⟨db.shown row,
        List.mem_append_left _ (List.mem_map_of_mem member),
        (parentJobId_shown db row).trans isChild⟩
    · exact ⟨row, List.mem_append_right _ member, isChild⟩
  obtain ⟨row, member, isChild⟩ := listed
  have found : row ∈ db.jobAll.filter fun row =>
      row.parentJobId = some parent :=
    List.mem_filter.mpr ⟨member, by simpa using isChild⟩
  rw [Db.latestRetry, List.head?_eq_none_iff] at isNone
  have sorted := (List.perm_insertionSort (fun left right =>
    newerJob left right = true) _).mem_iff.mpr found
  rw [isNone] at sorted
  cases sorted

/-- A retry stays visible unless a job of its name replaces it. -/
theorem HasRetry.kept (hasRetry : HasRetry parent db) (inv : Inv db)
    (lawful : Lawful dialect call stage db state) :
    HasRetry parent (after state.pending db) ∨ ∃ row ∈ db.stored,
      row.parentJobId = some parent ∧ .discardLive row.id ∈ state.pending := by
  obtain ⟨row, member, isChild⟩ : ∃ row ∈ db.stored,
      row.parentJobId = some parent := by
    rcases hasRetry with ⟨row, member, isChild⟩ | ⟨row, member, isChild⟩
    · exact ⟨row, List.mem_append_left _ member, isChild⟩
    · exact ⟨row, List.mem_append_right _ member, isChild⟩
  by_cases replaced : .discardLive row.id ∈ state.pending
  · exact Or.inr ⟨row, member, isChild, replaced⟩
  · obtain ⟨now, same, place⟩ := stored_after inv lawful member replaced
    have isChildNow : now.parentJobId = some parent := by
      rw [same.spec]
      exact isChild
    exact Or.inl (place.imp (fun live => ⟨now, live.1, isChildNow⟩)
      fun finished => ⟨now, finished.1, isChildNow⟩)

end Visible

/-! ## Counting retries -/

section Counting

variable {cfg : Config} {n : Nat} {state next : World n}
variable {action : Action Write Call n} {parent : JobId}

/-- The retries of a job that the retrying calls have committed. -/
def retriesOf (parent : JobId) (journal : List (Call × List Write)) : Nat :=
  createdFor parent
    ((journal.filter fun entry => entry.1.retries).flatMap (·.2))

/-- The look-ups of a job in a call under way that found no retry and have not
been followed by one yet. -/
def outstanding (parent : JobId)
    (session : Session Db Write Lock Call Return) : Nat :=
  match session.call with
  | none => 0
  | some call =>
      if call.retries && !session.prog.idle then
        lookedUp parent session.state.noted -
          createdFor parent session.state.written
      else 0

/-- A retry of the job has been put into the staging table. -/
def StagedFor (parent : JobId) (journal : List (Call × List Write)) : Prop :=
  ∃ entry ∈ journal, ∃ row, .insertStaged row ∈ entry.2 ∧
    row.spec.parentJobId = some parent

/-- A retry of the job has been replaced by a new job of its name. -/
def ReplacedFor (parent : JobId) (state : World n) : Prop :=
  ∃ row, Inserted state row ∧ row.parentJobId = some parent ∧
    row.id ∈ state.db.replaced

/-- A look-up that finds no retry of a job is made while none of the job is
outstanding and after none of the job has been staged. -/
structure LookUpsApart (cfg : Config) (state : World n)
    (action : Action Write Call n) : Prop where
  alone : ∀ process remarks,
    (system cfg).remarking state action = some (process, remarks) →
    ∀ job, .remark (.noRetry job) ∈ remarks →
    ∀ other, outstanding job (state.session other) = 0
  unstaged : ∀ process remarks,
    (system cfg).remarking state action = some (process, remarks) →
    ∀ job, .remark (.noRetry job) ∈ remarks → ¬StagedFor job state.journal

/-- Nor is it made after a retry of the job has been replaced by a new job of
its name. -/
structure RetriesApart (cfg : Config) (state : World n)
    (action : Action Write Call n) : Prop extends
    LookUpsApart cfg state action where
  unreplaced : ∀ process remarks,
    (system cfg).remarking state action = some (process, remarks) →
    ∀ job, .remark (.noRetry job) ∈ remarks → ¬ReplacedFor job state

/-- Created retries and outstanding look-ups together are at most one, and a
created retry is visible, was staged or was replaced. -/
structure Counted (parent : JobId) (state : World n) : Prop where
  count : retriesOf parent state.journal +
    ∑ process, outstanding parent (state.session process) ≤ 1
  visible : 0 < retriesOf parent state.journal →
    HasRetry parent state.db ∨ StagedFor parent state.journal ∨
      ReplacedFor parent state

theorem ReplacedFor.quiet (quiet : (backend cfg).Quiet state next action)
    (replaced : ReplacedFor parent state) : ReplacedFor parent next := by
  obtain ⟨row, isInserted, isChild, isReplaced⟩ := replaced
  refine ⟨row, (created_of_eq quiet.journal).mpr isInserted, isChild, ?_⟩
  rw [(sameTables_of_drifts quiet.db).replaced]
  exact isReplaced

theorem ReplacedFor.commits {process : Fin n} {call : Call}
    (commits : (backend cfg).Commits state next action process call)
    (replaced : ReplacedFor parent state) : ReplacedFor parent next := by
  obtain ⟨row, isInserted, isChild, isReplaced⟩ := replaced
  have isAfter : next.db = after _ state.db := commits.db
  refine ⟨row, (created_append commits.journal).mpr (Or.inl isInserted),
    isChild, ?_⟩
  rw [isAfter]
  exact replaced_after_mem.mpr (Or.inl isReplaced)

/-- A retry that a commit replaces was created before. -/
theorem replacedFor_of_discarded {process : Fin n} {call : Call} {row : Job}
    (chronicled : Chronicled state)
    (commits : (backend cfg).Commits state next action process call)
    (member : row ∈ state.db.stored) (isChild : row.parentJobId = some parent)
    (discarded : .discardLive row.id ∈
      (state.session process).state.pending) : ReplacedFor parent next := by
  obtain ⟨new, isInserted, same⟩ := chronicled.stored row member
  have isAfter : next.db = after _ state.db := commits.db
  refine ⟨new, (created_append commits.journal).mpr (Or.inl isInserted), ?_, ?_⟩
  · rw [← congrArg JobSpec.parentJobId same.spec]
    exact isChild
  · rw [isAfter, ← same.id]
    exact replaced_after_mem.mpr (Or.inr discarded)

theorem HasRetry.sameTables {db after : Db} (hasRetry : HasRetry parent db)
    (same : SameTables db after) : HasRetry parent after := by
  rw [HasRetry, same.live, same.history]
  exact hasRetry

theorem retriesOf_append (parent : JobId)
    (journal : List (Call × List Write)) (call : Call)
    (writes : List Write) :
    retriesOf parent (journal ++ [(call, writes)]) =
      retriesOf parent journal +
        if call.retries then createdFor parent writes else 0 := by
  simp only [retriesOf, List.filter_append, List.flatMap_append,
    createdFor_append]
  cases retries : call.retries <;> simp [retries, createdFor]

/-- A session that left no look-up of the job without a retry has no more
look-ups outstanding than before. -/
theorem outstanding_rests (parent : JobId)
    {before after : Session Db Write Lock Call Return}
    (rests : System.Session.Rests before after) :
    outstanding parent after ≤ outstanding parent before := by
  unfold outstanding
  rw [rests.call, rests.written, rests.noted]
  cases before.call with
  | none => exact le_refl _
  | some call =>
      simp only
      cases call.retries with
      | false => simp
      | true =>
          cases idle : before.prog.idle with
          | true => simp [rests.idle idle]
          | false =>
              simp only [Bool.true_and, Bool.not_false, if_true]
              split <;> omega

theorem lookedUp_append (parent : JobId) (noted remarks : List Write) :
    lookedUp parent (noted ++ remarks) =
      lookedUp parent noted + lookedUp parent remarks := by
  simp [lookedUp]

theorem outstanding_remarks (parent : JobId) {call : Call}
    {remarks : List Write}
    {before after : Session Db Write Lock Call Return}
    (isCall : before.call = some call) (sameCall : after.call = some call)
    (noted : after.state = before.state.note remarks)
    (running : before.prog.idle = false) :
    outstanding parent after ≤
      outstanding parent before + lookedUp parent remarks := by
  unfold outstanding
  simp only [isCall, sameCall, noted, Local.note, lookedUp_append, running]
  cases call.retries with
  | false => simp
  | true =>
      simp only [Bool.true_and, Bool.not_false, if_true]
      split <;> omega

theorem outstanding_fresh {session : Session Db Write Lock Call Return}
    (isFresh : session.state = {}) : outstanding parent session = 0 := by
  unfold outstanding
  cases session.call with
  | none => rfl
  | some call => simp [isFresh, lookedUp]

/-- Without a look-up of the job nothing more is outstanding. -/
theorem outstanding_goes (parent : JobId) {process : Fin n}
    {after : Session Db Write Lock Call Return}
    (goes : (backend cfg).Goes state action process after)
    (noLookUp : ∀ remarks,
      (system cfg).remarking state action = some (process, remarks) →
      .remark (.noRetry parent) ∉ remarks) :
    outstanding parent after ≤
      outstanding parent (state.session process) := by
  cases goes with
  | rests rests => exact outstanding_rests parent rests
  | remarks call remarks isRemark isCall _ sameCall noted running =>
      have none_ : lookedUp parent remarks = 0 := by
        rw [lookedUp, List.countP_eq_zero]
        intro note member isLookUp
        apply noLookUp remarks isRemark
        rwa [← decide_eq_true_eq.mp isLookUp]
      have bound := outstanding_remarks parent isCall sameCall
        noted running
      omega
  | starts call _ _ isFresh =>
      rw [outstanding_fresh isFresh]
      exact Nat.zero_le _

/-- A retry that is committed uses up a look-up of its own call. -/
theorem outstanding_commits (parent : JobId) {process : Fin n} {call : Call}
    {stage : Stage}
    (commits : (backend cfg).Commits state next action process call)
    (lawful : Lawful cfg.dialect call stage state.db
      (state.session process).state) :
    outstanding parent (next.session process) +
        (if call.retries then
          createdFor parent (state.session process).state.pending else 0) ≤
      outstanding parent (state.session process) := by
  obtain ⟨rest, isCommit⟩ := commits.isCommit
  have running : (state.session process).prog.idle = false := by
    simp [isCommit, Prog.idle]
  unfold outstanding
  simp only [commits.call, commits.isCall, commits.committed,
    Local.committed, running]
  cases retries : call.retries with
  | false => simp
  | true =>
      have paired := lawful.paired retries parent
      rw [createdFor_append] at paired ⊢
      cases (next.session process).prog.idle
      all_goals simp
      all_goals omega

theorem counted_quiet (quiet : (backend cfg).Quiet state next action)
    (apart : RetriesApart cfg state action) (counted : Counted parent state) :
    Counted parent next := by
  have tables := sameTables_of_drifts quiet.db
  have visible : 0 < retriesOf parent next.journal →
      HasRetry parent next.db ∨ StagedFor parent next.journal ∨
        ReplacedFor parent next := by
    rw [quiet.journal]
    exact fun positive => (counted.visible positive).imp
      (·.sameTables tables) fun away => away.imp_right (·.quiet quiet)
  refine ⟨?_, visible⟩
  by_cases looks : ∃ process remarks,
      (system cfg).remarking state action = some (process, remarks) ∧
        .remark (.noRetry parent) ∈ remarks
  · -- the look-up found no retry, so none was created before it
    obtain ⟨process, remarks, isRemark, member⟩ := looks
    have idle := apart.alone process remarks isRemark parent member
    have still : ∀ other, other ≠ process →
        outstanding parent (next.session other) = 0 := by
      intro other different
      have bound := outstanding_goes parent
        (quiet.sessions other) (by
          intro others isOther
          rw [isRemark] at isOther
          cases isOther
          exact (different rfl).elim)
      rw [idle other] at bound
      omega
    have total : ∑ other, outstanding parent (next.session other) =
        outstanding parent (next.session process) :=
      Fintype.sum_eq_single process still
    have none_ : ∑ other, outstanding parent (state.session other) = 0 :=
      Finset.sum_eq_zero fun other _ => idle other
    have count := counted.count
    rw [none_] at count
    rw [total, quiet.journal]
    cases quiet.sessions process with
    | rests rests =>
        have bound := outstanding_rests parent rests
        rw [idle process] at bound
        omega
    | starts call _ _ isFresh =>
        rw [outstanding_fresh isFresh]
        exact count
    | remarks call others isOther isCall notes sameCall noted running =>
        have same : some (process, remarks) = some (process, others) :=
          isRemark.symm.trans isOther
        cases same
        have bound := outstanding_remarks parent isCall sameCall
          noted running
        have once := notes.oneLookUp parent
        have unseen : retriesOf parent state.journal = 0 := by
          by_contra some_
          rcases counted.visible (Nat.pos_of_ne_zero some_) with
            hasRetry | staged | replaced
          · exact latestRetry_ne_none hasRetry (notes.noRetry parent member)
          · exact apart.unstaged process remarks isRemark parent member staged
          · exact apart.unreplaced process remarks isRemark parent member
              replaced
        rw [idle process] at bound
        omega
  · have bound : ∑ process, outstanding parent (next.session process) ≤
        ∑ process, outstanding parent (state.session process) := by
      apply Finset.sum_le_sum
      intro process _
      apply outstanding_goes parent (quiet.sessions process)
      intro remarks isRemark member
      exact looks ⟨process, remarks, isRemark, member⟩
    rw [quiet.journal]
    have count := counted.count
    omega

theorem mem_of_createdFor {writes : List Write}
    (created : 0 < createdFor parent writes) :
    ∃ write ∈ writes, parentOf write = some parent := by
  obtain ⟨write, member, isChild⟩ := List.countP_pos_iff.mp created
  exact ⟨write, member, by simpa using isChild⟩

/-- A retry that is committed is visible or staged. -/
theorem visible_created {process : Fin n} {call : Call} {stage : Stage}
    (commits : (backend cfg).Commits state next action process call)
    (lawful : Lawful cfg.dialect call stage state.db
      (state.session process).state)
    (created : 0 < createdFor parent (state.session process).state.pending) :
    HasRetry parent next.db ∨ StagedFor parent next.journal := by
  obtain ⟨write, member, isChild⟩ := mem_of_createdFor created
  cases write with
  | insertLive row =>
      have found := lawful.insertedRow member
      refine Or.inl (Or.inl ⟨row, ?_, isChild⟩)
      have isAfter : next.db = after _ state.db := commits.db
      rw [isAfter]
      exact Table.mem_of_get found
  | insertStaged row =>
      refine Or.inr ⟨(call, (state.session process).state.pending), ?_, row,
        member, isChild⟩
      rw [commits.journal]
      exact List.mem_append_right _ (List.mem_singleton_self _)
  | _ => cases isChild

theorem counted_commits {process : Fin n} {call : Call}
    (good : (backend cfg).Good (Returns cfg) state)
    (commits : (backend cfg).Commits state next action process call)
    (chronicled : Chronicled state) (counted : Counted parent state) :
    Counted parent next := by
  obtain ⟨stage, _, lawful⟩ := commits.promised
  have added := outstanding_commits parent commits lawful
  have isAfter : next.db = after _ state.db := commits.db
  constructor
  · have before := Finset.add_sum_erase Finset.univ
      (fun other => outstanding parent (state.session other))
      (Finset.mem_univ process)
    have later := Finset.add_sum_erase Finset.univ
      (fun other => outstanding parent (next.session other))
      (Finset.mem_univ process)
    have rest : ∑ other ∈ Finset.univ.erase process,
        outstanding parent (next.session other) =
          ∑ other ∈ Finset.univ.erase process,
            outstanding parent (state.session other) := by
      apply Finset.sum_congr rfl
      intro other member
      rw [commits.others other (Finset.ne_of_mem_erase member)]
    have count := counted.count
    rw [commits.journal, retriesOf_append]
    omega
  · intro positive
    rw [commits.journal, retriesOf_append] at positive
    by_cases old : 0 < retriesOf parent state.journal
    · rcases counted.visible old with
        hasRetry | ⟨entry, member, staged⟩ | replaced
      · rcases hasRetry.kept good.inv lawful with
          kept | ⟨row, member, isChild, discarded⟩
        · rw [isAfter]
          exact Or.inl kept
        · exact Or.inr (Or.inr (replacedFor_of_discarded chronicled commits
            member isChild discarded))
      · refine Or.inr (Or.inl ⟨entry, ?_, staged⟩)
        rw [commits.journal]
        exact List.mem_append_left _ member
      · exact Or.inr (Or.inr (replaced.commits commits))
    · apply (visible_created commits lawful ?_).imp_right Or.inl
      split at positive
      · omega
      · omega

theorem Reached.counted
    (reached : Reached cfg (RetriesApart cfg) state) (parent : JobId) :
    Counted parent state := by
  apply reached.induct
  · intro tasks workers clock
    constructor
    · simp [System.initial, retriesOf, outstanding, createdFor]
    · intro positive
      simp [System.initial, retriesOf, createdFor] at positive
  · intro state action next reached counted apart taken
    rcases reached.good.act_cases taken with ⟨process, call, commits⟩ | quiet
    · exact counted_commits reached.good commits reached.chronicled counted
    · exact counted_quiet quiet apart counted

end Counting

/-- In a run that keeps the look-ups of a job apart, at most one retry of the
job is created. -/
theorem retry_at_most_once (cfg : Config) {n : Nat} {state : World n}
    (reached : Reached cfg (RetriesApart cfg) state) (parent : JobId) :
    retriesOf parent state.journal ≤ 1 := by
  have counted := reached.counted parent
  exact le_trans (Nat.le_add_right _ _) counted.count

/-- A check of one action that is enough for `RetriesApart`. -/
def keepsRetriesApart (cfg : Config) {n : Nat} (state : World n)
    (action : Action Write Call n) : Bool :=
  ((system cfg).remarking state action).all fun remarking =>
    remarking.2.all fun remark => match remark with
      | .remark (.noRetry job) =>
          (List.finRange n).all (fun other =>
            outstanding job (state.session other) = 0) &&
          (state.journal.all fun entry => entry.2.all fun write =>
            parentOf write = none) &&
          state.db.replaced.isEmpty
      | _ => true

theorem retriesApart_of_check (cfg : Config) {n : Nat} (state : World n)
    (action : Action Write Call n)
    (checked : keepsRetriesApart cfg state action = true) :
    RetriesApart cfg state action := by
  have lookUps : ∀ process found,
      (system cfg).remarking state action = some (process, found) →
      ∀ job, .remark (.noRetry job) ∈ found →
      (∀ other, outstanding job (state.session other) = 0) ∧
        (∀ entry ∈ state.journal, ∀ write ∈ entry.2,
          parentOf write = none) ∧ state.db.replaced = [] := by
    intro process found isRemark job member
    simp only [keepsRetriesApart, isRemark, Option.all_some,
      List.all_eq_true] at checked
    simpa [and_assoc] using checked _ member
  constructor
  · constructor
    · intro process found isRemark job member
      exact (lookUps process found isRemark job member).1
    · rintro process found isRemark job member
        ⟨entry, isEntry, row, staged, is⟩
      have nothing := (lookUps process found isRemark job member).2.1 entry
        isEntry _ staged
      rw [parentOf, is] at nothing
      cases nothing
  · rintro process found isRemark job member ⟨row, _, _, replaced⟩
    rw [(lookUps process found isRemark job member).2.2] at replaced
    cases replaced

/-- A job that may be retried is created and claimed. -/
def createRetryable {n : Nat} (process : Fin n) :
    List (Action Write Call n) :=
  makes process (.createJob { maxRetries := 3 }) 13 ++
    makes process (.claimJob ["default"] "worker") 12

/-- The claimed job as the worker holds it. -/
def retryable : Job :=
  { toJobSpec := { maxRetries := 3 }, id := 1, createdAt := 0 }

def failing : Call := .failExecution retryable firstHandle "boom" "" true

theorem retry_at_most_once_failing :
    ∃ state : World 1, Reached sqlite (RetriesApart sqlite) state ∧
      retriesOf 1 state.journal = 1 ∧
      ∀ parent, retriesOf parent state.journal ≤ 1 := by
  have ran : (checkedTo sqlite (keepsRetriesApart sqlite)
      (createRetryable (0 : Fin 1) ++ makes 0 failing 44)).isSome = true :=
    rfl
  have reached := reached_checkedTo (retriesApart_of_check sqlite) ran
  exact ⟨_, reached, rfl, retry_at_most_once sqlite reached⟩

/-- The worker dies after it has recorded the failure.  Two other workers take
the job up, and both look for its retry before either creates one. -/
def recoveredTwice : List (Action Write Call 2) :=
  createRetryable 0 ++ makes 0 failing 12 ++
    [.crash 0, .ambient (.tick 100000000)] ++
    makes 0 (.recoverLostRetries (seconds 60) 100) 6 ++
    makes 1 (.recoverLostRetries (seconds 60) 100) 6 ++
    List.replicate 12 (.step 0) ++ List.replicate 12 (.step 1)

theorem retry_created_twice :
    ∃ state : World 2, Reached sqlite System.anyStep state ∧
      ¬∀ parent, retriesOf parent state.journal ≤ 1 := by
  have ran : (ranTo sqlite recoveredTwice).isSome = true := rfl
  refine ⟨_, reached_ranTo ran, ?_⟩
  intro once
  have twice : retriesOf 1 ((ranTo sqlite recoveredTwice).get ran).journal =
    2 := rfl
  have bound := once 1
  omega

end Sqlery.Standalone
