import Sqlery.Standalone.Results

/-!
# Results that stay

A handle that is ready reports the same state from then on, in runs that keep
the retries of a job in one chain and let the chain end once.
-/

namespace Sqlery.Standalone

open ReadCommitted

/-! ## What a commit does to stored rows -/

section Commit

variable {dialect : Dialect} {call : Call} {stage : Stage} {db : Db}
variable {state : Loc}

theorem IsRetry.origin (lawful : Lawful dialect call stage db state)
    {parent job : JobId}
    (isRetry : IsRetry parent job (after state.pending db)) :
    IsRetry parent job db ∨ ∃ row, .insertLive row ∈ state.pending ∧
      row.id = job ∧ row.parentJobId = some parent := by
  obtain ⟨now, member, isJob, isChild⟩ := isRetry
  rcases stored_origin lawful member with ⟨row, isRow, same⟩ | inserted
  · refine Or.inl ⟨row, isRow, same.id.symm.trans isJob, ?_⟩
    have spec := congrArg JobSpec.parentJobId same.spec
    exact spec.symm.trans isChild
  · exact Or.inr ⟨now, inserted, isJob, isChild⟩

theorem IsRetry.kept (inv : Inv db)
    (lawful : Lawful dialect call stage db state) {parent job : JobId}
    (isRetry : IsRetry parent job db)
    (unreplaced : ∀ gone, .discardLive gone ∈ state.pending →
      ∀ row, db.live.get gone = some row → row.parentJobId = none) :
    IsRetry parent job (after state.pending db) := by
  obtain ⟨row, member, isJob, isChild⟩ := isRetry
  have stays : .discardLive row.id ∉ state.pending := by
    intro discarded
    obtain ⟨live, found⟩ :=
      Option.ne_none_iff_exists'.mp (lawful.discarded row.id discarded).2
    have orphan := unreplaced row.id discarded live found
    rcases List.mem_append.mp member with isLive | finished
    · rw [Table.get_of_mem isLive] at found
      cases found
      rw [isChild] at orphan
      cases orphan
    · rw [inv.apart row finished] at found
      cases found
  obtain ⟨now, same, place⟩ := stored_after inv lawful member stays
  refine ⟨now, ?_, same.id.trans isJob, ?_⟩
  · exact List.mem_append.mpr (place.imp And.left And.left)
  · exact (congrArg JobSpec.parentJobId same.spec).trans isChild

end Commit

/-! ## Runs -/

section Runs

variable {cfg : Config} {n : Nat} {state next : World n}
variable {action : Action Write Call n}

/-- Retries are looked up as in `LookUpsApart`, and none is created of a job
that has ended in a failure: a look-up that finds no retry is not made of such
a job, and the job does not enter history as failed while one is outstanding.
Only retries name a parent.  A retry, and a job that has been retried, is not
replaced by a new job of its name; a job that has been retried is written only
as failed or archived, or as a success unless its retries have ended in a
failure. -/
structure KeepsResults (cfg : Config) (state : World n)
    (action : Action Write Call n) : Prop where
  apart : LookUpsApart cfg state action
  unfinished : ∀ process remarks,
    (system cfg).remarking state action = some (process, remarks) →
    ∀ job, .remark (.noRetry job) ∈ remarks →
    ∀ row ∈ state.db.history.rows, row.id = job → row.status ≠ .failed
  settled : ∀ committer call,
    System.committing state action = some (committer, call) →
    ∀ row, .insertHistory row ∈ (state.session committer).state.pending →
    row.status = .failed →
    ∀ other, outstanding row.id (state.session other) = 0
  parentless : ∀ committer call,
    System.committing state action = some (committer, call) →
    call.retries = false →
    ∀ write ∈ (state.session committer).state.pending, parentOf write = none
  retained : ∀ committer call,
    System.committing state action = some (committer, call) →
    ∀ job, .discardLive job ∈ (state.session committer).state.pending →
    ∀ row, state.db.live.get job = some row → row.parentJobId = none
  unreplaced : ∀ committer call,
    System.committing state action = some (committer, call) →
    ∀ job, .discardLive job ∈ (state.session committer).state.pending →
    ¬HasRetry job state.db
  written : ∀ committer call,
    System.committing state action = some (committer, call) →
    ∀ row, .insertHistory row ∈ (state.session committer).state.pending ∨
      .setLive row ∈ (state.session committer).state.pending →
    HasRetry row.id state.db →
    superseded row = true ∨
      row.status = .success ∧ ¬ChainFails state.db row.id

/-- Every retry was created by a retrying call, no job has two, and nothing is
about to be retried that has ended in a failure. -/
structure Orderly (state : World n) : Prop where
  listed : ∀ parent, HasRetry parent state.db →
    0 < retriesOf parent state.journal
  oneRetry : OneRetry state.db
  settled : ∀ row ∈ state.db.history.rows, row.status = .failed →
    ∀ process, outstanding row.id (state.session process) = 0

theorem isRetry_of_sameTables {db after : Db} (same : SameTables db after)
    {parent job : JobId} :
    IsRetry parent job after ↔ IsRetry parent job db := by
  rw [IsRetry, stored_of_sameTables same, IsRetry]

theorem hasRetry_of_sameTables {db after : Db} (same : SameTables db after)
    {parent : JobId} : HasRetry parent after ↔ HasRetry parent db := by
  rw [HasRetry, same.live, same.history, HasRetry]

theorem orderly_quiet (quiet : (backend cfg).Quiet state next action)
    (keeps : KeepsResults cfg state action) (orderly : Orderly state) :
    Orderly next := by
  have tables := sameTables_of_drifts quiet.db
  constructor
  · intro parent hasRetry
    rw [quiet.journal]
    exact orderly.listed parent ((hasRetry_of_sameTables tables).mp hasRetry)
  · intro parent first second isFirst isSecond
    exact orderly.oneRetry parent first second
      ((isRetry_of_sameTables tables).mp isFirst)
      ((isRetry_of_sameTables tables).mp isSecond)
  · intro row member failed process
    rw [tables.history] at member
    have bound := outstanding_goes row.id (quiet.sessions process) (by
      intro remarks isRemark lookUp
      exact keeps.unfinished process remarks isRemark row.id lookUp row member
        rfl failed)
    rw [orderly.settled row member failed process] at bound
    omega

/-- A retry that is committed counts. -/
theorem created_counts {process : Fin n} {call : Call}
    (commits : (backend cfg).Commits state next action process call)
    (keeps : KeepsResults cfg state action) {row : Job} {parent : JobId}
    (inserted : .insertLive row ∈ (state.session process).state.pending)
    (isChild : row.parentJobId = some parent) :
    call.retries = true ∧
      0 < createdFor parent (state.session process).state.pending := by
  constructor
  · cases retries : call.retries with
    | true => rfl
    | false =>
        have orphan := keeps.parentless process call commits.committing retries
          _ inserted
        rw [parentOf, isChild] at orphan
        cases orphan
  · apply List.countP_pos_iff.mpr
    exact ⟨_, inserted, by simp [parentOf, isChild]⟩

/-- A retry is created only of a job that has none. -/
theorem created_first {process : Fin n} {call : Call}
    (commits : (backend cfg).Commits state next action process call)
    (keeps : KeepsResults cfg state action) (orderly : Orderly state)
    (counted : ∀ parent, Counted parent next) {row : Job} {parent : JobId}
    (inserted : .insertLive row ∈ (state.session process).state.pending)
    (isChild : row.parentJobId = some parent) :
    ¬HasRetry parent state.db := by
  intro hasRetry
  have before := orderly.listed parent hasRetry
  obtain ⟨retries, created⟩ := created_counts commits keeps inserted isChild
  have count := (counted parent).count
  rw [commits.journal, retriesOf_append, if_pos retries] at count
  omega

/-- No retry is created of a job that has ended in a failure. -/
theorem created_unfinished {process : Fin n} {call : Call}
    (commits : (backend cfg).Commits state next action process call)
    (keeps : KeepsResults cfg state action) (orderly : Orderly state)
    {last : Job} (finished : last ∈ state.db.history.rows)
    (failed : last.status = .failed) {row : Job}
    (inserted : .insertLive row ∈ (state.session process).state.pending) :
    row.parentJobId ≠ some last.id := by
  intro isChild
  obtain ⟨stage, _, lawful⟩ := commits.promised
  obtain ⟨retries, created⟩ := created_counts commits keeps inserted isChild
  have added := outstanding_commits last.id commits lawful
  rw [orderly.settled last finished failed process, if_pos retries] at added
  omega

theorem orderly_commits {process : Fin n} {call : Call}
    (commits : (backend cfg).Commits state next action process call)
    (keeps : KeepsResults cfg state action)
    (counted : ∀ parent, Counted parent next) (orderly : Orderly state) :
    Orderly next := by
  obtain ⟨stage, _, lawful⟩ := commits.promised
  have isAfter : next.db = after _ state.db := commits.db
  constructor
  · intro parent hasRetry
    rw [isAfter] at hasRetry
    obtain ⟨job, isRetry⟩ := hasRetry_iff.mp hasRetry
    rw [commits.journal, retriesOf_append]
    rcases isRetry.origin lawful with old | ⟨row, inserted, _, isChild⟩
    · have before := orderly.listed parent (hasRetry_iff.mpr ⟨job, old⟩)
      omega
    · obtain ⟨retries, created⟩ :=
        created_counts commits keeps inserted isChild
      rw [if_pos retries]
      omega
  · intro parent first second isFirst isSecond
    rw [isAfter] at isFirst isSecond
    have alone : ∀ row job, .insertLive row ∈
        (state.session process).state.pending →
        row.parentJobId = some parent → ¬IsRetry parent job state.db := by
      intro row job inserted isChild isRetry
      exact created_first commits keeps orderly counted inserted isChild
        (hasRetry_iff.mpr ⟨job, isRetry⟩)
    rcases isFirst.origin lawful with firstOld | ⟨one, isOne, oneId, oneChild⟩
    · rcases isSecond.origin lawful with secondOld | ⟨two, isTwo, _, twoChild⟩
      · exact orderly.oneRetry parent first second firstOld secondOld
      · exact (alone two first isTwo twoChild firstOld).elim
    · rcases isSecond.origin lawful with secondOld | ⟨two, isTwo, twoId, _⟩
      · exact (alone one second isOne oneChild secondOld).elim
      · rw [← oneId, ← twoId, lawful.insertedOnce one two isOne isTwo]
  · intro row member failed other
    rw [isAfter] at member
    have before : outstanding row.id (state.session other) = 0 := by
      rcases history_after_cases member with old | new
      · exact orderly.settled row old failed other
      · exact keeps.settled process call commits.committing row new failed other
    by_cases same : other = process
    · subst same
      have added := outstanding_commits row.id commits lawful
      omega
    · rw [commits.others other same]
      exact before

/-- No retry is replaced in such a run. -/
theorem Reached.retained (reached : Reached cfg (KeepsResults cfg) state) :
    ∀ parent, ¬ReplacedFor parent state := by
  apply reached.induct
  · rintro tasks workers clock parent ⟨row, _, _, replaced⟩
    cases replaced
  · rintro state action next before still keeps taken parent
      ⟨row, isInserted, isChild, replaced⟩
    have chronicled := before.chronicled
    rcases before.good.act_cases taken with ⟨process, call, commits⟩ | quiet
    · obtain ⟨stage, _, lawful⟩ := commits.promised
      have isAfter : next.db = after _ state.db := commits.db
      rw [isAfter] at replaced
      rcases (created_append commits.journal).mp isInserted with old | new
      · rcases replaced_after_mem.mp replaced with earlier | discarded
        · exact still parent ⟨row, old, isChild, earlier⟩
        · obtain ⟨live, found⟩ :=
            Option.ne_none_iff_exists'.mp (lawful.discarded _ discarded).2
          obtain ⟨first, isFirst, same⟩ := chronicled.stored live
            (List.mem_append_left _ (Table.mem_of_get found))
          have isRow : first = row := chronicled.once first row isFirst old
            (same.id.symm.trans (Table.key_of_get found))
          have orphan := keeps.retained process call commits.committing
            row.id discarded live found
          rw [same.spec, isRow, isChild] at orphan
          cases orphan
      · have unused := (lawful.inserted row new).1
        rcases replaced_after_mem.mp replaced with earlier | discarded
        · exact unused.unknown (Or.inr earlier)
        · exact (lawful.discarded _ discarded).2 unused.live
    · refine still parent ⟨row, (created_of_eq quiet.journal).mp isInserted,
        isChild, ?_⟩
      rw [← (sameTables_of_drifts quiet.db).replaced]
      exact replaced

theorem Reached.apart (reached : Reached cfg (KeepsResults cfg) state) :
    Reached cfg (RetriesApart cfg) state := by
  apply reached.induct
  · exact fun tasks workers clock => ⟨tasks, workers, clock, .refl⟩
  · intro state action next before apart keeps taken
    refine apart.step ⟨keeps.apart, ?_⟩ taken
    exact fun _ _ _ job _ => before.retained job

theorem Reached.orderly (reached : Reached cfg (KeepsResults cfg) state) :
    Orderly state := by
  apply reached.induct
  · intro tasks workers clock
    constructor
    · intro parent hasRetry
      simp [HasRetry, System.initial, installed, Table.empty] at hasRetry
    · intro parent first second isFirst
      simp [IsRetry, Db.stored, System.initial, installed, Table.empty]
        at isFirst
    · intro row member
      simp [System.initial, installed, Table.empty] at member
  · intro state action next reached orderly keeps taken
    rcases reached.good.act_cases taken with ⟨process, call, commits⟩ | quiet
    · have after := reached.step keeps taken
      exact orderly_commits commits keeps after.apart.counted orderly
    · exact orderly_quiet quiet keeps orderly

/-! ## A chain that has ended keeps leading to its end -/

theorem concluded_commits {process : Fin n} {call : Call} {last : Job}
    (commits : (backend cfg).Commits state next action process call)
    (keeps : KeepsResults cfg state action) (orderly : Orderly state)
    (concluded : Concluded state.db last) : Concluded next.db last := by
  obtain ⟨stage, _, lawful⟩ := commits.promised
  have isAfter : next.db = after _ state.db := commits.db
  rw [isAfter]
  constructor
  · exact history_after_kept concluded.finished
  · rcases concluded.outcome with success | ⟨failed, noRetry⟩
    · exact Or.inl success
    · refine Or.inr ⟨failed, ?_⟩
      intro hasRetry
      obtain ⟨job, isRetry⟩ := hasRetry_iff.mp hasRetry
      rcases isRetry.origin lawful with old | ⟨row, inserted, _, isChild⟩
      · exact noRetry (hasRetry_iff.mpr ⟨job, old⟩)
      · exact created_unfinished commits keeps orderly concluded.finished
          failed inserted isChild

theorem leads_commits {process : Fin n} {call : Call} {last : Job}
    {hops : Nat} {job : JobId} (inv : Inv state.db)
    (commits : (backend cfg).Commits state next action process call)
    (keeps : KeepsResults cfg state action)
    (concluded : Concluded state.db last)
    (leads : Leads state.db last hops job) :
    Leads next.db last hops job := by
  obtain ⟨stage, _, lawful⟩ := commits.promised
  have isAfter : next.db = after _ state.db := commits.db
  induction leads with
  | ends hops => exact .ends hops
  | succeeded hops row member success lastSuccess =>
      apply Leads.succeeded hops row _ success lastSuccess
      rw [isAfter]
      exact history_after_kept member
  | @retried hops job retry isSuperseded isRetry leads ih =>
      have hasRetry := hasRetry_iff.mpr ⟨retry, isRetry⟩
      have later : IsRetry job retry next.db := by
        rw [isAfter]
        exact isRetry.kept inv lawful
          (keeps.retained process call commits.committing)
      obtain ⟨row, member, rfl, status⟩ := isSuperseded
      obtain ⟨now, same, place⟩ := stored_after inv lawful member
        fun discarded => keeps.unreplaced process call commits.committing
          row.id discarded hasRetry
      rw [← isAfter] at place
      have stored : now ∈ next.db.stored :=
        List.mem_append.mpr (place.imp And.left And.left)
      have stays : superseded now = true →
          Leads next.db last (hops + 1) row.id := fun isSuperseded =>
        .retried ⟨now, stored, same.id, isSuperseded⟩ later ih
      have sameRetry : HasRetry now.id state.db := by
        rw [same.id]
        exact hasRetry
      rcases place with ⟨_, rfl | updated⟩ | ⟨finished, rfl | moved⟩
      · exact stays status
      · rcases keeps.written process call commits.committing now
          (Or.inr updated) sameRetry with isSuperseded | ⟨success, _⟩
        · exact stays isSuperseded
        · exact ((lawful.updated now updated).2.1 success).elim
      · exact stays status
      · rcases keeps.written process call commits.committing now
          (Or.inl moved) sameRetry with isSuperseded | ⟨success, unfailed⟩
        · exact stays isSuperseded
        · -- the job on the way succeeds, so its retries did not fail
          have lastSuccess : last.status = .success := by
            rcases concluded.status with isSuccess | failed
            · exact isSuccess
            · rw [same.id] at unfailed
              exact (unfailed (.retried isRetry
                (leads.chainFails concluded failed))).elim
          rw [← same.id]
          exact .succeeded _ now finished success lastSuccess

theorem concluded_of_sameTables {db after : Db} (same : SameTables db after)
    {last : Job} (concluded : Concluded db last) : Concluded after last := by
  constructor
  · rw [same.history]
    exact concluded.finished
  · exact concluded.outcome.imp_right fun failure =>
      ⟨failure.1, fun hasRetry =>
        failure.2 ((hasRetry_of_sameTables same).mp hasRetry)⟩

theorem leads_of_sameTables {db after : Db} (same : SameTables db after)
    {last : Job} {hops : Nat} {job : JobId}
    (leads : Leads db last hops job) : Leads after last hops job := by
  induction leads with
  | ends hops => exact .ends hops
  | succeeded hops row member success lastSuccess =>
      apply Leads.succeeded hops row _ success lastSuccess
      rw [same.history]
      exact member
  | retried isSuperseded isRetry _ ih =>
      obtain ⟨row, member, isRow⟩ := isSuperseded
      refine .retried ⟨row, ?_, isRow⟩
        ((isRetry_of_sameTables same).mpr isRetry) ih
      rw [stored_of_sameTables same]
      exact member

/-- A handle that leads to an attempt that is over reports the same from then
on. -/
structure Leading (state : World n) (last : Job) (job : JobId) : Prop where
  concluded : Concluded state.db last
  leads : Leads state.db last maxRetryHops job

theorem leading_lasts {last : Job} {job : JobId} {later : World n}
    (reached : Reached cfg (KeepsResults cfg) state)
    (run : (system cfg).Reaches (KeepsResults cfg) state later)
    (leading : Leading state last job) :
    Reached cfg (KeepsResults cfg) later ∧ Leading later last job := by
  induction run with
  | refl => exact ⟨reached, leading⟩
  | step _ keeps taken ih =>
      obtain ⟨reached, leading⟩ := ih
      refine ⟨reached.step keeps taken, ?_⟩
      rcases reached.good.act_cases taken with ⟨process, call, commits⟩ | quiet
      · constructor
        · exact concluded_commits commits keeps reached.orderly
            leading.concluded
        · exact leads_commits reached.good.inv commits keeps leading.concluded
            leading.leads
      · have tables := sameTables_of_drifts quiet.db
        constructor
        · exact concluded_of_sameTables tables leading.concluded
        · exact leads_of_sameTables tables leading.leads

/-- The state a handle reports while it leads to an attempt. -/
theorem Leading.report {last : Job} {job : JobId}
    (leading : Leading state last job)
    (reached : Reached cfg (KeepsResults cfg) state) :
    state.db.resultState cfg job = stateOf (some (.job last)) ∧
      (last.status = .failed →
        state.db.resultJob cfg job = some (.job last)) := by
  obtain ⟨row, seen, sameStatus, same⟩ := leading.leads.report
    reached.good.inv reached.orderly.oneRetry leading.concluded
  have found : state.db.resultJob cfg job =
      some (.job (state.db.newestAttempt maxRetryHops row)) := by
    rw [Db.resultJob, seen]
  rcases leading.concluded.status with success | failed
  · constructor
    · rw [Db.resultState, found, stateOf_success success]
      exact stateOf_success (sameStatus.trans success)
    · intro failed
      rw [success] at failed
      cases failed
  · rw [same failed] at found
    exact ⟨by rw [Db.resultState, found], fun _ => found⟩

/-- A ready handle whose attempt is not live leads to an attempt that is
over. -/
theorem leading_of_ready {job : JobId} (inv : Inv state.db)
    (ready : (state.db.resultState cfg job).ready = true)
    (settled : ∀ last, state.db.resultJob cfg job = some (.job last) →
      state.db.live.get last.id = none ∧
        (last.status = .failed → state.db.latestRetry last.id = none)) :
    ∃ last, state.db.resultJob cfg job = some (.job last) ∧
      Leading state last job := by
  unfold Db.resultState at ready
  cases seen : state.db.seen job with
  | none =>
      have found : state.db.resultJob cfg job =
          if cfg.partitionedPg then (state.db.staged.get job).map .staged
          else none := by
        rw [Db.resultJob, seen]
      rw [found] at ready
      split at ready
      · cases isStaged : state.db.staged.get job <;>
          simp [isStaged, stateOf, ResultState.ready] at ready
      · simp [stateOf, ResultState.ready] at ready
  | some row =>
      have found : state.db.resultJob cfg job =
          some (.job (state.db.newestAttempt maxRetryHops row)) := by
        rw [Db.resultJob, seen]
      rw [found] at ready
      obtain ⟨notLive, unretried⟩ := settled _ found
      refine ⟨_, found, ?_, leads_of_report inv seen rfl⟩
      constructor
      · have listed := newestAttempt_mem maxRetryHops (mem_of_seen seen).1
        rcases mem_jobAll.mp listed with ⟨live, isLive, isShown⟩ | finished
        · rw [← isShown, id_shown, Table.get_of_mem isLive] at notLive
          cases notLive
        · exact finished
      · exact (status_of_ready ready).imp_right fun failed =>
          ⟨failed, latestRetry_eq_none.mp (unretried failed)⟩

end Runs

/-- In a run that keeps results, the state a handle reports when it is ready,
of an attempt that is not live any more, is the state it reports from then on;
a failure stays the failure of the same attempt. -/
theorem result_final (cfg : Config) {n : Nat} {state later : World n}
    (reached : Reached cfg (KeepsResults cfg) state)
    (run : (system cfg).Reaches (KeepsResults cfg) state later) (job : JobId)
    (ready : (state.db.resultState cfg job).ready = true)
    (settled : ∀ last, state.db.resultJob cfg job = some (.job last) →
      state.db.live.get last.id = none ∧
        (last.status = .failed → state.db.latestRetry last.id = none)) :
    later.db.resultState cfg job = state.db.resultState cfg job ∧
      (state.db.resultState cfg job = .failure →
        later.db.resultJob cfg job = state.db.resultJob cfg job) := by
  obtain ⟨last, found, leading⟩ :=
    leading_of_ready reached.good.inv ready settled
  obtain ⟨reachedLater, leadingLater⟩ := leading_lasts reached run leading
  have now := leading.report reached
  have then_ := leadingLater.report reachedLater
  constructor
  · rw [now.1, then_.1]
  · intro failure
    have failed : last.status = .failed := by
      rcases leading.concluded.status with success | failed
      · rw [now.1, stateOf_success success] at failure
        cases failure
      · exact failed
    rw [then_.2 failed, found]

/-- A check of one action that is enough for `KeepsResults`. -/
def keepsResults (cfg : Config) {n : Nat} (state : World n)
    (action : Action Write Call n) : Bool :=
  keepsRetriesApart cfg state action &&
  ((system cfg).remarking state action).all (fun remarking =>
    remarking.2.all fun remark => match remark with
      | .remark (.noRetry job) =>
          state.db.history.rows.all fun row => row.id ≠ job
      | _ => true) &&
  (System.committing state action).all fun committing =>
    (state.session committing.1).state.pending.all fun write =>
      (committing.2.retries || parentOf write = none) &&
      match write with
      | .insertHistory row =>
          (row.status ≠ .failed || (List.finRange n).all fun other =>
            outstanding row.id (state.session other) = 0) &&
          (superseded row || state.db.latestRetry row.id = none)
      | .setLive row =>
          superseded row || state.db.latestRetry row.id = none
      | .discardLive _ => false
      | _ => true

theorem keepsResults_of_check (cfg : Config) {n : Nat} (state : World n)
    (action : Action Write Call n)
    (checked : keepsResults cfg state action = true) :
    KeepsResults cfg state action := by
  obtain ⟨early, writes⟩ := Bool.and_eq_true_iff.mp checked
  obtain ⟨apart, remarks⟩ := Bool.and_eq_true_iff.mp early
  have each : ∀ committer call,
      System.committing state action = some (committer, call) →
      ∀ write ∈ (state.session committer).state.pending, _ :=
    fun committer call isCommitting write member => by
      rw [isCommitting, Option.all_some, List.all_eq_true] at writes
      exact Bool.and_eq_true_iff.mp (writes write member)
  have kept : ∀ committer call,
      System.committing state action = some (committer, call) →
      ∀ job, .discardLive job ∉ (state.session committer).state.pending := by
    intro committer call isCommitting job discarded
    have fine := (each committer call isCommitting _ discarded).2
    cases fine
  have unretried : ∀ row : Job,
      (superseded row || decide (state.db.latestRetry row.id = none)) = true →
      HasRetry row.id state.db → superseded row = true := by
    intro row fine hasRetry
    rcases Bool.or_eq_true_iff.mp fine with isSuperseded | isNone
    · exact isSuperseded
    · exact (latestRetry_ne_none hasRetry (of_decide_eq_true isNone)).elim
  constructor
  · exact (retriesApart_of_check cfg state action apart).toLookUpsApart
  · intro process found isRemark job member row isRow isJob
    rw [isRemark, Option.all_some, List.all_eq_true] at remarks
    have absent := List.all_eq_true.mp (remarks _ member) row isRow
    exact (of_decide_eq_true absent isJob).elim
  · intro committer call isCommitting row moved failed other
    have fine := (each committer call isCommitting _ moved).2
    rcases Bool.or_eq_true_iff.mp (Bool.and_eq_true_iff.mp fine).1 with
      unfailed | idle
    · exact (of_decide_eq_true unfailed failed).elim
    · exact of_decide_eq_true
        (List.all_eq_true.mp idle other (List.mem_finRange other))
  · intro committer call isCommitting first write member
    rcases Bool.or_eq_true_iff.mp (each committer call isCommitting write
      member).1 with retries | orphan
    · rw [first] at retries
      cases retries
    · exact of_decide_eq_true orphan
  · exact fun committer call isCommitting job discarded =>
      (kept committer call isCommitting job discarded).elim
  · exact fun committer call isCommitting job discarded =>
      (kept committer call isCommitting job discarded).elim
  · intro committer call isCommitting row written hasRetry
    refine Or.inl ?_
    rcases written with moved | updated
    · exact unretried row (Bool.and_eq_true_iff.mp
        (each committer call isCommitting _ moved).2).2 hasRetry
    · exact unretried row (each committer call isCommitting _ updated).2
        hasRetry

/-- The retry of the retryable job as the worker holds it, and its failure. -/
def failingAgain : Call :=
  .failExecution
    { toJobSpec := { maxRetries := 3, retryCount := 1, parentJobId := some 1 }
      id := 2, createdAt := 0 }
    { id := 2, token := "", jobId := 2 } "boom" "" false

/-- The job fails and is retried, and the retry fails for good. -/
def failTwice (steps : Nat) : List (Action Write Call 1) :=
  createRetryable 0 ++ makes 0 failing 44 ++ [.ambient (.tick 2000000)] ++
    makes 0 (.claimJob ["default"] "worker") 12 ++ makes 0 failingAgain steps

theorem failTwice_ran :
    (checkedTo sqlite (keepsResults sqlite) (failTwice 19)).isSome = true := by
  decide +kernel

/-- The final failure has just been committed. -/
def failedTwice : World 1 :=
  (checkedTo sqlite (keepsResults sqlite) (failTwice 19)).get failTwice_ran

theorem failedTwice_ran :
    ((system sqlite).runWhile (keepsResults sqlite) failedTwice
      (List.replicate 6 (.step 0))).isSome = true := by
  decide +kernel

/-- The job of a report has left the live table for good. -/
def Db.isOver (db : Db) : Reported → Bool
  | .job last =>
      (db.live.get last.id).isNone && (db.latestRetry last.id).isNone
  | .staged _ => true

theorem result_final_failTwice :
    ∃ state later : World 1, Reached sqlite (KeepsResults sqlite) state ∧
      (system sqlite).Reaches (KeepsResults sqlite) state later ∧
      state.db.resultState sqlite 1 = .failure ∧
      later.db.resultState sqlite 1 = .failure ∧
      later.db.resultJob sqlite 1 = state.db.resultJob sqlite 1 := by
  have reached : Reached sqlite (KeepsResults sqlite) failedTwice :=
    reached_checkedTo (keepsResults_of_check sqlite) failTwice_ran
  have run := System.reaches_of_runWhile _ (keepsResults_of_check sqlite)
    (Option.some_get failedTwice_ran).symm
  have failure : failedTwice.db.resultState sqlite 1 = .failure := by
    decide +kernel
  have isOver : (failedTwice.db.resultJob sqlite 1).all
      failedTwice.db.isOver = true := by
    decide +kernel
  have final := result_final sqlite reached run 1 (by rw [failure]; rfl) (by
    intro last found
    rw [found] at isOver
    obtain ⟨gone, unretried⟩ := Bool.and_eq_true_iff.mp isOver
    exact ⟨Option.isNone_iff_eq_none.mp gone,
      fun _ => Option.isNone_iff_eq_none.mp unretried⟩)
  exact ⟨_, _, reached, run, failure, final.1.trans failure, final.2 failure⟩

theorem failing_ran : (ranTo sqlite
    (createRetryable (0 : Fin 1) ++ makes 0 failing 12)).isSome = true := by
  decide +kernel

/-- The failure has just been recorded, with its retry owed. -/
def failureRecorded : World 1 :=
  (ranTo sqlite (createRetryable 0 ++ makes 0 failing 12)).get failing_ran

theorem failureRecorded_ran : ((system sqlite).run failureRecorded
    (List.replicate 16 (.step 0))).isSome = true := by
  decide +kernel

/-- A failure that is reported is taken back when the retry is created. -/
theorem result_taken_back :
    ¬∀ (state later : World 1) (job : JobId),
      Reached sqlite System.anyStep state →
      (system sqlite).Reaches System.anyStep state later →
      (state.db.resultState sqlite job).ready = true →
      later.db.resultState sqlite job = state.db.resultState sqlite job := by
  intro final
  have ready : (failureRecorded.db.resultState sqlite 1).ready = true := by
    decide +kernel
  have same := final failureRecorded _ 1 (reached_ranTo failing_ran)
    (System.reaches_of_run _ (Option.some_get failureRecorded_ran).symm) ready
  have changed : (((system sqlite).run failureRecorded
      (List.replicate 16 (.step 0))).get
        failureRecorded_ran).db.resultState sqlite 1 ≠
      failureRecorded.db.resultState sqlite 1 := by
    decide +kernel
  exact changed same

end Sqlery.Standalone
