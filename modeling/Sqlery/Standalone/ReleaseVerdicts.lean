import Sqlery.Standalone.ClaimResult
import Sqlery.Standalone.UpstreamResults

/-!
# What a release decides

The jobs that the walk over the dependents fails and makes ready, and the
dependencies that say so.  The walk follows a chain of retries over
`MAX_CHAIN_HOPS` of them and judges by the job it has come to, so a chain that
goes on or never ends is cut short there.
-/

namespace Sqlery.Standalone

open ReadCommitted
open Script

/-! ## Chains that are cut short -/

/-- So many newest retries lead from the one job to the other. -/
inductive Follows (latest : JobId → Option Job) : Nat → Job → Job → Prop where
  | here {row : Job} : Follows latest 0 row row
  | link {links : Nat} {row child final : Job} :
      row.status = .failed ∨ row.status = .archived →
      latest row.id = some child → Follows latest links child final →
      Follows latest (links + 1) row final

/-- After `MAX_CHAIN_HOPS` retries the chain stands at a failure that owes no
retry. -/
def GivenUp (db : Db) (dep : JobId) : Prop :=
  ∃ row ∈ db.jobAll, row.id = dep ∧ ∃ final,
    Follows db.latestRetry maxChainHops row final ∧ final.status = .failed ∧
      isRetryPending final.terminationReason = false

section Chains

variable {latest : JobId → Option Job} {row final : Job}

theorem Follows.chainTo {links : Nat}
    (follows : Follows latest links row final)
    (notFailed : final.status ≠ .failed)
    (notArchived : final.status ≠ .archived) :
    ChainTo latest links row final := by
  induction follows with
  | here => exact .settled notFailed notArchived
  | link superseded isChild _ ih =>
      exact .link superseded isChild (ih notFailed notArchived)

/-- The chain ends within so many hops, or it is followed over all of them. -/
theorem chainEnd_cases (hops : Nat) (row : Job) :
    (∃ links, ChainTo latest links row (chainEnd latest hops row)) ∨
      Follows latest hops row (chainEnd latest hops row) := by
  induction hops generalizing row with
  | zero => exact Or.inr .here
  | succ hops ih =>
      by_cases superseded : row.status = .failed ∨ row.status = .archived
      · cases isLast : latest row.id with
        | none =>
            have ends : chainEnd latest (hops + 1) row = row := by
              simp [chainEnd, isLast]
            rw [ends]
            exact Or.inl ⟨0, .last isLast⟩
        | some child =>
            have ends : chainEnd latest (hops + 1) row =
                chainEnd latest hops child := by
              simp [chainEnd, isLast, superseded]
            rw [ends]
            rcases ih child with ⟨links, chain⟩ | follows
            · exact Or.inl ⟨links + 1, .link superseded isLast chain⟩
            · exact Or.inr (.link superseded isLast follows)
      · have ends : chainEnd latest (hops + 1) row = row := by
          simp only [chainEnd, Bool.or_eq_true, decide_eq_true_eq, superseded,
            if_false]
        rw [ends]
        exact Or.inl ⟨0, .settled (fun failed => superseded (Or.inl failed))
          fun archived => superseded (Or.inr archived)⟩

end Chains

/-! ## What the dependencies say -/

section Verdicts

variable {db : Db} {deps : List JobId} {dep : JobId}

theorem verdict_eq_judged : db.verdict deps =
    judged (fetchAmong db deps) db.latestRetry deps := rfl

theorem met_of_fate
    (success : fate (fetchAmong db deps) db.latestRetry dep = .success) :
    DependencyMet db dep := by
  cases found : fetchAmong db deps dep with
  | none =>
      simp only [fate, found] at success
      cases success
  | some row =>
      obtain ⟨member, isDep⟩ := mem_of_fetchAmong found
      simp only [fate, found] at success
      have succeeded : (chainEnd db.latestRetry maxChainHops row).status =
          .success := by
        unfold endFate at success
        split at success
        · assumption
        · split at success
          · split at success <;> cases success
          · cases success
      refine ⟨_, ⟨row, member, isDep, ?_⟩, succeeded⟩
      rcases chainEnd_cases maxChainHops row with chain | follows
      · exact chain
      · refine ⟨_, follows.chainTo ?_ ?_⟩
        · rw [succeeded]
          decide
        · rw [succeeded]
          decide

theorem failed_of_fate
    (fails : (fate (fetchAmong db deps) db.latestRetry dep).fails = true)
    (isDep : dep ∈ deps) : DependencyFailed db dep ∨ GivenUp db dep := by
  cases found : fetchAmong db deps dep with
  | none =>
      refine Or.inl (Or.inl fun row member isRow => ?_)
      have absent := List.find?_eq_none.mp found row
        (List.mem_reverse.mpr (List.mem_filter.mpr
          ⟨member, decide_eq_true (isRow ▸ isDep)⟩))
      exact absent (decide_eq_true isRow)
  | some row =>
      obtain ⟨member, isRow⟩ := mem_of_fetchAmong found
      simp only [fate, found] at fails
      have failed : (chainEnd db.latestRetry maxChainHops row).status =
            .failed ∧
          isRetryPending (chainEnd db.latestRetry maxChainHops
            row).terminationReason = false := by
        unfold endFate at fails
        split at fails
        · cases fails
        · split at fails
          · split at fails
            · cases fails
            · rename_i isFailed owes
              exact ⟨isFailed, Bool.eq_false_iff.mpr owes⟩
          · cases fails
      rcases chainEnd_cases maxChainHops row with chain | follows
      · exact Or.inl (Or.inr ⟨_, ⟨row, member, isRow, chain⟩, failed⟩)
      · exact Or.inr ⟨row, member, isRow, _, follows, failed⟩

theorem met_of_verdict (met : (db.verdict deps).state = .met) :
    ∀ dep ∈ deps, DependencyMet db dep := by
  rw [verdict_eq_judged, judged_met_iff] at met
  exact fun dep isDep => met_of_fate (met dep isDep)

theorem failed_of_verdict (failed : (db.verdict deps).state = .failed) :
    ∃ dep ∈ deps, DependencyFailed db dep ∨ GivenUp db dep := by
  rw [verdict_eq_judged, judged_failed_iff] at failed
  obtain ⟨dep, isDep, fails⟩ := failed
  exact ⟨dep, isDep, failed_of_fate fails isDep⟩

end Verdicts

/-! ## What the walk does -/

/-- What has happened to the jobs is what the log says. -/
structure Accounts (db : Db) (log : List Judgement) (last : Db) : Prop where
  once : (jobsOf .failed log).Nodup
  were : ∀ id ∈ jobsOf .failed log, db.live.get id ≠ none
  gone : ∀ id ∈ jobsOf .failed log, last.live.get id = none
  stays : ∀ id, db.live.get id = none → last.live.get id = none
  left : ∀ row ∈ db.live.rows,
    row ∈ last.live.rows ∨ row.id ∈ jobsOf .failed log
  readied : ∀ entry ∈ last.ready.rows,
    entry ∈ db.ready.rows ∨ entry.jobId ∈ jobsOf .ready log

section Accounting

variable {db middle last : Db} {first later log : List Judgement}
variable {id : JobId} {createdAt : Time} {outcome : Recheck}

theorem Accounts.refl (db : Db) : Accounts db [] db where
  once := List.nodup_nil
  were _ member := nomatch member
  gone _ member := nomatch member
  stays _ isGone := isGone
  left _ member := Or.inl member
  readied _ member := Or.inl member

theorem Accounts.trans (one : Accounts db first middle)
    (other : Accounts middle later last) :
    Accounts db (first ++ later) last where
  once := by
    rw [jobsOf_append, List.nodup_append]
    refine ⟨one.once, other.once, ?_⟩
    intro id early _ late same
    subst same
    exact other.were id late (one.gone id early)
  were := by
    intro id member isNone
    rw [jobsOf_append, List.mem_append] at member
    rcases member with early | late
    · exact one.were id early isNone
    · exact other.were id late (one.stays id isNone)
  gone := by
    intro id member
    rw [jobsOf_append, List.mem_append] at member
    rcases member with early | late
    · exact other.stays id (one.gone id early)
    · exact other.gone id late
  stays id isNone := other.stays id (one.stays id isNone)
  left := by
    intro row member
    rw [jobsOf_append, List.mem_append]
    rcases one.left row member with kept | failed
    · exact (other.left row kept).imp_right Or.inr
    · exact Or.inr (Or.inl failed)
  readied := by
    intro entry member
    rw [jobsOf_append, List.mem_append]
    rcases other.readied entry member with kept | ready
    · exact (one.readied entry kept).imp_right Or.inl
    · exact Or.inr (Or.inr ready)

theorem Rechecked.accounts
    (rechecked : Rechecked db id createdAt outcome last) :
    Accounts db [⟨db, id, outcome⟩] last := by
  have same : ∀ {last : Db}, last.live = db.live →
      (∀ entry ∈ last.ready.rows, entry ∈ db.ready.rows ∨
        entry.jobId ∈ jobsOf .ready [⟨db, id, outcome⟩]) →
      outcome ≠ .failed → Accounts db [⟨db, id, outcome⟩] last := by
    intro last isLive readied notFailed
    have none : jobsOf .failed [⟨db, id, outcome⟩] = [] := by
      simp [jobsOf, notFailed]
    constructor
    · rw [none]
      exact List.nodup_nil
    · rw [none]
      exact fun _ member => absurd member List.not_mem_nil
    · rw [none]
      exact fun _ member => absurd member List.not_mem_nil
    · rw [isLive]
      exact fun _ isGone => isGone
    · rw [isLive]
      exact fun _ member => Or.inl member
    · exact readied
  cases rechecked with
  | blocked _ _ => exact same rfl (fun _ member => Or.inl member) (by decide)
  | gone _ => exact same rfl (fun _ member => Or.inl member) (by decide)
  | ready _ _ _ _ only =>
      refine same rfl (fun entry member => ?_) (by decide)
      exact (only entry member).imp_right fun isJob => by simp [jobsOf, isJob]
  | @failed job error waits _ =>
      have found := (Option.filter_eq_some_iff.mp waits).1
      have isJob : job.id = id := Table.key_of_get found
      have isLive : (db.fail job error "dependency_failed" db.clock).live =
          db.live.erase id := by
        rw [← isJob]
        rfl
      have alone : jobsOf .failed [⟨db, id, .failed⟩] = [id] := by
        simp [jobsOf]
      constructor
      · rw [alone]
        exact List.nodup_singleton id
      · intro other member
        rw [alone, List.mem_singleton] at member
        rw [member, found]
        exact Option.some_ne_none job
      · intro other member
        rw [alone, List.mem_singleton] at member
        rw [isLive, member]
        exact Table.get_erase_self _ _
      · intro other isNone
        rw [isLive, Table.get_erase, isNone]
        exact ite_self none
      · intro row member
        rw [isLive, alone, List.mem_singleton]
        by_cases same : row.id = id
        · exact Or.inr same
        · refine Or.inl (List.mem_filter.mpr ⟨member, ?_⟩)
          simpa using same
      · intro entry member
        exact Or.inl (List.mem_filter.mp member).1

theorem Judges.accounts {left : List (JobId × Time)}
    (judges : Judges db left log last) : Accounts db log last := by
  induction judges with
  | nil => exact .refl _
  | cons rechecked _ ih => exact rechecked.accounts.trans ih

theorem Walks.accounts {work : Work} {seen : List JobId}
    (walks : Walks db work seen log last) : Accounts db log last := by
  induction walks with
  | done => exact .refl _
  | skipped _ _ _ ih => exact ih
  | looked _ _ judges _ ih => exact judges.accounts.trans ih

/-- Each entry of the log is of a job that was re-judged on its data. -/
theorem Judges.rechecked {left : List (JobId × Time)}
    (judges : Judges db left log last) {entry : Judgement}
    (member : entry ∈ log) : ∃ createdAt next,
      Rechecked entry.db entry.job createdAt entry.outcome next := by
  induction judges with
  | nil => cases member
  | cons rechecked _ ih =>
      rcases List.mem_cons.mp member with rfl | later
      · exact ⟨_, _, rechecked⟩
      · exact ih later

theorem Walks.rechecked {work : Work} {seen : List JobId}
    (walks : Walks db work seen log last) {entry : Judgement}
    (member : entry ∈ log) : ∃ createdAt next,
      Rechecked entry.db entry.job createdAt entry.outcome next := by
  induction walks with
  | done => cases member
  | skipped _ _ _ ih => exact ih member
  | looked _ _ judges _ ih =>
      rcases List.mem_append.mp member with early | late
      · exact judges.rechecked early
      · exact ih late

theorem Rechecked.failing (rechecked : Rechecked db id createdAt .failed last) :
    ∃ row, db.waitingJob id = some row ∧
      ∃ dep ∈ dependencyIds row, DependencyFailed db dep ∨ GivenUp db dep := by
  cases rechecked with
  | failed waits failed => exact ⟨_, waits, failed_of_verdict failed⟩

theorem Rechecked.releasing
    (rechecked : Rechecked db id createdAt .ready last) :
    ∃ row, db.waitingJob id = some row ∧
      ∀ dep ∈ dependencyIds row, DependencyMet db dep := by
  cases rechecked with
  | ready waits met _ _ _ => exact ⟨_, waits, met_of_verdict met⟩

end Accounting

/-! ## The release -/

section Release

variable {cfg : Config}

/-- A release with nobody beside it returns, and its log tells what it did. -/
theorem release_walks (cfg : Config) {n : Nat} {state : World n}
    {process : Fin n} (job : JobId) (parent : Option JobId)
    (idle : (state.session process).prog.idle = true)
    (quiescent : System.Quiescent state process)
    (enough : state.db.live.rows.length + 1 < cfg.fuel) :
    ∃ steps last log,
      (system cfg).run state
        (Action.calls process (.releaseDependents job parent) steps) =
          some last ∧
      (last.session process).prog =
        .done (.ok (.count (jobsOf .ready log).length)) ∧
      Walks state.db [(job, parent)] [] log last.db := by
  have short : ([(job, parent)] : Work).length + state.db.live.rows.length <
      cfg.fuel := by
    rw [List.length_singleton]
    omega
  obtain ⟨log, last, ⟨settles, _⟩, walks⟩ : ∃ log last,
      Settles cfg (releaseLoop cfg cfg.fuel [(job, parent)] [] 0) state.db
        (0 + (jobsOf .ready log).length) 0 last ∧
      Walks state.db [(job, parent)] [] log last :=
    settles_releaseLoop _ _ _ _ short
  rw [Nat.zero_add] at settles
  obtain ⟨final, alone, _⟩ := settles {} rfl
  have called : (system cfg).Alone
      ((system cfg).body (.releaseDependents job parent)) state.db {}
      (.ok (.count (jobsOf .ready log).length)) last final :=
    System.Alone.bind _ alone (.done _)
  obtain ⟨steps, ended, ran, isDone, rfl⟩ := called.calls idle quiescent
  exact ⟨steps, ended, log, ran, isDone, walks⟩

/-- A release of dependents with nobody beside it ends, whatever jobs depend on
each other and whatever jobs are retries of each other.  It fails each job once
at most, and only one with a dependency that is missing, has failed for good, or
has failed `MAX_CHAIN_HOPS` retries in a row; the jobs it makes ready have all
their dependencies met. -/
theorem release_ends_sound (cfg : Config) {n : Nat} {state : World n}
    {process : Fin n} (job : JobId) (parent : Option JobId)
    (idle : (state.session process).prog.idle = true)
    (quiescent : System.Quiescent state process)
    (enough : state.db.live.rows.length + 1 < cfg.fuel) :
    ∃ steps last log,
      (system cfg).run state
        (Action.calls process (.releaseDependents job parent) steps) =
          some last ∧
      (last.session process).prog =
        .done (.ok (.count (jobsOf .ready log).length)) ∧
      Walks state.db [(job, parent)] [] log last.db ∧
      (jobsOf .failed log).Nodup ∧
      (∀ row ∈ state.db.live.rows,
        row ∈ last.db.live.rows ∨ row.id ∈ jobsOf .failed log) ∧
      (∀ entry ∈ last.db.ready.rows, entry ∈ state.db.ready.rows ∨
        entry.jobId ∈ jobsOf .ready log) ∧
      (∀ entry ∈ log, entry.outcome = .failed → ∃ row,
        entry.db.waitingJob entry.job = some row ∧
        ∃ dep ∈ dependencyIds row,
          DependencyFailed entry.db dep ∨ GivenUp entry.db dep) ∧
      ∀ entry ∈ log, entry.outcome = .ready → ∃ row,
        entry.db.waitingJob entry.job = some row ∧
        ∀ dep ∈ dependencyIds row, DependencyMet entry.db dep := by
  obtain ⟨steps, last, log, ran, isDone, walks⟩ :=
    release_walks cfg job parent idle quiescent enough
  have accounts := walks.accounts
  refine ⟨steps, last, log, ran, isDone, walks, accounts.once, accounts.left,
    accounts.readied, ?_, ?_⟩
  · intro entry member isFailed
    obtain ⟨createdAt, next, rechecked⟩ := walks.rechecked member
    rw [isFailed] at rechecked
    exact rechecked.failing
  · intro entry member isReady
    obtain ⟨createdAt, next, rechecked⟩ := walks.rechecked member
    rw [isReady] at rechecked
    exact rechecked.releasing

end Release

/-- The second job waits on the first, which has failed. -/
def failedUpstream : Db :=
  { live := ⟨[{ id := 2, createdAt := 5, dependencies := [some 1] }],
      by decide⟩
    history := ⟨[
      { id := 1, createdAt := 0, status := .failed, finishedAt := some 3 }],
      by decide⟩
    blocked := ⟨[
      { jobId := 2, dependencyId := 1, createdAt := 5, blockedAt := 5 }],
      by decide⟩ }

theorem release_ends_sound_failedUpstream : ∃ steps last log,
    (system sqlite).run (System.initial failedUpstream : World 1)
      (Action.calls 0 (.releaseDependents 1 none) steps) = some last ∧
    (last.session 0).prog =
      .done (.ok (.count (jobsOf .ready log).length)) ∧
    (jobsOf .failed log).Nodup ∧
    ∀ entry ∈ log, entry.outcome = .failed → ∃ row,
      entry.db.waitingJob entry.job = some row ∧
      ∃ dep ∈ dependencyIds row,
        DependencyFailed entry.db dep ∨ GivenUp entry.db dep := by
  obtain ⟨steps, last, log, ran, isDone, _, once, _, _, failing, _⟩ :=
    release_ends_sound sqlite 1 none
      (rfl : ((System.initial failedUpstream : World 1).session 0).prog.idle =
        true) (quiescent_alone _) (by decide)
  exact ⟨steps, last, log, ran, isDone, once, failing⟩

/-! ## A job that is its own retry -/

/-- The first job has failed and is recorded as the retry of itself. -/
def ownRetry : Job :=
  { id := 1, createdAt := 0, status := .failed, parentJobId := some 1,
    finishedAt := some 3 }

/-- The second job waits on it. -/
def endless : Db :=
  { live := failedUpstream.live
    history := ⟨[ownRetry], by decide⟩
    blocked := failedUpstream.blocked }

section Endless

variable {latest : JobId → Option Job} {row final : Job}

theorem chainEnd_cycle (isOwn : latest row.id = some row) (hops : Nat) :
    chainEnd latest hops row = row := by
  induction hops with
  | zero => rfl
  | succ hops ih =>
      simp only [chainEnd, isOwn]
      rw [ih]
      exact ite_self row

theorem not_chainTo_cycle (failed : row.status = .failed)
    (isOwn : latest row.id = some row) (links : Nat) :
    ¬ChainTo latest links row final := by
  induction links with
  | zero =>
      intro chain
      cases chain with
      | settled notFailed _ => exact notFailed failed
      | last isNone =>
          rw [isOwn] at isNone
          cases isNone
  | succ links ih =>
      intro chain
      cases chain with
      | link _ isChild rest =>
          rw [isOwn] at isChild
          cases isChild
          exact ih rest

theorem endless_latest : endless.latestRetry ownRetry.id = some ownRetry := by
  decide +kernel

theorem endless_failed : (endless.verdict [1]).state = .failed := by
  rw [verdict_eq_judged, judged_failed_iff]
  have found : fetchAmong endless [1] 1 = some ownRetry := by
    decide +kernel
  refine ⟨1, List.mem_singleton_self 1, ?_⟩
  simp only [fate, found, chainEnd_cycle endless_latest]
  decide

theorem endless_notFailed : ¬DependencyFailed endless 1 := by
  have listed : ∀ row ∈ endless.jobAll, row.id = 1 → row = ownRetry := by
    decide +kernel
  intro failed
  rcases failed with missing | ⟨final, ⟨row, member, isRow, links, chain⟩, _⟩
  · exact missing ownRetry (by decide +kernel) rfl
  · rw [listed row member isRow] at chain
    exact not_chainTo_cycle rfl endless_latest links chain

end Endless

/-- The release fails the second job, although the retry chain of the first
never ends. -/
theorem release_fails_endless : ∃ steps last log,
    (system sqlite).run (System.initial endless : World 1)
      (Action.calls 0 (.releaseDependents 1 none) steps) = some last ∧
    Walks endless [(1, none)] [] log last.db ∧
    ∃ entry ∈ log, entry.job = 2 ∧ entry.outcome = .failed ∧ ∃ row,
      entry.db.waitingJob 2 = some row ∧
      ∀ dep ∈ dependencyIds row, ¬DependencyFailed entry.db dep := by
  obtain ⟨steps, last, log, ran, _, walks⟩ :=
    release_walks sqlite 1 none
      (rfl : ((System.initial endless : World 1).session 0).prog.idle = true)
      (quiescent_alone _) (by decide)
  change Walks endless [(1, none)] [] log last.db at walks
  refine ⟨steps, last, log, ran, walks, ?_⟩
  cases walks with
  | skipped top isSeen _ => cases isSeen
  | looked top _ judges _ =>
      cases top
      have isOne : endless.dependents
          (endless.ancestorIds maxChainHops [1] none) = [(2, 5)] := by
        decide +kernel
      have waits : ∃ row, endless.waitingJob 2 = some row ∧
          row.createdAt = 5 ∧ dependencyIds row = [1] := by
        decide +kernel
      obtain ⟨row, waiting, dated, isDep⟩ := waits
      have failed : (endless.verdict (dependencyIds row)).state = .failed := by
        rw [isDep]
        exact endless_failed
      have goesOn : ∀ dep ∈ dependencyIds row,
          ¬DependencyFailed endless dep := by
        intro dep member
        rw [isDep, List.mem_singleton] at member
        rw [member]
        exact endless_notFailed
      rw [isOne] at judges
      cases judges with
      | cons rechecked _ =>
          refine ⟨_, List.mem_append_left _ List.mem_cons_self, rfl, ?_, row,
            waiting, goesOn⟩
          cases rechecked with
          | failed _ _ => rfl
          | gone other => exact (other row waiting dated).elim
          | blocked other pending =>
              cases waiting.symm.trans other
              rw [failed] at pending
              cases pending
          | ready other met _ _ _ =>
              cases waiting.symm.trans other
              rw [failed] at met
              cases met

end Sqlery.Standalone
