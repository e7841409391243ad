import Sqlery.Core.Verdicts
import Sqlery.Standalone.Results

/-!
# Upstream results

`_with_upstream_results` of `core.execution` collects the results of a job's
dependencies through result handles.  A handle follows the retries of a job as
the judgement of the dependencies does, so a job that runs because they are met
gets the results of the very jobs they were judged by.
-/

namespace Sqlery.Standalone

open ReadCommitted

/-! ## Results -/

/-- A decoded return value; `text` is an output that is no JSON. -/
inductive ResultValue (α : Type) where
  | none
  | json (value : α)
  | text (output : String)
  deriving DecidableEq, Repr

section Collect

variable {α : Type} (cfg : Config) (loads : String → Option α)

/-- `deserialize_result`. -/
def deserializeResult (output : String) : ResultValue α :=
  if output = "" then .none
  else match loads output with
    | some value => .json value
    | none => .text output

/-- `output`. -/
def resultOutput (jobId : JobId) : Sql (Option String) := do
  match ← resultJob cfg jobId with
  | some (.job row) =>
      pure (if row.status = .success then some row.output else none)
  | some (.staged _) => pure none
  | none => pure none

/-- `result`. -/
def resultValue (jobId : JobId) : Sql (ResultValue α) := do
  match ← resultOutput cfg jobId with
  | some output => pure (deserializeResult loads output)
  | none => pure .none

def resultValues : List JobId → Sql (List (ResultValue α))
  | [] => pure []
  | dep :: rest => do
      let first ← resultValue cfg loads dep
      let later ← resultValues rest
      pure (first :: later)

/-- `meta["canvas"]["pass_result"]`. -/
inductive PassResult where
  | single
  | list
  deriving DecidableEq, Repr

/-- The argument that is prepended. -/
inductive Lead (α : Type) where
  | one (value : ResultValue α)
  | all (values : List (ResultValue α))
  deriving DecidableEq, Repr

/-- `_with_upstream_results`: the argument put before those of the job. -/
def withUpstreamResults (mode : Option PassResult) (dependencies : List JobId) :
    Sql (Option (Lead α)) :=
  match mode with
  | none => pure none
  | some mode => do
      let results ← resultValues cfg loads dependencies
      match mode, results with
      | .single, first :: _ => pure (some (.one first))
      | _, results => pure (some (.all results))

/-- The value an output stands for: none if it is empty, else the JSON value
it is the text of, and any other text itself. -/
inductive Decodes : String → ResultValue α → Prop where
  | empty : Decodes "" .none
  | json (output : String) (value : α) : output ≠ "" →
      loads output = some value → Decodes output (.json value)
  | text (output : String) : output ≠ "" → loads output = none →
      Decodes output (.text output)

theorem decodes_deserializeResult (output : String) :
    Decodes loads output (deserializeResult loads output) := by
  unfold deserializeResult
  split
  · rename_i isEmpty
    rw [isEmpty]
    exact .empty
  · rename_i notEmpty
    cases decoded : loads output with
    | some value => exact .json output value notEmpty decoded
    | none => exact .text output notEmpty decoded

end Collect

/-! ## Retry chains -/

/-- Jobs of which each is a retry of the one before. -/
def RetryPath (db : Db) (root : Job) : List Job → Prop
  | [] => True
  | child :: rest =>
      child ∈ db.jobAll ∧ child.parentJobId = some root.id ∧
        RetryPath db child rest

/-- The jobs form a forest: each is listed once, and no retry chain has more
than `MAX_CHAIN_HOPS` links. -/
structure RetryForest (db : Db) : Prop where
  once : (db.jobAll.map (·.id)).Nodup
  bounded : ∀ root ∈ db.jobAll, ∀ path, RetryPath db root path →
    path.length ≤ maxChainHops

/-- The chain of newest retries that starts at the dependency ends in the
job. -/
def EndsAt (db : Db) (dep : JobId) (final : Job) : Prop :=
  ∃ row ∈ db.jobAll, row.id = dep ∧ ∃ links,
    ChainTo db.latestRetry links row final

section Forest

variable {db : Db} {row : Job} {dep : JobId}

theorem chain_of_bounded (links : Nat)
    (bounded : ∀ path, RetryPath db row path → path.length ≤ links) :
    ∃ count ≤ links, ∃ final, ChainTo db.latestRetry count row final := by
  have stops : ∀ {links : Nat} {row : Job},
      ¬(row.status = .failed ∨ row.status = .archived) →
      ∃ count ≤ links, ∃ final, ChainTo db.latestRetry count row final := by
    intro links row notSuperseded
    exact ⟨0, Nat.zero_le _, row, .settled (fun failed =>
      notSuperseded (Or.inl failed)) fun archived =>
        notSuperseded (Or.inr archived)⟩
  induction links generalizing row with
  | zero =>
      cases isLast : db.latestRetry row.id with
      | none => exact ⟨0, le_refl _, row, .last isLast⟩
      | some child =>
          have path : RetryPath db row [child] :=
            ⟨(latestRetry_mem isLast).1, (latestRetry_mem isLast).2, trivial⟩
          cases bounded [child] path
  | succ links ih =>
      by_cases superseded : row.status = .failed ∨ row.status = .archived
      · cases isLast : db.latestRetry row.id with
        | none => exact ⟨0, Nat.zero_le _, row, .last isLast⟩
        | some child =>
            obtain ⟨member, isChild⟩ := latestRetry_mem isLast
            have fewer : ∀ path, RetryPath db child path →
                path.length ≤ links := by
              intro path rest
              have longer := bounded (child :: path) ⟨member, isChild, rest⟩
              exact Nat.le_of_succ_le_succ longer
            obtain ⟨count, few, final, chain⟩ := ih fewer
            exact ⟨count + 1, Nat.succ_le_succ few, final,
              .link superseded isLast chain⟩
      · exact stops superseded

theorem ChainTo.unique {latest : JobId → Option Job} {first second : Nat}
    {left right : Job} (one : ChainTo latest first row left)
    (other : ChainTo latest second row right) : left = right := by
  have here := one.chainEnd (Nat.le_max_left first second)
  have there := other.chainEnd (Nat.le_max_right first second)
  exact here.symm.trans there

theorem unique_of_nodup {rows : List Job} (once : (rows.map (·.id)).Nodup)
    {first second : Job} (isFirst : first ∈ rows) (isSecond : second ∈ rows)
    (same : first.id = second.id) : first = second :=
  List.inj_on_of_nodup_map once isFirst isSecond same

/-- A search by id among rows that are listed once. -/
theorem find_of_mem {rows : List Job} (once : (rows.map (·.id)).Nodup)
    (member : row ∈ rows) :
    rows.find? (fun other => other.id = row.id) = some row := by
  cases found : rows.find? (fun other => other.id = row.id) with
  | none =>
      have absent := List.find?_eq_none.mp found row member
      simp at absent
  | some other =>
      have same : other.id = row.id := by simpa using List.find?_some found
      rw [unique_of_nodup once (List.mem_of_find?_eq_some found) member same]

/-- The look-up of `_judge_dependencies`. -/
def fetchAmong (db : Db) (deps : List JobId) (dep : JobId) : Option Job :=
  (db.jobAll.filter fun row => row.id ∈ deps).reverse.find? fun row =>
    row.id = dep

theorem fetchAmong_of_mem {deps : List JobId}
    (once : (db.jobAll.map (·.id)).Nodup) (member : row ∈ db.jobAll)
    (isDep : row.id ∈ deps) : fetchAmong db deps row.id = some row := by
  apply find_of_mem
  · rw [List.map_reverse]
    apply List.nodup_reverse.mpr
    exact once.sublist (List.filter_sublist.map _)
  · rw [List.mem_reverse, List.mem_filter]
    exact ⟨member, decide_eq_true isDep⟩

theorem mem_of_fetchAmong {deps : List JobId}
    (found : fetchAmong db deps dep = some row) :
    row ∈ db.jobAll ∧ row.id = dep := by
  have member := List.mem_of_find?_eq_some found
  rw [List.mem_reverse, List.mem_filter] at member
  exact ⟨member.1, by simpa using List.find?_some found⟩

theorem seen_of_listed (once : (db.jobAll.map (·.id)).Nodup)
    (member : row ∈ db.jobAll) : db.seen row.id = some row := by
  cases found : db.seen row.id with
  | some other =>
      obtain ⟨isOther, same⟩ := mem_of_seen found
      rw [unique_of_nodup once isOther member same]
  | none =>
      unfold Db.seen at found
      rcases mem_jobAll.mp member with ⟨live, isLive, rfl⟩ | finished
      · rw [id_shown, Table.get_of_mem isLive] at found
        cases found
      · split at found
        · cases found
        · have absent := List.find?_eq_none.mp found row finished
          simp at absent

end Forest

/-! ## The judgement -/

section Judgement

variable {db : Db} {deps : List JobId} {dep : JobId} {final : Job}

theorem answer_newestRetry (hops : Nat) (row : Job) :
    Script.answer db (newestRetry (m := Sql)
      (fun job => Script.read fun db => db.latestRetry job) hops row) =
        some (.ok (chainEnd db.latestRetry hops row)) := by
  induction hops generalizing row with
  | zero => rfl
  | succ hops ih =>
      unfold newestRetry chainEnd
      split
      · rw [Script.answer_bind _ (Script.answer_read db _)]
        cases db.latestRetry row.id with
        | none => rfl
        | some child => exact ih child
      · rfl

theorem answer_judgeFrom (fetch : JobId → Option Job)
    (deps failed : List JobId) (pending : Bool) :
    Script.answer db (judgeFrom (m := Sql) fetch
      (fun job => Script.read fun db => db.latestRetry job) deps failed
        pending) =
      some (.ok (judgedFrom fetch db.latestRetry deps failed pending)) := by
  induction deps generalizing failed pending with
  | nil => rfl
  | cons dep rest ih =>
      unfold judgeFrom
      cases found : fetch dep with
      | none =>
          rw [judgedFrom_none found]
          exact ih _ _
      | some row =>
          dsimp only
          rw [Script.answer_bind _ (answer_newestRetry maxChainHops row),
            judgedFrom_some found rfl]
          split
          · exact ih _ _
          · split
            · exact ih _ _
            · exact ih _ _

theorem answer_judge (deps : List JobId) :
    Script.answer db (judge deps) =
      some (.ok (judged (fetchAmong db deps) db.latestRetry deps)) := by
  rw [judge, Script.answer_bind _ (Script.answer_read db _)]
  exact answer_judgeFrom _ deps [] false

/-- What a dependency says is what the job at the end of its chain says. -/
theorem fate_of_endsAt (forest : RetryForest db) (isDep : dep ∈ deps)
    (ends : EndsAt db dep final) :
    fate (fetchAmong db deps) db.latestRetry dep = endFate final := by
  obtain ⟨row, member, rfl, links, chain⟩ := ends
  obtain ⟨count, few, other, bounded⟩ :=
    chain_of_bounded maxChainHops (forest.bounded row member)
  have found : fetchAmong db deps row.id = some row :=
    fetchAmong_of_mem forest.once member isDep
  rw [ChainTo.unique chain bounded]
  simp only [fate, found, bounded.chainEnd few]

theorem exists_endsAt (forest : RetryForest db) {row : Job}
    (member : row ∈ db.jobAll) : ∃ final, EndsAt db row.id final := by
  obtain ⟨count, _, final, chain⟩ :=
    chain_of_bounded maxChainHops (forest.bounded row member)
  exact ⟨final, row, member, rfl, count, chain⟩

theorem fate_of_missing (absent : ∀ row ∈ db.jobAll, row.id ≠ dep) :
    fate (fetchAmong db deps) db.latestRetry dep = .missing := by
  cases found : fetchAmong db deps dep with
  | none => simp only [fate, found]
  | some row =>
      obtain ⟨member, isDep⟩ := mem_of_fetchAmong found
      exact (absent row member isDep).elim

/-- A dependency is missing, or its chain ends. -/
theorem missing_or_endsAt (forest : RetryForest db) (dep : JobId) :
    (∀ row ∈ db.jobAll, row.id ≠ dep) ∨ ∃ final, EndsAt db dep final := by
  by_cases listed : ∃ row ∈ db.jobAll, row.id = dep
  · obtain ⟨row, member, rfl⟩ := listed
    exact Or.inr (exists_endsAt forest member)
  · push Not at listed
    exact Or.inl listed

/-- The dependency has succeeded: its chain ends in a success. -/
def DependencyMet (db : Db) (dep : JobId) : Prop :=
  ∃ final, EndsAt db dep final ∧ final.status = .success

/-- The dependency does not exist, or its chain ends in a failure that owes no
retry. -/
def DependencyFailed (db : Db) (dep : JobId) : Prop :=
  (∀ row ∈ db.jobAll, row.id ≠ dep) ∨
    ∃ final, EndsAt db dep final ∧ final.status = .failed ∧
      isRetryPending final.terminationReason = false

theorem fate_success_iff (forest : RetryForest db) (isDep : dep ∈ deps) :
    fate (fetchAmong db deps) db.latestRetry dep = .success ↔
      DependencyMet db dep := by
  constructor
  · intro success
    rcases missing_or_endsAt forest dep with absent | ⟨final, ends⟩
    · rw [fate_of_missing absent] at success
      cases success
    · rw [fate_of_endsAt forest isDep ends] at success
      refine ⟨final, ends, ?_⟩
      unfold endFate at success
      split at success
      · assumption
      · split at success
        · split at success <;> cases success
        · cases success
  · rintro ⟨final, ends, success⟩
    rw [fate_of_endsAt forest isDep ends]
    simp [endFate, success]

theorem fate_fails_iff (forest : RetryForest db) (isDep : dep ∈ deps) :
    (fate (fetchAmong db deps) db.latestRetry dep).fails = true ↔
      DependencyFailed db dep := by
  constructor
  · intro fails
    rcases missing_or_endsAt forest dep with absent | ⟨final, ends⟩
    · exact Or.inl absent
    · rw [fate_of_endsAt forest isDep ends] at fails
      refine Or.inr ⟨final, ends, ?_⟩
      unfold endFate at fails
      split at fails
      · cases fails
      · split at fails
        · split at fails
          · cases fails
          · rename_i isFailed owes
            exact ⟨isFailed, Bool.eq_false_iff.mpr owes⟩
        · cases fails
  · rintro (absent | ⟨final, ends, isFailed, owes⟩)
    · rw [fate_of_missing absent]
      rfl
    · rw [fate_of_endsAt forest isDep ends]
      simp [endFate, isFailed, owes, Fate.fails]

end Judgement

/-! ## The results that are passed on -/

section Results

variable {α : Type} {cfg : Config} {loads : String → Option α} {db : Db}
variable {dep : JobId} {final : Job}

theorem newestAttempt_eq (db : Db) (hops : Nat) (row : Job) :
    db.newestAttempt hops row = chainEnd db.latestRetry hops row := by
  induction hops generalizing row with
  | zero => rfl
  | succ hops ih =>
      unfold Db.newestAttempt chainEnd
      have same : superseded row = (decide (row.status = .failed) ||
          decide (row.status = .archived)) := Bool.or_comm _ _
      rw [same]
      split
      · cases db.latestRetry row.id with
        | none => rfl
        | some child => exact ih child
      · rfl

/-- The handle reports on the job at the end of the chain. -/
theorem resultJob_of_endsAt (forest : RetryForest db)
    (ends : EndsAt db dep final) :
    db.resultJob cfg dep = some (.job final) := by
  obtain ⟨row, member, rfl, links, chain⟩ := ends
  obtain ⟨count, few, other, bounded⟩ :=
    chain_of_bounded maxChainHops (forest.bounded row member)
  have same : chainEnd db.latestRetry maxRetryHops row = final := by
    rw [ChainTo.unique chain bounded]
    exact bounded.chainEnd few
  unfold Db.resultJob
  rw [seen_of_listed forest.once member]
  simp only [newestAttempt_eq, same]

theorem answer_resultValue (forest : RetryForest db)
    (ends : EndsAt db dep final) (success : final.status = .success) :
    Script.answer db (resultValue cfg loads dep) =
      some (.ok (deserializeResult loads final.output)) := by
  have output : Script.answer db (resultOutput cfg dep) =
      some (.ok (some final.output)) := by
    rw [resultOutput, Script.answer_bind _ (answer_resultJob cfg db dep),
      resultJob_of_endsAt forest ends]
    simp [success]
  rw [resultValue, Script.answer_bind _ output]
  rfl

/-- The results of dependencies that have all succeeded, in their order. -/
theorem answer_resultValues (forest : RetryForest db) {deps : List JobId}
    {finals : List Job} (ends : List.Forall₂ (fun dep final =>
      EndsAt db dep final ∧ final.status = .success) deps finals) :
    Script.answer db (resultValues cfg loads deps) =
      some (.ok (finals.map fun final =>
        deserializeResult loads final.output)) := by
  induction ends with
  | nil => rfl
  | cons first _ ih =>
      rw [resultValues, Script.answer_bind _
        (answer_resultValue forest first.1 first.2),
        Script.answer_bind _ ih]
      rfl

theorem finals_of_succeeded {deps : List JobId}
    (all : ∀ dep ∈ deps, DependencyMet db dep) :
    ∃ finals, List.Forall₂ (fun dep final =>
      EndsAt db dep final ∧ final.status = .success) deps finals := by
  induction deps with
  | nil => exact ⟨[], .nil⟩
  | cons dep rest ih =>
      obtain ⟨final, ends⟩ := all dep List.mem_cons_self
      obtain ⟨finals, later⟩ := ih fun other member =>
        all other (List.mem_cons_of_mem _ member)
      exact ⟨final :: finals, .cons ends later⟩

end Results

/-- The judgement reads the ends of the retry chains, and the results passed on
are those of the same jobs. -/
theorem verdict_agrees_results {α : Type} (cfg : Config)
    (loads : String → Option α) (db : Db) (forest : RetryForest db)
    (deps : List JobId) : ∃ verdict,
      Script.answer db (judge deps) = some (.ok verdict) ∧
      (verdict.state = .met ↔ ∀ dep ∈ deps, DependencyMet db dep) ∧
      (verdict.state = .failed ↔ ∃ dep ∈ deps, DependencyFailed db dep) ∧
      (verdict.state = .pending ↔ ¬(∀ dep ∈ deps, DependencyMet db dep) ∧
        ¬∃ dep ∈ deps, DependencyFailed db dep) ∧
      (verdict.state = .met → ∃ finals results,
        List.Forall₂ (fun dep final =>
          EndsAt db dep final ∧ final.status = .success) deps finals ∧
        List.Forall₂ (fun final result => Decodes loads final.output result)
          finals results ∧
        Script.answer db (withUpstreamResults cfg loads (some .list) deps) =
          some (.ok (some (.all results)))) := by
  have met : (judged (fetchAmong db deps) db.latestRetry deps).state = .met ↔
      ∀ dep ∈ deps, DependencyMet db dep := by
    rw [judged_met_iff]
    exact forall₂_congr fun dep isDep => fate_success_iff forest isDep
  have failed : (judged (fetchAmong db deps) db.latestRetry deps).state =
      .failed ↔ ∃ dep ∈ deps, DependencyFailed db dep := by
    rw [judged_failed_iff]
    exact exists_congr fun dep => and_congr_right fun isDep =>
      fate_fails_iff forest isDep
  refine ⟨_, answer_judge deps, met, failed, ?_, ?_⟩
  · rw [← met, ← failed]
    cases (judged (fetchAmong db deps) db.latestRetry deps).state <;> simp
  · intro isMet
    obtain ⟨finals, ends⟩ := finals_of_succeeded (met.mp isMet)
    refine ⟨finals, finals.map fun final =>
      deserializeResult loads final.output, ends, ?_, ?_⟩
    · rw [List.forall₂_map_right_iff, List.forall₂_same]
      exact fun final _ => decodes_deserializeResult loads final.output
    · rw [withUpstreamResults, Script.answer_bind _
        (answer_resultValues forest ends)]
      rfl

/-- The first job was archived for its retry, which has succeeded. -/
def retriedOnce : Db :=
  { history := ⟨[
      { id := 1, createdAt := 0, status := .archived, finishedAt := some 3 },
      { id := 2, createdAt := 3, status := .success, parentJobId := some 1,
        output := "7", finishedAt := some 9 }], by decide⟩ }

theorem retriedOnce_forest : RetryForest retriedOnce where
  once := by decide
  bounded := by
    intro root _ path isPath
    have parent : ∀ {root child : Job}, child ∈ retriedOnce.jobAll →
        child.parentJobId = some root.id → root.id = 1 ∧ child.id = 2 := by
      intro root child member isChild
      rcases List.mem_cons.mp member with rfl | later
      · cases isChild
      · rw [List.mem_singleton] at later
        subst later
        exact ⟨(Option.some.inj isChild).symm, rfl⟩
    cases path with
    | nil => exact Nat.zero_le _
    | cons child rest =>
        obtain ⟨member, isChild, isRest⟩ := isPath
        cases rest with
        | nil => simp [maxChainHops]
        | cons grandchild rest =>
            have first := (parent member isChild).2
            have second := (parent isRest.1 isRest.2.1).1
            exact absurd (first.symm.trans second) (by decide)

theorem verdict_agrees_results_retriedOnce : ∃ verdict,
    Script.answer retriedOnce (judge [1]) = some (.ok verdict) ∧
    verdict.state = .met ∧ ∃ finals results,
      List.Forall₂ (fun dep final =>
        EndsAt retriedOnce dep final ∧ final.status = .success) [1] finals ∧
      List.Forall₂ (fun final result =>
        Decodes String.toNat? final.output result) finals results ∧
      Script.answer retriedOnce (withUpstreamResults { dialect := .sqlite }
        String.toNat? (some .list) [1]) = some (.ok (some (.all results))) := by
  obtain ⟨verdict, judges, met, _, _, results⟩ :=
    verdict_agrees_results { dialect := .sqlite } String.toNat? retriedOnce
      retriedOnce_forest [1]
  have isMet : verdict.state = .met := by
    rw [answer_judge] at judges
    cases judges
    decide +kernel
  exact ⟨verdict, judges, isMet, results isMet⟩

end Sqlery.Standalone
