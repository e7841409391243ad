import Sqlery.ReadCommitted.Extension
import Sqlery.Standalone.Attempts
import Sqlery.Standalone.SealedCalls

/-!
# Open attempts belong to live jobs

A move closes what is open of its job, and an attempt is opened under the lock
of a live row.  The replacement of a named job deletes the row of a running
job like any other and leaves its attempt open: as long as no running job is
replaced, every open attempt has its live row.
-/

namespace Sqlery.Standalone

open ReadCommitted

/-- The backend, whose transactions also promise to be sealed. -/
def sealedCalls (cfg : Config) : Setting.Extension (backend cfg) Call where
  body := (system cfg).body
  like := id
  beyond := fun _ => Sealed cfg

theorem sealed_verified (cfg : Config) :
    (sealedCalls cfg).setting.Verified (Returns cfg) := by
  intro call db state inv guarded isInitial
  have safe := backend_verified cfg call db state inv guarded isInitial
  subst isInitial
  have seals : Seals cfg true (scriptOf cfg call) := scriptOf_seals call
  have ends := seals db {} ⟨inv, trivial⟩ guarded (shut_of_idle rfl)
  exact Setting.Extension.safe_of_ends (fun _ => trivial) (fun _ _ => trivial)
    (fun _ _ isSealed => isSealed) guarded ends safe

/-- Every open attempt has a live row of its job. -/
def Homed (db : Db) : Prop :=
  ∀ attempt ∈ db.attempts.rows, attempt.isOpen = true →
    ∃ row, db.live.get attempt.jobId = some row

/-- A commit replaces no job that is running. -/
def SparesRunning {n : Nat} (state : World n) (action : Action Write Call n) :
    Prop :=
  ∀ process call, System.committing state action = some (process, call) →
    ∀ job, .discardLive job ∈ (state.session process).state.pending →
      state.db.hasOpenAttempt job = false

section Commit

variable {cfg : Config} {call : Call} {stage : Stage} {db : Db} {state : Loc}

/-- A live row stays unless its job is moved or replaced. -/
theorem live_stays {job : JobId} {row : Job}
    (found : db.live.get job = some row)
    (unmoved : .deleteLive job ∉ state.pending)
    (unreplaced : .discardLive job ∉ state.pending) :
    ∃ now, (after state.pending db).live.get job = some now := by
  have kept : ∀ write ∈ state.pending, ¬removes job write := by
    rintro write member (rfl | rfl)
    · exact unmoved member
    · exact unreplaced member
  obtain ⟨now, isNow, _⟩ := live_after_some found kept
  exact ⟨now, isNow⟩

/-- A lawful transaction gives no id of a live job away. -/
theorem Lawful.unrenewed (lawful : Lawful cfg.dialect call stage db state)
    {job : JobId} {row : Job} (found : db.live.get job = some row) :
    ∀ new, .insertLive new ∈ state.pending → new.id ≠ job :=
  lawful.noInsert (by simp [found])

/-- A call that opens attempts replaces no job. -/
theorem not_creates_of_opens (opens : call.opens = true) :
    call.creates = false := by
  cases call with
  | claimJob => rfl
  | claimJobById => rfl
  | atomicClaimJob => rfl
  | aclaimJob => rfl
  | amarkRunning => rfl
  | _ => cases opens

/-- What a sealed transaction leaves open of a job it did not move. -/
theorem Cleared.closes_open {job : JobId} {row : Job} {attempt : Attempt}
    (cleared : Cleared cfg db state job)
    (lawful : Lawful cfg.dialect call stage db state)
    (found : db.live.get job = some row)
    (stored : attempt ∈ db.attempts.rows) (runs : attempt.runs job = true)
    (still : attempt ∈ (after state.pending db).attempts.rows) : False := by
  cases cleared with
  | renewed new inserted same =>
      exact lawful.unrenewed found new inserted same
  | closed owned closes unopened =>
      obtain ⟨write, member, isClose⟩ :=
        List.mem_filterMap.mp (closes attempt stored runs)
      have isClosed : Standalone.closes attempt.id write := by
        cases write with
        | closeAttempt id owner now outcome =>
            cases isClose
            exact ⟨owner, now, outcome, rfl⟩
        | _ => cases isClose
      obtain ⟨new, isNew, notOpen⟩ :=
        attempts_after_closed (Table.get_of_mem stored) member isClosed
      rw [Table.get_of_mem still] at isNew
      cases isNew
      rw [(runs_iff.mp runs).2] at notOpen
      cases notOpen

theorem Homed.commit (homed : Homed db)
    (lawful : Lawful cfg.dialect call stage db state)
    (isSealed : Sealed cfg db state)
    (spares : ∀ job, .discardLive job ∈ state.pending →
      db.hasOpenAttempt job = false) :
    Homed (after state.pending db) := by
  intro attempt member isOpen
  rcases open_after_cases member isOpen with old | new
  · obtain ⟨row, found⟩ := homed attempt old isOpen
    have runs : attempt.runs attempt.jobId = true := runs_iff.mpr ⟨rfl, isOpen⟩
    apply live_stays found
    · intro moved
      exact (isSealed _ moved).closes_open lawful found old runs member
    · intro replaced
      exact hasOpenAttempt_eq_false.mp (spares _ replaced) attempt old isOpen
        rfl
  · obtain ⟨row, found, _⟩ := (lawful.opened attempt new).2.2.row
    apply live_stays found
    · intro moved
      cases isSealed _ moved with
      | renewed other inserted same =>
          exact lawful.unrenewed found other inserted same
      | closed owned closes unopened => exact unopened attempt new rfl
    · intro replaced
      have creates := (lawful.discarded _ replaced).1
      rw [not_creates_of_opens (lawful.openedBy attempt new)] at creates
      cases creates

end Commit

section Runs

variable {cfg : Config} {n : Nat} {state next : World n}
variable {action : Action Write Call n}

theorem Reached.sealed
    {allowed : World n → Action Write Call n → Prop}
    (reached : Reached cfg allowed state) {process : Fin n} {call : Call}
    (commits : (backend cfg).Commits state next action process call) :
    Sealed cfg state.db (state.session process).state := by
  obtain ⟨tasks, workers, clock, run⟩ := reached
  have good := Setting.sound (sealed_verified cfg)
    (inv_installed tasks workers clock) run
  obtain ⟨rest, isCommit⟩ := commits.isCommit
  exact (good.atCommit commits.isCall isCommit).2

/-- One step keeps every open attempt at home. -/
theorem Homed.act {allowed : World n → Action Write Call n → Prop}
    (reached : Reached cfg allowed state) (homed : Homed state.db)
    (spares : SparesRunning state action)
    (taken : (system cfg).act state action = some next) : Homed next.db := by
  rcases reached.good.act_cases taken with ⟨process, call, commits⟩ | quiet
  · obtain ⟨stage, complete, lawful⟩ := commits.promised
    rw [commits.db]
    exact homed.commit lawful (reached.sealed commits)
      (spares process call commits.committing)
  · have tables := sameTables_of_drifts quiet.db
    intro attempt member isOpen
    rw [tables.attempts] at member
    rw [tables.live]
    exact homed attempt member isOpen

theorem Reached.homed {allowed : World n → Action Write Call n → Prop}
    (spares : ∀ state action, allowed state action →
      SparesRunning state action)
    (reached : Reached cfg allowed state) : Homed state.db := by
  have start : ∀ tasks workers clock,
      Homed (installed tasks workers clock) := by
    intro tasks workers clock attempt member
    cases member
  have step : ∀ state action next, Reached cfg allowed state →
      Homed state.db → allowed state action →
      (system cfg).act state action = some next → Homed next.db :=
    fun state action next before homed permitted taken =>
      homed.act before (spares state action permitted) taken
  exact Reached.induct (fun tasks workers clock => start tasks workers clock)
    step reached

/-- Every open attempt belongs to a live job, as long as no running job is
replaced by a job of its name. -/
theorem open_attempt_homed (cfg : Config) {n : Nat} {state : World n}
    (reached : Reached cfg SparesRunning state) :
    ∀ attempt ∈ state.db.attempts.rows, attempt.isOpen = true →
      ∃ row, state.db.live.get attempt.jobId = some row :=
  reached.homed fun _ _ spares => spares

end Runs

/-! ## A named job that is replaced -/

def sparesRunning {n : Nat} (state : World n) (action : Action Write Call n) :
    Bool :=
  match System.committing state action with
  | none => true
  | some (process, _) => (state.session process).state.pending.all fun write =>
      match write with
      | .discardLive job => !state.db.hasOpenAttempt job
      | _ => true

theorem sparesRunning_sound {n : Nat} {state : World n}
    {action : Action Write Call n}
    (checked : sparesRunning state action = true) :
    SparesRunning state action := by
  intro process call committing job replaced
  simp only [sparesRunning, committing, List.all_eq_true] at checked
  have idle := checked _ replaced
  simpa using idle

/-- A named job. -/
def nightly : Call := .createJob { jobName := some "nightly" }

def claimNightly : List (Action Write Call 1) :=
  makes 0 nightly 16 ++ makes 0 nightly 24 ++
    makes 0 (.claimJob ["default"] "worker") 14

theorem claimNightly_ran :
    (checkedTo { dialect := .postgresql } sparesRunning
      claimNightly).isSome = true := by
  decide +kernel

/-- The job of that name is replaced while it waits, and its successor is
claimed. -/
theorem open_attempt_homed_nightly :
    Homed ((checkedTo { dialect := .postgresql } sparesRunning
      claimNightly).get claimNightly_ran).db :=
  open_attempt_homed _ (reached_checkedTo
    (fun _ _ checked => sparesRunning_sound checked) claimNightly_ran)

def replaceRunning : List (Action Write Call 1) :=
  makes 0 nightly 16 ++ makes 0 (.claimJob ["default"] "worker") 14 ++
    makes 0 nightly 24

theorem replaceRunning_ran :
    (ranTo { dialect := .postgresql } replaceRunning).isSome = true := by
  decide +kernel

/-- The job of that name is running when it is replaced: its attempt stays
open and its row is gone. -/
theorem replaced_stays_open :
    ¬∀ (cfg : Config) (n : Nat) (state : World n),
      Reached cfg System.anyStep state →
      ∀ attempt ∈ state.db.attempts.rows, attempt.isOpen = true →
        ∃ row, state.db.live.get attempt.jobId = some row := by
  intro claims
  have homed := claims _ 1 _ (reached_ranTo replaceRunning_ran)
  have orphan : ∃ attempt ∈ ((ranTo { dialect := .postgresql }
      replaceRunning).get replaceRunning_ran).db.attempts.rows,
      attempt.isOpen = true ∧ ((ranTo { dialect := .postgresql }
        replaceRunning).get replaceRunning_ran).db.live.get attempt.jobId =
          none := by
    decide +kernel
  obtain ⟨attempt, member, isOpen, gone⟩ := orphan
  obtain ⟨row, found⟩ := homed attempt member isOpen
  rw [gone] at found
  cases found

end Sqlery.Standalone
