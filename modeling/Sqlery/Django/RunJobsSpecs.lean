import Sqlery.Django.RunJobs
import Sqlery.ReadCommitted.Steps

/-!
# What the executor commits

A transaction marks one job as running, under the lock of its row and after the
check unless the job may run beside others, or it ends one execution.
-/

namespace Sqlery.Django.RunJobs

open ReadCommitted
open Setting (stable_and stable_fact stable_when)
open Script

abbrev Loc := Local Write Lock

def after (writes : List Write) (db : Db) : Db := schema.applyAll writes db

@[simp] theorem after_nil (db : Db) : after [] db = db := rfl

@[simp] theorem after_cons (write : Write) (writes : List Write) (db : Db) :
    after (write :: writes) db = after writes (write.apply db) := rfl

/-! ## What transactions promise -/

/-- Every open attempt belongs to a queued row. -/
def Homed (db : Db) : Prop :=
  ∀ attempt ∈ db.attempts, attempt.isOpen = true →
    ∃ row, db.jobs.get attempt.jobId = some row ∧ row.status = .queued

/-- The write marks the job as running. -/
def Write.marks (job : JobId) : Write → Prop
  | .insertAttempt attempt => attempt.jobId = job
  | .deleteReady _ _ => True
  | .deleteBlocked _ => True
  | _ => False

/-- The row of the job is there, and the job may run beside others or has
passed the check. -/
def Marked (job : JobId) (db : Db) (state : Loc) : Prop :=
  ∃ row, db.jobs.get job = some row ∧ row.status = .queued ∧
    (row.allowParallel = true ∨ .passed job ∈ state.noted)

inductive Lawful (db : Db) (state : Loc) : Prop where
  | marks (job : JobId) : (∀ write ∈ state.pending, write.marks job) →
      (∀ attempt, .insertAttempt attempt ∈ state.pending →
        Marked job db state) → Lawful db state
  | completes (job : JobId) (inPlace : Bool) :
      state.pending = [.complete job inPlace] → db.openFor job = true →
      Lawful db state

/-- A job that passes the check is known, and nothing else of its queue is
running. -/
structure Clear (job : JobId) (db : Db) : Prop where
  known : db.knows job = true
  alone : ∀ row, db.jobs.get job = some row → ∀ other ∈ db.jobs.rows,
    db.running other = true → other.queueName = row.queueName → other.id = job

/-- A call makes one check. -/
def Noted (db : Db) (state : Loc) (remarks : List Write) : Prop :=
  remarks = [] ∨ ∃ job, remarks = [.passed job] ∧ state.noted = [] ∧
    Clear job db

section Writes

variable {db : Db} {job : JobId}

theorem openFor_iff : db.openFor job = true ↔
    ∃ attempt ∈ db.attempts, attempt.jobId = job ∧ attempt.isOpen = true := by
  simp [Db.openFor, Attempt.runs]

theorem knows_of_get {row : Job} (found : db.jobs.get job = some row) :
    db.knows job = true := by
  simp [Db.knows, found]

theorem knows_of_attempt {attempt : Attempt} (member : attempt ∈ db.attempts) :
    db.knows attempt.jobId = true := by
  simp only [Db.knows, Bool.or_eq_true, List.any_eq_true, decide_eq_true_eq]
  exact Or.inr ⟨attempt, member, rfl⟩

/-- What marks a job leaves the rows of the jobs alone. -/
theorem after_marks {writes : List Write}
    (marks : ∀ write ∈ writes, write.marks job) (db : Db) :
    (after writes db).jobs = db.jobs ∧ ∀ attempt,
      attempt ∈ (after writes db).attempts ↔
        attempt ∈ db.attempts ∨ .insertAttempt attempt ∈ writes := by
  induction writes generalizing db with
  | nil => simp
  | cons write writes ih =>
      have rest := ih (fun other member =>
        marks other (List.mem_cons_of_mem _ member)) (write.apply db)
      have here := marks write List.mem_cons_self
      rw [after_cons]
      cases write with
      | insertAttempt opened =>
          refine ⟨rest.1, fun attempt => ?_⟩
          rw [rest.2 attempt]
          simp only [Write.apply, List.mem_cons, Write.insertAttempt.injEq]
          tauto
      | deleteReady slot other =>
          refine ⟨rest.1, fun attempt => ?_⟩
          rw [rest.2 attempt]
          simp [Write.apply]
      | deleteBlocked other =>
          refine ⟨rest.1, fun attempt => ?_⟩
          rw [rest.2 attempt]
          simp [Write.apply]
      | _ => exact here.elim

/-- After its completion a job has no open attempt; the others keep theirs. -/
theorem open_after_complete {inPlace : Bool} {attempt : Attempt}
    (member : attempt ∈ ((Write.complete job inPlace).apply db).attempts)
    (isOpen : attempt.isOpen = true) :
    attempt ∈ db.attempts ∧ attempt.jobId ≠ job := by
  simp only [Write.apply, List.mem_map] at member
  obtain ⟨old, isOld, same⟩ := member
  split at same
  · rw [← same] at isOpen
    cases isOpen
  · rename_i other
    subst same
    refine ⟨isOld, fun isJob => other ?_⟩
    simp [Attempt.runs, isJob, isOpen]

theorem get_after_complete {inPlace : Bool} {other : JobId}
    (different : other ≠ job) :
    ((Write.complete job inPlace).apply db).jobs.get other =
      db.jobs.get other := by
  simp only [Write.apply]
  split
  · rfl
  · rename_i row found
    have isJob : row.id = job := Table.key_of_get found
    split
    · apply Table.get_set_of_ne
      rw [isJob]
      exact different
    · exact Table.get_erase_of_ne different

/-- A row that is there after a completion was there before, or is the job's
with another status. -/
theorem row_after_complete {inPlace : Bool} {other : JobId} {row : Job}
    (found : ((Write.complete job inPlace).apply db).jobs.get other =
      some row) : ∃ old, db.jobs.get other = some old ∧
        row.toJobSpec = old.toJobSpec := by
  by_cases same : other = job
  · subst same
    simp only [Write.apply] at found
    split at found
    · exact ⟨row, found, rfl⟩
    · rename_i old isOld
      have isJob : old.id = other := Table.key_of_get isOld
      split at found
      · rw [Table.get_set] at found
        rw [if_pos isJob.symm, isOld, Option.map_some] at found
        cases found
        exact ⟨old, isOld, rfl⟩
      · rw [Table.get_erase_self] at found
        cases found
  · rw [get_after_complete same] at found
    exact ⟨row, found, rfl⟩

theorem get_after_create {new : Job} {other : JobId} {row : Job}
    (found : ((Write.create new).apply db).jobs.get other = some row) :
    db.jobs.get other = some row ∨
      (other = new.id ∧ row.status = .queued ∧ db.knows other = false) := by
  simp only [Write.apply] at found
  split at found
  · exact Or.inl found
  · rename_i unknown
    by_cases same : other = new.id
    · subst same
      rw [Bool.not_eq_true] at unknown
      have absent : db.jobs.get new.id = none := by
        simp only [Db.knows, Bool.or_eq_false_iff] at unknown
        simpa using unknown.1
      have inserted : (db.jobs.insert { new with status := .queued }).get
          new.id = some { new with status := .queued } :=
        Table.get_insert_self absent
      rw [inserted] at found
      cases found
      exact Or.inr ⟨rfl, rfl, unknown⟩
    · have kept : (db.jobs.insert { new with status := .queued }).get other =
          db.jobs.get other := Table.get_insert_of_ne same
      exact Or.inl (kept.symm.trans found)

theorem get_create_kept {new : Job} {other : JobId} {row : Job}
    (found : db.jobs.get other = some row) :
    ((Write.create new).apply db).jobs.get other = some row := by
  simp only [Write.apply]
  split
  · exact found
  · rename_i unknown
    have different : other ≠ new.id := by
      rintro rfl
      exact unknown (knows_of_get found)
    have kept : (db.jobs.insert { new with status := .queued }).get other =
        db.jobs.get other := Table.get_insert_of_ne different
    exact kept.trans found

end Writes

/-! ## The setting -/

theorem Homed.lawful {db : Db} {state : Loc} (homed : Homed db)
    (lawful : Lawful db state) : Homed (after state.pending db) := by
  intro attempt member isOpen
  cases lawful with
  | marks job marks marked =>
      obtain ⟨jobs, attempts⟩ := after_marks marks db
      rw [jobs]
      rcases (attempts attempt).mp member with old | new
      · exact homed attempt old isOpen
      · obtain ⟨row, found, queued, _⟩ := marked attempt new
        have isJob : attempt.jobId = job := marks _ new
        exact ⟨row, isJob ▸ found, queued⟩
  | completes job inPlace isPending _ =>
      rw [isPending] at member ⊢
      obtain ⟨old, different⟩ := open_after_complete member isOpen
      obtain ⟨row, found, queued⟩ := homed attempt old isOpen
      exact ⟨row, (get_after_complete different).trans found, queued⟩

theorem Homed.ambient {db : Db} {write : Write} (homed : Homed db)
    (ambient : isAmbient write = true) : Homed (write.apply db) := by
  cases write with
  | create new =>
      intro attempt member isOpen
      have old : attempt ∈ db.attempts := by
        simp only [Write.apply] at member
        split at member <;> exact member
      obtain ⟨row, found, queued⟩ := homed attempt old isOpen
      exact ⟨row, get_create_kept found, queued⟩
  | enter entry => exact homed
  | tick elapsed => exact homed
  | _ => cases ambient

/-- The executor, as a setting of proofs. -/
def executor : Setting Db Write Lock Call Return where
  sys := system
  inv := Homed
  promise _ := {
    commits := Lawful
    instant := fun _ _ writes => writes = [] ∨ writes = [.nextAttempt]
    notes := Noted }
  commit_inv := fun _ _ _ homed _ lawful => homed.lawful lawful
  instant_inv := by
    rintro call db state writes homed (rfl | rfl)
    · exact homed
    · exact homed
  ambient_inv := fun _ _ homed ambient => homed.ambient ambient

/-! ## What lasts -/

/-- The object shows the queue and the mark of the job's row. -/
structure Like (job : Job) (db : Db) : Prop where
  known : db.knows job.id = true
  row : ∀ row, db.jobs.get job.id = some row →
    row.queueName = job.queueName ∧ row.allowParallel = job.allowParallel

section Lasts

variable {db : Db} {state : Loc}

theorem knows_lasting (job : JobId) :
    executor.Lasting fun db => db.knows job = true where
  commits := by
    intro call db state _ _ lawful known
    cases lawful with
    | marks marked marks _ =>
        obtain ⟨jobs, attempts⟩ := after_marks marks db
        have keeps : (after state.pending db).knows job = true := by
          simp only [Db.knows, Bool.or_eq_true, List.any_eq_true,
            decide_eq_true_eq] at known ⊢
          rw [jobs]
          refine known.imp_right ?_
          rintro ⟨attempt, member, isJob⟩
          exact ⟨attempt, (attempts attempt).mpr (Or.inl member), isJob⟩
        exact keeps
    | completes completed inPlace isPending isOpen =>
        have keeps : ((Write.complete completed inPlace).apply db).knows job =
            true := by
          have ofAttempt : ∀ attempt ∈ db.attempts,
              ((Write.complete completed inPlace).apply db).knows
                attempt.jobId = true := by
            intro attempt member
            have kept : ∃ now ∈ ((Write.complete completed inPlace).apply
                db).attempts, now.jobId = attempt.jobId := by
              refine ⟨_, List.mem_map_of_mem member, ?_⟩
              split <;> rfl
            obtain ⟨now, isNow, same⟩ := kept
            rw [← same]
            exact knows_of_attempt isNow
          by_cases same : job = completed
          · obtain ⟨attempt, member, isJob, _⟩ := openFor_iff.mp isOpen
            have kept := ofAttempt attempt member
            rw [isJob] at kept
            rw [same]
            exact kept
          · simp only [Db.knows, Bool.or_eq_true, List.any_eq_true,
              decide_eq_true_eq] at known
            rcases known with isLive | ⟨attempt, member, isJob⟩
            · obtain ⟨row, found⟩ := Option.isSome_iff_exists.mp isLive
              exact knows_of_get ((get_after_complete same).trans found)
            · rw [← isJob]
              exact ofAttempt attempt member
        show (after state.pending db).knows job = true
        rw [isPending]
        exact keeps
  instant := by
    rintro call db state writes _ (rfl | rfl) known
    · exact known
    · exact known
  ambient := by
    intro write db _ ambient known
    cases write with
    | create new =>
        have keeps : ((Write.create new).apply db).knows job = true := by
          simp only [Db.knows, Bool.or_eq_true, List.any_eq_true,
            decide_eq_true_eq] at known
          rcases known with isLive | ⟨attempt, member, isJob⟩
          · obtain ⟨row, found⟩ := Option.isSome_iff_exists.mp isLive
            exact knows_of_get (get_create_kept found)
          · rw [← isJob]
            apply knows_of_attempt
            simp only [Write.apply]
            split <;> exact member
        exact keeps
    | enter entry => exact known
    | tick elapsed => exact known
    | _ => cases ambient

/-- A row that appears is of a job nobody knew. -/
theorem row_before {first second : Db} {job : JobId} {row : Job}
    (known : first.knows job = true)
    (origin : ∀ other row, second.jobs.get other = some row →
      (∃ old, first.jobs.get other = some old ∧
        row.toJobSpec = old.toJobSpec) ∨ first.knows other = false)
    (found : second.jobs.get job = some row) :
    ∃ old, first.jobs.get job = some old ∧ row.toJobSpec = old.toJobSpec := by
  rcases origin job row found with old | unknown
  · exact old
  · rw [known] at unknown
    cases unknown

/-- A transaction of the executor creates no row. -/
theorem Lawful.row (lawful : Lawful db state) {other : JobId} {row : Job}
    (found : (after state.pending db).jobs.get other = some row) :
    ∃ old, db.jobs.get other = some old ∧ row.toJobSpec = old.toJobSpec := by
  cases lawful with
  | marks job marks _ =>
      rw [(after_marks marks db).1] at found
      exact ⟨row, found, rfl⟩
  | completes job inPlace isPending _ =>
      rw [isPending] at found
      exact row_after_complete found

theorem ambient_origin {write : Write} (ambient : isAmbient write = true) :
    ∀ other row, (write.apply db).jobs.get other = some row →
      (∃ old, db.jobs.get other = some old ∧
        row.toJobSpec = old.toJobSpec) ∨ db.knows other = false := by
  intro other row found
  cases write with
  | create new =>
      rcases get_after_create found with old | ⟨_, _, unknown⟩
      · exact Or.inl ⟨row, old, rfl⟩
      · exact Or.inr unknown
  | enter entry => exact Or.inl ⟨row, found, rfl⟩
  | tick elapsed => exact Or.inl ⟨row, found, rfl⟩
  | _ => cases ambient

theorem Like.next {job : Job} {next : Db} (like : Like job db)
    (known : next.knows job.id = true)
    (origin : ∀ other row, next.jobs.get other = some row →
      (∃ old, db.jobs.get other = some old ∧
        row.toJobSpec = old.toJobSpec) ∨ db.knows other = false) :
    Like job next where
  known := known
  row := by
    intro row found
    obtain ⟨old, isOld, same⟩ := row_before like.known origin found
    obtain ⟨queue, parallel⟩ := like.row old isOld
    exact ⟨(congrArg JobSpec.queueName same).trans queue,
      (congrArg JobSpec.allowParallel same).trans parallel⟩

theorem like_lasting (job : Job) : executor.Lasting (Like job) where
  commits := fun call db state homed guarded lawful like =>
    like.next ((knows_lasting job.id).commits call db state homed guarded
      lawful like.known)
      fun _ _ found => Or.inl (lawful.row found)
  instant := by
    rintro call db state writes _ (rfl | rfl) like
    · exact like
    · exact ⟨like.known, like.row⟩
  ambient := fun write db homed ambient like =>
    like.next ((knows_lasting job.id).ambient write db homed ambient
      like.known) (ambient_origin ambient)

/-- While its row is locked a job is not completed. -/
theorem row_locked (job : JobId) : executor.LockedBy (.job job) fun db =>
    ∃ row, db.jobs.get job = some row ∧ row.status = .queued where
  excludes := by
    show decide (Lock.job job = Lock.job job) = true
    simp
  writes := by
    rintro write db free ⟨row, found, queued⟩
    cases write with
    | complete other inPlace =>
        have different : job ≠ other := by
          rintro rfl
          exact free List.mem_cons_self
        exact ⟨row, (get_after_complete different).trans found, queued⟩
    | create new => exact ⟨row, get_create_kept found, queued⟩
    | _ => exact ⟨row, found, queued⟩
  instant := by
    rintro call db state writes _ (rfl | rfl) holds
    · exact holds
    · exact holds
  ambient := by
    rintro write db ambient ⟨row, found, queued⟩
    cases write with
    | create new => exact ⟨row, get_create_kept found, queued⟩
    | enter entry => exact ⟨row, found, queued⟩
    | tick elapsed => exact ⟨row, found, queued⟩
    | _ => cases ambient

/-- Nor is a job completed twice. -/
theorem open_locked (job : JobId) : executor.LockedBy (.job job) fun db =>
    db.openFor job = true where
  excludes := by
    show decide (Lock.job job = Lock.job job) = true
    simp
  writes := by
    intro write db free isOpen
    obtain ⟨attempt, member, isJob, stillOpen⟩ := openFor_iff.mp isOpen
    cases write with
    | complete other inPlace =>
        have different : job ≠ other := by
          rintro rfl
          exact free List.mem_cons_self
        refine openFor_iff.mpr ⟨attempt, ?_, isJob, stillOpen⟩
        refine List.mem_map.mpr ⟨attempt, member, ?_⟩
        rw [if_neg]
        simp [Attempt.runs, isJob, different]
    | insertAttempt new =>
        exact openFor_iff.mpr
          ⟨attempt, List.mem_cons_of_mem _ member, isJob, stillOpen⟩
    | create new =>
        refine openFor_iff.mpr ⟨attempt, ?_, isJob, stillOpen⟩
        simp only [executor, system, schema, Write.apply]
        split <;> exact member
    | _ => exact openFor_iff.mpr ⟨attempt, member, isJob, stillOpen⟩
  instant := by
    rintro call db state writes _ (rfl | rfl) holds
    · exact holds
    · exact holds
  ambient := by
    intro write db ambient isOpen
    obtain ⟨attempt, member, isJob, stillOpen⟩ := openFor_iff.mp isOpen
    refine openFor_iff.mpr ⟨attempt, ?_, isJob, stillOpen⟩
    cases write with
    | create new =>
        simp only [executor, system, schema, Write.apply]
        split <;> exact member
    | enter entry => exact member
    | tick elapsed => exact member
    | _ => cases ambient

end Lasts

/-! ## What the calls do -/

section Calls

variable {call : Call}

theorem anything : executor.Stable fun _ _ => True :=
  fun _ _ _ _ _ _ _ => trivial

/-- The call has written nothing and checked nothing. -/
def Blank (state : Loc) : Prop := state.pending = [] ∧ state.noted = []

/-- The job may run beside others, or has passed the check. -/
def Vouched (job : Job) (state : Loc) : Prop :=
  job.allowParallel = true ∨ .passed job.id ∈ state.noted

/-- The transaction holds the row of the job, which is queued. -/
def Locked (job : JobId) (db : Db) (state : Loc) : Prop :=
  .job job ∈ state.held ∧
    ∃ row, db.jobs.get job = some row ∧ row.status = .queued

theorem stable_local (known : Loc → Prop) :
    executor.Stable fun _ state => known state :=
  fun _ _ _ _ _ _ holds => holds

theorem stable_like (job : Job) : executor.Stable fun db _ => Like job db :=
  fun _ _ _ env _ _ holds => (like_lasting job).env env holds

theorem stable_Locked (job : JobId) : executor.Stable (Locked job) :=
  Setting.stable_locked (row_locked job)

theorem firstFree_current {queueName : Option String} {current : Db}
    {others : Others Lock} {jobs : List Job} {row : Job}
    (found : firstFree queueName current others jobs = some row) :
    current.jobs.get row.id = some row := by
  induction jobs with
  | nil => cases found
  | cons job rest ih =>
      simp only [firstFree] at found
      split at found
      · exact ih found
      · split at found
        · rename_i version isVersion
          cases found
          have isCurrent := (Option.filter_eq_some_iff.mp isVersion).1
          have keyed : row.id = job.id := Table.key_of_get isCurrent
          rw [keyed]
          exact isCurrent
        · exact ih found

theorem view_of_blank {db : Db} {state : Loc} (blank : state.pending = []) :
    executor.sys.view db state = db := by
  simp only [System.view, blank]
  rfl

theorem like_of_get {db : Db} {job : Job}
    (found : db.jobs.get job.id = some job) : Like job db where
  known := knows_of_get found
  row := by
    intro row isRow
    rw [found] at isRow
    cases isRow
    exact ⟨rfl, rfl⟩

/-- What a selection has found. -/
def Selected (found : Option Job) (db : Db) (state : Loc) : Prop :=
  Blank state ∧ ∀ job, found = some job → Like job db

theorem stable_selected (found : Option Job) :
    executor.Stable (Selected found) := by
  refine stable_and (stable_local Blank) ?_
  intro first second state env inv guarded holds job isFound
  exact (like_lasting job).env env (holds job isFound)

theorem blank_note {state : Loc} (blank : Blank state) :
    Blank (state.note []) := by
  simpa [Blank, Local.note] using blank

/-- A query without a remark changes nothing. -/
theorem looks {γ : Type} {query : Db → γ} {pre : Db → Loc → Prop}
    (stable : executor.Stable pre) :
    executor.Spec call pre (read query : Sql γ) (fun _ => pre)
      fun _ _ => True := by
  refine .observe stable (fun _ => stable) ?_
  intro db state _ _ holds
  refine ⟨Or.inl rfl, ?_⟩
  have unchanged : state.note [] = state := by simp [Local.note]
  rw [unchanged]
  exact holds

theorem selectOne_spec {queueName : Option String} {now : Time}
    {order : List Job → List Job} :
    executor.Spec call (fun _ => Blank) (selectOne queueName now order)
      Selected fun _ _ => True := by
  refine .exec (stable_local Blank) stable_selected ?_
  intro snapshot current state others effect _ _ _ _ _ blank ran
  cases ran
  refine ⟨Or.inl rfl, ⟨?_, blank.2⟩, ?_⟩
  · simpa [Local.extend] using blank.1
  · intro job found
    have isCurrent := firstFree_current found
    rw [view_of_blank blank.1] at isCurrent
    exact like_of_get isCurrent

theorem anyQueued_spec {queueName : Option String} :
    executor.Spec call (fun _ => Blank) (anyQueued queueName)
      (fun _ _ => Blank) fun _ _ => True :=
  .bind anything (looks (stable_local Blank)) fun _ =>
    .bind anything selectOne_spec fun found =>
    .pure (stable_selected found) fun _ _ _ _ selected => selected.1

theorem firstQueued_spec {queueName : Option String} :
    executor.Spec call (fun _ => Blank) (firstQueued queueName) Selected
      fun _ _ => True :=
  .bind anything (looks (stable_local Blank)) fun _ => selectOne_spec

/-- What is known of a job after the check. -/
def CheckedFor (job : Job) (allowed : Bool) (db : Db) (state : Loc) : Prop :=
  state.pending = [] ∧ Like job db ∧ (allowed = true → Vouched job state)

theorem stable_checked (job : Job) (allowed : Bool) :
    executor.Stable (CheckedFor job allowed) :=
  stable_and (stable_local _) (stable_and (stable_like job) (stable_local _))

theorem canExecuteJob_spec (job : Job) :
    executor.Spec call (fun db state => Blank state ∧ Like job db)
      (canExecuteJob job) (CheckedFor job) fun _ _ => True := by
  have before : executor.Stable fun db state => Blank state ∧ Like job db :=
    stable_and (stable_local Blank) (stable_like job)
  unfold canExecuteJob
  split
  · rename_i parallel
    exact .pure before fun _ _ _ _ holds =>
      ⟨holds.1.1, holds.2, fun _ => Or.inl parallel⟩
  · refine .bind anything (.observe before
      (fun running => stable_checked job !running) ?_) fun running =>
        .pure (stable_checked job _) fun _ _ _ _ holds => holds
    rintro db state _ _ ⟨blank, like⟩
    rw [view_of_blank blank.1]
    constructor
    · split
      · exact Or.inl rfl
      · rename_i quiet
        refine Or.inr ⟨job.id, rfl, blank.2, like.known, ?_⟩
        intro row found other isOther running same
        by_contra different
        apply quiet
        simp only [List.any_eq_true, Bool.and_eq_true, decide_eq_true_eq]
        exact ⟨other, isOther,
          ⟨running, same.trans (like.row row found).1⟩, different⟩
    · refine ⟨blank.1, like, fun quiet => Or.inr ?_⟩
      rw [Bool.not_eq_true'] at quiet
      rw [quiet]
      exact List.mem_append_right _ List.mem_cons_self

/-- The transaction is marking the job as running. -/
structure Marking (job : Job) (db : Db) (state : Loc) : Prop where
  marks : ∀ write ∈ state.pending, write.marks job.id
  like : Like job db
  vouched : Vouched job state
  locked : Locked job.id db state

theorem stable_marking (job : Job) : executor.Stable (Marking job) := by
  intro first second state env inv guarded marking
  exact ⟨marking.marks, (like_lasting job).env env marking.like,
    marking.vouched,
    stable_Locked job.id first second state env inv guarded marking.locked⟩

theorem Marking.extend {job : Job} {db : Db} {state : Loc}
    {writes : List Write} {locks : List Lock} (marking : Marking job db state)
    (marks : ∀ write ∈ writes, write.marks job.id) :
    Marking job db (state.extend writes locks) where
  marks := by
    intro write member
    rcases List.mem_append.mp member with old | new
    · exact marking.marks write old
    · exact marks write new
  like := marking.like
  vouched := marking.vouched
  locked := ⟨List.mem_append_left _ marking.locked.1, marking.locked.2⟩

theorem Marking.lawful {job : Job} {db : Db} {state : Loc}
    (marking : Marking job db state) : Lawful db state := by
  refine .marks job.id marking.marks fun attempt _ => ?_
  obtain ⟨row, found, queued⟩ := marking.locked.2
  refine ⟨row, found, queued, ?_⟩
  rw [(marking.like.row row found).2]
  exact marking.vouched

/-- A statement of the transaction that marks the job. -/
theorem marking_exec {job : Job} {γ : Type}
    {statement : Statement Db Write Lock γ}
    (marks : ∀ snapshot current others effect,
      statement snapshot current others = some effect →
      (∀ write ∈ effect.writes, write.marks job.id) ∧ effect.atOnce = []) :
    executor.Spec call (Marking job) (exec statement : Sql γ)
      (fun _ => Marking job) fun _ _ => True := by
  refine .exec (stable_marking job) (fun _ => stable_marking job) ?_
  intro snapshot current state others effect _ _ _ _ _ marking ran
  obtain ⟨writes, atOnce⟩ := marks _ _ _ _ ran
  rw [atOnce]
  exact ⟨Or.inl rfl, marking.extend writes⟩

theorem removeEntries_spec (job : Job) :
    executor.Spec call (Marking job) (removeEntries job.id)
      (fun _ => Marking job) fun _ _ => True := by
  refine .bind anything (marking_exec ?_) fun held =>
    .bind anything (.each (stable_marking job) anything ?_) fun _ =>
      marking_exec ?_
  · intro snapshot current others effect ran
    cases ran
    exact ⟨fun write member => (List.not_mem_nil member).elim, rfl⟩
  · intro entry _
    apply marking_exec
    intro snapshot current others effect ran
    cases ran
    refine ⟨fun write member => ?_, rfl⟩
    cases List.mem_singleton.mp member
    trivial
  · intro snapshot current others effect ran
    cases ran
    refine ⟨fun write member => ?_, rfl⟩
    cases List.mem_singleton.mp member
    trivial

theorem openNew_spec (job : Job) :
    executor.Spec call (Marking job) (openNew job.id) (fun _ => Marking job)
      fun _ _ => True := by
  refine .bind anything (looks (stable_marking job)) fun now => ?_
  · refine .exec (stable_marking job) (fun _ => stable_marking job) ?_
    intro snapshot current state others effect _ _ _ _ _ marking ran
    cases ran
    refine ⟨Or.inr rfl, ?_⟩
    have extended : Marking job current (state.extend
        [.insertAttempt
          { id := (executor.sys.view current state).nextAttempt, jobId := job.id
            token := "", claimedAt := now }] []) := by
      apply marking.extend
      intro write member
      cases List.mem_singleton.mp member
      rfl
    exact ⟨extended.marks, ⟨extended.like.known, extended.like.row⟩,
      extended.vouched, extended.locked⟩

/-- What `mark_running` has locked. -/
def Tried (job : Job) (rows : List Job) (db : Db) (state : Loc) : Prop :=
  CheckedFor job true db state ∧ (rows ≠ [] → Locked job.id db state)

theorem stable_tried (job : Job) (rows : List Job) :
    executor.Stable (Tried job rows) :=
  stable_and (stable_checked job true) (stable_when (stable_Locked job.id))

theorem lockJob_spec (job : Job) :
    executor.Spec call (CheckedFor job true) (lockJob job) (Tried job)
      fun _ _ => True := by
  refine .exec (stable_checked job true) (stable_tried job) ?_
  intro snapshot current state others effect _ _ _ _ _ holds ran
  cases ran
  refine ⟨Or.inl rfl, ⟨?_, holds.2.1, holds.2.2⟩, fun found => ?_⟩
  · simpa [Local.extend] using holds.1
  · obtain ⟨row, isRow⟩ := List.exists_mem_of_ne_nil _ found
    obtain ⟨isHit, _⟩ := List.mem_filter.mp isRow
    obtain ⟨isCurrent, wanted⟩ := mem_hits Db.jobs isHit
    rw [view_of_blank holds.1] at isCurrent
    simp only [stillQueued, Bool.and_eq_true, decide_eq_true_eq] at wanted
    have isJob : row.id = job.id := wanted.1.1.1
    constructor
    · apply List.mem_append_right
      apply List.mem_append_left
      exact List.mem_map.mpr ⟨row, isRow, by rw [isJob]⟩
    · exact ⟨row, isJob ▸ isCurrent, wanted.2⟩

theorem Tried.marking {job : Job} {rows : List Job} {db : Db} {state : Loc}
    (tried : Tried job rows db state) (found : rows ≠ []) :
    Marking job db state where
  marks := by
    intro write member
    rw [tried.1.1] at member
    cases member
  like := tried.1.2.1
  vouched := tried.1.2.2 rfl
  locked := tried.2 found

theorem markRunning_spec (job : Job) :
    executor.Spec call (CheckedFor job true) (markRunning job)
      (fun _ => Marking job) fun _ _ => True := by
  refine .bind anything (lockJob_spec job) fun rows =>
    .bind anything (looks (stable_tried job rows)) fun isOpen => ?_
  split
  · exact .raise (stable_tried job rows) fun _ _ _ _ => trivial
  · rename_i free
    simp only [Bool.or_eq_true, decide_eq_true_eq, not_or] at free
    have marks : executor.Spec call (Marking job)
        (do
          removeEntries job.id
          openNew job.id) (fun _ => Marking job) fun _ _ => True :=
      .bind anything (removeEntries_spec job) fun _ => openNew_spec job
    exact .weaken marks fun _ _ _ tried => tried.marking free.1

theorem commit_marking (job : Job) :
    executor.Spec call (Marking job) (commit : Sql Unit) (fun _ _ _ => True)
      fun _ _ => True :=
  .commit (stable_marking job) anything fun _ _ _ _ marking =>
    ⟨marking.lawful, trivial⟩

theorem lawful_blank {db : Db} {state : Loc} (idle : state.pending = []) :
    Lawful db state := by
  refine .marks 0 ?_ ?_
  · intro write member
    rw [idle] at member
    cases member
  · intro attempt member
    rw [idle] at member
    cases member

theorem commit_blank {pre : Db → Loc → Prop} (stable : executor.Stable pre)
    (blank : ∀ db state, pre db state → state.pending = []) :
    executor.Spec call pre (commit : Sql Unit) (fun _ _ _ => True)
      fun _ _ => True :=
  .commit stable anything fun db state _ _ holds =>
    ⟨lawful_blank (blank db state holds), trivial⟩

/-- The check of a selected job and what follows. -/
theorem tryJob_spec (job : Job) {refused : Sql (Option Job)}
    (leaves : executor.Spec call (CheckedFor job false) refused
      (fun _ _ _ => True) fun _ _ => True) :
    executor.Spec call (fun db state => Blank state ∧ Like job db)
      (do
        if ← canExecuteJob job then do
          markRunning job
          commit
          pure (some job)
        else refused : Sql (Option Job))
      (fun _ _ _ => True) fun _ _ => True := by
  refine .bind anything (canExecuteJob_spec job) fun allowed => ?_
  cases allowed with
  | true =>
      exact .bind anything (markRunning_spec job) fun _ =>
        .bind anything (commit_marking job) fun _ => .skip anything
  | false => exact leaves

theorem leaves_committed (job : Job) :
    executor.Spec call (CheckedFor job false)
      (do
        commit
        pure none : Sql (Option Job))
      (fun _ _ _ => True) fun _ _ => True :=
  .bind anything (commit_blank (stable_checked job false)
    fun _ _ holds => holds.1) fun _ => .skip anything

theorem inSession {body : Sql (Option Job)}
    (spec : executor.Spec call (fun _ => Blank) body (fun _ _ _ => True)
      fun _ _ => True) :
    executor.Spec call (fun _ => Blank) (session body) (fun _ _ _ => True)
      fun _ _ => True :=
  .session spec (fun _ => anything) anything (fun _ => anything) anything
    (fun _ _ _ _ _ => trivial) fun _ _ _ _ => trivial

theorem runQueueWorkers_spec (queueName : Option String) :
    executor.Spec call (fun _ => Blank) (runQueueWorkers queueName)
      (fun _ _ _ => True) fun _ _ => True := by
  apply inSession
  have empty : executor.Spec call (Selected none)
      (do
        commit
        pure none : Sql (Option Job)) (fun _ _ _ => True) fun _ _ => True :=
    .bind anything (commit_blank (stable_selected none)
      fun _ _ holds => holds.1.1) fun _ => .skip anything
  refine .bind anything anyQueued_spec fun found => ?_
  cases found with
  | true =>
      refine .bind anything firstQueued_spec fun selected => ?_
      cases selected with
      | none => exact empty
      | some job =>
          exact .weaken (tryJob_spec job (leaves_committed job))
            fun _ _ _ selected => ⟨selected.1, selected.2 job rfl⟩
  | false =>
      exact .weaken empty fun _ _ _ blank =>
        ⟨blank, fun _ impossible => by cases impossible⟩

theorem processOneJob_spec (queueName : Option String) :
    executor.Spec call (fun _ => Blank) (processOneJob queueName)
      (fun _ _ _ => True) fun _ _ => True := by
  apply inSession
  refine .bind anything anyQueued_spec fun found => ?_
  cases found with
  | true =>
      refine .bind anything firstQueued_spec fun found => ?_
      cases found with
      | none => exact .raise (stable_selected none) fun _ _ _ _ => trivial
      | some job =>
          exact .weaken (tryJob_spec job (leaves_committed job))
            fun _ _ _ selected => ⟨selected.1, selected.2 job rfl⟩
  | false =>
      exact .bind anything (commit_blank (stable_local Blank)
        fun _ _ blank => blank.1) fun _ => .skip anything

theorem findJob_spec (jobId : JobId) :
    executor.Spec call (fun _ => Blank)
      (read fun db => db.jobs.get jobId : Sql (Option Job)) Selected
      fun _ _ => True := by
  refine .observe (stable_local Blank) stable_selected ?_
  intro db state _ _ blank
  refine ⟨Or.inl rfl, blank_note blank, fun job found => ?_⟩
  rw [view_of_blank blank.1] at found
  have keyed : job.id = jobId := Table.key_of_get found
  exact like_of_get (keyed ▸ found)

theorem executeJob_spec (jobId : JobId) :
    executor.Spec call (fun _ => Blank) (executeJob jobId)
      (fun _ _ _ => True) fun _ _ => True := by
  apply inSession
  refine .bind anything (findJob_spec jobId) fun found => ?_
  cases found with
  | none => exact .raise (stable_selected none) fun _ _ _ _ => trivial
  | some job =>
      have looked : executor.Stable fun db state =>
          Blank state ∧ Like job db :=
        stable_and (stable_local Blank) (stable_like job)
      have looksAgain : executor.Spec call (Selected (some job))
          (read fun db => db.openFor job.id : Sql Bool)
          (fun _ db state => Blank state ∧ Like job db) fun _ _ => True :=
        .weaken (looks looked) fun _ _ _ selected =>
          ⟨selected.1, selected.2 job rfl⟩
      refine .bind anything looksAgain fun isOpen => ?_
      cases isOpen with
      | true => exact .pure looked fun _ _ _ _ _ => trivial
      | false =>
          exact tryJob_spec job (.pure (stable_checked job false)
            fun _ _ _ _ _ => trivial)

/-- Nothing is pending, or the completion of a job that is running. -/
def Ending (job : JobId) (inPlace : Bool) (db : Db) (state : Loc) : Prop :=
  state.pending = [] ∨ (state.pending = [.complete job inPlace] ∧
    .job job ∈ state.held ∧ db.openFor job = true)

theorem stable_ending (job : JobId) (inPlace : Bool) :
    executor.Stable (Ending job inPlace) := by
  rintro first second state env inv guarded (idle | ⟨isPending, locked⟩)
  · exact Or.inl idle
  · exact Or.inr ⟨isPending, Setting.stable_locked (open_locked job) first
      second state env inv guarded locked⟩

theorem Ending.lawful {job : JobId} {inPlace : Bool} {db : Db} {state : Loc}
    (ending : Ending job inPlace db state) : Lawful db state := by
  rcases ending with idle | ⟨isPending, _, isOpen⟩
  · exact lawful_blank idle
  · exact .completes job inPlace isPending isOpen

theorem complete_spec (job : JobId) (inPlace : Bool) :
    executor.Spec call (fun _ => Blank) (complete job inPlace)
      (fun _ _ _ => True) fun _ _ => True := by
  apply inSession
  have ends : executor.Spec call (fun _ => Blank)
      (exec fun _ current _ =>
        if current.openFor job then
          some { result := (), writes := [.complete job inPlace] }
        else some { result := () } : Sql Unit)
      (fun _ => Ending job inPlace) fun _ _ => True := by
    refine .exec (stable_local Blank) (fun _ => stable_ending job inPlace) ?_
    intro snapshot current state others effect _ _ _ _ _ blank ran
    rw [view_of_blank blank.1] at ran
    split at ran
    · rename_i isOpen
      cases ran
      refine ⟨Or.inl rfl, Or.inr ⟨?_, ?_, isOpen⟩⟩
      · simp [Local.extend, blank.1]
      · exact List.mem_append_right _ (List.mem_append_right _
          List.mem_cons_self)
    · cases ran
      exact ⟨Or.inl rfl, Or.inl (by simpa [Local.extend] using blank.1)⟩
  exact .bind anything ends fun _ =>
    .bind anything (.commit (stable_ending job inPlace) anything
      fun _ _ _ _ ending => ⟨ending.lawful, trivial⟩) fun _ => .skip anything

theorem executor_verified :
    executor.Verified fun _ _ _ _ => True := by
  intro call
  have spec : executor.Spec call (fun _ => Blank) (scriptOf call)
      (fun _ _ _ => True) fun _ _ => True := by
    cases call with
    | runQueueWorkers queueName => exact runQueueWorkers_spec queueName
    | processOneJob queueName => exact processOneJob_spec queueName
    | executeJob jobId => exact executeJob_spec jobId
    | complete job inPlace => exact complete_spec job inPlace
  intro db state inv guarded isInitial
  subst isInitial
  refine (spec db {} inv guarded ⟨rfl, rfl⟩).mono ?_
  intro result db state _ _
  trivial

end Calls

end Sqlery.Django.RunJobs
