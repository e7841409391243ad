import Sqlery.Standalone.CallFootprints
import Sqlery.Standalone.Chronicle
import Sqlery.Standalone.Orphans
import Sqlery.Standalone.WorkerLoop

/-!
# One job of a queue at a time

Attempts are committed one after the other.  A worker that finds no other job
of its queue running is sure to have committed its attempt before any that are
open later, and of two workers only one can be.
-/

namespace Sqlery.Standalone

open ReadCommitted
open Setting (stable_and stable_fact stable_when)
open Script

/-! ## The claimed job and its row -/

/-- The object was read from the row of the job, if the job still has one. -/
structure ReadFrom (job : Job) (db : Db) : Prop where
  known : Known db job.id
  spec : ∀ row, db.live.get job.id = some row →
    row.toJobSpec = job.toJobSpec

section Lasting

variable {cfg : Config} {call : Call} {stage : Stage} {db : Db} {state : Loc}

theorem ReadFrom.commit {job : Job} (holds : ReadFrom job db) (inv : Inv db)
    (lawful : Lawful cfg.dialect call stage db state) :
    ReadFrom job (after state.pending db) where
  known := holds.known.kept inv lawful
  spec := by
    intro row found
    have isJob : row.id = job.id := Table.key_of_get found
    rcases live_after_origin found with inserted | updated | old
    · have unused := (lawful.inserted row inserted).1
      rw [isJob] at unused
      exact (unused.unknown holds.known).elim
    · obtain ⟨before, isBefore, same⟩ := (lawful.updated row updated).1
      rw [isJob] at isBefore
      exact same.spec.trans (holds.spec before isBefore)
    · exact holds.spec row old

theorem readFrom_rowFact (cfg : Config) : RowFact cfg ReadFrom where
  lasting := by
    intro job
    refine lasting_of (fun _ _ _ _ inv lawful _ holds =>
      holds.commit inv lawful) ?_
    intro db next same holds
    refine ⟨holds.known.sameTables same, ?_⟩
    rw [same.live]
    exact holds.spec
  read := by
    intro db job _ found
    refine ⟨Or.inl ⟨job, List.mem_append_left _ (Table.mem_of_get found),
      rfl⟩, ?_⟩
    intro row isRow
    rw [found] at isRow
    cases isRow
    rfl
  running := fun _ _ _ holds => ⟨holds.known, holds.spec⟩

/-- An attempt that was inserted is there. -/
def Stored (write : Write) (db : Db) : Prop :=
  ∀ attempt, write = .insertAttempt attempt →
    ∃ now, db.attempts.get attempt.id = some now ∧
      now.jobId = attempt.jobId

theorem attempts_after_inserted {writes : List Write} {attempt : Attempt}
    (member : .insertAttempt attempt ∈ writes) (db : Db) :
    ∃ now, (after writes db).attempts.get attempt.id = some now := by
  induction writes generalizing db with
  | nil => cases member
  | cons write writes ih =>
      rw [after_cons]
      rcases List.mem_cons.mp member with rfl | later
      · obtain ⟨now, isNow⟩ : ∃ now, ((Write.insertAttempt attempt).apply
            db).attempts.get attempt.id = some now := by
          simp only [Write.apply, Table.get_insert]
          split
          · exact ⟨attempt, rfl⟩
          · rename_i present
            simp only [true_and] at present
            exact Option.ne_none_iff_exists'.mp present
        obtain ⟨last, isLast, _⟩ := attempts_after_present writes isNow
        exact ⟨last, isLast⟩
      · exact ih later _

theorem stored_endures (cfg : Config) : (backend cfg).Endures Stored where
  lasting := by
    intro write
    refine lasting_of ?_ ?_
    · intro db theirs other stage _ _ _ holds attempt isWrite
      obtain ⟨now, found, isJob⟩ := holds attempt isWrite
      obtain ⟨last, isLast, same, _⟩ :=
        attempts_after_present theirs.pending found
      exact ⟨last, isLast, same.trans isJob⟩
    · intro db next same holds attempt isWrite
      rw [same.attempts]
      exact holds attempt isWrite
  commits := by
    rintro call db state inv _ ⟨stage, _, lawful⟩ write member attempt rfl
    obtain ⟨now, isNow⟩ := attempts_after_inserted member db
    obtain ⟨old, origin, same, _⟩ := attempts_after_cases isNow
    refine ⟨now, isNow, same.trans ?_⟩
    rcases origin with present | ⟨inserted, _⟩
    · have absent := (lawful.opened attempt member).2.2.absent
      rw [present] at absent
      cases absent
    · rw [lawful.openedOnce old attempt inserted member]

end Lasting

/-! ## The order of commits -/

/-- How many attempts were committed before this one. -/
def Db.turnOf (db : Db) (attempt : AttemptId) : Nat :=
  (db.attempts.rows.map (·.id)).reverse.idxOf attempt

theorem attempts_after_rows (writes : List Write) (db : Db) :
    ∃ new, (after writes db).attempts.rows.map (·.id) =
      new ++ db.attempts.rows.map (·.id) := by
  induction writes generalizing db with
  | nil => exact ⟨[], rfl⟩
  | cons write writes ih =>
      obtain ⟨later, isLater⟩ := ih (write.apply db)
      have first : ∃ new, (write.apply db).attempts.rows.map (·.id) =
          new ++ db.attempts.rows.map (·.id) := by
        cases write with
        | insertAttempt attempt => exact Table.keys_insert db.attempts attempt
        | closeAttempt id job now outcome =>
            refine ⟨[], ?_⟩
            simp only [Write.apply, closeRow, List.nil_append]
            cases db.attempts.get id with
            | none => rfl
            | some attempt => exact Table.keys_set db.attempts _
        | _ => exact ⟨[], rfl⟩
      obtain ⟨new, isNew⟩ := first
      refine ⟨later ++ new, ?_⟩
      rw [after_cons, isLater, isNew, List.append_assoc]

theorem turnOf_after {db : Db} {attempt : Attempt} (writes : List Write)
    (stored : attempt ∈ db.attempts.rows) :
    (after writes db).turnOf attempt.id = db.turnOf attempt.id := by
  obtain ⟨new, isNew⟩ := attempts_after_rows writes db
  have member : attempt.id ∈ (db.attempts.rows.map (·.id)).reverse :=
    List.mem_reverse.mpr (List.mem_map_of_mem stored)
  rw [Db.turnOf, isNew, List.reverse_append, List.idxOf_append_of_mem member,
    Db.turnOf]

/-- An attempt that was not there comes after those that were. -/
theorem turnOf_new {db : Db} {old new : Attempt} (writes : List Write)
    (stored : old ∈ db.attempts.rows)
    (absent : db.attempts.get new.id = none) :
    (after writes db).turnOf old.id < (after writes db).turnOf new.id := by
  rw [turnOf_after writes stored]
  obtain ⟨more, isMore⟩ := attempts_after_rows writes db
  have member : old.id ∈ (db.attempts.rows.map (·.id)).reverse :=
    List.mem_reverse.mpr (List.mem_map_of_mem stored)
  have notMember : new.id ∉ (db.attempts.rows.map (·.id)).reverse := by
    intro member
    obtain ⟨row, isRow, same⟩ := List.mem_map.mp (List.mem_reverse.mp member)
    exact Table.get_eq_none_iff.mp absent row isRow same
  rw [Db.turnOf, Db.turnOf, isMore, List.reverse_append,
    List.idxOf_append_of_notMem notMember]
  have before := List.idxOf_lt_length_of_mem member
  omega

/-- The claimed job has its attempt, and whatever else of its queue is running
got its own later. -/
structure Ahead (claimed : Claimed) (db : Db) : Prop where
  stored : ∃ attempt ∈ db.attempts.rows, attempt.id = claimed.handle.id ∧
    attempt.jobId = claimed.job.id
  row : ReadFrom claimed.job db
  first : ∀ other ∈ db.attempts.rows, other.isOpen = true → ∀ row,
    db.live.get other.jobId = some row → row.status = .queued →
    row.queueName = claimed.job.queueName → row.id ≠ claimed.job.id →
    db.turnOf claimed.handle.id < db.turnOf other.id

section Ahead

variable {cfg : Config} {call : Call} {stage : Stage} {db : Db} {state : Loc}
variable {claimed : Claimed}

/-- A row that is queued after a commit is new, or was queued before. -/
theorem queued_before (lawful : Lawful cfg.dialect call stage db state)
    (requeues : call.requeues = false) {job : JobId} {row : Job}
    (found : (after state.pending db).live.get job = some row)
    (queued : row.status = .queued) :
    .insertLive row ∈ state.pending ∨ db.live.get job = some row := by
  rcases live_after_origin found with inserted | updated | old
  · exact Or.inl inserted
  · rw [(lawful.updated row updated).2.2 queued] at requeues
    cases requeues
  · exact Or.inr old

/-- Nobody runs a job that is being created. -/
theorem not_run_of_inserted (lawful : Lawful cfg.dialect call stage db state)
    {row : Job} {attempt : Attempt} (inserted : .insertLive row ∈ state.pending)
    (known : attempt ∈ db.attempts.rows ∨
      .insertAttempt attempt ∈ state.pending) : attempt.jobId ≠ row.id := by
  intro same
  have unused := (lawful.inserted row inserted).1
  rcases known with old | new
  · exact unused.attempts attempt old same
  · obtain ⟨live, found, _⟩ := (lawful.opened attempt new).2.2.row
    rw [same, unused.live] at found
    cases found

theorem Ahead.commit (ahead : Ahead claimed db) (inv : Inv db)
    (lawful : Lawful cfg.dialect call stage db state)
    (requeues : call.requeues = false) :
    Ahead claimed (after state.pending db) where
  stored := by
    obtain ⟨attempt, member, isAttempt, isJob⟩ := ahead.stored
    obtain ⟨now, isNow, same, _⟩ :=
      attempts_after_present state.pending (Table.get_of_mem member)
    have keyed : now.id = attempt.id := Table.key_of_get isNow
    exact ⟨now, Table.mem_of_get isNow, keyed.trans isAttempt,
      same.trans isJob⟩
  row := ahead.row.commit inv lawful
  first := by
    intro other member isOpen row found queued sameQueue different
    obtain ⟨mine, isMine, keyed, _⟩ := ahead.stored
    have isJob : row.id = other.jobId := Table.key_of_get found
    have origin := open_after_cases member isOpen
    rcases queued_before lawful requeues found queued with inserted | old
    · exact (not_run_of_inserted lawful inserted origin isJob.symm).elim
    · rcases origin with stored | opened
      · rw [← keyed, turnOf_after _ isMine, keyed, turnOf_after _ stored]
        exact ahead.first other stored isOpen row old queued sameQueue
          different
      · rw [← keyed]
        exact turnOf_new _ isMine (lawful.opened other opened).2.2.absent

theorem Ahead.sameTables {next : Db} (ahead : Ahead claimed db)
    (same : SameTables db next) : Ahead claimed next where
  stored := by
    rw [same.attempts]
    exact ahead.stored
  row := by
    refine ⟨ahead.row.known.sameTables same, ?_⟩
    rw [same.live]
    exact ahead.row.spec
  first := by
    simp only [same.attempts, same.live, Db.turnOf]
    exact ahead.first

/-- Two jobs of a queue cannot both be ahead of what runs in it. -/
theorem Ahead.unique {other : Claimed} (homed : Homed db)
    (queued : ∀ attempt ∈ db.attempts.rows, attempt.isOpen = true →
      ∀ row, db.live.get attempt.jobId = some row → row.status = .queued)
    (mine : Ahead claimed db) (theirs : Ahead other db)
    (mineOpen : ∃ attempt ∈ db.attempts.rows,
      attempt.id = claimed.handle.id ∧ attempt.isOpen = true)
    (theirsOpen : ∃ attempt ∈ db.attempts.rows,
      attempt.id = other.handle.id ∧ attempt.isOpen = true)
    (sameQueue : claimed.job.queueName = other.job.queueName) :
    claimed.job.id = other.job.id := by
  have behind : ∀ {first second : Claimed}, Ahead first db →
      Ahead second db →
      (∃ attempt ∈ db.attempts.rows, attempt.id = second.handle.id ∧
        attempt.isOpen = true) →
      second.job.queueName = first.job.queueName →
      second.job.id ≠ first.job.id →
      db.turnOf first.handle.id < db.turnOf second.handle.id := by
    intro first second isFirst isSecond runs sameQueue different
    obtain ⟨attempt, member, keyed, isOpen⟩ := runs
    obtain ⟨known, isKnown, sameKey, isJob⟩ := isSecond.stored
    have same : attempt = known := by
      have one := Table.get_of_mem member
      have two := Table.get_of_mem isKnown
      rw [keyed] at one
      rw [sameKey, one] at two
      exact Option.some.inj two
    rw [← same] at isJob
    obtain ⟨row, found⟩ := homed attempt member isOpen
    have isRow : row.id = second.job.id :=
      (Table.key_of_get found).trans isJob
    have spec : row.queueName = second.job.queueName := by
      rw [isJob] at found
      exact congrArg JobSpec.queueName (isSecond.row.spec row found)
    have later := isFirst.first attempt member isOpen row found
      (queued attempt member isOpen row found) (spec.trans sameQueue)
      (by rw [isRow]; exact different)
    rw [keyed] at later
    exact later
  by_contra different
  have one := behind mine theirs theirsOpen sameQueue.symm
    fun same => different same.symm
  have two := behind theirs mine mineOpen sameQueue different
  exact absurd one (Nat.not_lt.mpr (Nat.le_of_lt two))

end Ahead

/-! ## The round -/

section Round

variable {cfg : Config} {queues : List String} {worker : String}

theorem ahead_lasting (claimed : Claimed) :
    (turns cfg).setting.Lasting (Ahead claimed) where
  commits := by
    rintro turn db state inv _ ⟨⟨stage, _, lawful⟩, requeues⟩ ahead
    exact ahead.commit inv lawful requeues
  instant := by
    intro turn db state writes _ counters ahead
    exact ahead.sameTables (sameTables_after counters db)
  ambient := by
    intro write db _ ambient ahead
    exact ahead.sameTables (sameTables_apply
      (isCounter_of_isAmbient ambient) db)

/-- What a claim has returned with. -/
def Handed (cfg : Config) (call : Call) (claimed : Option Claimed) (db : Db)
    (state : Loc) : Prop :=
  ClaimsWith cfg call {} ReadFrom claimed db state ∧
    ∀ write ∈ state.written, Stored write db

theorem claimJob_hands :
    (backend cfg).Spec (.claimJob queues worker) (fun _ state => state = {})
      (claimJob cfg queues worker) (Handed cfg (.claimJob queues worker))
      fun _ _ => True := by
  intro db state inv guarded isInitial
  subst isInitial
  have spec : (backend cfg).Spec (.claimJob queues worker)
      (Between cfg (.claimJob queues worker) {}) (claimJob cfg queues worker)
      (ClaimsWith cfg (.claimJob queues worker) {} ReadFrom)
      (Between cfg (.claimJob queues worker) {}) :=
    claimJob_with (readFrom_rowFact cfg) rfl queues worker
  have written := Setting.Safe.written (stored_endures cfg) inv guarded
    (spec db {} inv guarded (at_initial db)) (by simp)
  refine written.mono ?_
  intro result db state _ holds
  cases result with
  | ok claimed => exact holds
  | error exception => trivial

theorem handed_stable (call : Call) (claimed : Option Claimed) :
    (turns cfg).setting.Stable (Handed cfg call claimed) := by
  refine Setting.Extension.stable (stable_and
    ((readFrom_rowFact cfg).claims_stable claimed) ?_)
  intro before after state env inv guarded holds write member
  exact ((stored_endures cfg).lasting write).env env (holds write member)

theorem Handed.rolledBack {call : Call} {claimed : Option Claimed} {db : Db}
    {state : Loc} (holds : Handed cfg call claimed db state) :
    Handed cfg call claimed db state.rolledBack :=
  ⟨⟨holds.1.1.rolledBack, holds.1.2⟩, holds.2⟩

/-- The attempt of the claim is stored. -/
theorem Handed.stored {call : Call} {claimed : Claimed} {db : Db} {state : Loc}
    (holds : Handed cfg call (some claimed) db state) :
    ∃ attempt ∈ db.attempts.rows, attempt.id = claimed.handle.id ∧
      attempt.jobId = claimed.job.id := by
  obtain ⟨⟨⟨attempt, ⟨isHandle, isJob, _⟩, here⟩, _⟩, written⟩ := holds
  have made : .insertAttempt attempt ∈ state.written.filter creation := by
    rw [here.recorded.wrote]
    simp
  obtain ⟨now, found, same⟩ :=
    written _ (List.mem_filter.mp made).1 attempt rfl
  have keyed : now.id = attempt.id := Table.key_of_get found
  refine ⟨now, Table.mem_of_get found, ?_, same.trans isJob.symm⟩
  rw [isHandle, keyed]
  rfl

/-- The query counts every other running job of the queue. -/
theorem ahead_of_count {call : Call} {claimed : Claimed} {db : Db}
    {state : Loc} (holds : Handed cfg call (some claimed) db state)
    (none : ((after state.pending db).live.rows.filter fun row =>
      row.queueName = claimed.job.queueName &&
        (after state.pending db).running row &&
        (some claimed.job.id).all fun job =>
          job = 0 || row.id ≠ job) = []) : Ahead claimed db where
  stored := holds.stored
  row := holds.1.2 claimed.job rfl
  first := by
    intro other member isOpen row found queued sameQueue different
    exfalso
    obtain ⟨⟨⟨attempt, _, here⟩, _⟩, _⟩ := holds
    have kept : ∀ write ∈ state.pending, ¬removes other.jobId write := by
      rintro write member (rfl | rfl)
      · exact here.noPlain rfl rfl member
      · exact here.noPlain rfl rfl member
    have view : (after state.pending db).live.get other.jobId = some row :=
      view_of_live kept (fun _ => here.noPlain rfl rfl) found
    have isJob : row.id = other.jobId := Table.key_of_get found
    have busy : (after state.pending db).hasOpenAttempt row.id = true := by
      by_contra idle
      rw [Bool.not_eq_true] at idle
      have before := idle_of_view (fun _ _ _ _ => here.noPlain rfl rfl) idle
      exact hasOpenAttempt_eq_false.mp before other member isOpen isJob.symm
    have counted : row ∈ ((after state.pending db).live.rows.filter fun row =>
        row.queueName = claimed.job.queueName &&
          (after state.pending db).running row &&
          (some claimed.job.id).all fun job => job = 0 || row.id ≠ job) := by
      refine List.mem_filter.mpr ⟨Table.mem_of_get view, ?_⟩
      simp [sameQueue, Db.running, queued, busy, different]
    rw [none] at counted
    cases counted

/-- What the check leaves. -/
def Checked (cfg : Config) (call : Call) (claimed : Claimed) (allowed : Bool)
    (db : Db) (state : Loc) : Prop :=
  Handed cfg call (some claimed) db state ∧
    (allowed = true → claimed.job.allowParallel = false → Ahead claimed db)

theorem checked_stable (call : Call) (claimed : Claimed) (allowed : Bool) :
    (turns cfg).setting.Stable (Checked cfg call claimed allowed) := by
  refine stable_and (handed_stable call _) ?_
  intro before after state env inv guarded holds isAllowed serial
  exact (ahead_lasting claimed).env env (holds isAllowed serial)

theorem Checked.rolledBack {call : Call} {claimed : Claimed} {allowed : Bool}
    {db : Db} {state : Loc}
    (holds : Checked cfg call claimed allowed db state) :
    Checked cfg call claimed allowed db state.rolledBack :=
  ⟨holds.1.rolledBack, holds.2⟩

theorem canExecuteJob_spec (claimed : Claimed) :
    (turns cfg).setting.Spec (.round queues worker)
      (Handed cfg (.claimJob queues worker) (some claimed))
      (canExecuteJob claimed.job)
      (Checked cfg (.claimJob queues worker) claimed) fun _ _ => True := by
  have anything : (turns cfg).setting.Stable fun _ _ => True :=
    fun _ _ _ _ _ _ _ => trivial
  unfold canExecuteJob
  split
  · rename_i parallel
    refine .pure (handed_stable _ _) fun db state _ _ holds =>
      ⟨holds, fun _ serial => ?_⟩
    rw [parallel] at serial
    cases serial
  · have counts : (turns cfg).setting.Spec (.round queues worker)
        (Handed cfg (.claimJob queues worker) (some claimed))
        (hasRunningJobsInQueue claimed.job.queueName (some claimed.job.id))
        (fun running =>
          Checked cfg (.claimJob queues worker) claimed !running)
        fun _ _ => True := by
      have looks : (turns cfg).setting.Spec (.round queues worker)
          (Handed cfg (.claimJob queues worker) (some claimed))
          (do
            let count ← read fun db => (db.live.rows.filter fun row =>
              row.queueName = claimed.job.queueName && db.running row &&
                (some claimed.job.id).all fun job =>
                  job = 0 || row.id ≠ job).length
            pure (decide (0 < count)) : Sql Bool)
          (fun running =>
            Checked cfg (.claimJob queues worker) claimed !running)
          fun _ _ => True := by
        refine .bind anything (.observe (handed_stable _ _)
          (fun count => checked_stable _ claimed (!decide (0 < count))) ?_)
          fun count => .pure (checked_stable _ _ _) fun _ _ _ _ holds => holds
        intro db state _ _ holds
        refine ⟨⟨by simp, by simp [lookedUp], by simp⟩, ?_⟩
        have unchanged : state.note [] = state := by simp [Local.note]
        rw [unchanged]
        refine ⟨holds, fun nobody _ => ahead_of_count holds ?_⟩
        rw [Bool.not_eq_true', decide_eq_false_iff_not, Nat.not_lt,
          Nat.le_zero, List.length_eq_zero_iff] at nobody
        exact nobody
      exact .session looks (fun _ => checked_stable _ _ _) anything
        (fun _ => checked_stable _ _ _) anything
        (fun _ _ _ _ holds => holds.rolledBack) fun _ _ _ _ => trivial
    exact .bind anything counts fun running =>
      .pure (checked_stable _ _ _) fun _ _ _ _ holds => holds

/-- A round returns only a job that is ahead of what else its queue runs. -/
theorem workerRound_spec :
    (turns cfg).setting.Spec (.round queues worker)
      (fun _ state => state = {}) (workerRound cfg queues worker)
      (fun claimed db _ => ∀ job, claimed = some job →
        job.job.allowParallel = false → Ahead job db) fun _ _ => True := by
  have anything : (turns cfg).setting.Stable fun _ _ => True :=
    fun _ _ _ _ _ _ _ => trivial
  have nothing : (turns cfg).setting.Stable fun db _ => ∀ job,
      (none : Option Claimed) = some job →
        job.job.allowParallel = false → Ahead job db :=
    fun _ _ _ _ _ _ _ _ impossible => by cases impossible
  unfold workerRound
  refine .bind anything (Setting.Extension.spec (fun _ _ => rfl)
    claimJob_hands) fun claimed => ?_
  cases claimed with
  | none =>
      exact .pure (handed_stable _ _) fun _ _ _ _ _ _ impossible => by
        cases impossible
  | some claimed =>
      refine .bind anything (canExecuteJob_spec claimed) fun allowed => ?_
      cases allowed with
      | true =>
          refine .pure (checked_stable _ _ _) fun db state _ _ holds => ?_
          rintro job isJob serial
          cases isJob
          exact holds.2 rfl serial
      | false =>
          have released : ∀ record, (backend cfg).Spec (.claimJob queues worker)
              (Between cfg (.claimJob queues worker) record)
              (releaseJob cfg claimed.job.id) (fun _ _ _ => True)
              fun _ _ => True :=
            fun record => (releaseJob_spec claimed.job.id rfl).strengthen
              (fun _ _ _ _ _ => trivial) fun _ _ _ _ => trivial
          have releases : (turns cfg).setting.Spec (.round queues worker)
              (Checked cfg (.claimJob queues worker) claimed false)
              (releaseJob cfg claimed.job.id) (fun _ _ _ => True)
              fun _ _ => True := by
            refine .weaken (.exists_ fun record =>
              Setting.Extension.spec (fun _ _ => rfl) (released record)) ?_
            rintro db state _ ⟨⟨⟨⟨attempt, _, here⟩, _⟩, _⟩, _⟩
            exact ⟨_, here⟩
          refine .bind anything releases fun _ => .pure anything ?_
          exact fun _ _ _ _ _ _ impossible => by cases impossible

end Round

end Sqlery.Standalone
