import Sqlery.Standalone.Store

/-!
# What a list of writes does to each table

A transaction changes the database by its writes, one after the other.  The
lemmas of this file say for each table where a row that is there afterwards
comes from and which writes take a row away, first for one write and then, by
induction, for a list.
-/

namespace Sqlery.Standalone

open ReadCommitted

/-- The database after a list of writes. -/
def after (writes : List Write) (db : Db) : Db :=
  writes.foldl (fun db write => write.apply db) db

@[simp] theorem applyAll_schema (dialect : Dialect) (writes : List Write)
    (db : Db) : (schema dialect).applyAll writes db = after writes db := rfl

@[simp] theorem after_nil (db : Db) : after [] db = db := rfl

@[simp] theorem after_cons (write : Write) (writes : List Write) (db : Db) :
    after (write :: writes) db = after writes (write.apply db) := rfl

variable {write : Write} {writes : List Write} {db : Db}

/-! ## Live rows -/

theorem live_apply_cases {job : JobId} {row : Job}
    (found : (write.apply db).live.get job = some row) :
    (∃ new, write = .insertLive new ∧ new.id = job) ∨
      ∃ old, db.live.get job = some old ∧
        (row = old ∨ write = .setLive row) := by
  cases write with
  | insertLive new =>
      simp only [Write.apply, Table.get_insert] at found
      split at found
      · rename_i fresh
        exact Or.inl ⟨new, rfl, fresh.1.symm⟩
      · exact Or.inr ⟨row, found, Or.inl rfl⟩
  | setLive new =>
      simp only [Write.apply, Table.get_set] at found
      split at found
      · obtain ⟨old, isOld, rfl⟩ := Option.map_eq_some_iff.mp found
        exact Or.inr ⟨old, isOld, Or.inr rfl⟩
      · exact Or.inr ⟨row, found, Or.inl rfl⟩
  | deleteLive gone =>
      simp only [Write.apply, Table.get_erase] at found
      split at found
      · cases found
      · exact Or.inr ⟨row, found, Or.inl rfl⟩
  | discardLive gone =>
      simp only [Write.apply, Table.get_erase] at found
      split at found
      · cases found
      · exact Or.inr ⟨row, found, Or.inl rfl⟩
  | _ => exact Or.inr ⟨row, found, Or.inl rfl⟩

theorem live_after_cases {job : JobId} {row : Job}
    (found : (after writes db).live.get job = some row) :
    (∃ new, .insertLive new ∈ writes ∧ new.id = job) ∨
      ∃ old, db.live.get job = some old ∧
        (row = old ∨ .setLive row ∈ writes) := by
  induction writes generalizing db with
  | nil => exact Or.inr ⟨row, found, Or.inl rfl⟩
  | cons write writes ih =>
      rcases ih found with ⟨new, member, same⟩ | ⟨middle, isMiddle, origin⟩
      · exact Or.inl ⟨new, List.mem_cons_of_mem _ member, same⟩
      · rcases live_apply_cases isMiddle with ⟨new, rfl, same⟩ | earlier
        · exact Or.inl ⟨new, by simp, same⟩
        · obtain ⟨old, isOld, change⟩ := earlier
          refine Or.inr ⟨old, isOld, ?_⟩
          rcases origin with rfl | member
          · exact change.imp id fun isSet => by simp [isSet]
          · exact Or.inr (List.mem_cons_of_mem _ member)

theorem live_apply_origin {job : JobId} {row : Job}
    (found : (write.apply db).live.get job = some row) :
    write = .insertLive row ∨ write = .setLive row ∨
      db.live.get job = some row := by
  cases write with
  | insertLive new =>
      simp only [Write.apply, Table.get_insert] at found
      split at found
      · cases found
        exact Or.inl rfl
      · exact Or.inr (Or.inr found)
  | setLive new =>
      simp only [Write.apply, Table.get_set] at found
      split at found
      · obtain ⟨_, _, rfl⟩ := Option.map_eq_some_iff.mp found
        exact Or.inr (Or.inl rfl)
      · exact Or.inr (Or.inr found)
  | deleteLive gone =>
      simp only [Write.apply, Table.get_erase] at found
      split at found
      · cases found
      · exact Or.inr (Or.inr found)
  | discardLive gone =>
      simp only [Write.apply, Table.get_erase] at found
      split at found
      · cases found
      · exact Or.inr (Or.inr found)
  | _ => exact Or.inr (Or.inr found)

/-- A live row was inserted as it is, or set, or it was there before. -/
theorem live_after_origin {job : JobId} {row : Job}
    (found : (after writes db).live.get job = some row) :
    .insertLive row ∈ writes ∨ .setLive row ∈ writes ∨
      db.live.get job = some row := by
  induction writes generalizing db with
  | nil => exact Or.inr (Or.inr found)
  | cons write writes ih =>
      rcases ih found with inserted | isSet | isMiddle
      · exact Or.inl (List.mem_cons_of_mem _ inserted)
      · exact Or.inr (Or.inl (List.mem_cons_of_mem _ isSet))
      · rcases live_apply_origin isMiddle with rfl | rfl | isOld
        · exact Or.inl List.mem_cons_self
        · exact Or.inr (Or.inl List.mem_cons_self)
        · exact Or.inr (Or.inr isOld)

theorem live_apply_none {job : JobId} (absent : db.live.get job = none)
    (noInsert : ∀ new, write = .insertLive new → new.id ≠ job) :
    (write.apply db).live.get job = none := by
  cases found : (write.apply db).live.get job with
  | none => rfl
  | some row =>
      rcases live_apply_cases found with ⟨new, isInsert, same⟩ | earlier
      · exact (noInsert new isInsert same).elim
      · obtain ⟨old, isOld, _⟩ := earlier
        rw [absent] at isOld
        cases isOld

theorem live_after_none {job : JobId} (absent : db.live.get job = none)
    (noInsert : ∀ new, .insertLive new ∈ writes → new.id ≠ job) :
    (after writes db).live.get job = none := by
  induction writes generalizing db with
  | nil => exact absent
  | cons write writes ih =>
      apply ih
      · apply live_apply_none absent
        rintro new rfl
        exact noInsert new (by simp)
      · intro new member
        exact noInsert new (List.mem_cons_of_mem _ member)

/-- A write that takes the live row of a job away. -/
def removes (job : JobId) (write : Write) : Prop :=
  write = .deleteLive job ∨ write = .discardLive job

theorem live_after_removed {job : JobId} {gone : Write}
    (member : gone ∈ writes) (isRemoval : removes job gone)
    (noInsert : ∀ new, .insertLive new ∈ writes → new.id ≠ job) :
    (after writes db).live.get job = none := by
  induction writes generalizing db with
  | nil => simp at member
  | cons write writes ih =>
      have later : ∀ new, .insertLive new ∈ writes → new.id ≠ job :=
        fun new isLater => noInsert new (List.mem_cons_of_mem _ isLater)
      rcases List.mem_cons.mp member with rfl | member
      · rw [after_cons]
        refine live_after_none ?_ later
        rcases isRemoval with rfl | rfl <;> simp [Write.apply]
      · exact ih member later

theorem live_apply_some {job : JobId} {row : Job}
    (found : db.live.get job = some row) (kept : ¬removes job write) :
    ∃ new, (write.apply db).live.get job = some new ∧
      (new = row ∨ write = .setLive new) := by
  cases write with
  | insertLive new =>
      refine ⟨row, ?_, Or.inl rfl⟩
      simp [Write.apply, Table.get_insert, found]
  | setLive new =>
      by_cases same : job = new.id
      · refine ⟨new, ?_, Or.inr rfl⟩
        simp only [Write.apply, Table.get_set]
        rw [if_pos same, found]
        rfl
      · exact ⟨row, by simp [Write.apply, Table.get_set, same, found],
          Or.inl rfl⟩
  | deleteLive gone =>
      have different : job ≠ gone := fun same => kept (Or.inl (same ▸ rfl))
      exact ⟨row, by simp [Write.apply, Table.get_erase, different, found],
        Or.inl rfl⟩
  | discardLive gone =>
      have different : job ≠ gone := fun same => kept (Or.inr (same ▸ rfl))
      exact ⟨row, by simp [Write.apply, Table.get_erase, different, found],
        Or.inl rfl⟩
  | _ => exact ⟨row, found, Or.inl rfl⟩

theorem live_after_some {job : JobId} {row : Job}
    (found : db.live.get job = some row)
    (kept : ∀ write ∈ writes, ¬removes job write) :
    ∃ new, (after writes db).live.get job = some new ∧
      (new = row ∨ .setLive new ∈ writes) := by
  induction writes generalizing db row with
  | nil => exact ⟨row, found, Or.inl rfl⟩
  | cons write writes ih =>
      obtain ⟨middle, isMiddle, first⟩ :=
        live_apply_some found (kept write (by simp))
      obtain ⟨new, isNew, second⟩ := ih isMiddle fun later member =>
        kept later (List.mem_cons_of_mem _ member)
      refine ⟨new, isNew, ?_⟩
      rcases second with rfl | member
      · exact first.imp id fun isSet => by simp [isSet]
      · exact Or.inr (List.mem_cons_of_mem _ member)

theorem live_after_inserted {new : Job} (member : .insertLive new ∈ writes)
    (kept : ∀ write ∈ writes, ¬removes new.id write) :
    ∃ row, (after writes db).live.get new.id = some row := by
  induction writes generalizing db with
  | nil => simp at member
  | cons write writes ih =>
      have keptLater : ∀ write ∈ writes, ¬removes new.id write :=
        fun later isLater => kept later (List.mem_cons_of_mem _ isLater)
      rcases List.mem_cons.mp member with rfl | member
      · have present : ∃ row,
            ((Write.insertLive new).apply db).live.get new.id = some row := by
          simp only [Write.apply, Table.get_insert]
          split
          · exact ⟨new, rfl⟩
          · rename_i notFresh
            have some : ¬db.live.get new.id = none := by simpa using notFresh
            exact Option.ne_none_iff_exists'.mp some
        obtain ⟨row, found⟩ := present
        obtain ⟨last, isLast, _⟩ := live_after_some found keptLater
        exact ⟨last, isLast⟩
      · exact ih member keptLater

/-- A row that is set keeps one of the values it is set to. -/
theorem live_after_set {job : JobId}
    {row set : Job} (found : (after writes db).live.get job = some row)
    (member : .setLive set ∈ writes) (isJob : set.id = job)
    (noInsert : ∀ new, .insertLive new ∈ writes → new.id ≠ job) :
    .setLive row ∈ writes := by
  induction writes generalizing db with
  | nil => cases member
  | cons write writes ih =>
      have later : ∀ new, .insertLive new ∈ writes → new.id ≠ job :=
        fun new isLater => noInsert new (List.mem_cons_of_mem _ isLater)
      rw [after_cons] at found
      rcases List.mem_cons.mp member with rfl | member
      · rcases live_after_cases found with ⟨new, inserted, same⟩ |
          ⟨old, isOld, rfl | isSet⟩
        · exact (later new inserted same).elim
        · simp only [Write.apply, Table.get_set] at isOld
          rw [if_pos isJob.symm] at isOld
          obtain ⟨_, _, rfl⟩ := Option.map_eq_some_iff.mp isOld
          exact List.mem_cons_self
        · exact List.mem_cons_of_mem _ isSet
      · exact List.mem_cons_of_mem _ (ih found member later)

theorem live_apply_untouched {job : JobId}
    (untouched : write.rowLock ≠ some (.live job)) :
    (write.apply db).live.get job = db.live.get job := by
  cases write with
  | insertLive new =>
      have different : job ≠ new.id := fun same =>
        untouched (same ▸ rfl)
      exact Table.get_insert_of_ne different
  | setLive new =>
      have different : job ≠ new.id := fun same =>
        untouched (same ▸ rfl)
      exact Table.get_set_of_ne different
  | deleteLive gone =>
      have different : job ≠ gone := fun same => untouched (same ▸ rfl)
      exact Table.get_erase_of_ne different
  | discardLive gone =>
      have different : job ≠ gone := fun same => untouched (same ▸ rfl)
      exact Table.get_erase_of_ne different
  | _ => rfl

theorem live_after_untouched {job : JobId}
    (untouched : ∀ write ∈ writes, write.rowLock ≠ some (.live job)) :
    (after writes db).live.get job = db.live.get job := by
  induction writes generalizing db with
  | nil => rfl
  | cons write writes ih =>
      rw [after_cons, ih fun later member =>
        untouched later (List.mem_cons_of_mem _ member)]
      exact live_apply_untouched (untouched write (by simp))

/-! ## History -/

theorem history_apply_mem {row : Job} :
    row ∈ (write.apply db).history.rows ↔
      row ∈ db.history.rows ∨ (write = .insertHistory row ∧
        db.history.get (row.finishedAt, row.id) = none) := by
  cases write with
  | insertHistory new =>
      simp only [Write.apply, Table.mem_insert_iff, Write.insertHistory.injEq]
      constructor
      · rintro (⟨rfl, absent⟩ | member)
        · exact Or.inr ⟨rfl, absent⟩
        · exact Or.inl member
      · rintro (member | ⟨rfl, absent⟩)
        · exact Or.inr member
        · exact Or.inl ⟨rfl, absent⟩
  | _ => simp [Write.apply]

theorem history_after_cases {row : Job}
    (member : row ∈ (after writes db).history.rows) :
    row ∈ db.history.rows ∨ .insertHistory row ∈ writes := by
  induction writes generalizing db with
  | nil => exact Or.inl member
  | cons write writes ih =>
      rcases ih member with earlier | later
      · rcases history_apply_mem.mp earlier with old | ⟨rfl, _⟩
        · exact Or.inl old
        · exact Or.inr (by simp)
      · exact Or.inr (List.mem_cons_of_mem _ later)

theorem history_after_kept {row : Job} (member : row ∈ db.history.rows) :
    row ∈ (after writes db).history.rows := by
  induction writes generalizing db with
  | nil => exact member
  | cons write writes ih =>
      exact ih (history_apply_mem.mpr (Or.inl member))

theorem history_after_inserted {row : Job}
    (member : .insertHistory row ∈ writes)
    (absent : ∀ other ∈ db.history.rows, other.id ≠ row.id)
    (single : ∀ other, .insertHistory other ∈ writes →
      other.id = row.id → other = row) :
    row ∈ (after writes db).history.rows := by
  induction writes generalizing db with
  | nil => simp at member
  | cons write writes ih =>
      rcases List.mem_cons.mp member with rfl | member
      · rw [after_cons]
        apply history_after_kept
        refine history_apply_mem.mpr (Or.inr ⟨rfl, ?_⟩)
        refine Table.get_eq_none_iff.mpr fun other isOther same => ?_
        exact absent other isOther (congrArg Prod.snd same)
      · by_cases present : row ∈ (write.apply db).history.rows
        · rw [after_cons]
          exact history_after_kept present
        · refine ih member ?_ fun other isOther =>
            single other (List.mem_cons_of_mem _ isOther)
          intro other isOther same
          rcases history_apply_mem.mp isOther with old | ⟨rfl, _⟩
          · exact absent other old same
          · exact present (single other (by simp) same ▸ isOther)

/-! ## Attempts -/

theorem closeRow_get (attempts : Table Attempt.id) (id other : AttemptId)
    (now : Time) (outcome : Outcome) :
    (closeRow attempts id now outcome).get other =
      if other = id then
        (attempts.get id).map fun attempt => attempt.close now outcome
      else attempts.get other := by
  unfold closeRow
  cases found : attempts.get id with
  | none =>
      by_cases same : other = id
      · simp [same, found]
      · simp [same]
  | some attempt =>
      have keyed : attempt.id = id := Table.key_of_get found
      simp only [Table.get_set, Attempt.id_close, keyed, Option.map_some]
      by_cases same : other = id
      · simp [same, found]
      · simp [same]

theorem attempts_apply_cases {id : AttemptId} {attempt : Attempt}
    (found : (write.apply db).attempts.get id = some attempt) :
    (write = .insertAttempt attempt ∧ attempt.id = id) ∨
      ∃ old, db.attempts.get id = some old ∧ (attempt = old ∨
        ∃ job now outcome, write = .closeAttempt id job now outcome ∧
          attempt = old.close now outcome) := by
  cases write with
  | insertAttempt new =>
      simp only [Write.apply, Table.get_insert] at found
      split at found
      · rename_i fresh
        cases found
        exact Or.inl ⟨rfl, fresh.1.symm⟩
      · exact Or.inr ⟨attempt, found, Or.inl rfl⟩
  | closeAttempt target job now outcome =>
      simp only [Write.apply, closeRow_get] at found
      split at found
      · rename_i same
        subst same
        obtain ⟨old, isOld, rfl⟩ := Option.map_eq_some_iff.mp found
        exact Or.inr ⟨old, isOld, Or.inr ⟨job, now, outcome, rfl, rfl⟩⟩
      · exact Or.inr ⟨attempt, found, Or.inl rfl⟩
  | _ => exact Or.inr ⟨attempt, found, Or.inl rfl⟩

/-- Every attempt after the writes was there before or was inserted, and
belongs to the same job; if it is open it is unchanged. -/
theorem attempts_after_cases {id : AttemptId} {attempt : Attempt}
    (found : (after writes db).attempts.get id = some attempt) :
    ∃ old : Attempt, (db.attempts.get id = some old ∨
        (.insertAttempt old ∈ writes ∧ old.id = id)) ∧
      attempt.jobId = old.jobId ∧
      (attempt = old ∨ attempt.isOpen = false) := by
  induction writes generalizing db with
  | nil => exact ⟨attempt, Or.inl found, rfl, Or.inl rfl⟩
  | cons write writes ih =>
      obtain ⟨middle, origin, sameJob, same⟩ := ih found
      rcases origin with isMiddle | ⟨member, keyed⟩
      · rcases attempts_apply_cases isMiddle with ⟨rfl, keyed⟩ | earlier
        · exact ⟨middle, Or.inr ⟨by simp, keyed⟩, sameJob, same⟩
        · obtain ⟨old, isOld, rfl | ⟨job, now, outcome, _, rfl⟩⟩ := earlier
          · exact ⟨middle, Or.inl isOld, sameJob, same⟩
          · refine ⟨old, Or.inl isOld, sameJob, Or.inr ?_⟩
            rcases same with rfl | closed
            · rfl
            · exact closed
      · exact ⟨middle, Or.inr ⟨List.mem_cons_of_mem _ member, keyed⟩,
          sameJob, same⟩

theorem open_after_cases {attempt : Attempt}
    (member : attempt ∈ (after writes db).attempts.rows)
    (isOpen : attempt.isOpen = true) :
    attempt ∈ db.attempts.rows ∨ .insertAttempt attempt ∈ writes := by
  obtain ⟨old, origin, _, same⟩ :=
    attempts_after_cases (Table.get_of_mem member)
  rcases same with rfl | closed
  · exact origin.imp Table.mem_of_get fun inserted => inserted.1
  · rw [isOpen] at closed
    cases closed

/-- A write that closes the attempt. -/
def closes (id : AttemptId) (write : Write) : Prop :=
  ∃ job now outcome, write = .closeAttempt id job now outcome

theorem attempts_apply_kept {id : AttemptId} {attempt : Attempt}
    (found : db.attempts.get id = some attempt) (kept : ¬closes id write) :
    (write.apply db).attempts.get id = some attempt := by
  cases write with
  | insertAttempt new => simp [Write.apply, Table.get_insert, found]
  | closeAttempt target job now outcome =>
      have different : id ≠ target :=
        fun same => kept ⟨job, now, outcome, same ▸ rfl⟩
      simp [Write.apply, closeRow_get, different, found]
  | _ => exact found

theorem attempts_after_kept {id : AttemptId} {attempt : Attempt}
    (found : db.attempts.get id = some attempt)
    (kept : ∀ write ∈ writes, ¬closes id write) :
    (after writes db).attempts.get id = some attempt := by
  induction writes generalizing db with
  | nil => exact found
  | cons write writes ih =>
      apply ih
      · exact attempts_apply_kept found (kept write (by simp))
      · intro later member
        exact kept later (List.mem_cons_of_mem _ member)

theorem attempts_apply_untouched {id : AttemptId}
    (untouched : write.rowLock ≠ some (.attempt id)) :
    (write.apply db).attempts.get id = db.attempts.get id := by
  cases write with
  | insertAttempt new =>
      have different : id ≠ new.id := fun same => untouched (same ▸ rfl)
      exact Table.get_insert_of_ne different
  | closeAttempt target job now outcome =>
      have different : id ≠ target := fun same => untouched (same ▸ rfl)
      simp [Write.apply, closeRow_get, different]
  | _ => rfl

theorem attempts_after_untouched {id : AttemptId}
    (untouched : ∀ write ∈ writes, write.rowLock ≠ some (.attempt id)) :
    (after writes db).attempts.get id = db.attempts.get id := by
  induction writes generalizing db with
  | nil => rfl
  | cons write writes ih =>
      rw [after_cons, ih fun later member =>
        untouched later (List.mem_cons_of_mem _ member)]
      exact attempts_apply_untouched (untouched write (by simp))

/-- The row of an attempt never disappears and never changes its job. -/
theorem attempts_after_present (writes : List Write) {id : AttemptId}
    {attempt : Attempt} (found : db.attempts.get id = some attempt) :
    ∃ new, (after writes db).attempts.get id = some new ∧
      new.jobId = attempt.jobId ∧ new.token = attempt.token ∧
      (new = attempt ∨ new.isOpen = false) := by
  induction writes generalizing db attempt with
  | nil => exact ⟨attempt, found, rfl, rfl, Or.inl rfl⟩
  | cons write writes ih =>
      by_cases isClose : closes id write
      · obtain ⟨job, now, outcome, rfl⟩ := isClose
        obtain ⟨new, isNew, sameJob, sameToken, same⟩ := ih
          (show ((Write.closeAttempt id job now outcome).apply db).attempts.get
              id = some (attempt.close now outcome) by
            simp [Write.apply, closeRow_get, found])
        refine ⟨new, isNew, sameJob, sameToken, Or.inr ?_⟩
        rcases same with rfl | closed
        · rfl
        · exact closed
      · exact ih (attempts_apply_kept found isClose)

theorem attempts_after_closed {id : AttemptId} {attempt : Attempt}
    {gone : Write} (found : db.attempts.get id = some attempt)
    (member : gone ∈ writes) (isClose : closes id gone) :
    ∃ new, (after writes db).attempts.get id = some new ∧
      new.isOpen = false := by
  induction writes generalizing db attempt with
  | nil => simp at member
  | cons write writes ih =>
      rcases List.mem_cons.mp member with rfl | member
      · obtain ⟨job, now, outcome, rfl⟩ := isClose
        obtain ⟨new, isNew, _, _, same⟩ := attempts_after_present
          writes
          (show ((Write.closeAttempt id job now outcome).apply db).attempts.get
              id = some (attempt.close now outcome) by
            simp [Write.apply, closeRow_get, found])
        refine ⟨new, isNew, ?_⟩
        rcases same with rfl | closed
        · rfl
        · exact closed
      · obtain ⟨middle, isMiddle, _⟩ := attempts_after_present
          [write] found
        exact ih isMiddle member

/-! ## Replaced jobs -/

theorem replaced_apply_mem {job : JobId} :
    job ∈ (write.apply db).replaced ↔
      job ∈ db.replaced ∨ write = .discardLive job := by
  cases write with
  | discardLive gone =>
      simp only [Write.apply, List.mem_cons, Write.discardLive.injEq]
      constructor
      · rintro (rfl | member)
        · exact Or.inr rfl
        · exact Or.inl member
      · rintro (member | rfl)
        · exact Or.inr member
        · exact Or.inl rfl
  | _ => simp [Write.apply]

theorem replaced_after_mem {job : JobId} :
    job ∈ (after writes db).replaced ↔
      job ∈ db.replaced ∨ .discardLive job ∈ writes := by
  induction writes generalizing db with
  | nil => simp
  | cons write writes ih =>
      rw [after_cons, ih, replaced_apply_mem, List.mem_cons, or_assoc,
        eq_comm (a := write)]

/-! ## Ready entries -/

theorem ready_apply_cases {entry : Ready}
    (member : entry ∈ (write.apply db).ready.rows) :
    .insertReady entry = write ∨
      ∃ old ∈ db.ready.rows, old.slot = entry.slot ∧
        old.jobId = entry.jobId := by
  cases write with
  | insertReady new =>
      rcases Table.mem_insert_iff.mp member with ⟨rfl, _⟩ | old
      · exact Or.inl rfl
      · exact Or.inr ⟨entry, old, rfl, rfl⟩
  | setReady new =>
      rcases Table.mem_set_iff.mp member with ⟨rfl, present⟩ | ⟨old, _⟩
      · obtain ⟨old, found⟩ := Option.ne_none_iff_exists'.mp present
        have keyed := Table.key_of_get found
        simp only [Prod.mk.injEq] at keyed
        exact Or.inr ⟨old, Table.mem_of_get found, keyed⟩
      · exact Or.inr ⟨entry, old, rfl, rfl⟩
  | deleteReady slot job =>
      have old : entry ∈ db.ready.rows := (List.mem_filter.mp member).1
      exact Or.inr ⟨entry, old, rfl, rfl⟩
  | _ => exact Or.inr ⟨entry, member, rfl, rfl⟩

theorem ready_after_cases {entry : Ready}
    (member : entry ∈ (after writes db).ready.rows) :
    (∃ new, .insertReady new ∈ writes ∧ new.slot = entry.slot) ∨
      ∃ old ∈ db.ready.rows, old.slot = entry.slot := by
  induction writes generalizing db with
  | nil => exact Or.inr ⟨entry, member, rfl⟩
  | cons write writes ih =>
      rcases ih member with ⟨new, inserted, same⟩ | ⟨middle, isMiddle, same⟩
      · exact Or.inl ⟨new, List.mem_cons_of_mem _ inserted, same⟩
      · rcases ready_apply_cases isMiddle with rfl | ⟨old, isOld, slot, _⟩
        · exact Or.inl ⟨middle, by simp, same⟩
        · exact Or.inr ⟨old, isOld, slot.trans same⟩

/-! ## Counters -/

theorem counters_apply (write : Write) (db : Db) :
    db.nextJob ≤ (write.apply db).nextJob ∧
      db.nextAttempt ≤ (write.apply db).nextAttempt := by
  cases write with
  | nextJob => exact ⟨Int.le_of_lt (Int.lt_succ _), le_refl _⟩
  | nextAttempt => exact ⟨le_refl _, Nat.le_succ _⟩
  | _ => exact ⟨le_refl _, le_refl _⟩

theorem counters_after (writes : List Write) (db : Db) :
    db.nextJob ≤ (after writes db).nextJob ∧
      db.nextAttempt ≤ (after writes db).nextAttempt := by
  induction writes generalizing db with
  | nil => exact ⟨le_refl _, le_refl _⟩
  | cons write writes ih =>
      obtain ⟨jobs, attempts⟩ := counters_apply write db
      have later := ih (write.apply db)
      exact ⟨jobs.trans later.1, attempts.trans later.2⟩

end Sqlery.Standalone
