import Sqlery.Standalone.Attempts

/-!
# What the journal says about the jobs

Every job that is stored, or was replaced by one of its name, was created by a
committed transaction, once, and keeps what its creator chose.
-/

namespace Sqlery.Standalone

open ReadCommitted

/-- The rows of the live table and of history. -/
def Db.stored (db : Db) : List Job := db.live.rows ++ db.history.rows

/-- A committed transaction inserted this row. -/
def Inserted {n : Nat} (state : World n) (row : Job) : Prop :=
  ∃ entry ∈ state.journal, .insertLive row ∈ entry.2

/-- A job of this id was created at some time. -/
def Known (db : Db) (job : JobId) : Prop :=
  (∃ row ∈ db.stored, row.id = job) ∨ job ∈ db.replaced

/-- What each job was created with. -/
abbrev Specs := JobId → JobSpec

def InsertedWith {n : Nat} (specs : Specs) (state : World n) : Prop :=
  ∀ row, Inserted state row → row.toJobSpec = specs row.id

/-- The stored jobs are what they were created as. -/
def StoredWith (specs : Specs) (db : Db) : Prop :=
  ∀ row ∈ db.stored, row.toJobSpec = specs row.id

section Commit

variable {dialect : Dialect} {call : Call} {stage : Stage} {db : Db}
variable {state : Loc} {job : JobId}

/-- A stored row stays as it is, or it is written again or moved, as the same
job. -/
theorem stored_after (inv : Inv db)
    (lawful : Lawful dialect call stage db state) {row : Job}
    (member : row ∈ db.stored)
    (unreplaced : .discardLive row.id ∉ state.pending) :
    ∃ now, SameJob row now ∧
      ((now ∈ (after state.pending db).live.rows ∧
          (now = row ∨ .setLive now ∈ state.pending)) ∨
        (now ∈ (after state.pending db).history.rows ∧
          (now = row ∨ .insertHistory now ∈ state.pending))) := by
  rcases List.mem_append.mp member with live | finished
  · have found := Table.get_of_mem live
    by_cases deleted : .deleteLive row.id ∈ state.pending
    · obtain ⟨moved, isMoved, same⟩ :=
        moved_of_deleted inv lawful found deleted
      refine ⟨moved, same.toSameJob, Or.inr ⟨isMoved, ?_⟩⟩
      rcases history_after_cases isMoved with old | new
      · have absent := inv.apart moved old
        rw [same.id, found] at absent
        cases absent
      · exact Or.inr new
    · have kept : ∀ write ∈ state.pending, ¬removes row.id write := by
        intro write isWrite isRemoval
        rcases isRemoval with rfl | rfl
        · exact deleted isWrite
        · exact unreplaced isWrite
      obtain ⟨now, isNow, rfl | updated⟩ := live_after_some found kept
      · exact ⟨now, ⟨rfl, rfl, rfl⟩,
          Or.inl ⟨Table.mem_of_get isNow, Or.inl rfl⟩⟩
      · obtain ⟨⟨live, isLive, same⟩, _⟩ := lawful.updated now updated
        have keyed : now.id = row.id := Table.key_of_get isNow
        rw [keyed, found] at isLive
        cases isLive
        exact ⟨now, same, Or.inl ⟨Table.mem_of_get isNow, Or.inr updated⟩⟩
  · exact ⟨row, ⟨rfl, rfl, rfl⟩,
      Or.inr ⟨history_after_kept finished, Or.inl rfl⟩⟩

/-- A stored row was stored before, or it is a new job. -/
theorem stored_origin (lawful : Lawful dialect call stage db state) {now : Job}
    (member : now ∈ (after state.pending db).stored) :
    (∃ row ∈ db.stored, SameJob row now) ∨ .insertLive now ∈ state.pending := by
  rcases List.mem_append.mp member with live | finished
  · rcases live_after_origin (Table.get_of_mem live) with
      inserted | updated | old
    · exact Or.inr inserted
    · obtain ⟨⟨row, found, same⟩, _⟩ := lawful.updated now updated
      exact Or.inl ⟨row, List.mem_append_left _ (Table.mem_of_get found), same⟩
    · exact Or.inl ⟨now, List.mem_append_left _ (Table.mem_of_get old),
        rfl, rfl, rfl⟩
  · rcases history_after_cases finished with old | moved
    · exact Or.inl ⟨now, List.mem_append_right _ old, rfl, rfl, rfl⟩
    · obtain ⟨_, ⟨row, found, same⟩, _⟩ := lawful.moved now moved
      exact Or.inl ⟨row, List.mem_append_left _ (Table.mem_of_get found),
        same.toSameJob⟩

/-- A job that is inserted is there as it was inserted. -/
theorem Lawful.insertedRow (lawful : Lawful dialect call stage db state)
    {new : Job} (inserted : .insertLive new ∈ state.pending) :
    (after state.pending db).live.get new.id = some new := by
  have unused := (lawful.inserted new inserted).1
  have kept : ∀ write ∈ state.pending, ¬removes new.id write := by
    intro write member isRemoval
    rcases isRemoval with rfl | rfl
    · obtain ⟨moved, isMoved, isJob⟩ := lawful.deleted new.id member
      obtain ⟨_, ⟨live, found, _⟩, _⟩ := lawful.moved moved isMoved
      rw [isJob, unused.live] at found
      cases found
    · exact (lawful.discarded new.id member).2 unused.live
  obtain ⟨row, found⟩ : ∃ row,
      (after state.pending db).live.get new.id = some row :=
    live_after_inserted inserted kept
  rcases live_after_origin found with isNew | updated | isOld
  · rw [found, lawful.insertedOnce row new isNew inserted]
  · obtain ⟨⟨live, isLive, _⟩, _⟩ := lawful.updated row updated
    have keyed : row.id = new.id := Table.key_of_get found
    rw [keyed, unused.live] at isLive
    cases isLive
  · rw [unused.live] at isOld
    cases isOld

/-- A job that is known stays known. -/
theorem Known.kept (known : Known db job) (inv : Inv db)
    (lawful : Lawful dialect call stage db state) :
    Known (after state.pending db) job := by
  rcases known with ⟨row, member, isJob⟩ | replaced
  · by_cases discarded : .discardLive row.id ∈ state.pending
    · rw [isJob] at discarded
      exact Or.inr (replaced_after_mem.mpr (Or.inr discarded))
    · obtain ⟨now, same, place⟩ := stored_after inv lawful member discarded
      refine Or.inl ⟨now, ?_, same.id.trans isJob⟩
      exact List.mem_append.mpr (place.imp And.left And.left)
  · exact Or.inr (replaced_after_mem.mpr (Or.inl replaced))

/-- Nobody knows an unused id. -/
theorem Unused.unknown (unused : Unused db job) : ¬Known db job := by
  rintro (⟨row, member, isJob⟩ | replaced)
  · rcases List.mem_append.mp member with live | finished
    · have found := Table.get_of_mem live
      rw [isJob, unused.live] at found
      cases found
    · exact unused.history row finished isJob
  · exact unused.replaced replaced

theorem known_inserted (lawful : Lawful dialect call stage db state)
    {new : Job} (inserted : .insertLive new ∈ state.pending) :
    Known (after state.pending db) new.id := by
  have found := lawful.insertedRow inserted
  exact Or.inl ⟨new, List.mem_append_left _ (Table.mem_of_get found), rfl⟩

theorem unsuccessful_after (lawful : Lawful dialect call stage db state)
    (unsuccessful : ∀ row ∈ db.live.rows, row.status ≠ .success) :
    ∀ row ∈ (after state.pending db).live.rows, row.status ≠ .success := by
  intro row member
  rcases live_after_origin (Table.get_of_mem member) with
    inserted | updated | old
  · rw [(lawful.inserted row inserted).2.1]
    simp
  · exact (lawful.updated row updated).2.1
  · exact unsuccessful row (Table.mem_of_get old)

end Commit

theorem stored_of_sameTables {db after : Db} (same : SameTables db after) :
    after.stored = db.stored := by
  rw [Db.stored, same.live, same.history, Db.stored]

theorem Known.sameTables {first second : Db} {job : JobId}
    (known : Known first job) (same : SameTables first second) :
    Known second job := by
  unfold Known Db.stored at known ⊢
  rw [same.live, same.history, same.replaced]
  exact known

section Runs

variable {cfg : Config} {n : Nat} {state next : World n}
variable {allowed : World n → Action Write Call n → Prop}

structure Chronicled (state : World n) : Prop where
  stored : ∀ row ∈ state.db.stored, ∃ new, Inserted state new ∧ SameJob new row
  replaced : ∀ job ∈ state.db.replaced, ∃ new, Inserted state new ∧ new.id = job
  known : ∀ new, Inserted state new → Known state.db new.id
  once : ∀ first second, Inserted state first → Inserted state second →
    first.id = second.id → first = second
  /-- A success is recorded with the move into history. -/
  unsuccessful : ∀ row ∈ state.db.live.rows, row.status ≠ .success

theorem created_append {call : Call} {writes : List Write} {row : Job}
    (journal : next.journal = state.journal ++ [(call, writes)]) :
    Inserted next row ↔ Inserted state row ∨ .insertLive row ∈ writes := by
  simp [Inserted, journal, or_and_right, exists_or]

theorem created_of_eq {row : Job} (journal : next.journal = state.journal) :
    Inserted next row ↔ Inserted state row := by
  simp [Inserted, journal]

theorem Chronicled.commits {action : Action Write Call n} {process : Fin n}
    {call : Call} (good : (backend cfg).Good (Returns cfg) state)
    (commits : (backend cfg).Commits state next action process call)
    (chronicled : Chronicled state) : Chronicled next := by
  obtain ⟨stage, _, lawful⟩ := commits.promised
  have isAfter : next.db = after (state.session process).state.pending
      state.db := commits.db
  have created : ∀ row, Inserted next row ↔ Inserted state row ∨
      .insertLive row ∈ (state.session process).state.pending :=
    fun _ => created_append commits.journal
  constructor
  · intro row member
    rw [isAfter] at member
    rcases stored_origin lawful member with ⟨old, isOld, same⟩ | inserted
    · obtain ⟨new, isNew, sameNew⟩ := chronicled.stored old isOld
      exact ⟨new, (created new).mpr (Or.inl isNew),
        same.id.trans sameNew.id, same.createdAt.trans sameNew.createdAt,
        same.spec.trans sameNew.spec⟩
    · exact ⟨row, (created row).mpr (Or.inr inserted), rfl, rfl, rfl⟩
  · intro job member
    rw [isAfter] at member
    have source : ∃ new, Inserted state new ∧ new.id = job := by
      rcases replaced_after_mem.mp member with old | discarded
      · exact chronicled.replaced job old
      · obtain ⟨row, found⟩ := Option.ne_none_iff_exists'.mp
          (lawful.discarded job discarded).2
        obtain ⟨new, isNew, same⟩ := chronicled.stored row
          (List.mem_append_left _ (Table.mem_of_get found))
        exact ⟨new, isNew, same.id.symm.trans (Table.key_of_get found)⟩
    obtain ⟨new, isNew, isJob⟩ := source
    exact ⟨new, (created new).mpr (Or.inl isNew), isJob⟩
  · intro new isNew
    rw [isAfter]
    rcases (created new).mp isNew with old | inserted
    · exact (chronicled.known new old).kept good.inv lawful
    · exact known_inserted lawful inserted
  · intro first second isFirst isSecond same
    have fresh : ∀ old new, Inserted state old →
        .insertLive new ∈ (state.session process).state.pending →
        old.id ≠ new.id := by
      intro old new isOld inserted sameId
      have known := chronicled.known old isOld
      rw [sameId] at known
      exact (lawful.inserted new inserted).1.unknown known
    rcases (created first).mp isFirst with firstOld | firstNew
    · rcases (created second).mp isSecond with secondOld | secondNew
      · exact chronicled.once first second firstOld secondOld same
      · exact (fresh first second firstOld secondNew same).elim
    · rcases (created second).mp isSecond with secondOld | secondNew
      · exact (fresh second first secondOld firstNew same.symm).elim
      · exact lawful.insertedOnce first second firstNew secondNew
  · rw [isAfter]
    exact unsuccessful_after lawful chronicled.unsuccessful

theorem Chronicled.quiet {action : Action Write Call n}
    (quiet : (backend cfg).Quiet state next action)
    (chronicled : Chronicled state) : Chronicled next := by
  have same := sameTables_of_drifts quiet.db
  have created : ∀ row, Inserted next row ↔ Inserted state row :=
    fun _ => created_of_eq quiet.journal
  have stored := stored_of_sameTables same
  constructor
  · intro row member
    rw [stored] at member
    obtain ⟨new, isNew, isSame⟩ := chronicled.stored row member
    exact ⟨new, (created new).mpr isNew, isSame⟩
  · intro job member
    rw [same.replaced] at member
    obtain ⟨new, isNew, isJob⟩ := chronicled.replaced job member
    exact ⟨new, (created new).mpr isNew, isJob⟩
  · intro new isNew
    exact (chronicled.known new ((created new).mp isNew)).sameTables same
  · intro first second isFirst isSecond
    exact chronicled.once first second ((created first).mp isFirst)
      ((created second).mp isSecond)
  · rw [same.live]
    exact chronicled.unsuccessful

theorem Reached.chronicled (reached : Reached cfg allowed state) :
    Chronicled state := by
  apply reached.induct
  · intro tasks workers clock
    constructor <;> simp [System.initial, installed, Db.stored, Inserted,
      Table.empty]
  · intro state action next before ih _ taken
    rcases before.good.act_cases taken with ⟨process, call, commits⟩ | quiet
    · exact ih.commits before.good commits
    · exact ih.quiet quiet

/-- Whatever the run creates, there is one specification for each job. -/
theorem Chronicled.insertedWith (chronicled : Chronicled state) :
    ∃ specs, InsertedWith specs state := by
  classical
  refine ⟨fun job => if created : ∃ row, Inserted state row ∧ row.id = job then
    created.choose.toJobSpec else {}, ?_⟩
  intro row isInserted
  have created : ∃ other, Inserted state other ∧ other.id = row.id :=
    ⟨row, isInserted, rfl⟩
  have chosen := created.choose_spec
  have same := chronicled.once created.choose row chosen.1 isInserted chosen.2
  simp only [dif_pos created, same]

theorem Chronicled.storedWith {specs : Specs} (chronicled : Chronicled state)
    (insertedWith : InsertedWith specs state) : StoredWith specs state.db := by
  intro row member
  obtain ⟨new, isNew, same⟩ := chronicled.stored row member
  rw [same.spec, insertedWith new isNew, same.id]

/-- The specifications of a run are those of its beginning. -/
theorem InsertedWith.earlier {specs : Specs} {action : Action Write Call n}
    (good : (backend cfg).Good (Returns cfg) state)
    (taken : (system cfg).act state action = some next)
    (insertedWith : InsertedWith specs next) : InsertedWith specs state := by
  intro row isInserted
  apply insertedWith row
  rcases good.act_cases taken with ⟨process, call, commits⟩ | quiet
  · exact (created_append commits.journal).mpr (Or.inl isInserted)
  · exact (created_of_eq quiet.journal).mpr isInserted

end Runs

end Sqlery.Standalone
