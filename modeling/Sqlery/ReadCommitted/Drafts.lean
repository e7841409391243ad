import Mathlib.Data.List.Nodup
import Mathlib.Logic.Function.Basic

/-!
# Drafts

The committed rows of a table with a key, and what each open transaction has
done to them.  A key that a transaction has locked, deleted or inserted belongs
to it until it ends: another one waits, or passes over it.  `Lawful` is what
this leaves true, and each operation of a transaction keeps it.
-/

namespace Sqlery.ReadCommitted

/-- What an open transaction has done. -/
structure Draft (Row Key : Type) where
  /-- Rows locked for an update, in its course. -/
  locked : List Key := []
  deleted : List Key := []
  inserted : List Row := []

namespace Draft

variable {Row Key : Type} [DecidableEq Key] (key : Row → Key)

/-- The key is that of a row that the transaction has deleted or inserted. -/
def changes (draft : Draft Row Key) (name : Key) : Bool :=
  name ∈ draft.deleted || draft.inserted.any fun row => key row = name

def touches (draft : Draft Row Key) (name : Key) : Bool :=
  name ∈ draft.locked || draft.changes key name

/-- The rows as the transaction sees them, and as they are when it is
committed. -/
def view (draft : Draft Row Key) (rows : List Row) : List Row :=
  (rows.filter fun row => key row ∉ draft.deleted) ++ draft.inserted

/-- The row of the key is there for the transaction. -/
def sees (draft : Draft Row Key) (rows : List Row) (name : Key) : Bool :=
  (draft.view key rows).any fun row => key row = name

def lock (draft : Draft Row Key) (names : List Key) : Draft Row Key :=
  { draft with locked := names ++ draft.locked }

def delete (draft : Draft Row Key) (name : Key) : Draft Row Key :=
  { draft with
    deleted := name :: draft.deleted
    inserted := draft.inserted.filter fun row => key row ≠ name }

def insert (draft : Draft Row Key) (row : Row) : Draft Row Key :=
  { draft with inserted := row :: draft.inserted }

variable {key} {draft : Draft Row Key} {rows : List Row} {name : Key}

theorem changes_iff : draft.changes key name = true ↔
    name ∈ draft.deleted ∨ ∃ row ∈ draft.inserted, key row = name := by
  simp [changes]

theorem touches_iff : draft.touches key name = true ↔
    name ∈ draft.locked ∨ draft.changes key name = true := by
  simp [touches]

theorem mem_view {row : Row} : row ∈ draft.view key rows ↔
    (row ∈ rows ∧ key row ∉ draft.deleted) ∨ row ∈ draft.inserted := by
  simp [view]

theorem sees_iff : draft.sees key rows name = true ↔
    ∃ row ∈ draft.view key rows, key row = name := by
  simp [sees]

theorem touches_of_deleted (member : name ∈ draft.deleted) :
    draft.touches key name = true :=
  touches_iff.mpr (.inr (changes_iff.mpr (.inl member)))

theorem touches_of_inserted {row : Row} (member : row ∈ draft.inserted) :
    draft.touches key (key row) = true :=
  touches_iff.mpr (.inr (changes_iff.mpr (.inr ⟨row, member, rfl⟩)))

theorem touches_of_locked (member : name ∈ draft.locked) :
    draft.touches key name = true :=
  touches_iff.mpr (.inl member)

@[simp] theorem touches_empty :
    ({} : Draft Row Key).touches key name = false := by
  simp [touches, changes]

/-- What is deleted is no longer seen. -/
theorem sees_delete : (draft.delete key name).sees key rows name = false := by
  rw [Bool.eq_false_iff]
  intro seen
  obtain ⟨row, viewed, same⟩ := sees_iff.mp seen
  rcases mem_view.mp viewed with ⟨-, kept⟩ | inserted
  · rw [same] at kept
    exact kept List.mem_cons_self
  · have different := (List.mem_filter.mp inserted).2
    simp [same] at different

theorem touches_lock {names : List Key}
    (touched : (draft.lock names).touches key name = true) :
    name ∈ names ∨ draft.touches key name = true := by
  rcases touches_iff.mp touched with member | changed
  · rcases List.mem_append.mp member with member | member
    · exact .inl member
    · exact .inr (touches_of_locked member)
  · exact .inr (touches_iff.mpr (.inr changed))

theorem touches_delete {deleted : Key}
    (touched : (draft.delete key deleted).touches key name = true) :
    name = deleted ∨ draft.touches key name = true := by
  rcases touches_iff.mp touched with member | changed
  · exact .inr (touches_of_locked member)
  · rcases changes_iff.mp changed with member | ⟨row, member, rfl⟩
    · rcases List.mem_cons.mp member with same | member
      · exact .inl same
      · exact .inr (touches_of_deleted member)
    · exact .inr (touches_of_inserted (List.mem_filter.mp member).1)

theorem touches_insert {row : Row}
    (touched : (draft.insert row).touches key name = true) :
    name = key row ∨ draft.touches key name = true := by
  rcases touches_iff.mp touched with member | changed
  · exact .inr (touches_of_locked member)
  · rcases changes_iff.mp changed with member | ⟨other, member, rfl⟩
    · exact .inr (touches_of_deleted member)
    · rcases List.mem_cons.mp member with same | member
      · exact .inl (by rw [same])
      · exact .inr (touches_of_inserted member)

end Draft

/-! ## The drafts of all sessions -/

section

variable {Row Key Session : Type} [DecidableEq Key] [DecidableEq Session]

/-- No two rows have one key, nor two transactions, and each transaction adds
rows only where there are none. -/
structure Lawful (key : Row → Key) (rows : List Row)
    (drafts : Session → Draft Row Key) : Prop where
  unique : (rows.map key).Nodup
  apart : ∀ one other name, (drafts one).touches key name = true →
    (drafts other).touches key name = true → one = other
  held : ∀ session, ∀ name ∈ (drafts session).locked,
    name ∈ rows.map key ∨ (drafts session).changes key name = true
  once : ∀ session, ((drafts session).inserted.map key).Nodup
  added : ∀ session, ∀ row ∈ (drafts session).inserted, key row ∈ rows.map key →
    key row ∈ (drafts session).deleted

variable {key : Row → Key} {rows : List Row} {drafts : Session → Draft Row Key}
variable {self : Session} {draft : Draft Row Key} {name : Key}

/-- The draft of one session is another one, over keys that were its own or
nobody's. -/
theorem Lawful.update (lawful : Lawful key rows drafts)
    (fresh : ∀ name, draft.touches key name = true →
      (drafts self).touches key name = true ∨
        ∀ other, other ≠ self → (drafts other).touches key name = false)
    (held : ∀ name ∈ draft.locked,
      name ∈ rows.map key ∨ draft.changes key name = true)
    (once : (draft.inserted.map key).Nodup)
    (added : ∀ row ∈ draft.inserted, key row ∈ rows.map key →
      key row ∈ draft.deleted) :
    Lawful key rows (Function.update drafts self draft) := by
  have mine (name : Key) (other : Session) (different : other ≠ self)
      (touched : draft.touches key name = true)
      (theirs : (drafts other).touches key name = true) : False := by
    rcases fresh name touched with own | free
    · exact different (lawful.apart other self name theirs own)
    · rw [free other different] at theirs
      cases theirs
  refine ⟨lawful.unique, ?_, ?_, ?_, ?_⟩
  · intro one other name first second
    by_cases isOne : one = self
    · by_cases isOther : other = self
      · rw [isOne, isOther]
      · subst isOne
        rw [Function.update_self] at first
        rw [Function.update_of_ne isOther] at second
        exact (mine name other isOther first second).elim
    · rw [Function.update_of_ne isOne] at first
      by_cases isOther : other = self
      · subst isOther
        rw [Function.update_self] at second
        exact (mine name one isOne second first).elim
      · rw [Function.update_of_ne isOther] at second
        exact lawful.apart one other name first second
  · intro session
    by_cases isSelf : session = self
    · subst isSelf
      rw [Function.update_self]
      exact held
    · rw [Function.update_of_ne isSelf]
      exact lawful.held session
  · intro session
    by_cases isSelf : session = self
    · subst isSelf
      rw [Function.update_self]
      exact once
    · rw [Function.update_of_ne isSelf]
      exact lawful.once session
  · intro session
    by_cases isSelf : session = self
    · subst isSelf
      rw [Function.update_self]
      exact added
    · rw [Function.update_of_ne isSelf]
      exact lawful.added session

theorem Lawful.rollback (lawful : Lawful key rows drafts) (self : Session) :
    Lawful key rows (Function.update drafts self {}) := by
  refine lawful.update ?_ ?_ ?_ ?_
  · intro name touched
    rw [Draft.touches_empty] at touched
    cases touched
  · intro name member
    cases member
  · exact List.nodup_nil
  · intro row member
    cases member

theorem Lawful.lock (lawful : Lawful key rows drafts) {names : List Key}
    (there : ∀ name ∈ names,
      name ∈ rows.map key ∨ (drafts self).changes key name = true)
    (free : ∀ name ∈ names, ∀ other, other ≠ self →
      (drafts other).touches key name = false) :
    Lawful key rows
      (Function.update drafts self ((drafts self).lock names)) := by
  refine lawful.update ?_ ?_ (lawful.once self) (lawful.added self)
  · intro name touched
    rcases Draft.touches_lock touched with member | touched
    · exact .inr (free name member)
    · exact .inl touched
  · intro name member
    rcases List.mem_append.mp member with member | member
    · exact there name member
    · exact lawful.held self name member

theorem Lawful.delete (lawful : Lawful key rows drafts)
    (free : ∀ other, other ≠ self → (drafts other).touches key name = false) :
    Lawful key rows
      (Function.update drafts self ((drafts self).delete key name)) := by
  refine lawful.update ?_ ?_ ?_ ?_
  · intro touched isTouched
    rcases Draft.touches_delete isTouched with rfl | isTouched
    · exact .inr free
    · exact .inl isTouched
  · intro held member
    rcases lawful.held self held member with there | changed
    · exact .inl there
    · by_cases isName : held = name
      · subst isName
        exact .inr (Draft.changes_iff.mpr (.inl List.mem_cons_self))
      · refine .inr (Draft.changes_iff.mpr ?_)
        rcases Draft.changes_iff.mp changed with deleted | ⟨row, inserted, rfl⟩
        · exact .inl (List.mem_cons_of_mem _ deleted)
        · exact .inr ⟨row,
            List.mem_filter.mpr ⟨inserted, by simpa using isName⟩,
            rfl⟩
  · exact (lawful.once self).sublist (List.filter_sublist.map key)
  · intro row member there
    have inserted := (List.mem_filter.mp member).1
    exact List.mem_cons_of_mem _ (lawful.added self row inserted there)

/-- A row is inserted where the transaction sees none, and no other one has one
in the making. -/
theorem Lawful.insert (lawful : Lawful key rows drafts) {row : Row}
    (unseen : (drafts self).sees key rows (key row) = false)
    (free : ∀ other, other ≠ self →
      (drafts other).changes key (key row) = false) :
    Lawful key rows
      (Function.update drafts self ((drafts self).insert row)) := by
  have absent : ∀ other ∈ (drafts self).view key rows, key other ≠ key row := by
    intro other member same
    have seen := Draft.sees_iff.mpr ⟨other, member, same⟩
    rw [unseen] at seen
    cases seen
  have deleted (there : key row ∈ rows.map key) :
      key row ∈ (drafts self).deleted := by
    by_contra kept
    obtain ⟨other, member, same⟩ := List.mem_map.mp there
    rw [← same] at kept
    exact absent other (Draft.mem_view.mpr (.inl ⟨member, kept⟩)) same
  refine lawful.update ?_ ?_ ?_ ?_
  · intro name touched
    rcases Draft.touches_insert touched with rfl | touched
    · by_cases own : (drafts self).touches key (key row) = true
      · exact .inl own
      · refine .inr fun other different => ?_
        rw [Bool.eq_false_iff]
        intro theirs
        rcases Draft.touches_iff.mp theirs with locked | changed
        · rcases lawful.held other _ locked with there | changed
          · exact own (Draft.touches_of_deleted (deleted there))
          · rw [free other different] at changed
            cases changed
        · rw [free other different] at changed
          cases changed
    · exact .inl touched
  · intro name member
    rcases lawful.held self name member with there | changed
    · exact .inl there
    · refine .inr (Draft.changes_iff.mpr ?_)
      rcases Draft.changes_iff.mp changed with gone | ⟨other, inserted, rfl⟩
      · exact .inl gone
      · exact .inr ⟨other, List.mem_cons_of_mem _ inserted, rfl⟩
  · refine List.nodup_cons.mpr ⟨?_, lawful.once self⟩
    intro member
    obtain ⟨other, inserted, same⟩ := List.mem_map.mp member
    exact absent other (Draft.mem_view.mpr (.inr inserted)) same
  · intro other member there
    rcases List.mem_cons.mp member with rfl | member
    · exact deleted there
    · exact lawful.added self other member there

/-- The draft of a session becomes the rows. -/
theorem Lawful.commit (lawful : Lawful key rows drafts) (self : Session) :
    Lawful key ((drafts self).view key rows)
      (Function.update drafts self {}) := by
  have inMap {name : Key}
      (member : name ∈ ((drafts self).view key rows).map key) :
      (name ∈ rows.map key ∧ name ∉ (drafts self).deleted) ∨
        ∃ row ∈ (drafts self).inserted, key row = name := by
    obtain ⟨row, viewed, rfl⟩ := List.mem_map.mp member
    rcases Draft.mem_view.mp viewed with ⟨isRow, kept⟩ | inserted
    · exact .inl ⟨List.mem_map.mpr ⟨row, isRow, rfl⟩, kept⟩
    · exact .inr ⟨row, inserted, rfl⟩
  have others := lawful.rollback self
  refine ⟨?_, others.apart, ?_, others.once, ?_⟩
  · unfold Draft.view
    rw [List.map_append, List.nodup_append]
    refine ⟨lawful.unique.sublist (List.filter_sublist.map key),
      lawful.once self, ?_⟩
    intro name old fresh' fresh same
    subst same
    obtain ⟨row, filtered, rfl⟩ := List.mem_map.mp old
    obtain ⟨member, kept⟩ := List.mem_filter.mp filtered
    obtain ⟨other, inserted, same⟩ := List.mem_map.mp fresh
    have gone := lawful.added self other inserted
      (by rw [same]; exact List.mem_map.mpr ⟨row, member, rfl⟩)
    rw [same] at gone
    simp [gone] at kept
  · intro session name locked
    by_cases isSelf : session = self
    · subst isSelf
      rw [Function.update_self] at locked
      cases locked
    · rw [Function.update_of_ne isSelf] at locked ⊢
      rcases lawful.held session name locked with there | changed
      · refine .inl ?_
        obtain ⟨row, member, rfl⟩ := List.mem_map.mp there
        refine List.mem_map.mpr
          ⟨row, Draft.mem_view.mpr (.inl ⟨member, ?_⟩), rfl⟩
        intro gone
        exact isSelf (lawful.apart session self _
          (Draft.touches_of_locked locked) (Draft.touches_of_deleted gone))
      · exact .inr changed
  · intro session row inserted there
    by_cases isSelf : session = self
    · subst isSelf
      rw [Function.update_self] at inserted
      cases inserted
    · rw [Function.update_of_ne isSelf] at inserted ⊢
      rcases inMap there with ⟨old, -⟩ | ⟨other, isTheirs, same⟩
      · exact lawful.added session row inserted old
      · have theirs : (drafts self).touches key (key row) = true := by
          rw [← same]
          exact Draft.touches_of_inserted isTheirs
        exact absurd (lawful.apart session self _
          (Draft.touches_of_inserted inserted) theirs) isSelf

end

end Sqlery.ReadCommitted
