import Mathlib.Data.List.Nodup

/-!
# Keyed tables

A table is a finite list of rows no two of which carry the same primary key.
The uniqueness of keys is a field, so a table that breaks its primary key
cannot be built, and looking a row up by its key is unambiguous.
-/

namespace Sqlery.ReadCommitted

/-- Rows of type `V` with the primary key `key`. -/
structure Table {K V : Type} (key : V → K) where
  rows : List V
  nodup : (rows.map key).Nodup

namespace Table

variable {K V : Type} {key : V → K}

def empty : Table key := ⟨[], by simp⟩

instance : Inhabited (Table key) := ⟨empty⟩

instance [DecidableEq V] : DecidableEq (Table key) := fun left right =>
  decidable_of_iff (left.rows = right.rows) (by
    cases left
    cases right
    simp)

def where_ (table : Table key) (keep : V → Bool) : List V :=
  table.rows.filter keep

/-- The rows that satisfy `keep` stay, the others are deleted. -/
def retain (table : Table key) (keep : V → Bool) : Table key :=
  ⟨table.rows.filter keep,
    table.nodup.sublist (List.filter_sublist.map key)⟩

/-- Rows with different keys that are all the same. -/
theorem eq_singleton {rows : List V} {row : V} (once : (rows.map key).Nodup)
    (member : row ∈ rows) (only : ∀ other ∈ rows, other = row) :
    rows = [row] := by
  cases rows with
  | nil => cases member
  | cons first rest =>
      have isFirst := only first List.mem_cons_self
      subst isFirst
      cases rest with
      | nil => rfl
      | cons second rest =>
          have isSecond := only second
            (List.mem_cons_of_mem _ List.mem_cons_self)
          subst isSecond
          simp at once

variable [DecidableEq K]

def get (table : Table key) (k : K) : Option V :=
  table.rows.find? fun row => key row = k

def erase (table : Table key) (k : K) : Table key :=
  table.retain fun row => key row ≠ k

/-- Insert a row; a row that is already there under the same key wins. -/
def insert (table : Table key) (row : V) : Table key :=
  if fresh : key row ∉ table.rows.map key then
    ⟨row :: table.rows, by
      rw [List.map_cons, List.nodup_cons]
      exact ⟨fresh, table.nodup⟩⟩
  else table

/-- Replace the row stored under the key of `row`, if there is one. -/
def set (table : Table key) (row : V) : Table key :=
  ⟨table.rows.map fun old => if key old = key row then row else old, by
    have sameKeys : (table.rows.map fun old =>
        if key old = key row then row else old).map key =
          table.rows.map key := by
      rw [List.map_map]
      apply List.map_congr_left
      intro old _
      by_cases same : key old = key row <;> simp [same]
    rw [sameKeys]
    exact table.nodup⟩

@[simp] theorem get_empty (k : K) : (empty : Table key).get k = none := rfl

theorem key_of_get {table : Table key} {k : K} {row : V}
    (found : table.get k = some row) : key row = k := by
  simpa using List.find?_some found

theorem mem_of_get {table : Table key} {k : K} {row : V}
    (found : table.get k = some row) : row ∈ table.rows :=
  List.mem_of_find?_eq_some found

theorem get_of_mem {table : Table key} {row : V}
    (member : row ∈ table.rows) : table.get (key row) = some row := by
  obtain ⟨rows, nodup⟩ := table
  simp only [get] at member ⊢
  induction rows with
  | nil => simp at member
  | cons head tail ih =>
      rw [List.map_cons, List.nodup_cons] at nodup
      rcases List.mem_cons.mp member with rfl | later
      · simp
      · have different : key head ≠ key row := by
          intro same
          exact nodup.1 (same ▸ List.mem_map_of_mem later)
        rw [List.find?_cons_of_neg (by simpa using different)]
        exact ih nodup.2 later

theorem mem_rows_iff {table : Table key} {row : V} :
    row ∈ table.rows ↔ table.get (key row) = some row :=
  ⟨get_of_mem, mem_of_get⟩

theorem get_eq_none_iff {table : Table key} {k : K} :
    table.get k = none ↔ ∀ row ∈ table.rows, key row ≠ k := by
  simp [get, List.find?_eq_none]

/-- A condition that fixes the key finds the row of the key. -/
theorem filter_of_get {table : Table key} {admits : V → Bool} {k : K}
    {row : V} (found : table.get k = some row)
    (isAdmitted : admits row = true)
    (keyed : ∀ other, admits other = true → key other = k) :
    table.rows.filter admits = [row] := by
  apply eq_singleton
    (table.nodup.sublist (List.Sublist.map key List.filter_sublist))
  · exact List.mem_filter.mpr ⟨mem_of_get found, isAdmitted⟩
  · intro other member
    obtain ⟨isRow, isOther⟩ := List.mem_filter.mp member
    have same := get_of_mem isRow
    rw [keyed other isOther, found] at same
    exact (Option.some.inj same).symm

theorem ext_get {left right : Table key} {k : K}
    (same : ∀ row, key row = k → (row ∈ left.rows ↔ row ∈ right.rows)) :
    left.get k = right.get k := by
  cases found : left.get k with
  | some row =>
      have keyed := key_of_get found
      have member := (same row keyed).mp (mem_of_get found)
      rw [← keyed, get_of_mem member]
  | none =>
      refine Eq.symm (get_eq_none_iff.mpr fun row member keyed => ?_)
      exact get_eq_none_iff.mp found row ((same row keyed).mpr member) keyed

theorem get_erase (table : Table key) (erased k : K) :
    (table.erase erased).get k =
      if k = erased then none else table.get k := by
  by_cases same : k = erased
  · subst same
    rw [if_pos rfl, get_eq_none_iff]
    intro row member
    simpa using (List.mem_filter.mp member).2
  · rw [if_neg same]
    apply ext_get
    intro row keyed
    have kept : key row ≠ erased := keyed ▸ same
    simp [erase, retain, kept]

@[simp] theorem get_erase_self (table : Table key) (k : K) :
    (table.erase k).get k = none := by
  simp [get_erase]

theorem get_erase_of_ne {table : Table key} {erased k : K}
    (different : k ≠ erased) : (table.erase erased).get k = table.get k := by
  simp [get_erase, different]

theorem mem_insert_iff {table : Table key} {row other : V} :
    other ∈ (table.insert row).rows ↔
      (other = row ∧ table.get (key row) = none) ∨ other ∈ table.rows := by
  have absent : table.get (key row) = none ↔
      key row ∉ table.rows.map key := by
    rw [get_eq_none_iff]
    simp
  unfold insert
  by_cases fresh : key row ∉ table.rows.map key
  · rw [dif_pos fresh]
    have none := absent.mpr fresh
    simp [none]
  · rw [dif_neg fresh]
    have some : ¬table.get (key row) = none := fun none =>
      fresh (absent.mp none)
    simp [some]

theorem get_insert (table : Table key) (row : V) (k : K) :
    (table.insert row).get k =
      if k = key row ∧ table.get k = none then some row
      else table.get k := by
  by_cases inserted : k = key row ∧ table.get k = none
  · obtain ⟨rfl, absent⟩ := inserted
    rw [if_pos ⟨rfl, absent⟩]
    exact get_of_mem (mem_insert_iff.mpr (Or.inl ⟨rfl, absent⟩))
  · rw [if_neg inserted]
    apply ext_get
    intro other keyed
    rw [mem_insert_iff]
    constructor
    · rintro (⟨rfl, absent⟩ | member)
      · exact (inserted ⟨keyed.symm, keyed ▸ absent⟩).elim
      · exact member
    · exact Or.inr

theorem get_insert_of_ne {table : Table key} {row : V} {k : K}
    (different : k ≠ key row) : (table.insert row).get k = table.get k := by
  simp [get_insert, different]

theorem get_insert_self {table : Table key} {row : V}
    (absent : table.get (key row) = none) :
    (table.insert row).get (key row) = some row := by
  simp [get_insert, absent]

theorem mem_set_iff {table : Table key} {row other : V} :
    other ∈ (table.set row).rows ↔
      (other = row ∧ table.get (key row) ≠ none) ∨
        (other ∈ table.rows ∧ key other ≠ key row) := by
  simp only [set, List.mem_map]
  constructor
  · rintro ⟨old, member, rfl⟩
    by_cases same : key old = key row
    · rw [if_pos same]
      exact Or.inl ⟨rfl, by rw [← same, get_of_mem member]; simp⟩
    · rw [if_neg same]
      exact Or.inr ⟨member, same⟩
  · rintro (⟨rfl, present⟩ | ⟨member, different⟩)
    · obtain ⟨old, found⟩ := Option.ne_none_iff_exists'.mp present
      exact ⟨old, mem_of_get found, by simp [key_of_get found]⟩
    · exact ⟨other, member, by simp [different]⟩

theorem get_set (table : Table key) (row : V) (k : K) :
    (table.set row).get k =
      if k = key row then (table.get k).map fun _ => row
      else table.get k := by
  by_cases same : k = key row
  · subst same
    rw [if_pos rfl]
    cases found : table.get (key row) with
    | some old =>
        exact get_of_mem (mem_set_iff.mpr (Or.inl ⟨rfl, by simp [found]⟩))
    | none =>
        refine get_eq_none_iff.mpr fun other member => ?_
        rcases mem_set_iff.mp member with ⟨_, present⟩ | ⟨_, different⟩
        · exact (present found).elim
        · exact different
  · rw [if_neg same]
    apply ext_get
    intro other keyed
    rw [mem_set_iff]
    constructor
    · rintro (⟨rfl, _⟩ | ⟨member, _⟩)
      · exact (same keyed.symm).elim
      · exact member
    · intro member
      exact Or.inr ⟨member, fun equal => same (keyed ▸ equal)⟩

theorem keys_set (table : Table key) (row : V) :
    (table.set row).rows.map key = table.rows.map key := by
  simp only [set, List.map_map]
  apply List.map_congr_left
  intro old _
  by_cases same : key old = key row <;> simp [same]

/-- New rows come before the old ones. -/
theorem keys_insert (table : Table key) (row : V) :
    ∃ new, (table.insert row).rows.map key = new ++ table.rows.map key := by
  unfold insert
  split
  · exact ⟨[key row], rfl⟩
  · exact ⟨[], rfl⟩

theorem get_set_of_ne {table : Table key} {row : V} {k : K}
    (different : k ≠ key row) : (table.set row).get k = table.get k := by
  simp [get_set, different]

end Table

end Sqlery.ReadCommitted
