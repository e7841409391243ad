import Mathlib.Data.List.TakeWhile

/-!
# Splitting text

The splits at a separator that parsers of addresses and URLs are made of.
-/

namespace Sqlery.Network

abbrev Text := List Char

instance lawfulText : LawfulBEq Text := inferInstance

/-- `text.partition(sep)`. -/
def partition (sep : Char) (text : Text) : Text × Bool × Text :=
  match text.dropWhile (· ≠ sep) with
  | [] => (text, false, [])
  | _ :: rest => (text.takeWhile (· ≠ sep), true, rest)

/-- `text.rpartition(sep)`. -/
def rpartition (sep : Char) (text : Text) : Text × Bool × Text :=
  match partition sep text.reverse with
  | (_, false, _) => ([], false, text)
  | (tail, true, head) => (head.reverse, true, tail.reverse)

/-- `text.split(sep)`. -/
def split (sep : Char) : Text → List Text
  | [] => [[]]
  | c :: rest =>
      if c = sep then [] :: split sep rest
      else match split sep rest with
        | [] => [[c]]
        | part :: parts => (c :: part) :: parts

/-- `sep.join(parts)`. -/
def joined (sep : Char) : List Text → Text
  | [] => []
  | [part] => part
  | part :: parts => part ++ sep :: joined sep parts

section Partition

variable {sep c : Char} {text head tail : Text}

theorem dropWhile_append_fresh {stops : Char → Bool}
    (passes : ∀ c ∈ head, stops c = true) :
    (head ++ tail).dropWhile stops = tail.dropWhile stops := by
  induction head with
  | nil => rfl
  | cons first rest ih =>
      rw [List.cons_append, List.dropWhile_cons_of_pos
        (passes first List.mem_cons_self)]
      exact ih fun c member => passes c (List.mem_cons_of_mem _ member)

theorem takeWhile_append_fresh {stops : Char → Bool}
    (passes : ∀ c ∈ head, stops c = true) :
    (head ++ tail).takeWhile stops = head ++ tail.takeWhile stops := by
  induction head with
  | nil => rfl
  | cons first rest ih =>
      rw [List.cons_append, List.takeWhile_cons_of_pos
        (passes first List.mem_cons_self), List.cons_append, ih fun c member =>
        passes c (List.mem_cons_of_mem _ member)]

theorem passes_of_fresh (fresh : sep ∉ head) :
    ∀ c ∈ head, decide (c ≠ sep) = true := by
  intro c member
  apply decide_eq_true
  intro same
  exact fresh (same ▸ member)

@[simp] theorem partition_append (fresh : sep ∉ head) :
    partition sep (head ++ sep :: tail) = (head, true, tail) := by
  unfold partition
  rw [dropWhile_append_fresh (passes_of_fresh fresh),
    takeWhile_append_fresh (passes_of_fresh fresh)]
  simp

@[simp] theorem partition_absent (fresh : sep ∉ text) :
    partition sep text = (text, false, []) := by
  unfold partition
  rw [List.dropWhile_eq_nil_iff.mpr (passes_of_fresh fresh)]

theorem partition_cases (sep : Char) (text : Text) :
    (sep ∉ text ∧ partition sep text = (text, false, [])) ∨
      ∃ head tail, text = head ++ sep :: tail ∧ sep ∉ head ∧
        partition sep text = (head, true, tail) := by
  by_cases member : sep ∈ text
  · obtain ⟨head, tail, isText, fresh⟩ := List.eq_append_cons_of_mem member
    subst isText
    exact Or.inr ⟨head, tail, rfl, fresh, partition_append fresh⟩
  · exact Or.inl ⟨member, partition_absent member⟩

theorem partition_fst : (partition sep text).1 =
    text.takeWhile (· ≠ sep) := by
  rcases partition_cases sep text with ⟨fresh, isEq⟩ |
    ⟨head, tail, isText, fresh, isEq⟩
  · rw [isEq, List.takeWhile_eq_self_iff.mpr (passes_of_fresh fresh)]
  · rw [isEq, isText, takeWhile_append_fresh (passes_of_fresh fresh)]
    simp

theorem mem_partition_fst (member : c ∈ (partition sep text).1) :
    c ∈ text := by
  rcases partition_cases sep text with ⟨_, isEq⟩ | ⟨_, _, isText, _, isEq⟩
  · rwa [isEq] at member
  · rw [isEq] at member
    rw [isText]
    exact List.mem_append_left _ member

theorem mem_partition_snd (member : c ∈ (partition sep text).2.2) :
    c ∈ text := by
  rcases partition_cases sep text with ⟨_, isEq⟩ | ⟨_, _, isText, _, isEq⟩
  · rw [isEq] at member
    cases member
  · rw [isEq] at member
    rw [isText]
    exact List.mem_append_right _ (List.mem_cons_of_mem _ member)

theorem not_mem_partition_fst : sep ∉ (partition sep text).1 := by
  rcases partition_cases sep text with ⟨fresh, isEq⟩ | ⟨_, _, _, fresh, isEq⟩
  · rwa [isEq]
  · rwa [isEq]

@[simp] theorem rpartition_append (fresh : sep ∉ tail) :
    rpartition sep (head ++ sep :: tail) = (head, true, tail) := by
  have reversed : (head ++ sep :: tail).reverse =
      tail.reverse ++ sep :: head.reverse := by simp
  have absent : sep ∉ tail.reverse := fun member =>
    fresh (List.mem_reverse.mp member)
  unfold rpartition
  rw [reversed, partition_append absent]
  simp

@[simp] theorem rpartition_absent (fresh : sep ∉ text) :
    rpartition sep text = ([], false, text) := by
  have absent : sep ∉ text.reverse := fun member =>
    fresh (List.mem_reverse.mp member)
  unfold rpartition
  rw [partition_absent absent]

theorem rpartition_cases (sep : Char) (text : Text) :
    (sep ∉ text ∧ rpartition sep text = ([], false, text)) ∨
      ∃ head tail, text = head ++ sep :: tail ∧ sep ∉ tail ∧
        rpartition sep text = (head, true, tail) := by
  by_cases member : sep ∈ text
  · obtain ⟨tail, head, isText, fresh⟩ :=
      List.eq_append_cons_of_mem (List.mem_reverse.mpr member)
    have isText : text = head.reverse ++ sep :: tail.reverse := by
      rw [← List.reverse_reverse text, isText]
      simp
    have absent : sep ∉ tail.reverse := fun member =>
      fresh (List.mem_reverse.mp member)
    subst isText
    exact Or.inr ⟨_, _, rfl, absent, rpartition_append absent⟩
  · exact Or.inl ⟨member, rpartition_absent member⟩

theorem mem_rpartition_snd (member : c ∈ (rpartition sep text).2.2) :
    c ∈ text := by
  rcases rpartition_cases sep text with ⟨_, isEq⟩ | ⟨_, _, isText, _, isEq⟩
  · rwa [isEq] at member
  · rw [isEq] at member
    rw [isText]
    exact List.mem_append_right _ (List.mem_cons_of_mem _ member)

theorem not_mem_rpartition_snd : sep ∉ (rpartition sep text).2.2 := by
  rcases rpartition_cases sep text with ⟨fresh, isEq⟩ | ⟨_, _, _, fresh, isEq⟩
  · rwa [isEq]
  · rwa [isEq]

end Partition

/-! ## Joined parts -/

section Joined

variable {sep c : Char} {parts : List Text}

theorem mem_joined (member : c ∈ joined sep parts) :
    c = sep ∨ ∃ part ∈ parts, c ∈ part := by
  induction parts with
  | nil => cases member
  | cons part rest ih =>
      cases rest with
      | nil => exact Or.inr ⟨part, List.mem_cons_self, member⟩
      | cons next rest =>
          rcases List.mem_append.mp member with here | later
          · exact Or.inr ⟨part, List.mem_cons_self, here⟩
          · rcases List.mem_cons.mp later with isSep | later
            · exact Or.inl isSep
            · exact (ih later).imp_right fun ⟨other, listed, inOther⟩ =>
                ⟨other, List.mem_cons_of_mem _ listed, inOther⟩

theorem sep_mem_joined (several : 2 ≤ parts.length) :
    sep ∈ joined sep parts := by
  match parts, several with
  | _ :: _ :: _, _ =>
      exact List.mem_append_right _ List.mem_cons_self

end Joined

end Sqlery.Network
