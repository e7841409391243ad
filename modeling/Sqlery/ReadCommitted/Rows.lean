import Sqlery.ReadCommitted.Script
import Sqlery.ReadCommitted.Table

/-!
# Statements on the rows of a table

The shapes of `UPDATE`, `DELETE`, `INSERT` and `SELECT .. FOR UPDATE`, for a
database that locks rows and for one with a single writer.  With a single
writer a statement that writes runs alone, so it finds its rows in the current
data; otherwise it finds them in its snapshot and looks at the current version
of each.

The second half is the rule a row lock is for: what only writes under a lock
can change stays as it is while the lock is held.
-/

namespace Sqlery.ReadCommitted

section Statements

variable {Db Write Lock K V : Type} [DecidableEq K] {key : V → K}
variable (table : Db → Table key)

/-- The current version of a row the statement found, if it still wants it. -/
def hit (admits : V → Bool) (current : Db) (old : V) : Option V :=
  if admits old then ((table current).get (key old)).filter admits else none

/-- The current version of the rows that satisfied the condition in the
snapshot and still do. -/
def hits (admits : V → Bool) (snapshot current : Db) : List V :=
  (table snapshot).rows.filterMap (hit table admits current)

/-- `UPDATE` and `DELETE`; `writer` is the lock of a single writer. -/
def modifyRows (writer : Option Lock) (admits : V → Bool) (write : V → Write) :
    Statement Db Write Lock (List V) :=
  fun snapshot current _ =>
    let rows := hits table admits (if writer.isSome then current else snapshot)
      current
    some { result := rows, writes := rows.map write, locks := writer.toList }

/-- `INSERT` under a primary key: the result says whether the key was free.  A
row of the same key that another transaction is writing is waited for. -/
def insertNew (writer : Option Lock) (lock : Lock) (write : V → Write)
    (row : V) : Statement Db Write Lock Bool :=
  fun _ current others =>
    if others.dirty lock then none
    else if ((table current).get (key row)).isSome then
      some { result := false, locks := writer.toList }
    else
      some { result := true, writes := [write row], locks := writer.toList }

/-- `SELECT .. FOR UPDATE`. -/
def lockRows (lock : V → Lock) (admits : V → Bool) :
    Statement Db Write Lock (List V) :=
  fun snapshot current _ =>
    let rows := hits table admits snapshot current
    some { result := rows, locks := rows.map lock }

/-- `SELECT .. FOR UPDATE SKIP LOCKED`: the rows another transaction has locked
are left out. -/
def lockFreeRows (lock : V → Lock) (admits : V → Bool) :
    Statement Db Write Lock (List V) :=
  fun snapshot current others =>
    let rows := (hits table admits snapshot current).filter fun row =>
      !others.busy (lock row)
    some { result := rows, locks := rows.map lock }

theorem hit_eq_some {admits : V → Bool} {current : Db} {old row : V}
    (kept : hit table admits current old = some row) :
    (table current).get (key row) = some row ∧ key row = key old ∧
      admits row = true := by
  unfold hit at kept
  split at kept
  · obtain ⟨found, admitted⟩ := Option.filter_eq_some_iff.mp kept
    have same := Table.key_of_get found
    rw [same]
    exact ⟨found, rfl, admitted⟩
  · cases kept

theorem mem_hits {admits : V → Bool} {snapshot current : Db} {row : V}
    (member : row ∈ hits table admits snapshot current) :
    (table current).get (key row) = some row ∧ admits row = true := by
  obtain ⟨old, _, kept⟩ := List.mem_filterMap.mp member
  obtain ⟨found, _, admitted⟩ := hit_eq_some table kept
  exact ⟨found, admitted⟩

/-- A statement finds a row once. -/
theorem hits_nodup (admits : V → Bool) (snapshot current : Db) :
    ((hits table admits snapshot current).map key).Nodup := by
  have sub : ∀ rows : List V,
      ((rows.filterMap (hit table admits current)).map key).Sublist
        (rows.map key) := by
    intro rows
    induction rows with
    | nil => exact List.Sublist.refl _
    | cons head tail ih =>
        cases kept : hit table admits current head with
        | none =>
            rw [List.filterMap_cons_none kept]
            exact ih.cons _
        | some row =>
            rw [List.filterMap_cons_some kept, List.map_cons, List.map_cons,
              (hit_eq_some table kept).2.1]
            exact ih.cons_cons _
  exact (table snapshot).nodup.sublist (sub _)

/-- A condition on one key finds at most the row of the key. -/
theorem hits_single {admits : V → Bool} {k : K}
    (keyed : ∀ row, admits row = true → key row = k) (snapshot current : Db) :
    hits table admits snapshot current = [] ∨
      ∃ row, hits table admits snapshot current = [row] ∧
        (table current).get k = some row ∧ admits row = true := by
  cases found : hits table admits snapshot current with
  | nil => exact Or.inl rfl
  | cons row rest =>
      right
      have isHit : ∀ other ∈ row :: rest,
          (table current).get (key other) = some other ∧
            admits other = true := by
        intro other member
        exact mem_hits table (found ▸ member)
      obtain ⟨isRow, admitted⟩ := isHit row List.mem_cons_self
      cases rest with
      | nil => exact ⟨row, rfl, keyed row admitted ▸ isRow, admitted⟩
      | cons second rest =>
          have nodup := hits_nodup table admits snapshot current
          have second' := isHit second
            (List.mem_cons_of_mem _ List.mem_cons_self)
          rw [found] at nodup
          simp [keyed row admitted, keyed second second'.2] at nodup

/-- A row that is there all the time is found. -/
theorem hits_of_key {k : K} {snapshot current : Db} {old row : V}
    (before : (table snapshot).get k = some old)
    (now : (table current).get k = some row) :
    hits table (fun other => decide (key other = k)) snapshot current =
      [row] := by
  have member : row ∈ hits table (fun other => decide (key other = k))
      snapshot current := by
    apply List.mem_filterMap.mpr
    refine ⟨old, Table.mem_of_get before, ?_⟩
    simp [hit, Table.key_of_get before, now, Table.key_of_get now]
  rcases hits_single table (k := k) (fun _ => of_decide_eq_true) snapshot
      current with none | ⟨found, isFound, _⟩
  · rw [none] at member
    simp at member
  · rw [isFound, List.mem_singleton] at member
    rw [isFound, member]

/-- So it writes about a row once. -/
theorem hits_writes_nodup {admits : V → Bool} {write : V → Write}
    {about : Write → Option K}
    (keyed : ∀ row, admits row = true → about (write row) = some (key row))
    (snapshot current : Db) :
    (((hits table admits snapshot current).map write).filterMap
      about).Nodup := by
  rw [List.filterMap_map]
  have same : (hits table admits snapshot current).filterMap
      (about ∘ write) =
        (hits table admits snapshot current).filterMap (some ∘ key) :=
    List.filterMap_congr fun row member =>
      keyed row (mem_hits table member).2
  rw [same, List.filterMap_eq_map]
  exact hits_nodup table admits snapshot current

end Statements

namespace Setting

variable {Db Write Lock Call α : Type} {C : Setting Db Write Lock Call α}

variable (C) in
/-- Only writes under the lock can change the fact. -/
structure LockedBy (lock : Lock) (fact : Db → Prop) : Prop where
  excludes : C.sys.schema.conflicts lock lock = true
  writes : ∀ write db, lock ∉ C.sys.schema.guards write → fact db →
    fact (C.sys.schema.apply write db)
  instant : ∀ call db state writes, C.inv db →
    (C.promise call).instant db state writes → fact db →
    fact (C.sys.schema.applyAll writes db)
  ambient : ∀ write db, C.sys.ambient write = true → fact db →
    fact (C.sys.schema.apply write db)

theorem LockedBy.applyAll {lock : Lock} {fact : Db → Prop}
    (locked : C.LockedBy lock fact) {writes : List Write}
    (free : ∀ write ∈ writes, lock ∉ C.sys.schema.guards write) {db : Db}
    (holds : fact db) : fact (C.sys.schema.applyAll writes db) := by
  induction writes generalizing db with
  | nil => exact holds
  | cons write writes ih =>
      apply ih
      · intro later member
        exact free later (List.mem_cons_of_mem _ member)
      · exact locked.writes write db (free write List.mem_cons_self) holds

/-- What a held lock protects stays as it is. -/
theorem stable_locked {lock : Lock} {fact : Db → Prop}
    (locked : C.LockedBy lock fact) :
    C.Stable fun db state => lock ∈ state.held ∧ fact db := by
  rintro first second state changed _ _ ⟨held, holds⟩
  refine ⟨held, ?_⟩
  induction changed with
  | refl => exact holds
  | commit _ _ guarded _ apart ih =>
      apply locked.applyAll _ ih
      intro write member covered
      have free := apart lock held lock (guarded write member lock covered)
      rw [locked.excludes] at free
      cases free
  | instant _ good promised _ ih =>
      exact locked.instant _ _ _ _ good promised ih
  | ambient _ _ isAmbient ih => exact locked.ambient _ _ isAmbient ih

end Setting

end Sqlery.ReadCommitted
