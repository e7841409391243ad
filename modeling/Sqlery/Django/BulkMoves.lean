import Mathlib.Data.List.Perm.Subperm
import Sqlery.Django.BulkUpdate

/-!
# Which rows a bulk update moves

The rows the `UPDATE` has matched are locked until the call ends, so a move
finds them as they were written.  Of the others it finds those that are still
there, and moves them too: no statement of the move asks for the filter.
-/

namespace Sqlery.Django.BulkUpdate

open ReadCommitted

/-! ## What interference leaves alone -/

theorem get_interfere {held : List JobId} {known : List Key}
    {change : Db → Db} {db : Db} {job : JobId} (locked : job ∈ held) :
    (interfere held known change db).live.get job = db.live.get job := by
  apply Table.ext_get
  intro row isJob
  have inHeld : row.id ∈ held := isJob ▸ locked
  simp [interfere, inHeld]

theorem row_of_get {left right : Db} {key : Key}
    (same : left.live.get key.1 = right.live.get key.1) :
    left.row key = right.row key := by
  simp only [Db.row, same]

theorem row_eq_some_iff {db : Db} {key : Key} {row : Job} :
    db.row key = some row ↔
      db.live.get key.1 = some row ∧ keyOf row = key := by
  simp only [Db.row, Option.filter_eq_some_iff, decide_eq_true_eq]
  constructor
  · rintro ⟨found, created⟩
    have isJob := Table.key_of_get found
    exact ⟨found, Prod.ext isJob created⟩
  · rintro ⟨found, rfl⟩
    exact ⟨found, rfl⟩

/-- A key that is gone stays gone. -/
theorem row_interfere_none {held : List JobId} {known : List Key}
    {change : Db → Db} {db : Db} {key : Key} (isKnown : key ∈ known)
    (gone : db.row key = none) :
    (interfere held known change db).row key = none := by
  rw [Option.eq_none_iff_forall_ne_some]
  intro row found
  obtain ⟨stored, isKey⟩ := row_eq_some_iff.mp found
  have member := Table.mem_of_get stored
  have cases_ : (row ∈ db.live.rows ∧ row.id ∈ held) ∨
      ¬(keyOf row ∈ known ∧ db.row (keyOf row) = none) := by
    simp only [interfere, List.mem_append, List.mem_filter] at member
    rcases member with ⟨isRow, locked⟩ | ⟨_, free⟩
    · exact .inl ⟨isRow, by simpa using locked⟩
    · right
      rintro ⟨inKnown, isGone⟩
      simp [inKnown, isGone] at free
  rcases cases_ with ⟨isRow, _⟩ | other
  · have back : db.live.get key.1 = some row := by
      rw [← isKey]
      exact Table.get_of_mem isRow
    rw [row_eq_some_iff.mpr ⟨back, isKey⟩] at gone
    cases gone
  · exact other ⟨isKey ▸ isKnown, isKey ▸ gone⟩

theorem get_moveRow {status : Status} {row : Job} {db : Db} {job : JobId}
    (other : job ≠ row.id) :
    (moveRow status row db).live.get job = db.live.get job :=
  Table.get_erase_of_ne other

theorem row_moveRow_none {status : Status} {row : Job} {db : Db} {key : Key}
    (gone : db.row key = none) : (moveRow status row db).row key = none := by
  rw [Option.eq_none_iff_forall_ne_some] at gone ⊢
  intro found isFound
  obtain ⟨stored, isKey⟩ := row_eq_some_iff.mp isFound
  by_cases same : key.1 = row.id
  · have erased : (moveRow status row db).live.get key.1 = none := by
      rw [same]
      exact Table.get_erase_self _ _
    rw [erased] at stored
    cases stored
  · rw [get_moveRow same] at stored
    exact gone found (row_eq_some_iff.mpr ⟨stored, isKey⟩)

/-! ## The moves -/

section Moves

variable {world : Nat → Db → Db} {known : List Key} {status : Status}

theorem keys_moveCurrent (keys : List Key) :
    ∀ (statement : Nat) (held : List JobId) (db : Db),
      (moveCurrent world known status keys statement held db).1.map Look.key =
        keys := by
  induction keys with
  | nil =>
      intro statement held db
      rfl
  | cons key keys induction =>
      intro statement held db
      simp only [moveCurrent]
      split
      · rw [List.map_cons, induction]
      · rw [List.map_cons, induction]

/-- A move finds a locked row as the call left it. -/
theorem seen_locked (keys : List Key) :
    ∀ (statement : Nat) (held : List JobId) (db : Db),
      (keys.map Prod.fst).Nodup →
      ∀ look ∈ (moveCurrent world known status keys statement held db).1,
        look.key.1 ∈ held →
          look.seen.live.get look.key.1 = db.live.get look.key.1 := by
  induction keys with
  | nil =>
      intro statement held db _ look member
      cases member
  | cons key keys induction =>
      intro statement held db distinct look member locked
      rw [List.map_cons, List.nodup_cons] at distinct
      have later : ∀ {statement held next},
          look ∈ (moveCurrent world known status keys statement held next).1 →
            look.key.1 ≠ key.1 := by
        intro statement held next isLater same
        have inKeys : look.key ∈ keys := by
          rw [← keys_moveCurrent keys statement held next]
          exact List.mem_map_of_mem isLater
        exact distinct.1 (same ▸ List.mem_map_of_mem inKeys)
      simp only [moveCurrent] at member
      split at member
      · rcases List.mem_cons.mp member with rfl | isLater
        · exact get_interfere locked
        · rw [induction _ _ _ distinct.2 look isLater locked]
          exact get_interfere locked
      · rename_i row found
        rcases List.mem_cons.mp member with rfl | isLater
        · exact get_interfere locked
        · have other := later isLater
          have isRow : row.id = key.1 :=
            Table.key_of_get (row_eq_some_iff.mp found).1
          have stillLocked : look.key.1 ∈ key.1 :: held :=
            List.mem_cons_of_mem _ locked
          rw [induction _ _ _ distinct.2 look isLater stillLocked]
          have kept : (moveRow status row
              (interfere held known (world statement) db)).live.get
                look.key.1 = _ := get_moveRow (isRow ▸ other)
          exact (get_interfere stillLocked).trans
            (kept.trans (get_interfere locked))

theorem row_moveCurrent_none {key : Key} (isKnown : key ∈ known)
    (keys : List Key) :
    ∀ (statement : Nat) (held : List JobId) (db : Db), db.row key = none →
      (moveCurrent world known status keys statement held db).2.row key =
        none := by
  induction keys with
  | nil =>
      intro statement held db gone
      exact gone
  | cons head keys induction =>
      intro statement held db gone
      have away : (interfere held known (world statement) db).row key = none :=
        row_interfere_none isKnown gone
      simp only [moveCurrent]
      split
      · exact induction _ _ _ away
      · apply induction
        exact row_interfere_none isKnown (row_moveRow_none away)

/-- A row that its move did not find is not there in the end. -/
theorem row_of_not_moved (keys : List Key) (isKnown : keys ⊆ known) :
    ∀ (statement : Nat) (held : List JobId) (db : Db),
      ∀ look ∈ (moveCurrent world known status keys statement held db).1,
        look.moves = false →
          (moveCurrent world known status keys statement held db).2.row
            look.key = none := by
  induction keys with
  | nil =>
      intro statement held db look member
      cases member
  | cons key keys induction =>
      obtain ⟨headKnown, restKnown⟩ := List.cons_subset.mp isKnown
      intro statement held db look member missed
      simp only [moveCurrent] at member ⊢
      split at member
      · rename_i gone
        rcases List.mem_cons.mp member with rfl | isLater
        · exact row_moveCurrent_none headKnown keys _ _ _ gone
        · exact induction restKnown _ _ _ look isLater missed
      · rename_i row found
        rcases List.mem_cons.mp member with rfl | isLater
        · simp [Look.moves, found] at missed
        · exact induction restKnown _ _ _ look isLater missed

end Moves

/-! ## The update -/

theorem get_updateRows_of_ne {kwargs : Kwargs} {rows : List Job} {db : Db}
    {job : JobId} (apart : ∀ row ∈ rows, row.id ≠ job) :
    (updateRows kwargs rows db).live.get job = db.live.get job := by
  simp only [updateRows]
  generalize db.live = live
  induction rows generalizing live with
  | nil => rfl
  | cons head rest induction =>
      have headApart : job ≠ (kwargs.assign head).id := fun same =>
        apart head List.mem_cons_self same.symm
      calc (rest.foldl (fun live row => live.set (kwargs.assign row))
            (live.set (kwargs.assign head))).get job
          = (live.set (kwargs.assign head)).get job :=
            induction (fun other member =>
              apart other (List.mem_cons_of_mem _ member)) _
        _ = live.get job := Table.get_set_of_ne headApart

/-- A row of the list is written once. -/
theorem get_updateRows {kwargs : Kwargs} {rows : List Job} {row : Job} :
    ∀ {db : Db}, (rows.map Job.id).Nodup → row ∈ rows →
      db.live.get row.id ≠ none →
        (updateRows kwargs rows db).live.get row.id =
          some (kwargs.assign row) := by
  induction rows with
  | nil =>
      intro db _ member
      cases member
  | cons head rest induction =>
      intro db distinct member stored
      rw [List.map_cons, List.nodup_cons] at distinct
      have written : updateRows kwargs (head :: rest) db =
          updateRows kwargs rest
            { db with live := db.live.set (kwargs.assign head) } := rfl
      rw [written]
      rcases List.mem_cons.mp member with rfl | later
      · have apart : ∀ other ∈ rest, other.id ≠ row.id := by
          intro other isOther same
          exact distinct.1 (same ▸ List.mem_map_of_mem isOther)
        obtain ⟨old, found⟩ := Option.ne_none_iff_exists'.mp stored
        rw [get_updateRows_of_ne apart, Table.get_set, found]
        simp
      · have different : row.id ≠ (kwargs.assign head).id := by
          intro same
          exact distinct.1 (same ▸ List.mem_map_of_mem later)
        apply induction distinct.2 later
        rw [Table.get_set_of_ne different]
        exact stored

/-! ## A call with nobody else -/

section Alone

variable {filter : Filter} {kwargs : Kwargs} {start : Db} {job : JobId}

theorem get_idle {held : List JobId} {known : List Key} {db : Db}
    {job : JobId} :
    (interfere held known (fun db => db) db).live.get job =
      db.live.get job := by
  apply Table.ext_get
  intro row isJob
  simp only [interfere, List.mem_append, List.mem_filter]
  constructor
  · rintro (⟨isRow, _⟩ | ⟨isRow, _⟩)
    · exact isRow
    · exact isRow
  · intro isRow
    have there : db.row (keyOf row) = some row :=
      row_eq_some_iff.mpr ⟨Table.get_of_mem isRow, rfl⟩
    by_cases locked : row.id ∈ held
    · exact .inl ⟨isRow, by simpa using locked⟩
    · exact .inr ⟨isRow, by simp [locked, there]⟩

variable (kwargs) in
/-- A row that is not there leaves the call nothing to do. -/
theorem updateToTerminal_absent
    (keyed : ∀ db row, filter db row = true → row.id = job)
    (absent : start.live.get job = none) :
    (updateToTerminal filter kwargs (fun _ db => db) start).after.live.get
        job = none ∧
      (updateToTerminal filter kwargs (fun _ db => db) start).after.history =
        start.history := by
  have noRows : ∀ {db : Db}, db.live.get job = none →
      db.live.rows.filter (filter db) = [] := by
    intro db gone
    rw [List.filter_eq_nil_iff]
    intro row isRow admitted
    exact Table.get_eq_none_iff.mp gone row isRow (keyed db row admitted)
  have noHits : ∀ {snapshot current : Db}, current.live.get job = none →
      matched filter snapshot current = [] := by
    intro snapshot current gone
    rw [List.eq_nil_iff_forall_not_mem]
    intro row isHit
    obtain ⟨found, admitted⟩ := mem_hits Db.live isHit
    rw [keyed _ _ admitted, gone] at found
    cases found
  have read : (interfere [] [] (fun db => db) start).live.get job = none := by
    rw [get_idle]
    exact absent
  have atRemove : (interfere [] [] (fun db => db)
      (interfere [] [] (fun db => db) start)).live.get job = none := by
    rw [get_idle]
    exact read
  have snapshot : (interfere [] [] (fun db => db) (interfere [] []
      (fun db => db) (interfere [] [] (fun db => db) start))).live.get job =
        none := by
    rw [get_idle]
    exact atRemove
  have current : (interfere [] [] (fun db => db) (interfere [] []
      (fun db => db) (interfere [] [] (fun db => db)
        (interfere [] [] (fun db => db) start)))).live.get job = none := by
    rw [get_idle]
    exact snapshot
  simp only [updateToTerminal, noRows read, List.map_nil, List.any_nil,
    Bool.false_eq_true, if_false, noHits current]
  cases kwargs.terminationReason.any isRetryPending with
  | true => exact ⟨current, rfl⟩
  | false => exact ⟨current, rfl⟩

theorem matched_of_get {row : Job} {snapshot current : Db}
    (keyed : ∀ db row, filter db row = true → row.id = job)
    (admits : ∀ db, filter db row = true)
    (before : snapshot.live.get job = some row)
    (now : current.live.get job = some row) :
    matched filter snapshot current = [row] := by
  have isJob := Table.key_of_get before
  have isHit : row ∈ matched filter snapshot current := by
    apply List.mem_filterMap.mpr
    refine ⟨row, Table.mem_of_get before, ?_⟩
    simp [hit, admits, isJob, now]
  rcases hits_single Db.live (keyed snapshot) snapshot current with
    none_ | ⟨found, isFound, _⟩
  · unfold matched at isHit
    rw [none_] at isHit
    cases isHit
  · unfold matched at isHit ⊢
    rw [isFound, List.mem_singleton] at isHit
    rw [isFound, isHit]

/-- The row the filter matches leaves with what the call assigns. -/
theorem updateToTerminal_present {row : Job}
    (keyed : ∀ db row, filter db row = true → row.id = job)
    (admits : ∀ db, filter db row = true)
    (final : kwargs.terminationReason.any isRetryPending = false)
    (sameKey : ∀ row, keyOf (kwargs.assign row) = keyOf row)
    (found : start.live.get job = some row) :
    (updateToTerminal filter kwargs (fun _ db => db) start).after.live.get
        job = none ∧
      ∃ db, (updateToTerminal filter kwargs (fun _ db => db)
        start).after.history =
          finished db kwargs.status (kwargs.assign row) :: start.history := by
  have isJob := Table.key_of_get found
  have rowsOf : ∀ {db : Db}, db.live.get job = some row →
      db.live.rows.filter (filter db) = [row] := fun there =>
    Table.filter_of_get there (admits _) (keyed _)
  have read : (interfere [] [] (fun db => db) start).live.get job =
      some row := get_idle.trans found
  have atRemove : (interfere [] [keyOf row] (fun db => db)
      (interfere [] [] (fun db => db) start)).live.get job = some row :=
    get_idle.trans read
  have cleared : ∀ {condition : Prop} [Decidable condition] {ids : List JobId},
      (if condition then remove ids (interfere [] [keyOf row] (fun db => db)
        (interfere [] [] (fun db => db) start))
      else interfere [] [keyOf row] (fun db => db)
        (interfere [] [] (fun db => db) start)).live.get job = some row ∧
      (if condition then remove ids (interfere [] [keyOf row] (fun db => db)
        (interfere [] [] (fun db => db) start))
      else interfere [] [keyOf row] (fun db => db)
        (interfere [] [] (fun db => db) start)).history = start.history := by
    intro condition _ ids
    split
    · exact ⟨atRemove, rfl⟩
    · exact ⟨atRemove, rfl⟩
  simp only [updateToTerminal, rowsOf read, List.map_cons, List.map_nil,
    final, Bool.false_eq_true, if_false]
  generalize clearedIs : (if ([row].any fun row => row.status = .queued) = true
    then remove [row.id] (interfere [] [keyOf row] (fun db => db)
      (interfere [] [] (fun db => db) start))
    else interfere [] [keyOf row] (fun db => db)
      (interfere [] [] (fun db => db) start)) = open_
  obtain ⟨openRow, openHistory⟩ := clearedIs ▸ cleared
  have snapshot : (interfere [] [keyOf row] (fun db => db) open_).live.get
      job = some row := get_idle.trans openRow
  have current : (interfere [] [keyOf row] (fun db => db)
      (interfere [] [keyOf row] (fun db => db) open_)).live.get job =
        some row := get_idle.trans snapshot
  rw [matched_of_get keyed admits snapshot current]
  have isAssigned : (updateRows kwargs [row] (interfere [] [keyOf row]
      (fun db => db) (interfere [] [keyOf row] (fun db => db) open_))).live.get
        row.id = some (kwargs.assign row) := by
    apply get_updateRows (by simp) List.mem_cons_self
    rw [isJob, current]
    exact Option.some_ne_none _
  generalize writtenIs : updateRows kwargs [row] (interfere [] [keyOf row]
    (fun db => db) (interfere [] [keyOf row] (fun db => db) open_)) = written
  rw [writtenIs] at isAssigned
  have sameHistory : written.history = start.history := by
    rw [← writtenIs]
    exact openHistory
  have seen : (interfere [row.id] [keyOf row] (fun db => db) written).row
      (keyOf row) = some (kwargs.assign row) :=
    row_eq_some_iff.mpr ⟨get_idle.trans isAssigned, sameKey row⟩
  simp only [List.map_cons, List.map_nil, moveCurrent]
  rw [seen]
  refine ⟨?_, ?_⟩
  · have erased : (moveRow kwargs.status (kwargs.assign row)
        (interfere [row.id] [keyOf row] (fun db => db) written)).live.get job =
          none := by
      rw [← isJob]
      exact Table.get_erase_self _ _
    exact get_idle.trans erased
  · refine ⟨interfere [row.id] [keyOf row] (fun db => db) written, ?_⟩
    rw [← sameHistory]
    rfl

end Alone

/-! ## The call respects its filter -/

/-- Only rows that the `UPDATE` has matched are moved, rows that it has not
matched keep their entries and attempts as long as they are there, and the
count is that of the moves. -/
structure RespectsFilter (filter : Filter) (trace : Trace) : Prop where
  moved : ∀ job ∈ trace.moved, job ∈ (trace.updated filter).map Job.id
  untouched : ∀ row ∈ trace.rows filter,
    row.id ∉ (trace.updated filter).map Job.id →
      trace.after.row (keyOf row) ≠ none →
        row.id ∉ trace.dropped filter ∧ row.id ∉ trace.moved
  count : trace.count filter = trace.moved.length

/-- What the call comes upon when it respects its filter: each row it has
matched was read, and no row is left that it has not. -/
structure KeepsToMatched (filter : Filter) (kwargs : Kwargs) (trace : Trace) :
    Prop where
  read : ∀ row ∈ trace.updated filter,
    keyOf (kwargs.assign row) ∈ (trace.rows filter).map keyOf
  gone : ∀ look ∈ trace.looks,
    look.key.1 ∉ (trace.updated filter).map Job.id →
      look.seen.row look.key = none

section Result

variable {filter : Filter} {kwargs : Kwargs} {world : Nat → Db → Db}
  {start : Db}

theorem nodup_updated (trace : Trace) :
    ((trace.updated filter).map Job.id).Nodup :=
  hits_nodup Db.live _ _ _

theorem nodup_rows (trace : Trace) :
    (((trace.rows filter).map keyOf).map Prod.fst).Nodup := by
  rw [List.map_map]
  exact trace.read.live.nodup.sublist (List.filter_sublist.map _)

theorem stored_of_updated {trace : Trace} {row : Job}
    (member : row ∈ trace.updated filter) :
    trace.current.live.get row.id = some row :=
  (mem_hits Db.live member).1

/-- A move that finds its row is a move of the call. -/
theorem mem_moved {trace : Trace} {job : JobId} :
    job ∈ trace.moved ↔
      ∃ look ∈ trace.looks, look.moves = true ∧ look.key.1 = job := by
  simp only [Trace.moved, List.mem_map, List.mem_filter, and_assoc]

theorem row_of_seen {look : Look} {row : Job}
    (seen : look.seen.live.get row.id = some row) :
    look.seen.row (keyOf row) = some row :=
  row_eq_some_iff.mpr ⟨seen, rfl⟩

variable (final : kwargs.terminationReason.any isRetryPending = false)

include final

theorem keys_looks :
    (updateToTerminal filter kwargs world start).looks.map Look.key =
      ((updateToTerminal filter kwargs world start).rows filter).map keyOf := by
  simp only [updateToTerminal, final]
  exact keys_moveCurrent _ _ _ _

theorem seen_updated {look : Look} {row : Job}
    (member : look ∈ (updateToTerminal filter kwargs world start).looks)
    (matched_ : row ∈
      (updateToTerminal filter kwargs world start).updated filter)
    (same : look.key.1 = row.id) :
    look.seen.live.get row.id = some (kwargs.assign row) := by
  have distinct : ((((updateToTerminal filter kwargs world start).rows
      filter).map keyOf).map Prod.fst).Nodup := nodup_rows _
  have locked := List.mem_map_of_mem (f := Job.id) matched_
  have stored := stored_of_updated matched_
  have once : (((updateToTerminal filter kwargs world start).updated
      filter).map Job.id).Nodup := nodup_updated _
  rw [← same] at locked ⊢
  simp only [updateToTerminal, final] at member
  rw [seen_locked _ _ _ _ distinct look member locked, same]
  apply get_updateRows once matched_
  intro absent
  have none_ := stored.symm.trans absent
  cases none_

theorem after_of_not_moved {look : Look}
    (member : look ∈ (updateToTerminal filter kwargs world start).looks)
    (missed : look.moves = false) :
    (updateToTerminal filter kwargs world start).after.row look.key = none := by
  simp only [updateToTerminal, final] at member ⊢
  exact row_of_not_moved _ (List.Subset.refl _) _ _ _ look member missed

theorem nodup_moved :
    (updateToTerminal filter kwargs world start).moved.Nodup := by
  have keys : (updateToTerminal filter kwargs world start).looks.map Look.key =
      ((updateToTerminal filter kwargs world start).rows filter).map keyOf :=
    keys_looks final
  have all : ((((updateToTerminal filter kwargs world start).rows
      filter).map keyOf).map Prod.fst).Nodup := nodup_rows _
  rw [← keys, List.map_map] at all
  exact all.sublist (List.filter_sublist.map _)

/-- If it respects its filter, a row that moves was matched, and one that was
matched was read. -/
theorem keepsToMatched_of_respects
    (respects : RespectsFilter filter
      (updateToTerminal filter kwargs world start)) :
    KeepsToMatched filter kwargs
      (updateToTerminal filter kwargs world start) := by
  constructor
  · intro row matched_
    have isMatched := List.mem_map_of_mem (f := Job.id) matched_
    have sub := (nodup_moved final).subperm respects.moved
    have enough : (((updateToTerminal filter kwargs world start).updated
        filter).map Job.id).length ≤
          (updateToTerminal filter kwargs world start).moved.length := by
      rw [List.length_map]
      exact respects.count.le
    have isMoved := (sub.perm_of_length_le enough).mem_iff.mpr isMatched
    obtain ⟨look, member, moves, same⟩ := mem_moved.mp isMoved
    obtain ⟨found, isFound⟩ := Option.isSome_iff_exists.mp moves
    obtain ⟨stored, isKey⟩ := row_eq_some_iff.mp isFound
    have seen := seen_updated final member matched_ same
    rw [same, seen] at stored
    cases stored
    rw [isKey, ← keys_looks final]
    exact List.mem_map_of_mem member
  · intro look member unmatched
    rw [Option.eq_none_iff_forall_ne_some]
    intro row found
    have moves : look.moves = true := by simp [Look.moves, found]
    exact unmatched (respects.moved _
      (mem_moved.mpr ⟨look, member, moves, rfl⟩))

theorem respects_of_keepsToMatched
    (keeps : KeepsToMatched filter kwargs
      (updateToTerminal filter kwargs world start)) :
    RespectsFilter filter (updateToTerminal filter kwargs world start) := by
  have onlyMatched : ∀ job ∈
      (updateToTerminal filter kwargs world start).moved,
        job ∈ ((updateToTerminal filter kwargs world start).updated
          filter).map Job.id := by
    intro job isMoved
    obtain ⟨look, member, moves, rfl⟩ := mem_moved.mp isMoved
    by_contra unmatched
    simp [Look.moves, keeps.gone look member unmatched] at moves
  have everyMatched : ((updateToTerminal filter kwargs world start).updated
      filter).map Job.id ⊆
        (updateToTerminal filter kwargs world start).moved := by
    intro job isMatched
    obtain ⟨row, matched_, rfl⟩ := List.mem_map.mp isMatched
    have isRead := keeps.read row matched_
    rw [← keys_looks final] at isRead
    obtain ⟨look, member, isKey⟩ := List.mem_map.mp isRead
    have same : look.key.1 = row.id := by rw [isKey]; rfl
    have seen := seen_updated final member matched_ same
    have found : look.seen.row (keyOf (kwargs.assign row)) =
        some (kwargs.assign row) := row_of_seen seen
    have moves : look.moves = true := by simp [Look.moves, isKey, found]
    exact mem_moved.mpr ⟨look, member, moves, same⟩
  constructor
  · exact onlyMatched
  · intro row isRead unmatched stays
    have isKey : keyOf row ∈
        ((updateToTerminal filter kwargs world start).rows filter).map keyOf :=
      List.mem_map_of_mem isRead
    rw [← keys_looks final] at isKey
    obtain ⟨look, member, same⟩ := List.mem_map.mp isKey
    cases moves : look.moves with
    | false =>
        have gone := after_of_not_moved final member moves
        rw [same] at gone
        exact (stays gone).elim
    | true =>
        have isMoved := mem_moved.mpr ⟨look, member, moves, rfl⟩
        have isRow : look.key.1 = row.id := by rw [same]; rfl
        exact (unmatched (isRow ▸ onlyMatched _ isMoved)).elim
  · have once : (((updateToTerminal filter kwargs world start).updated
        filter).map Job.id).Nodup := nodup_updated _
    have perm := (List.perm_ext_iff_of_nodup once (nodup_moved final)).mpr
      fun job => ⟨fun isMatched => everyMatched isMatched, onlyMatched job⟩
    simpa [Trace.count] using perm.length_eq

end Result

/-! ## What the other transaction has to do -/

/-- By the moment the other transaction has left no live row under the key. -/
def TakenBy (commits : Nat → Commit) (moment : Nat) (key : Key) : Prop :=
  ∃ earlier, 1 ≤ earlier ∧ earlier ≤ moment ∧ (commits earlier).takes key

/-- Each of the rows is taken away before the call comes to it, but those with
the `kept` ids, for which the call needs a statement more. -/
def TakenInTurn (commits : Nat → Commit) (kept : List JobId) :
    Nat → List Key → Prop
  | _, [] => True
  | moment, key :: keys =>
      if key.1 ∈ kept then TakenInTurn commits kept (moment + 2) keys
      else
        TakenBy commits moment key ∧ TakenInTurn commits kept (moment + 1) keys

section Moments

variable (filter : Filter) (commits : Nat → Commit) (start : Db)

/-- The data of the `SELECT`. -/
def atSelect : Db := interfere [] [] (commits 0).apply start

/-- The rows that match the filter then. -/
def selected : List Job :=
  (atSelect commits start).live.rows.filter (filter (atSelect commits start))

/-- The data of the `UPDATE`: rows that were selected have no entries. -/
def atUpdate : Db :=
  let rows := selected filter commits start
  let removing := interfere [] (rows.map keyOf) (commits 1).apply
    (atSelect commits start)
  interfere [] (rows.map keyOf) (commits 2).apply
    (if rows.any fun row => row.status = .queued then
      remove (rows.map Job.id) removing
    else removing)

/-- The data when the `UPDATE` has waited for the other transaction. -/
def atWrite : Db :=
  interfere [] ((selected filter commits start).map keyOf) (commits 3).apply
    (atUpdate filter commits start)

/-- The rows that match the filter then and before. -/
def stillMatching : List Job :=
  matched filter (atUpdate filter commits start) (atWrite filter commits start)

/-- The other transaction makes no row match that did not match when the call
selected its rows, and each row it keeps from matching it takes away before the
call comes to move it. -/
structure Undisturbed (kwargs : Kwargs) : Prop where
  read : ∀ row ∈ stillMatching filter commits start,
    keyOf (kwargs.assign row) ∈ (selected filter commits start).map keyOf
  taken : TakenInTurn commits
    ((stillMatching filter commits start).map Job.id) 4
    ((selected filter commits start).map keyOf)

end Moments

section Taking

variable {commits : Nat → Commit} {held : List JobId} {known : List Key}
variable {commit : Commit} {db : Db} {key : Key} {moment : Nat}
variable {status : Status}

theorem row_ne_none_iff :
    db.row key ≠ none ↔ ∃ row ∈ db.live.rows, keyOf row = key := by
  rw [Option.ne_none_iff_exists']
  constructor
  · rintro ⟨row, found⟩
    obtain ⟨stored, isKey⟩ := row_eq_some_iff.mp found
    exact ⟨row, Table.mem_of_get stored, isKey⟩
  · rintro ⟨row, member, rfl⟩
    exact ⟨row, row_eq_some_iff.mpr ⟨Table.get_of_mem member, rfl⟩⟩

/-- A commit leaves a row under the key unless it takes it. -/
theorem row_apply (found : db.row key ≠ none) :
    (∃ row ∈ (commit.apply db).live.rows, keyOf row = key) ↔
      ¬commit.takes key := by
  obtain ⟨old, isOld, rfl⟩ := row_ne_none_iff.mp found
  simp only [Commit.takes, Commit.apply, List.mem_append, List.mem_filter,
    Bool.and_eq_true, decide_eq_true_eq]
  cases isWritten : commit.written.get (keyOf old).1 with
  | some row =>
      have member := Table.mem_of_get isWritten
      have isJob : row.id = old.id := Table.key_of_get isWritten
      constructor
      · rintro ⟨other, ⟨_, _, apart⟩ | isOther, same⟩ different
        · have sameJob : other.id = old.id := congrArg Prod.fst same
          exact apart (sameJob ▸ isJob ▸ List.mem_map_of_mem member)
        · have sameJob : other.id = old.id := congrArg Prod.fst same
          have stored := Table.get_of_mem isOther
          rw [sameJob] at stored
          cases stored.symm.trans isWritten
          exact different (congrArg Prod.snd same)
      · intro same
        exact ⟨row, .inr member, Prod.ext isJob (not_not.mp same)⟩
  | none =>
      have apart : ∀ row ∈ commit.written.rows, row.id ≠ old.id :=
        Table.get_eq_none_iff.mp isWritten
      constructor
      · rintro ⟨other, ⟨_, stays, _⟩ | isOther, same⟩ isDeleted
        · have sameJob : other.id = old.id := congrArg Prod.fst same
          exact stays (sameJob ▸ isDeleted)
        · exact apart other isOther (congrArg Prod.fst same)
      · intro stays
        refine ⟨old, .inl ⟨isOld, stays, ?_⟩, rfl⟩
        intro inWritten
        obtain ⟨row, member, isJob⟩ := List.mem_map.mp inWritten
        exact apart row member isJob

theorem row_interfere_iff (isKnown : key ∈ known) (free : key.1 ∉ held) :
    (interfere held known commit.apply db).row key ≠ none ↔
      db.row key ≠ none ∧ ¬commit.takes key := by
  by_cases found : db.row key = none
  · simp [row_interfere_none isKnown found, found]
  · rw [and_iff_right found, row_ne_none_iff, ← row_apply found]
    have stays : ∀ row : Job, keyOf row = key →
        (row ∈ (interfere held known commit.apply db).live.rows ↔
          row ∈ (commit.apply db).live.rows) := by
      rintro row rfl
      have outside : row.id ∉ held := free
      have there : (db.row (keyOf row)).isSome = true :=
        Option.isSome_iff_ne_none.mpr found
      simp [interfere, outside, there]
    constructor
    · rintro ⟨row, member, isKey⟩
      exact ⟨row, (stays row isKey).mp member, isKey⟩
    · rintro ⟨row, member, isKey⟩
      exact ⟨row, (stays row isKey).mpr member, isKey⟩

theorem takenBy_succ :
    TakenBy commits (moment + 1) key ↔
      TakenBy commits moment key ∨ (commits (moment + 1)).takes key := by
  constructor
  · rintro ⟨earlier, first, last, takes⟩
    rcases Nat.le_succ_iff.mp last with before | rfl
    · exact .inl ⟨earlier, first, before, takes⟩
    · exact .inr takes
  · rintro (⟨earlier, first, last, takes⟩ | takes)
    · exact ⟨earlier, first, last.trans (Nat.le_succ _), takes⟩
    · exact ⟨moment + 1, Nat.le_add_left _ _, le_rfl, takes⟩

/-- A row that was selected is there as long as it is not taken. -/
def Stands (commits : Nat → Commit) (moment : Nat) (key : Key) (db : Db) :
    Prop :=
  db.row key ≠ none ↔ ¬TakenBy commits moment key

theorem Stands.interfere (isKnown : key ∈ known) (free : key.1 ∉ held)
    (stands : Stands commits moment key db) :
    Stands commits (moment + 1) key
      (interfere held known (commits (moment + 1)).apply db) := by
  rw [Stands, row_interfere_iff isKnown free, takenBy_succ, not_or]
  exact and_congr_left' stands

theorem Stands.of_get {other : Db}
    (same : other.live.get key.1 = db.live.get key.1)
    (stands : Stands commits moment key db) :
    Stands commits moment key other := by
  rw [Stands, row_of_get same]
  exact stands

/-- The moves find nothing but the rows that were kept exactly when the others
are taken away in turn. -/
theorem gone_iff_taken {kept : List JobId} (keys : List Key) :
    ∀ (moment : Nat) (held : List JobId) (db : Db), keys ⊆ known →
      (keys.map Prod.fst).Nodup →
      (∀ key ∈ keys, key.1 ∈ kept → key.1 ∈ held ∧ db.row key ≠ none) →
      (∀ key ∈ keys, key.1 ∉ kept →
        key.1 ∉ held ∧ Stands commits moment key db) →
      ((∀ look ∈ (moveCurrent (fun moment => (commits moment).apply) known
          status keys (moment + 1) held db).1,
        look.key.1 ∉ kept → look.seen.row look.key = none) ↔
          TakenInTurn commits kept (moment + 1) keys) := by
  induction keys with
  | nil =>
      intro moment held db _ _ _ _
      simp [moveCurrent, TakenInTurn]
  | cons key keys induction =>
      intro moment held db areKnown distinct locked standing
      obtain ⟨isKnown, restKnown⟩ := List.cons_subset.mp areKnown
      rw [List.map_cons, List.nodup_cons] at distinct
      have apart : ∀ later ∈ keys, later.1 ≠ key.1 := by
        intro later member same
        exact distinct.1 (same ▸ List.mem_map_of_mem member)
      have stand := standing key List.mem_cons_self
      have seenLater : ∀ later ∈ keys, later.1 ∉ kept →
          Stands commits (moment + 1) later
            (interfere held known (commits (moment + 1)).apply db) := by
        intro later member free
        obtain ⟨outside, stands⟩ :=
          standing later (List.mem_cons_of_mem _ member) free
        exact stands.interfere (restKnown member) outside
      simp only [moveCurrent, TakenInTurn]
      by_cases isKept : key.1 ∈ kept
      · obtain ⟨isHeld, found⟩ := locked key List.mem_cons_self isKept
        have seen : (interfere held known (commits (moment + 1)).apply
            db).row key = db.row key := row_of_get (get_interfere isHeld)
        obtain ⟨row, isRow⟩ := Option.ne_none_iff_exists'.mp found
        have isJob : row.id = key.1 :=
          Table.key_of_get (row_eq_some_iff.mp isRow).1
        rw [if_pos isKept, seen, isRow]
        simp only [List.forall_mem_cons, isKept, not_true_eq_false,
          false_implies, true_and]
        apply induction (moment + 2) (key.1 :: held) _ restKnown distinct.2
        · intro later member isLater
          obtain ⟨alsoHeld, there⟩ :=
            locked later (List.mem_cons_of_mem _ member) isLater
          have stays : later.1 ∈ key.1 :: held :=
            List.mem_cons_of_mem _ alsoHeld
          refine ⟨stays, ?_⟩
          have other : later.1 ≠ row.id := isJob ▸ apart later member
          have moved : (moveRow status row (interfere held known
              (commits (moment + 1)).apply db)).live.get later.1 =
              db.live.get later.1 :=
            (get_moveRow other).trans (get_interfere alsoHeld)
          have same : (interfere (key.1 :: held) known
              (commits (moment + 2)).apply (moveRow status row (interfere held
                known (commits (moment + 1)).apply db))).live.get later.1 =
              db.live.get later.1 :=
            (get_interfere stays).trans moved
          exact (row_of_get same).symm ▸ there
        · intro later member free
          have outside := (standing later
            (List.mem_cons_of_mem _ member) free).1
          have other : later.1 ≠ row.id := isJob ▸ apart later member
          have stays : later.1 ∉ key.1 :: held := by
            rw [List.mem_cons, not_or]
            exact ⟨apart later member, outside⟩
          refine ⟨stays, ?_⟩
          have unmoved : (moveRow status row (interfere held known
              (commits (moment + 1)).apply db)).live.get later.1 =
              (interfere held known (commits (moment + 1)).apply db).live.get
                later.1 :=
            get_moveRow other
          have moved := (seenLater later member free).of_get unmoved
          exact (moved.interfere (restKnown member) stays).of_get rfl
      · obtain ⟨outside, stands⟩ := stand isKept
        have after := stands.interfere isKnown outside
        have goes := induction (moment + 1) held
          (interfere held known (commits (moment + 1)).apply db) restKnown
          distinct.2
        rw [if_neg isKept]
        cases seen : (interfere held known (commits (moment + 1)).apply
            db).row key with
        | none =>
            have taken : TakenBy commits (moment + 1) key := by
              by_contra missed
              exact after.mpr missed seen
            simp only [List.forall_mem_cons, seen, implies_true, true_and,
              taken]
            apply goes
            · intro later member isLater
              obtain ⟨isHeld, found⟩ :=
                locked later (List.mem_cons_of_mem _ member) isLater
              refine ⟨isHeld, ?_⟩
              rw [row_of_get (get_interfere isHeld)]
              exact found
            · intro later member free
              exact ⟨(standing later (List.mem_cons_of_mem _ member) free).1,
                seenLater later member free⟩
        | some row =>
            have missed := after.mp (by rw [seen]; exact Option.some_ne_none _)
            simp only [List.forall_mem_cons, seen, isKept, missed,
              not_false_eq_true, true_implies, reduceCtorEq, false_and]

end Taking

section Conditions

variable {filter : Filter} {kwargs : Kwargs} {commits : Nat → Commit}
  {start : Db}

/-- A row that was selected stands until the call writes. -/
theorem stands_atWrite {row : Job}
    (member : row ∈ selected filter commits start) :
    Stands commits 3 (keyOf row) (atWrite filter commits start) := by
  have isKnown := List.mem_map_of_mem (f := keyOf) member
  have free : (keyOf row).1 ∉ ([] : List JobId) := List.not_mem_nil
  have atFirst : Stands commits 0 (keyOf row) (atSelect commits start) := by
    have found := row_ne_none_iff.mpr
      ⟨row, (List.mem_filter.mp member).1, rfl⟩
    refine ⟨fun _ ⟨earlier, first, last, _⟩ => ?_, fun _ => found⟩
    omega
  have atRemove := atFirst.interfere isKnown free
  have removing : Stands commits 1 (keyOf row)
      (if (selected filter commits start).any fun row => row.status = .queued
        then remove ((selected filter commits start).map Job.id)
          (interfere [] ((selected filter commits start).map keyOf)
            (commits 1).apply (atSelect commits start))
        else interfere [] ((selected filter commits start).map keyOf)
          (commits 1).apply (atSelect commits start)) := by
    split
    · exact atRemove.of_get rfl
    · exact atRemove
  exact (removing.interfere isKnown free).interfere isKnown free

variable (final : kwargs.terminationReason.any isRetryPending = false)

include final

theorem keepsToMatched_iff :
    KeepsToMatched filter kwargs (updateToTerminal filter kwargs
        (fun moment => (commits moment).apply) start) ↔
      Undisturbed filter commits start kwargs := by
  have looks : (updateToTerminal filter kwargs
      (fun moment => (commits moment).apply) start).looks =
        (moveCurrent (fun moment => (commits moment).apply)
          ((selected filter commits start).map keyOf) kwargs.status
          ((selected filter commits start).map keyOf) 4
          ((stillMatching filter commits start).map Job.id)
          (updateRows kwargs (stillMatching filter commits start)
            (atWrite filter commits start))).1 := by
    simp only [updateToTerminal, final]
    rfl
  have once : ((stillMatching filter commits start).map Job.id).Nodup :=
    hits_nodup Db.live _ _ _
  have distinct : (((selected filter commits start).map keyOf).map
      Prod.fst).Nodup := by
    rw [List.map_map]
    exact (atSelect commits start).live.nodup.sublist
      (List.filter_sublist.map _)
  have inTurn : (∀ row ∈ stillMatching filter commits start,
      keyOf (kwargs.assign row) ∈
        (selected filter commits start).map keyOf) →
      ((∀ look ∈ (updateToTerminal filter kwargs
          (fun moment => (commits moment).apply) start).looks,
        look.key.1 ∉ (stillMatching filter commits start).map Job.id →
          look.seen.row look.key = none) ↔
        TakenInTurn commits
          ((stillMatching filter commits start).map Job.id) 4
          ((selected filter commits start).map keyOf)) := by
    intro read
    rw [looks]
    apply gone_iff_taken _ 3 _ _ (List.Subset.refl _) distinct
    · intro key isKey isMatched
      refine ⟨isMatched, ?_⟩
      obtain ⟨row, member, isJob⟩ := List.mem_map.mp isMatched
      have same : keyOf (kwargs.assign row) = key :=
        List.inj_on_of_nodup_map distinct (read row member) isKey isJob
      have stored : (atWrite filter commits start).live.get row.id =
          some row := (mem_hits Db.live member).1
      have written : (updateRows kwargs (stillMatching filter commits start)
          (atWrite filter commits start)).live.get row.id =
            some (kwargs.assign row) := by
        apply get_updateRows once member
        rw [stored]
        exact Option.some_ne_none _
      have found : (updateRows kwargs (stillMatching filter commits start)
          (atWrite filter commits start)).row key =
            some (kwargs.assign row) :=
        row_eq_some_iff.mpr ⟨isJob ▸ written, same⟩
      rw [found]
      exact Option.some_ne_none _
    · intro key isKey unmatched
      refine ⟨unmatched, ?_⟩
      obtain ⟨row, member, rfl⟩ := List.mem_map.mp isKey
      refine (stands_atWrite member).of_get ?_
      apply get_updateRows_of_ne
      intro other isOther same
      exact unmatched (same ▸ List.mem_map_of_mem isOther)
  constructor
  · rintro ⟨read, gone⟩
    exact ⟨read, (inTurn read).mp gone⟩
  · rintro ⟨read, taken⟩
    exact ⟨read, (inTurn read).mpr taken⟩

end Conditions

/-- The call respects its filter exactly when the other transaction leaves it
undisturbed. -/
theorem respectsFilter_iff (filter : Filter) (kwargs : Kwargs)
    (commits : Nat → Commit) (start : Db)
    (final : kwargs.terminationReason.any isRetryPending = false) :
    RespectsFilter filter (updateToTerminal filter kwargs
        (fun moment => (commits moment).apply) start) ↔
      Undisturbed filter commits start kwargs := by
  constructor
  · intro respects
    exact (keepsToMatched_iff final).mp
      (keepsToMatched_of_respects final respects)
  · intro undisturbed
    exact respects_of_keepsToMatched final
      ((keepsToMatched_iff final).mpr undisturbed)

/-! ## A version fence -/

def waitingJob : Job where
  id := 1
  createdAt := 0
  version := 3

def oneWaiting : Db where
  live := ⟨[waitingJob], by decide⟩
  ready := [⟨0, 1, "default", 0, 0, none⟩]

def fence : Filter := fun _ row => row.version = 3

def failing : Kwargs where
  status := .failed
  terminal := rfl

/-- Another transaction edits the job after it was read. -/
def edits (moment : Nat) : Commit :=
  if moment = 2 then
    { written := ⟨[{ waitingJob with version := 4 }], by decide⟩ }
  else {}

/-- The call on the waiting job, the edit committed in between. -/
def fencedCall : Trace :=
  updateToTerminal fence failing (fun moment => (edits moment).apply)
    oneWaiting

/-- The fence no longer matches, no row is updated, and yet the job moves. -/
theorem fence_ignored :
    fencedCall.count fence = 0 ∧ fencedCall.moved = [1] ∧
      ¬RespectsFilter fence fencedCall := by
  have moved : fencedCall.moved = [1] := by
    decide
  have count : fencedCall.count fence = 0 := by
    decide
  refine ⟨count, moved, ?_⟩
  intro respects
  have same := respects.count
  rw [count, moved] at same
  cases same

theorem respectsFilter_iff_alone :
    RespectsFilter fence (updateToTerminal fence failing
        (fun _ => ({} : Commit).apply) oneWaiting) ↔
      Undisturbed fence (fun _ => {}) oneWaiting failing :=
  respectsFilter_iff fence failing (fun _ => {}) oneWaiting rfl

end Sqlery.Django.BulkUpdate
