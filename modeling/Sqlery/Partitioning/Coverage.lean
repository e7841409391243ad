import Mathlib.Data.List.Pairwise
import Sqlery.Partitioning.Instants

/-!
# Coverage of the live partitions

The walk plans a range for every start that lies a whole number of widths
behind the beginning of a gap.  A planned range exists afterwards unless its
name was taken, so the partitions cover the time ahead just when the names of
these starts are new.
-/

namespace Sqlery.Partitioning

/-! ## Ranges -/

/-- No range holds the instant. -/
def Free (ranges : List Range) (time : Int) : Prop :=
  ∀ range ∈ ranges, range.holds time = false

section Ranges

variable {range other : Range} {ranges : List Range} {time cursor width : Int}

theorem holds_iff : range.holds time = true ↔
    range.lower ≤ time ∧ time < range.upper := by
  simp [Range.holds]

theorem apart_iff : range.apart other = true ↔
    range.upper ≤ other.lower ∨ other.upper ≤ range.lower := by
  simp [Range.apart]

theorem mem_sorted : range ∈ Instants.sorted ranges ↔ range ∈ ranges :=
  (List.perm_insertionSort _ _).mem_iff

theorem covering_some {upper : Int}
    (found : Instants.covering ranges cursor = some upper) :
    ∃ range ∈ ranges, range.holds cursor = true ∧ range.upper = upper := by
  unfold Instants.covering at found
  obtain ⟨range, isFound, isUpper⟩ := Option.map_eq_some_iff.mp found
  have holds := List.find?_some isFound
  exact ⟨range, List.mem_of_find?_eq_some isFound, holds, isUpper⟩

theorem covering_none (none : Instants.covering ranges cursor = none) :
    Free ranges cursor := by
  unfold Instants.covering at none
  rw [Option.map_eq_none_iff, List.find?_eq_none] at none
  intro range member
  exact Bool.eq_false_iff.mpr (none range member)

/-- A new range ends a width on, or where the next range begins. -/
theorem clipped_cases (ranges : List Range) (width cursor : Int) :
    (Instants.clipped ranges width cursor = cursor + width ∧
      ∀ range ∈ ranges, cursor < range.lower → cursor + width ≤ range.lower) ∨
    (Instants.clipped ranges width cursor < cursor + width ∧
      (∃ range ∈ ranges, range.lower = Instants.clipped ranges width cursor ∧
        cursor < range.lower) ∧
      ∀ range ∈ ranges, cursor < range.lower →
        Instants.clipped ranges width cursor ≤ range.lower) := by
  have listed : ∀ range ∈ ranges, cursor < range.lower → range.lower ∈
      (ranges.map (·.lower)).filter (cursor < ·) := by
    intro range member behind
    exact List.mem_filter.mpr
      ⟨List.mem_map_of_mem member, decide_eq_true behind⟩
  unfold Instants.clipped
  cases next : ((ranges.map (·.lower)).filter (cursor < ·)).min? with
  | none =>
      refine Or.inl ⟨rfl, fun range member behind => ?_⟩
      have isNil := List.min?_eq_none_iff.mp next
      have inside := listed range member behind
      rw [isNil] at inside
      cases inside
  | some following =>
      obtain ⟨member, least⟩ := List.min?_eq_some_iff.mp next
      have first : ∀ range ∈ ranges, cursor < range.lower →
          following ≤ range.lower := fun range inside behind =>
        least _ (listed range inside behind)
      obtain ⟨inMap, behind⟩ := List.mem_filter.mp member
      obtain ⟨range, inside, rfl⟩ := List.mem_map.mp inMap
      dsimp only
      split
      · rename_i near
        exact Or.inr ⟨near, ⟨range, inside, rfl, of_decide_eq_true behind⟩,
          first⟩
      · rename_i far
        refine Or.inl ⟨rfl, fun other inOther isBehind => ?_⟩
        have isFirst := first other inOther isBehind
        omega

end Ranges

/-! ## The starts that are needed -/

/-- The instant is a whole number of widths behind the start of the walk or the
end of a range, and no range comes between. -/
def OnGrid (ranges : List Range) (start width time : Int) : Prop :=
  ∃ gap, ∃ steps : Nat, (gap = start ∨ ∃ range ∈ ranges, range.upper = gap) ∧
    start ≤ gap ∧ time = gap + steps * width ∧
    ∀ between, gap ≤ between → between < time → Free ranges between

/-- A partition has to begin at the instant. -/
def Needed (ranges : List Range) (start width time : Int) : Prop :=
  OnGrid ranges start width time ∧ Free ranges time

section Grid

variable {ranges : List Range} {start width time next : Int}

/-- Two needed starts with nothing between them are a width apart at least. -/
theorem needed_apart (positive : 0 < width)
    (proper : ∀ range ∈ ranges, range.lower < range.upper)
    (first : Needed ranges start width time)
    (second : Needed ranges start width next) (later : time < next)
    (free : ∀ between, time ≤ between → between < next → Free ranges between) :
    time + width ≤ next := by
  obtain ⟨⟨gap, steps, isGap, begun, isTime, before⟩, isFree⟩ := first
  obtain ⟨⟨gap', steps', isGap', begun', isNext, before'⟩, isFree'⟩ := second
  -- A range that ends inside a free stretch would hold the instant before.
  have noEnd : ∀ range ∈ ranges, ∀ low high, low < range.upper →
      range.upper ≤ high →
      (∀ between, low ≤ between → between < high → Free ranges between) →
      False := by
    intro range member low high above below stretch
    have isProper := proper range member
    have holds : range.holds (max low (range.upper - 1)) = true := by
      apply holds_iff.mpr
      omega
    have apart := stretch (max low (range.upper - 1)) (by omega) (by omega)
      range member
    rw [holds] at apart
    cases apart
  have stretch : ∀ between, gap ≤ between → between < next →
      Free ranges between := by
    intro between above below
    by_cases isBefore : between < time
    · exact before between above isBefore
    · exact free between (by omega) below
  have product : (0 : Int) ≤ steps * width :=
    Int.mul_nonneg (Int.natCast_nonneg _) positive.le
  have product' : (0 : Int) ≤ steps' * width :=
    Int.mul_nonneg (Int.natCast_nonneg _) positive.le
  have same : gap = gap' := by
    rcases Int.lt_trichotomy gap gap' with less | same | more
    · rcases isGap' with isStart | ⟨range, member, isUpper⟩
      · omega
      · exact (noEnd range member gap next (by omega) (by omega)
          stretch).elim
    · exact same
    · rcases isGap with isStart | ⟨range, member, isUpper⟩
      · omega
      · exact (noEnd range member gap' next (by omega) (by omega)
          before').elim
  subst same
  have fewer : steps < steps' := by
    by_contra notFewer
    have more : (steps' : Int) * width ≤ steps * width :=
      Int.mul_le_mul_of_nonneg_right (by omega) positive.le
    omega
  have further : ((steps : Int) + 1) * width ≤ steps' * width :=
    Int.mul_le_mul_of_nonneg_right (by omega) positive.le
  rw [Int.add_mul, Int.one_mul] at further
  omega

/-- A width further on is on the grid if nothing comes between. -/
theorem OnGrid.step (onGrid : OnGrid ranges start width time)
    (free : ∀ between, time ≤ between → between < time + width →
      Free ranges between) : OnGrid ranges start width (time + width) := by
  obtain ⟨gap, steps, isGap, begun, isTime, before⟩ := onGrid
  refine ⟨gap, steps + 1, isGap, begun, ?_, ?_⟩
  · rw [isTime]
    push_cast
    ring
  · intro between above below
    by_cases isBefore : between < time
    · exact before between above isBefore
    · exact free between (by omega) below

end Grid

/-! ## What the walk has planned -/

section Walking

variable (settings : Settings) (before : Catalog) (start stop : Int)

/-- The walk knows the ranges that exist and those it has planned: each for a
needed start, and none of these left out. -/
structure Planned (walk : Instants.Walk) (planned : List Range) : Prop where
  known : ∀ range, range ∈ walk.existing ↔
    range ∈ before.ranges ∨ range ∈ planned
  begun : start ≤ walk.cursor
  resting : OnGrid (before.ranges) start settings.width
      walk.cursor ∨
    ∃ range ∈ before.ranges, range.holds walk.cursor = true
  needed : ∀ range ∈ planned,
    Needed (before.ranges) start settings.width range.lower ∧
      range.lower < stop
  shape : ∀ range ∈ planned, range.lower < range.upper ∧
    range.upper ≤ walk.cursor
  ordered : planned.Pairwise fun first second => first.upper ≤ second.lower
  apart : ∀ range ∈ planned, ∀ other ∈ before.ranges,
    range.apart other = true
  covered : ∀ time, start ≤ time → time < walk.cursor →
    ∃ range ∈ walk.existing, range.holds time = true
  complete : ∀ time,
    Needed (before.ranges) start settings.width time →
    time < walk.cursor → ∃ range ∈ planned, range.lower = time

/-- The partitions that were made, and why a planned range may not be one. -/
structure Recorded (walk : Instants.Walk) (planned : List Range)
    (made : List Partition) : Prop where
  partitions : walk.catalog.partitions = before.partitions ++ made
  others : walk.catalog.others = before.others
  ranges : ∀ partition ∈ made, partition.range ∈ planned
  named : ∀ partition ∈ made,
    partition.name = settings.nameOf partition.range.lower ∧
      partition.name ∉ before.names
  once : (made.map (·.name)).Nodup
  done : walk.conflicts = [] → ∀ range ∈ planned,
    (∃ partition ∈ made, partition.range = range) ∨
      settings.nameOf range.lower ∈ before.names ∨
      ∃ other ∈ planned, other.lower ≠ range.lower ∧
        settings.nameOf other.lower = settings.nameOf range.lower

end Walking

section Rounds

variable {settings : Settings} {before : Catalog} {start stop : Int}
variable {walk next : Instants.Walk} {planned : List Range}
  {made : List Partition}

theorem proper_of_listed {range : Range}
    (member : range ∈ before.ranges) :
    range.lower < range.upper := by
  obtain ⟨partition, _, rfl⟩ := List.mem_map.mp member
  exact partition.proper

/-- The walk jumps over a range that exists. -/
theorem Planned.jump (plan : Planned settings before start stop walk planned)
    {upper : Int} (found : Instants.covering walk.existing walk.cursor =
      some upper) :
    Planned settings before start stop { walk with cursor := upper }
      planned := by
  obtain ⟨range, known, holds, rfl⟩ := covering_some found
  have inside := holds_iff.mp holds
  have exists_ : range ∈ before.ranges := by
    rcases (plan.known range).mp known with isOld | isPlanned
    · exact isOld
    · have past := (plan.shape range isPlanned).2
      omega
  have begun := plan.begun
  have covers : ∀ time, walk.cursor ≤ time → time < range.upper →
      range.holds time = true := by
    intro time above below
    exact holds_iff.mpr ⟨by omega, below⟩
  exact {
    known := plan.known
    begun := by
      dsimp only
      omega
    resting := Or.inl ⟨range.upper, 0, Or.inr ⟨range, exists_, rfl⟩,
      by omega, by simp, fun _ above below =>
        (Int.not_lt.mpr above below).elim⟩
    needed := plan.needed
    shape := fun other member => ⟨(plan.shape other member).1, by
      have past := (plan.shape other member).2
      dsimp only
      omega⟩
    ordered := plan.ordered
    apart := plan.apart
    covered := by
      intro time above below
      by_cases isPast : time < walk.cursor
      · exact plan.covered time above isPast
      · exact ⟨range, known, covers time (by omega) below⟩
    complete := by
      intro time isNeeded below
      by_cases isPast : time < walk.cursor
      · exact plan.complete time isNeeded isPast
      · have free := isNeeded.2 range exists_
        rw [covers time (by omega) below] at free
        cases free }

/-- The new range of a free cursor. -/
def Settings.newRange (settings : Settings) (walk : Instants.Walk) : Range :=
  ⟨walk.cursor, Instants.clipped walk.existing settings.width walk.cursor⟩

theorem newRange_spec
    (none : Instants.covering walk.existing walk.cursor = none) :
    walk.cursor < (settings.newRange walk).upper ∧
      (settings.newRange walk).upper ≤ walk.cursor + settings.width ∧
      (∀ time, walk.cursor ≤ time → time < (settings.newRange walk).upper →
        Free walk.existing time) ∧
      ((settings.newRange walk).upper = walk.cursor + settings.width ∨
        ∃ range ∈ walk.existing,
          range.lower = (settings.newRange walk).upper) := by
  have positive := settings.width_pos
  have free := covering_none none
  have stretch : ∀ upper, (∀ range ∈ walk.existing,
      walk.cursor < range.lower → upper ≤ range.lower) →
      ∀ time, walk.cursor ≤ time → time < upper →
        Free walk.existing time := by
    intro upper first time above below range member
    have apart := free range member
    apply Bool.eq_false_iff.mpr
    intro holds
    have inside := holds_iff.mp holds
    by_cases behind : walk.cursor < range.lower
    · have isFirst := first range member behind
      omega
    · rw [holds_iff.mpr ⟨by omega, by omega⟩] at apart
      cases apart
  unfold Settings.newRange
  dsimp only
  rcases clipped_cases walk.existing settings.width walk.cursor with
    ⟨isWidth, first⟩ | ⟨isNear, ⟨range, member, isNext, behind⟩, first⟩
  · rw [isWidth]
    exact ⟨by omega, le_refl _, stretch _ first, Or.inl rfl⟩
  · exact ⟨by omega, by omega, stretch _ first, Or.inr ⟨range, member, isNext⟩⟩

/-- A free cursor gets a range. -/
theorem Planned.extend (plan : Planned settings before start stop walk planned)
    (none : Instants.covering walk.existing walk.cursor = none)
    (ahead : walk.cursor < stop) (next : Instants.Walk)
    (isCursor : next.cursor = (settings.newRange walk).upper)
    (isExisting : next.existing =
      Instants.sorted (walk.existing ++ [settings.newRange walk])) :
    Planned settings before start stop next
      (planned ++ [settings.newRange walk]) := by
  obtain ⟨grows, short, free, ends⟩ := @newRange_spec settings walk none
  have old : ∀ range ∈ before.ranges, range ∈ walk.existing :=
    fun range member => (plan.known range).mpr (Or.inl member)
  have freeOld : ∀ time, walk.cursor ≤ time →
      time < (settings.newRange walk).upper →
      Free (before.ranges) time := fun time above below range
      member => free time above below range (old range member)
  have isLower : (settings.newRange walk).lower = walk.cursor := rfl
  have isNeeded : Needed (before.ranges) start settings.width
      walk.cursor := by
    have isFree := freeOld walk.cursor (le_refl _) grows
    rcases plan.resting with onGrid | ⟨range, member, holds⟩
    · exact ⟨onGrid, isFree⟩
    · rw [isFree range member] at holds
      cases holds
  have begun := plan.begun
  constructor
  · intro range
    rw [isExisting, mem_sorted, List.mem_append, plan.known, List.mem_append,
      or_assoc]
  · rw [isCursor]
    omega
  · rw [isCursor]
    rcases ends with isWidth | ⟨range, known, isNext⟩
    · left
      rw [isWidth]
      exact isNeeded.1.step fun between above below =>
        freeOld between above (by omega)
    · right
      rcases (plan.known range).mp known with isOld | isPlanned
      · have isProper := proper_of_listed isOld
        exact ⟨range, isOld, holds_iff.mpr ⟨by omega, by omega⟩⟩
      · have shape := plan.shape range isPlanned
        omega
  · intro range member
    rcases List.mem_append.mp member with isOld | isNew
    · exact plan.needed range isOld
    · rw [List.mem_singleton.mp isNew]
      exact ⟨isNeeded, ahead⟩
  · intro range member
    rw [isCursor]
    rcases List.mem_append.mp member with isOld | isNew
    · have shape := plan.shape range isOld
      exact ⟨shape.1, by omega⟩
    · rw [List.mem_singleton.mp isNew]
      exact ⟨grows, le_refl _⟩
  · apply List.pairwise_append.mpr
    refine ⟨plan.ordered, List.pairwise_singleton _ _, ?_⟩
    intro range member other isNew
    rw [List.mem_singleton.mp isNew]
    exact (plan.shape range member).2
  · intro range member other isOther
    rcases List.mem_append.mp member with isOld | isNew
    · exact plan.apart range isOld other isOther
    · rw [List.mem_singleton.mp isNew]
      have isProper := proper_of_listed isOther
      apply apart_iff.mpr
      by_contra overlap
      have isFree := freeOld (max other.lower walk.cursor) (by omega)
        (by omega) other isOther
      rw [holds_iff.mpr ⟨by omega, by omega⟩] at isFree
      cases isFree
  · intro time above below
    rw [isCursor] at below
    by_cases isPast : time < walk.cursor
    · obtain ⟨range, member, holds⟩ := plan.covered time above isPast
      refine ⟨range, ?_, holds⟩
      rw [isExisting, mem_sorted]
      exact List.mem_append_left _ member
    · refine ⟨settings.newRange walk, ?_, holds_iff.mpr ⟨by omega, below⟩⟩
      rw [isExisting, mem_sorted]
      exact List.mem_append_right _ (List.mem_singleton_self _)
  · intro time isOther below
    rw [isCursor] at below
    by_cases isPast : time < walk.cursor
    · obtain ⟨range, member, isStart⟩ := plan.complete time isOther isPast
      exact ⟨range, List.mem_append_left _ member, isStart⟩
    · refine ⟨settings.newRange walk,
        List.mem_append_right _ (List.mem_singleton_self _), ?_⟩
      rw [isLower]
      by_contra different
      have further := needed_apart settings.width_pos
        (fun range member => proper_of_listed member) isNeeded isOther
        (by omega) fun between above isBelow =>
          freeOld between above (by omega)
      omega

theorem createPartition_cases (catalog : Catalog) (name : Text)
    (range : Range) :
    (name ∈ catalog.names ∧ createPartition catalog name range = .skipped) ∨
    (name ∉ catalog.names ∧
      (createPartition catalog name range = .refused ∨
        createPartition catalog name range = .conflict ∨
        ∃ proper : range.lower < range.upper,
          createPartition catalog name range = .created { catalog with
            partitions :=
              catalog.partitions ++ [⟨name, range, proper⟩] })) := by
  unfold createPartition
  by_cases taken : name ∈ catalog.names
  · exact Or.inl ⟨taken, if_pos taken⟩
  · refine Or.inr ⟨taken, ?_⟩
    rw [if_neg taken]
    split
    · split
      · exact Or.inl rfl
      · split
        · exact Or.inr (Or.inl rfl)
        · rename_i proper _ _
          exact Or.inr (Or.inr ⟨proper, rfl⟩)
    · exact Or.inl rfl

theorem not_refused {catalog : Catalog} {name : Text} {range : Range}
    (proper : range.lower < range.upper)
    (apart : ∀ other ∈ catalog.partitions, range.apart other.range = true) :
    createPartition catalog name range ≠ .refused := by
  have noOverlap : ¬(catalog.partitions.any fun other =>
      !range.apart other.range) = true := by
    rw [List.any_eq_true]
    intro overlaps
    obtain ⟨other, member, isOverlap⟩ := overlaps
    rw [apart other member] at isOverlap
    cases isOverlap
  unfold createPartition
  rw [dif_pos proper, if_neg noOverlap]
  split
  · exact nofun
  · split
    · exact nofun
    · exact nofun

/-- A range that was not made is accounted for as the plan grows. -/
theorem Recorded.later (recorded : Recorded settings before walk planned made)
    (noConflict : walk.conflicts = []) (range : Range) {more : List Partition}
    (new : (∃ partition ∈ more, partition.range = range) ∨
      settings.nameOf range.lower ∈ before.names ∨
      ∃ other ∈ planned, other.lower ≠ range.lower ∧
        settings.nameOf other.lower = settings.nameOf range.lower) :
    ∀ other ∈ planned ++ [range],
      (∃ partition ∈ made ++ more, partition.range = other) ∨
        settings.nameOf other.lower ∈ before.names ∨
        ∃ third ∈ planned ++ [range], third.lower ≠ other.lower ∧
          settings.nameOf third.lower = settings.nameOf other.lower := by
  intro other member
  rcases List.mem_append.mp member with isOld | isNew
  · rcases recorded.done noConflict other isOld with
      ⟨partition, inMade, isRange⟩ | taken | ⟨third, inPlan, differs, same⟩
    · exact Or.inl ⟨partition, List.mem_append_left _ inMade, isRange⟩
    · exact Or.inr (Or.inl taken)
    · exact Or.inr (Or.inr
        ⟨third, List.mem_append_left _ inPlan, differs, same⟩)
  · rw [List.mem_singleton.mp isNew]
    rcases new with ⟨partition, inMore, isRange⟩ | taken |
      ⟨third, inPlan, differs, same⟩
    · exact Or.inl ⟨partition, List.mem_append_right _ inMore, isRange⟩
    · exact Or.inr (Or.inl taken)
    · exact Or.inr (Or.inr
        ⟨third, List.mem_append_left _ inPlan, differs, same⟩)

theorem Recorded.names (recorded : Recorded settings before walk planned made) :
    ∀ name, name ∈ walk.catalog.names ↔
      name ∈ before.names ∨ ∃ partition ∈ made, partition.name = name := by
  intro name
  unfold Catalog.names
  rw [recorded.partitions, recorded.others]
  simp only [List.map_append, List.mem_append, List.mem_map]
  exact or_right_comm

/-- What a round does where no range covers the cursor. -/
theorem round_of_uncovered
    (found : Instants.covering walk.existing walk.cursor = none) :
    Instants.round settings walk =
      match createPartition walk.catalog (settings.nameOf walk.cursor)
        (settings.newRange walk) with
      | .created catalog => some { walk with
          existing := Instants.sorted
            (walk.existing ++ [settings.newRange walk])
          cursor := (settings.newRange walk).upper
          catalog, created := walk.created + 1 }
      | .skipped => some { walk with
          existing := Instants.sorted
            (walk.existing ++ [settings.newRange walk])
          cursor := (settings.newRange walk).upper
          created := walk.created + 1 }
      | .conflict => some { walk with
          existing := Instants.sorted
            (walk.existing ++ [settings.newRange walk])
          cursor := (settings.newRange walk).upper
          conflicts := walk.conflicts ++ [settings.nameOf walk.cursor] }
      | .refused => none := by
  simp only [Instants.round, found]
  rfl

/-- One round keeps the plan and the record of it, and never raises. -/
theorem round_keeps (plan : Planned settings before start stop walk planned)
    (recorded : Recorded settings before walk planned made)
    (ahead : walk.cursor < stop) : ∃ next planned made,
      Instants.round settings walk = some next ∧
      Planned settings before start stop next planned ∧
      Recorded settings before next planned made := by
  cases found : Instants.covering walk.existing walk.cursor with
  | some upper =>
      refine ⟨_, planned, made, ?_, plan.jump found, ?_⟩
      · simp only [Instants.round, found]
      · exact { recorded with }
  | none =>
      have grows := (@newRange_spec settings walk found).1
      have isPlanned : ∀ next : Instants.Walk,
          next.cursor = (settings.newRange walk).upper →
          next.existing =
            Instants.sorted (walk.existing ++ [settings.newRange walk]) →
          Planned settings before start stop next
            (planned ++ [settings.newRange walk]) :=
        plan.extend found ahead
      have whole := isPlanned
        { walk with
          existing := Instants.sorted
            (walk.existing ++ [settings.newRange walk])
          cursor := (settings.newRange walk).upper } rfl rfl
      have apart : ∀ other ∈ walk.catalog.partitions,
          (settings.newRange walk).apart other.range = true := by
        intro other member
        rw [recorded.partitions, List.mem_append] at member
        rcases member with isOld | isMade
        · exact whole.apart _ (List.mem_append_right _
            (List.mem_singleton_self _)) other.range
            (List.mem_map_of_mem isOld)
        · have shape := plan.shape _ (recorded.ranges other isMade)
          exact apart_iff.mpr (Or.inr shape.2)
      have inPlan : ∀ partition ∈ made,
          partition.range ∈ planned ++ [settings.newRange walk] :=
        fun partition member =>
          List.mem_append_left _ (recorded.ranges partition member)
      have rounds := @round_of_uncovered settings walk found
      rcases createPartition_cases walk.catalog (settings.nameOf walk.cursor)
          (settings.newRange walk) with ⟨taken, isSkipped⟩ |
        ⟨fresh, refused | conflict | ⟨proper, isCreated⟩⟩
      · rw [isSkipped] at rounds
        refine ⟨_, _, made, rounds, isPlanned _ rfl rfl, ?_⟩
        refine { recorded with ranges := inPlan, done := ?_ }
        intro noConflict
        have added := @Recorded.later settings before walk planned made recorded
          noConflict (settings.newRange walk) []
        rw [List.append_nil] at added
        apply added
        rcases (recorded.names _).mp taken with isOld |
          ⟨partition, isMade, isName⟩
        · exact Or.inr (Or.inl isOld)
        · have listed := recorded.ranges partition isMade
          have shape := plan.shape _ listed
          refine Or.inr (Or.inr ⟨partition.range, listed, ?_, ?_⟩)
          · change partition.range.lower ≠ walk.cursor
            omega
          · rw [← (recorded.named partition isMade).1]
            exact isName
      · exact (not_refused grows apart refused).elim
      · rw [conflict] at rounds
        refine ⟨_, _, made, rounds, isPlanned _ rfl rfl, ?_⟩
        refine { recorded with ranges := inPlan, done := ?_ }
        intro noConflict
        exact absurd noConflict (List.append_ne_nil_of_right_ne_nil _
          (List.cons_ne_nil _ _))
      · rw [isCreated] at rounds
        have notBefore : settings.nameOf walk.cursor ∉ before.names :=
          fun isOld => fresh ((recorded.names _).mpr (Or.inl isOld))
        refine ⟨_, _, made ++ [⟨settings.nameOf walk.cursor,
          settings.newRange walk, proper⟩], rounds, isPlanned _ rfl rfl, ?_⟩
        constructor
        · rw [← List.append_assoc, ← recorded.partitions]
        · exact recorded.others
        · intro partition member
          rcases List.mem_append.mp member with isOld | isNew
          · exact inPlan partition isOld
          · rw [List.mem_singleton.mp isNew]
            exact List.mem_append_right _ (List.mem_singleton_self _)
        · intro partition member
          rcases List.mem_append.mp member with isOld | isNew
          · exact recorded.named partition isOld
          · rw [List.mem_singleton.mp isNew]
            exact ⟨rfl, notBefore⟩
        · rw [List.map_append, List.nodup_append]
          refine ⟨recorded.once, List.nodup_singleton _, ?_⟩
          intro name isOld other isNew same
          rw [List.map_singleton, List.mem_singleton] at isNew
          obtain ⟨partition, isMade, isName⟩ := List.mem_map.mp isOld
          apply fresh
          have isTaken : settings.nameOf walk.cursor = name :=
            isNew.symm.trans same.symm
          rw [isTaken]
          exact (recorded.names _).mpr (Or.inr ⟨partition, isMade, isName⟩)
        · intro noConflict
          apply recorded.later noConflict
          exact Or.inl ⟨_, List.mem_singleton_self _, rfl⟩

/-- The walk keeps the plan and the record of it, and never raises. -/
theorem walk_keeps (rounds : Nat)
    (plan : Planned settings before start stop walk planned)
    (recorded : Recorded settings before walk planned made) :
    ∃ last planned made, Instants.walk settings stop rounds walk = some last ∧
      Planned settings before start stop last planned ∧
      Recorded settings before last planned made := by
  induction rounds generalizing walk planned made with
  | zero => exact ⟨walk, planned, made, rfl, plan, recorded⟩
  | succ rounds ih =>
      unfold Instants.walk
      by_cases isDone : stop ≤ walk.cursor
      · rw [if_pos isDone]
        exact ⟨walk, planned, made, rfl, plan, recorded⟩
      · rw [if_neg isDone]
        obtain ⟨next, further, more, isNext, plan, recorded⟩ :=
          round_keeps plan recorded (by omega)
        rw [isNext]
        exact ih plan recorded

theorem planned_begin (settings : Settings) (dateTrunc : Int → Int) (now : Int)
    (before : Catalog) (stop : Int) :
    Planned settings before (settings.bucketStart dateTrunc now) stop
      (Instants.begin settings dateTrunc now before) [] where
  known range := by simp [Instants.begin, mem_sorted]
  begun := le_refl _
  resting := Or.inl ⟨_, 0, Or.inl rfl, le_refl _, by simp [Instants.begin],
    fun _ above below => (Int.not_lt.mpr above below).elim⟩
  needed _ member := nomatch member
  shape _ member := nomatch member
  ordered := List.Pairwise.nil
  apart _ member := nomatch member
  covered _ above below := (Int.not_lt.mpr above below).elim
  complete := by
    intro time isNeeded below
    obtain ⟨⟨gap, steps, _, begun, isTime, _⟩, _⟩ := isNeeded
    have product : (0 : Int) ≤ steps * settings.width :=
      Int.mul_nonneg (Int.natCast_nonneg _) settings.width_pos.le
    change time < settings.bucketStart dateTrunc now at below
    omega

theorem recorded_begin (settings : Settings) (dateTrunc : Int → Int) (now : Int)
    (before : Catalog) :
    Recorded settings before (Instants.begin settings dateTrunc now before)
      [] [] where
  partitions := by simp [Instants.begin]
  others := rfl
  ranges _ member := nomatch member
  named _ member := nomatch member
  once := List.nodup_nil
  done _ _ member := nomatch member

end Rounds

/-! ## Coverage -/

def Catalog.Disjoint (catalog : Catalog) : Prop :=
  catalog.partitions.Pairwise fun first second =>
    first.range.apart second.range = true

/-- The partitions are disjoint, those from before among them, and cover the
time from the start to the stop. -/
structure Covers (before after : Catalog) (start stop : Int) : Prop where
  apart : after.Disjoint
  unchanged : ∀ partition ∈ before.partitions, partition ∈ after.partitions
  covered : ∀ time, start ≤ time → time < stop →
    ∃ partition ∈ after.partitions, partition.range.holds time = true

/-- The partitions that are needed have names that are new, each its own. -/
structure FreshNames (settings : Settings) (before : Catalog)
    (start stop : Int) : Prop where
  fresh : ∀ time, Needed (before.ranges) start settings.width time →
    time < stop → settings.nameOf time ∉ before.names
  once : ∀ time other,
    Needed (before.ranges) start settings.width time →
    time < stop →
    Needed (before.ranges) start settings.width other →
    other < stop → settings.nameOf time = settings.nameOf other → time = other

section Coverage

variable {settings : Settings} {before : Catalog} {start stop : Int}
variable {last : Instants.Walk} {planned : List Range} {made : List Partition}

/-- Two planned ranges are apart. -/
theorem planned_apart (plan : Planned settings before start stop last planned)
    {first second : Range} (isFirst : first ∈ planned)
    (isSecond : second ∈ planned) (different : first ≠ second) :
    first.upper ≤ second.lower ∨ second.upper ≤ first.lower := by
  have either : planned.Pairwise fun first second =>
      first.upper ≤ second.lower ∨ second.upper ≤ first.lower :=
    plan.ordered.imp Or.inl
  have symmetric : Std.Symm fun first second : Range =>
      first.upper ≤ second.lower ∨ second.upper ≤ first.lower :=
    ⟨fun _ _ => Or.symm⟩
  exact either.forall isFirst isSecond different

theorem eq_of_planned (plan : Planned settings before start stop last planned)
    {first second : Range} (isFirst : first ∈ planned)
    (isSecond : second ∈ planned) {time : Int}
    (holds : first.holds time = true) (holds' : second.holds time = true) :
    first = second := by
  have inside := holds_iff.mp holds
  have inside' := holds_iff.mp holds'
  by_contra different
  have apart := planned_apart plan isFirst isSecond different
  omega

theorem last_disjoint (plan : Planned settings before start stop last planned)
    (recorded : Recorded settings before last planned made)
    (apart : before.Disjoint) : last.catalog.Disjoint := by
  unfold Catalog.Disjoint
  rw [recorded.partitions, List.pairwise_append]
  refine ⟨apart, ?_, ?_⟩
  · have distinct : made.Nodup := recorded.once.of_map
    apply distinct.pairwise_of_forall_ne
    intro first isFirst second isSecond different
    by_contra overlap
    have listed := recorded.ranges first isFirst
    have listed' := recorded.ranges second isSecond
    have same : first.range = second.range := by
      by_contra differ
      exact overlap (apart_iff.mpr (planned_apart plan listed listed' differ))
    have named := (recorded.named first isFirst).1
    have named' := (recorded.named second isSecond).1
    apply different
    apply List.inj_on_of_nodup_map recorded.once isFirst isSecond
    rw [named, named', same]
  · intro old isOld partition isMade
    have clear := plan.apart _ (recorded.ranges partition isMade) old.range
      (List.mem_map_of_mem isOld)
    exact apart_iff.mpr (apart_iff.mp clear).symm

/-- An instant that needs a partition is in no partition but its own. -/
theorem made_of_covered (plan : Planned settings before start stop last planned)
    (recorded : Recorded settings before last planned made)
    (within : stop ≤ last.cursor) {time : Int}
    (isNeeded : Needed (before.ranges) start settings.width time)
    (ahead : time < stop)
    (covered : ∃ partition ∈ last.catalog.partitions,
      partition.range.holds time = true) :
    ∃ partition ∈ made, partition.range.lower = time := by
  obtain ⟨partition, member, holds⟩ := covered
  rw [recorded.partitions, List.mem_append] at member
  rcases member with isOld | isMade
  · have free := isNeeded.2 partition.range (List.mem_map_of_mem isOld)
    rw [holds] at free
    cases free
  · obtain ⟨range, isPlanned, isStart⟩ :=
      plan.complete time isNeeded (by omega)
    have shape := plan.shape range isPlanned
    have same := eq_of_planned plan (recorded.ranges partition isMade) isPlanned
      holds (holds_iff.mpr ⟨by omega, by omega⟩)
    exact ⟨partition, isMade, by rw [same, isStart]⟩

theorem fresh_of_covers (plan : Planned settings before start stop last planned)
    (recorded : Recorded settings before last planned made)
    (within : stop ≤ last.cursor)
    (covers : Covers before last.catalog start stop) :
    FreshNames settings before start stop := by
  have isMade : ∀ time,
      Needed (before.ranges) start settings.width time →
      time < stop → ∃ partition ∈ made, partition.range.lower = time ∧
        partition.name = settings.nameOf time := by
    intro time isNeeded ahead
    obtain ⟨⟨gap, steps, _, begun, isTime, _⟩, _⟩ := id isNeeded
    have product : (0 : Int) ≤ steps * settings.width :=
      Int.mul_nonneg (Int.natCast_nonneg _) settings.width_pos.le
    obtain ⟨partition, member, isStart⟩ := made_of_covered plan recorded within
      isNeeded ahead (covers.covered time (by omega) ahead)
    refine ⟨partition, member, isStart, ?_⟩
    rw [(recorded.named partition member).1, isStart]
  constructor
  · intro time isNeeded ahead
    obtain ⟨partition, member, _, isName⟩ := isMade time isNeeded ahead
    rw [← isName]
    exact (recorded.named partition member).2
  · intro time other isNeeded ahead isNeeded' ahead' same
    obtain ⟨first, isFirst, isStart, isName⟩ := isMade time isNeeded ahead
    obtain ⟨second, isSecond, isStart', isName'⟩ :=
      isMade other isNeeded' ahead'
    have equal : first = second := by
      apply List.inj_on_of_nodup_map recorded.once isFirst isSecond
      rw [isName, isName', same]
    rw [← isStart, ← isStart', equal]

theorem covers_of_fresh (plan : Planned settings before start stop last planned)
    (recorded : Recorded settings before last planned made)
    (apart : before.Disjoint) (within : stop ≤ last.cursor)
    (noConflict : last.conflicts = [])
    (names : FreshNames settings before start stop) :
    Covers before last.catalog start stop := by
  refine ⟨last_disjoint plan recorded apart, ?_, ?_⟩
  · intro partition member
    rw [recorded.partitions]
    exact List.mem_append_left _ member
  · intro time above below
    obtain ⟨range, known, holds⟩ := plan.covered time above (by omega)
    rw [recorded.partitions]
    rcases (plan.known range).mp known with isOld | isPlanned
    · obtain ⟨partition, member, isRange⟩ := List.mem_map.mp isOld
      exact ⟨partition, List.mem_append_left _ member, isRange ▸ holds⟩
    · obtain ⟨isNeeded, ahead⟩ := plan.needed range isPlanned
      rcases recorded.done noConflict range isPlanned with
        ⟨partition, member, isRange⟩ | taken | ⟨other, listed, differs, same⟩
      · exact ⟨partition, List.mem_append_right _ member, isRange ▸ holds⟩
      · exact (names.fresh range.lower isNeeded ahead taken).elim
      · obtain ⟨isNeeded', ahead'⟩ := plan.needed other listed
        exact (differs (names.once other.lower range.lower isNeeded' ahead'
          isNeeded ahead same)).elim

end Coverage

/-- Within its step limit and without attach conflicts, in a session whose time
zone keeps its offset meanwhile, the walk leaves partitions that are disjoint
and cover the time ahead just when the partitions that are needed have names
that are new, each its own. -/
theorem ensure_covers_iff (settings : Settings) (zone : Calendar.Zone)
    (dateTrunc : Int → Int) (now : Int) (before : Catalog)
    (apart : before.Disjoint) (steady : settings.Steady zone dateTrunc now) :
    ∃ last, settings.walkFrom zone dateTrunc now before = some last ∧
      ensureLivePartitions zone settings dateTrunc true now before =
        some (last.catalog, last.created) ∧
      (now + settings.ahead ≤ last.cursor.instant zone →
        last.conflicts = [] →
        (Covers before last.catalog (settings.bucketStart dateTrunc now)
            (now + settings.ahead) ↔
          FreshNames settings before (settings.bucketStart dateTrunc now)
            (now + settings.ahead))) := by
  obtain ⟨end_, planned, made, isEnd, plan, recorded⟩ :=
    walk_keeps maxRounds
      (planned_begin settings dateTrunc now before (now + settings.ahead))
      (recorded_begin settings dateTrunc now before)
  have same := walkFrom_instants steady before
  rw [isEnd] at same
  obtain ⟨last, isLast, rfl⟩ := Option.map_eq_some_iff.mp same
  refine ⟨last, isLast, ?_, fun within noConflict => ⟨?_, ?_⟩⟩
  · unfold ensureLivePartitions
    rw [if_pos rfl, isLast]
    rfl
  · exact fresh_of_covers plan recorded within
  · exact covers_of_fresh plan recorded apart within noConflict

/-- The first of January 2024. -/
def newYear : Int := 738885 * day

def hourly : Settings :=
  { table := "live".toList, premake := 1, lookahead := some (2 * hour) }

def utc : Calendar.Zone := .fixed 0

theorem ensure_covers_iff_hourly : ∃ last,
    hourly.walkFrom utc id newYear {} = some last ∧
    (Covers {} last.catalog newYear (newYear + hourly.ahead) ↔
      FreshNames hourly {} newYear (newYear + hourly.ahead)) := by
  obtain ⟨last, isLast, _, covers⟩ :=
    ensure_covers_iff hourly utc id newYear {} List.Pairwise.nil
      (Calendar.Zone.fixed_steady 0 _ _)
  have ends : (hourly.walkFrom utc id newYear {}).map
      (fun last => (last.cursor.instant utc, last.conflicts)) =
        some (newYear + hourly.ahead, []) := by
    decide +kernel
  rw [isLast, Option.map_some, Option.some.injEq, Prod.mk.injEq] at ends
  have isStart : hourly.bucketStart id newYear = newYear := by decide +kernel
  rw [isStart] at covers
  exact ⟨last, isLast, covers ends.1.symm.le ends.2⟩

/-- At `change` the clocks go forward from one hour ahead of UTC to two.  The
hour they skip is read by the earlier offset. -/
def springForward (change : Int) : Calendar.Zone where
  offset := fun instant => if instant < change then hour else 2 * hour
  fold := fun _ => false
  utcoffset := fun reading fold =>
    if reading < change + hour then hour
    else if reading < change + 2 * hour then
      if fold then 2 * hour else hour
    else 2 * hour
  reads := by
    intro instant
    have positive : 0 < hour := by decide
    split
    · rw [if_pos (by omega)]
    · rw [if_neg (by omega), if_neg (by omega)]

-- A partition from two o'clock to three o'clock of that night is empty.
example : (hourly.walkFrom (springForward (newYear + hour)) id newYear
    {}).isNone = true := by
  decide +kernel

def daily : Settings :=
  { table := "live".toList, interval := some day, premake := 1 }

/-- A partition of the width of a day was clipped to the next, an hour wide. -/
def mixedWidths : Catalog where
  partitions := [
    { name := "live_20240101".toList
      range := ⟨newYear, newYear + 5 * hour⟩
      proper := by decide },
    { name := "live_20240101_0500".toList
      range := ⟨newYear + 5 * hour, newYear + 6 * hour⟩
      proper := by decide }]

/-- The name of the day is taken, and nothing covers the time from six
o'clock on. -/
theorem daily_leaves_gap : ¬∀ (settings : Settings) (zone : Calendar.Zone)
    (dateTrunc : Int → Int) (now : Int) (before : Catalog) (last : Walk),
    before.Disjoint →
    (∀ partition ∈ before.partitions, ∃ width, partition.name =
      settings.table ++ '_' :: suffix width partition.range.lower) →
    settings.walkFrom zone dateTrunc now before = some last →
    now + settings.ahead ≤ last.cursor.instant zone → last.conflicts = [] →
    Covers before last.catalog (settings.bucketStart dateTrunc now)
      (now + settings.ahead) := by
  intro claims
  have ran : (daily.walkFrom utc (fun time => time / day * day) newYear
      mixedWidths).any (fun last =>
        decide (newYear + daily.ahead ≤ last.cursor.instant utc) &&
          decide (last.conflicts = []) && last.catalog.partitions.all
            fun partition => !partition.range.holds (newYear + 6 * hour)) =
      true := by
    decide +kernel
  obtain ⟨last, isLast, ends⟩ := (Option.any_eq_true _ _).mp ran
  simp only [Bool.and_eq_true, decide_eq_true_eq, List.all_eq_true,
    Bool.not_eq_true'] at ends
  have covers := claims daily utc _ newYear mixedWidths last
    (by unfold Catalog.Disjoint; decide +kernel) ?_ isLast ends.1.1 ends.1.2
  · obtain ⟨partition, member, holds⟩ := covers.covered (newYear + 6 * hour)
      (by decide +kernel) (by decide +kernel)
    rw [ends.2 partition member] at holds
    cases holds
  · intro partition member
    rcases List.mem_cons.mp member with rfl | later
    · exact ⟨day, by decide +kernel⟩
    · rw [List.mem_singleton.mp later]
      exact ⟨hour, by decide +kernel⟩

end Sqlery.Partitioning
