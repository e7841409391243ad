import Mathlib.Data.List.Find
import Mathlib.Order.Lattice
import Sqlery.Partitioning.LivePartitions

/-!
# The walk on instants

As long as the session's time zone keeps its offset, the walk of
`ensure_live_partitions` on datetimes is the same walk on instants.
-/

namespace Sqlery.Partitioning

open Calendar

theorem Settings.width_pos (settings : Settings) : 0 < settings.width := by
  unfold Settings.width
  split
  · split
    · decide
    · rename_i atLeast
      have positive : (0 : Int) < minute := by decide
      omega
  · decide

theorem Settings.ahead_pos (settings : Settings) : 0 < settings.ahead := by
  have width := settings.width_pos
  have most : settings.width * 1 ≤ settings.width * max settings.premake 1 :=
    Int.mul_le_mul_of_nonneg_left (le_max_right _ _) width.le
  unfold Settings.ahead
  omega

def Catalog.ranges (catalog : Catalog) : List Range :=
  catalog.partitions.map (·.range)

/-- The order of pairs. -/
def Range.le (first second : Range) : Bool :=
  first.lower < second.lower ||
    (first.lower = second.lower && first.upper ≤ second.upper)

namespace Instants

structure Walk where
  catalog : Catalog
  existing : List Range
  cursor : Int
  created : Nat := 0
  conflicts : List Text := []

def sorted (ranges : List Range) : List Range :=
  ranges.insertionSort fun first second => first.le second

/-- The upper bound of a range that holds the cursor. -/
def covering (existing : List Range) (cursor : Int) : Option Int :=
  (existing.find? fun range => range.holds cursor).map (·.upper)

/-- The upper bound of a new range: the width, clipped to the next range. -/
def clipped (existing : List Range) (width cursor : Int) : Int :=
  match ((existing.map (·.lower)).filter (cursor < ·)).min? with
  | some following =>
      if following < cursor + width then following else cursor + width
  | none => cursor + width

/-- A round of the loop. -/
def round (settings : Settings) (walk : Walk) : Option Walk :=
  match covering walk.existing walk.cursor with
  | some upper => some { walk with cursor := upper }
  | none =>
      let upper := clipped walk.existing settings.width walk.cursor
      let range : Range := ⟨walk.cursor, upper⟩
      let name := settings.nameOf walk.cursor
      let next := { walk with
        existing := sorted (walk.existing ++ [range])
        cursor := upper }
      match createPartition walk.catalog name range with
      | .created catalog =>
          some { next with catalog, created := walk.created + 1 }
      | .skipped => some { next with created := walk.created + 1 }
      | .conflict => some { next with conflicts := walk.conflicts ++ [name] }
      | .refused => none

def walk (settings : Settings) (stop : Int) : Nat → Walk → Option Walk
  | 0, last => some last
  | rounds + 1, last =>
      if stop ≤ last.cursor then some last
      else match round settings last with
        | some next => walk settings stop rounds next
        | none => none

def begin (settings : Settings) (dateTrunc : Int → Int) (now : Int)
    (catalog : Catalog) : Walk where
  catalog := catalog
  existing := sorted catalog.ranges
  cursor := settings.bucketStart dateTrunc now

end Instants

/-! ## Datetimes and instants -/

section Instants

variable {zone : Zone} {offset first last : Int}

def Span.range (zone : Zone) (span : Span) : Range where
  lower := span.lower.instant zone
  upper := span.upper.instant zone

/-- The datetimes of both bounds are of a time when the zone has the offset. -/
structure Span.Within (offset first last : Int) (span : Span) : Prop where
  lower : span.lower.Within offset first last
  upper : span.upper.Within offset first last

def Walk.instants (zone : Zone) (walk : Walk) : Instants.Walk where
  catalog := walk.catalog
  existing := walk.existing.map (Span.range zone)
  cursor := walk.cursor.instant zone
  created := walk.created
  conflicts := walk.conflicts

structure Walk.Within (offset first last : Int) (walk : Walk) : Prop where
  existing : ∀ span ∈ walk.existing, span.Within offset first last
  cursor : walk.cursor.Within offset first last

theorem within_parsed (zone : Zone) (instant : Int) :
    (Stamp.parsed zone instant).Within offset first last := by
  intro isSession
  cases isSession

theorem within_listed {zone : Zone} {catalog : Catalog} {span : Span}
    (member : span ∈ listPartitionRanges zone catalog) :
    span.Within offset first last := by
  obtain ⟨partition, _, rfl⟩ := List.mem_map.mp member
  exact ⟨within_parsed zone _, within_parsed zone _⟩

theorem ranges_listed (zone : Zone) (catalog : Catalog) :
    (listPartitionRanges zone catalog).map (Span.range zone) =
      catalog.ranges := by
  unfold listPartitionRanges Catalog.ranges
  rw [List.map_map]
  apply List.map_congr_left
  intro partition _
  simp only [Function.comp_apply, Span.range, Stamp.instant_parsed]

section Keeps

variable (keeps : zone.Keeps offset first last)

include keeps

theorem before_eq {stamp other : Stamp}
    (within : stamp.Within offset first last)
    (withinOther : other.Within offset first last) :
    stamp.before zone other =
      decide (stamp.instant zone < other.instant zone) :=
  Bool.eq_iff_iff.mpr
    ((within.before_iff keeps withinOther).trans decide_eq_true_iff.symm)

theorem not_before_iff {span other : Span}
    (within : span.Within offset first last)
    (withinOther : other.Within offset first last) :
    (!other.before zone span) = true ↔
      (span.range zone).le (other.range zone) = true := by
  have same := withinOther.lower.same_iff keeps within.lower
  have sameUpper := withinOther.upper.same_iff keeps within.upper
  unfold Span.before Range.le Span.range
  simp only [Bool.not_eq_true', Bool.or_eq_true, Bool.and_eq_true,
    decide_eq_true_eq]
  split
  · rename_i isSame
    have equal := same.mp isSame
    rw [before_eq keeps withinOther.upper within.upper]
    by_cases isUpper : other.upper.same zone span.upper = true
    · have equalUpper := sameUpper.mp isUpper
      simp only [isUpper, Bool.not_true, Bool.false_and, true_iff]
      omega
    · have differs : ¬other.upper.instant zone = span.upper.instant zone :=
        fun equalUpper => isUpper (sameUpper.mpr equalUpper)
      simp only [isUpper, Bool.not_false, Bool.true_and,
        decide_eq_false_iff_not]
      omega
  · rename_i isSame
    have differs : ¬other.lower.instant zone = span.lower.instant zone :=
      fun equal => isSame (same.mpr equal)
    rw [before_eq keeps withinOther.lower within.lower,
      decide_eq_false_iff_not]
    omega

theorem ranges_sorted {spans : List Span}
    (within : ∀ span ∈ spans, span.Within offset first last) :
    (sorted zone spans).map (Span.range zone) =
      Instants.sorted (spans.map (Span.range zone)) := by
  apply List.map_insertionSort
  intro span member other memberOther
  exact not_before_iff keeps (within span member) (within other memberOther)

theorem covering_instants {existing : List Span} {cursor : Stamp}
    (within : ∀ span ∈ existing, span.Within offset first last)
    (isCursor : cursor.Within offset first last) :
    (covering zone existing cursor).map (Stamp.instant zone) =
      Instants.covering (existing.map (Span.range zone))
        (cursor.instant zone) := by
  unfold covering Instants.covering
  rw [List.find?_map, Option.map_map, Option.map_map]
  congr 1
  apply List.find?_congr
  intro span member
  have isSpan := within span member
  rw [Bool.eq_iff_iff, Bool.and_eq_true,
    isSpan.lower.atMost_iff keeps isCursor,
    isCursor.before_iff keeps isSpan.upper]
  simp only [Function.comp_apply, Range.holds, Span.range, Bool.and_eq_true]
  exact Iff.and decide_eq_true_iff.symm decide_eq_true_iff.symm

theorem minimum_instants {stamps : List Stamp}
    (within : ∀ stamp ∈ stamps, stamp.Within offset first last) :
    (minimum zone stamps).map (Stamp.instant zone) =
      (stamps.map (Stamp.instant zone)).min? := by
  cases stamps with
  | nil => rfl
  | cons least rest =>
      have isLeast := within least List.mem_cons_self
      have isRest : ∀ stamp ∈ rest, stamp.Within offset first last :=
        fun stamp member => within stamp (List.mem_cons_of_mem _ member)
      simp only [minimum, Option.map_some, List.map_cons, List.min?_cons']
      congr 1
      clear within
      induction rest generalizing least with
      | nil => rfl
      | cons next rest ih =>
          have isNext := isRest next List.mem_cons_self
          have later : ∀ stamp ∈ rest, stamp.Within offset first last :=
            fun stamp member => isRest stamp (List.mem_cons_of_mem _ member)
          simp only [List.foldl_cons, List.map_cons]
          rw [before_eq keeps isNext isLeast]
          by_cases less : next.instant zone < least.instant zone
          · simp only [less, decide_true, if_true]
            rw [ih next isNext later, min_eq_right less.le]
          · simp only [less, decide_false, Bool.false_eq_true, if_false]
            rw [ih least isLeast later, min_eq_left (not_lt.mp less)]

end Keeps

theorem minimum_mem {stamps : List Stamp} {least : Stamp}
    (isLeast : minimum zone stamps = some least) : least ∈ stamps := by
  cases stamps with
  | nil => cases isLeast
  | cons start rest =>
      cases isLeast
      induction rest generalizing start with
      | nil => exact List.mem_singleton_self _
      | cons next rest ih =>
          simp only [List.foldl_cons]
          split
          · exact List.mem_cons_of_mem _ (ih next)
          · rcases List.mem_cons.mp (ih start) with same | later
            · rw [same]
              exact List.mem_cons_self
            · exact List.mem_cons_of_mem _ (List.mem_cons_of_mem _ later)

/-- What a cursor moves to is a datetime of the list, or one of its own. -/
theorem covering_within {existing : List Span} {cursor upper : Stamp}
    (within : ∀ span ∈ existing, span.Within offset first last)
    (found : covering zone existing cursor = some upper) :
    upper.Within offset first last := by
  obtain ⟨span, isFound, rfl⟩ := Option.map_eq_some_iff.mp found
  exact (within span (List.mem_of_find?_eq_some isFound)).upper

section Rounds

variable (keeps : zone.Keeps offset first last)
variable {settings : Settings} {walk next : Walk}
variable (within : walk.Within offset first last)
variable (below : walk.cursor.instant zone + settings.width ≤ last)

include keeps within below

theorem clipped_instants :
    let upper := clipped zone walk.existing settings.width walk.cursor
    upper.Within offset first last ∧
      upper.instant zone = Instants.clipped
        (walk.existing.map (Span.range zone)) settings.width
        (walk.cursor.instant zone) := by
  obtain ⟨isLater, later⟩ :=
    within.cursor.plus keeps settings.width_pos.le below
  have isListed : ∀ stamp ∈ (walk.existing.map (·.lower)).filter
      (walk.cursor.before zone ·), stamp.Within offset first last := by
    intro stamp member
    obtain ⟨span, isSpan, rfl⟩ :=
      List.mem_map.mp (List.mem_filter.mp member).1
    exact (within.existing span isSpan).lower
  have lowers : ((walk.existing.map (·.lower)).filter
      (walk.cursor.before zone ·)).map (Stamp.instant zone) =
        ((walk.existing.map (Span.range zone)).map (·.lower)).filter
          (walk.cursor.instant zone < ·) := by
    rw [List.map_map, List.filter_map, List.filter_map, List.map_map]
    have same : walk.existing.filter
        ((walk.cursor.before zone ·) ∘ Span.lower) =
          walk.existing.filter ((fun time => decide
            (walk.cursor.instant zone < time)) ∘
              (Range.lower ∘ Span.range zone)) := by
      apply List.filter_congr
      intro span member
      exact before_eq keeps within.cursor (within.existing span member).lower
    rw [same]
    rfl
  have least := minimum_instants keeps isListed
  rw [lowers] at least
  unfold clipped Instants.clipped
  rw [← least, ← later]
  cases isLeast : minimum zone ((walk.existing.map (·.lower)).filter
      (walk.cursor.before zone ·)) with
  | none => exact ⟨isLater, rfl⟩
  | some following =>
      have isFollowing := isListed following (minimum_mem isLeast)
      simp only [Option.map_some, before_eq keeps isFollowing isLater,
        decide_eq_true_eq]
      split
      · exact ⟨isFollowing, rfl⟩
      · exact ⟨isLater, rfl⟩

theorem round_instants :
    (settings.round zone walk).map (Walk.instants zone) =
        Instants.round settings (walk.instants zone) ∧
      ∀ next, settings.round zone walk = some next →
        next.Within offset first last := by
  have covered := covering_instants keeps within.existing within.cursor
  unfold Settings.round Instants.round Walk.instants
  simp only
  rw [← covered]
  cases found : covering zone walk.existing walk.cursor with
  | some upper =>
      refine ⟨rfl, fun next isNext => ?_⟩
      cases isNext
      exact ⟨within.existing, covering_within within.existing found⟩
  | none =>
      obtain ⟨isUpper, upper⟩ := clipped_instants keeps within below
      have isExisting : ∀ span ∈ walk.existing ++ [⟨walk.cursor,
          clipped zone walk.existing settings.width walk.cursor⟩],
          span.Within offset first last := by
        intro span member
        rcases List.mem_append.mp member with old | new
        · exact within.existing span old
        · rw [List.mem_singleton.mp new]
          exact ⟨within.cursor, isUpper⟩
      have ranges := ranges_sorted keeps isExisting
      rw [List.map_append, List.map_singleton] at ranges
      have isSorted : ∀ span ∈ sorted zone (walk.existing ++ [⟨walk.cursor,
          clipped zone walk.existing settings.width walk.cursor⟩]),
          span.Within offset first last := fun span member =>
        isExisting span ((List.perm_insertionSort _ _).mem_iff.mp member)
      simp only [Option.map_none]
      rw [← upper]
      generalize createPartition walk.catalog _ _ = creation
      cases creation with
      | created catalog =>
          simp only [Option.map_some, ranges]
          refine ⟨rfl, fun next isNext => ?_⟩
          cases isNext
          exact ⟨isSorted, isUpper⟩
      | skipped =>
          simp only [Option.map_some, ranges]
          refine ⟨rfl, fun next isNext => ?_⟩
          cases isNext
          exact ⟨isSorted, isUpper⟩
      | conflict =>
          simp only [Option.map_some, ranges]
          refine ⟨rfl, fun next isNext => ?_⟩
          cases isNext
          exact ⟨isSorted, isUpper⟩
      | refused => exact ⟨rfl, fun next isNext => by cases isNext⟩

end Rounds

/-- The walk up to an instant, if the zone keeps its offset for a width more. -/
theorem walk_instants {settings : Settings} {stop : Stamp} (rounds : Nat)
    {walk : Walk} (keeps : zone.Keeps offset first last)
    (isStop : stop.Within offset first last)
    (ends : stop.instant zone + settings.width ≤ last)
    (within : walk.Within offset first last) :
    (settings.walk zone stop rounds walk).map (Walk.instants zone) =
      Instants.walk settings (stop.instant zone) rounds
        (walk.instants zone) := by
  induction rounds generalizing walk with
  | zero => rfl
  | succ rounds ih =>
      have isCursor : (walk.instants zone).cursor =
          walk.cursor.instant zone := rfl
      have reached := isStop.atMost_iff keeps within.cursor
      unfold Settings.walk Instants.walk
      rw [isCursor]
      by_cases isDone : stop.instant zone ≤ walk.cursor.instant zone
      · rw [if_pos (reached.mpr isDone), if_pos isDone]
        rfl
      · rw [if_neg (fun done => isDone (reached.mp done)), if_neg isDone]
        have below : walk.cursor.instant zone + settings.width ≤ last := by
          omega
        obtain ⟨same, isNext⟩ := round_instants keeps within below
        rw [← same]
        cases made : settings.round zone walk with
        | none => rfl
        | some next => exact ih (isNext next made)

/-- The session's time zone keeps its offset from the start of the bucket until
a width after the end of the walk. -/
def Settings.Steady (settings : Settings) (zone : Zone)
    (dateTrunc : Int → Int) (now : Int) : Prop :=
  zone.Steady (min (settings.bucketStart dateTrunc now) now)
    (max (settings.bucketStart dateTrunc now) (now + settings.ahead) +
      settings.width)

theorem within_begin (keeps : zone.Keeps offset first last)
    (settings : Settings) (dateTrunc : Int → Int) (now : Int)
    (catalog : Catalog)
    (after : first ≤ settings.bucketStart dateTrunc now)
    (before : settings.bucketStart dateTrunc now ≤ last) :
    (settings.begin zone dateTrunc now catalog).Within offset first last ∧
      (settings.begin zone dateTrunc now catalog).instants zone =
        Instants.begin settings dateTrunc now catalog := by
  have listed : ∀ span ∈ listPartitionRanges zone catalog,
      span.Within offset first last := fun span member =>
    within_listed member
  have sorts := ranges_sorted keeps listed
  rw [ranges_listed] at sorts
  refine ⟨⟨?_, Stamp.within_load keeps after before⟩, ?_⟩
  · intro span member
    exact listed span ((List.perm_insertionSort _ _).mem_iff.mp member)
  · unfold Settings.begin Walk.instants Instants.begin
    rw [sorts, Stamp.instant_load]

/-- In a steady zone the end of the walk is the look-ahead from now. -/
theorem Settings.Steady.stop {settings : Settings} {dateTrunc : Int → Int}
    {now : Int} (steady : settings.Steady zone dateTrunc now) :
    (settings.stop zone now).instant zone = now + settings.ahead := by
  obtain ⟨offset, keeps⟩ := steady
  have width := settings.width_pos
  have ahead := settings.ahead_pos
  have isNow := Stamp.within_load keeps (min_le_right _ now) (by omega)
  have isStop := isNow.plus keeps ahead.le
    (by rw [Stamp.instant_load]; omega)
  rw [Settings.stop, isStop.2, Stamp.instant_load]

/-- In a steady zone the walk is the one on instants. -/
theorem walkFrom_instants {settings : Settings} {dateTrunc : Int → Int}
    {now : Int} (steady : settings.Steady zone dateTrunc now)
    (catalog : Catalog) :
    (settings.walkFrom zone dateTrunc now catalog).map
        (Walk.instants zone) =
      Instants.walk settings (now + settings.ahead) maxRounds
        (Instants.begin settings dateTrunc now catalog) := by
  have stop := steady.stop
  obtain ⟨offset, keeps⟩ := steady
  have width := settings.width_pos
  have ahead := settings.ahead_pos
  have isNow := Stamp.within_load keeps (min_le_right _ now) (by omega)
  have isStop := isNow.plus keeps ahead.le
    (by rw [Stamp.instant_load]; omega)
  obtain ⟨begins, same⟩ := within_begin keeps settings dateTrunc now catalog
    (min_le_left _ now) (by omega)
  unfold Settings.walkFrom
  rw [← same, ← stop]
  exact walk_instants maxRounds keeps isStop.1 (by rw [stop]; omega) begins

end Instants

end Sqlery.Partitioning
