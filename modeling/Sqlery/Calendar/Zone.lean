import Mathlib.Data.Int.Order.Basic
import Mathlib.Order.Defs.LinearOrder

/-!
# Datetimes with a time zone

Instants are microseconds since 0001-01-01 UTC.  An aware datetime is what a
clock on the wall shows, with the zone it hangs in: either the one zone of the
session, whose offset from UTC may change, or a fixed offset.  Adding a
duration moves the hands of the clock, and two clocks of the session's zone are
compared by what they show.  As long as the offset does not change, both agree
with the instants.
-/

namespace Sqlery.Calendar

/-- A time zone.  `fold` says that a clock shows a reading for the second time;
a reading that the clocks skip has an offset too. -/
structure Zone where
  offset : Int → Int
  fold : Int → Bool
  utcoffset : Int → Bool → Int
  reads : ∀ instant,
    utcoffset (instant + offset instant) (fold instant) = offset instant

namespace Zone

/-- UTC, or any other zone that never changes its offset. -/
def fixed (offset : Int) : Zone where
  offset := fun _ => offset
  fold := fun _ => false
  utcoffset := fun _ _ => offset
  reads := fun _ => rfl

/-- The zone keeps the offset between the two instants, and no reading of that
time is shown twice or skipped. -/
structure Keeps (zone : Zone) (offset first last : Int) : Prop where
  shown : ∀ instant, first ≤ instant → instant ≤ last →
    zone.offset instant = offset
  read : ∀ instant, first ≤ instant → instant ≤ last → ∀ fold,
    zone.utcoffset (instant + offset) fold = offset

/-- The zone does not change its offset between the two instants. -/
def Steady (zone : Zone) (first last : Int) : Prop :=
  ∃ offset, zone.Keeps offset first last

theorem fixed_steady (offset first last : Int) :
    (fixed offset).Steady first last :=
  ⟨offset, fun _ _ _ => rfl, fun _ _ _ _ => rfl⟩

end Zone

inductive Tzinfo where
  | session
  | fixed (offset : Int)
  deriving DecidableEq, Repr

/-- An aware datetime. -/
structure Stamp where
  reading : Int
  tzinfo : Tzinfo
  fold : Bool := false
  deriving DecidableEq, Repr

namespace Stamp

section Definitions

variable (zone : Zone)

def utcoffset (stamp : Stamp) (fold : Bool) : Int :=
  match stamp.tzinfo with
  | .session => zone.utcoffset stamp.reading fold
  | .fixed offset => offset

def instant (stamp : Stamp) : Int :=
  stamp.reading - stamp.utcoffset zone stamp.fold

/-- The datetime of a `timestamptz` the session has selected. -/
def load (instant : Int) : Stamp where
  reading := instant + zone.offset instant
  tzinfo := .session
  fold := zone.fold instant

/-- The datetime of a `timestamptz` that is parsed from its text. -/
def parsed (instant : Int) : Stamp where
  reading := instant + zone.offset instant
  tzinfo := .fixed (zone.offset instant)

def plus (stamp : Stamp) (duration : Int) : Stamp where
  reading := stamp.reading + duration
  tzinfo := stamp.tzinfo

def before (first second : Stamp) : Bool :=
  match first.tzinfo, second.tzinfo with
  | .session, .session => first.reading < second.reading
  | _, _ => first.instant zone < second.instant zone

def atMost (first second : Stamp) : Bool :=
  match first.tzinfo, second.tzinfo with
  | .session, .session => first.reading ≤ second.reading
  | _, _ => first.instant zone ≤ second.instant zone

/-- The offset depends on whether it is the first time of the reading. -/
def problematic (stamp : Stamp) : Bool :=
  stamp.utcoffset zone stamp.fold ≠ stamp.utcoffset zone !stamp.fold

/-- `==`, which is false between zones where a reading is problematic. -/
def same (first second : Stamp) : Bool :=
  match first.tzinfo, second.tzinfo with
  | .session, .session => first.reading = second.reading
  | _, _ => !first.problematic zone && !second.problematic zone &&
      first.instant zone = second.instant zone

end Definitions

/-! ## Instants -/

variable {zone : Zone} {offset first last : Int} {stamp other : Stamp}

theorem instant_load (instant : Int) :
    (load zone instant).instant zone = instant := by
  unfold Stamp.instant utcoffset load
  simp only [zone.reads]
  exact Int.add_sub_cancel _ _

theorem instant_parsed (instant : Int) :
    (parsed zone instant).instant zone = instant := by
  unfold Stamp.instant utcoffset parsed
  exact Int.add_sub_cancel _ _

/-- If it hangs in the session's zone, the clock is read at a time when the
zone has the offset. -/
def Within (offset first last : Int) (stamp : Stamp) : Prop :=
  stamp.tzinfo = .session → ∃ instant, first ≤ instant ∧ instant ≤ last ∧
    stamp.reading = instant + offset

section Within

variable (keeps : zone.Keeps offset first last)
variable (within : stamp.Within offset first last)
variable (withinOther : other.Within offset first last)

include keeps

theorem within_load {instant : Int} (after : first ≤ instant)
    (before : instant ≤ last) :
    (load zone instant).Within offset first last := by
  intro _
  refine ⟨instant, after, before, ?_⟩
  unfold load
  rw [keeps.shown instant after before]

include within

theorem Within.offsets (fold : Bool) :
    stamp.utcoffset zone fold = stamp.utcoffset zone stamp.fold := by
  unfold utcoffset
  cases isZone : stamp.tzinfo with
  | fixed offset => rfl
  | session =>
      obtain ⟨instant, after, before, reads⟩ := within isZone
      simp only [reads, keeps.read instant after before]

theorem Within.reading (isZone : stamp.tzinfo = .session) :
    stamp.reading = stamp.instant zone + offset := by
  obtain ⟨instant, after, before, reads⟩ := within isZone
  have same : stamp.utcoffset zone stamp.fold = offset := by
    unfold utcoffset
    rw [isZone]
    simp only [reads, keeps.read instant after before]
  unfold Stamp.instant
  rw [same]
  exact (Int.sub_add_cancel _ _).symm

theorem Within.problematic : stamp.problematic zone = false := by
  have same := within.offsets keeps !stamp.fold
  unfold Stamp.problematic
  exact decide_eq_false (not_not_intro same.symm)

theorem Within.plus {duration : Int} (forward : 0 ≤ duration)
    (below : stamp.instant zone + duration ≤ last) :
    (stamp.plus duration).Within offset first last ∧
      (stamp.plus duration).instant zone =
        stamp.instant zone + duration := by
  cases isZone : stamp.tzinfo with
  | fixed offset =>
      constructor
      · intro isSession
        rw [Stamp.plus, isZone] at isSession
        cases isSession
      · simp only [Stamp.plus, Stamp.instant, utcoffset, isZone]
        omega
  | session =>
      obtain ⟨instant, after, _, reads⟩ := id (within isZone)
      have isInstant : instant = stamp.instant zone := by
        have reading := within.reading keeps isZone
        omega
      have later : first ≤ instant + duration :=
        le_trans after (Int.le_add_of_nonneg_right forward)
      have moved : stamp.reading + duration = instant + duration + offset := by
        rw [reads]
        exact Int.add_right_comm _ _ _
      rw [← isInstant] at below ⊢
      constructor
      · exact fun _ => ⟨instant + duration, later, below, moved⟩
      · simp only [Stamp.plus, Stamp.instant, utcoffset, isZone, moved,
          keeps.read _ later below]
        exact Int.add_sub_cancel _ _

include withinOther

theorem Within.before_iff : stamp.before zone other = true ↔
    stamp.instant zone < other.instant zone := by
  unfold Stamp.before
  split
  · rename_i isZone isOther
    rw [within.reading keeps isZone, withinOther.reading keeps isOther,
      decide_eq_true_eq]
    exact Int.add_lt_add_iff_right _
  · exact decide_eq_true_iff

theorem Within.atMost_iff : stamp.atMost zone other = true ↔
    stamp.instant zone ≤ other.instant zone := by
  unfold Stamp.atMost
  split
  · rename_i isZone isOther
    rw [within.reading keeps isZone, withinOther.reading keeps isOther,
      decide_eq_true_eq]
    exact Int.add_le_add_iff_right _
  · exact decide_eq_true_iff

theorem Within.same_iff : stamp.same zone other = true ↔
    stamp.instant zone = other.instant zone := by
  unfold Stamp.same
  split
  · rename_i isZone isOther
    rw [within.reading keeps isZone, withinOther.reading keeps isOther,
      decide_eq_true_eq]
    exact Int.add_left_inj _
  · rw [within.problematic keeps, withinOther.problematic keeps]
    exact decide_eq_true_iff

end Within

end Stamp

end Sqlery.Calendar
