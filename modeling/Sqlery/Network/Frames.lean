import Mathlib.Algebra.Group.Nat.Defs
import Mathlib.Data.List.Infix

/-!
# Frames

An object sent through a pipe goes as a header, which holds the size of its
pickled form, and that form.  A reader takes a frame in pieces, of which it
knows how many bytes are still wanted.
-/

namespace Sqlery.Network

/-! ## The header -/

/-- `struct.Struct("!I").pack`, of a size below `2 ^ 32`. -/
def header (size : Nat) : List UInt8 :=
  [.ofNat (size / 16777216), .ofNat (size / 65536), .ofNat (size / 256),
    .ofNat size]

/-- `struct.Struct("!I").unpack`. -/
def headerSize : List UInt8 → Nat
  | [first, second, third, fourth] =>
      first.toNat * 16777216 + second.toNat * 65536 + third.toNat * 256 +
        fourth.toNat
  | _ => 0

@[simp] theorem length_header (size : Nat) : (header size).length = 4 := rfl

theorem headerSize_header {size : Nat} (short : size < 2 ^ 32) :
    headerSize (header size) = size := by
  simp only [header, headerSize, UInt8.toNat_ofNat']
  omega

/-! ## Reading in pieces -/

def frame (payload : List UInt8) : List UInt8 :=
  header payload.length ++ payload

@[simp] theorem length_frame (payload : List UInt8) :
    (frame payload).length = payload.length + 4 := by
  simp [frame, Nat.add_comm]

/-- How many bytes the read of a frame still wants, after some of its bytes:
first the rest of the header, then the rest of the payload. -/
def wanted (got : List UInt8) : Nat :=
  if got.length < 4 then 4 - got.length
  else headerSize (got.take 4) + 4 - got.length

@[simp] theorem wanted_nil : wanted [] = 4 := rfl

/-- A part of a frame wants nothing more just when it is all of the frame. -/
theorem wanted_eq_zero_iff {got payload : List UInt8}
    (short : payload.length < 2 ^ 32) (part : got <+: frame payload) :
    wanted got = 0 ↔ got = frame payload := by
  have within := part.length_le
  rw [length_frame] at within
  have whole : got = frame payload ↔ got.length = payload.length + 4 := by
    constructor
    · intro same
      rw [same, length_frame]
    · intro same
      exact part.eq_of_length (by rw [same, length_frame])
  rw [whole]
  unfold wanted
  by_cases few : got.length < 4
  · rw [if_pos few]
    omega
  · have head : got.take 4 = header payload.length := by
      have four : (header payload.length).length = 4 := rfl
      have leads : header payload.length <+: got :=
        List.prefix_of_prefix_length_le (List.prefix_append _ _) part
          (by rw [four]; omega)
      exact (List.prefix_iff_eq_take.mp leads).symm
    rw [if_neg few, head, headerSize_header short]
    omega

/-! ## Objects -/

/-- A way to pickle objects, which may fail, and to load them again. -/
structure Pickle (Object : Type) where
  dumps : Object → Option (List UInt8)
  loads : List UInt8 → Option Object
  loads_dumps : ∀ object payload, dumps object = some payload →
    loads payload = some object

variable {Object : Type}

/-- `encode_frame`: it raises when the object cannot be pickled, or when its
size does not fit into the header. -/
def Pickle.encodeFrame (pickle : Pickle Object) (object : Object) :
    Option (List UInt8) :=
  match pickle.dumps object with
  | some payload =>
      if payload.length < 2 ^ 32 then some (frame payload) else none
  | none => none

/-- The end of `read_frame`, once the frame wants nothing more. -/
def Pickle.decodeFrame (pickle : Pickle Object) (got : List UInt8) :
    Option Object :=
  pickle.loads (got.drop 4)

theorem Pickle.decodeFrame_encodeFrame {pickle : Pickle Object}
    {object : Object} {bytes : List UInt8}
    (encoded : pickle.encodeFrame object = some bytes) :
    pickle.decodeFrame bytes = some object := by
  unfold Pickle.encodeFrame at encoded
  cases dumped : pickle.dumps object with
  | none => simp [dumped] at encoded
  | some payload =>
      simp only [dumped] at encoded
      split at encoded
      · cases encoded
        have loaded := pickle.loads_dumps object payload dumped
        have dropped : (frame payload).drop 4 = payload := by
          simp [frame, header]
        rw [Pickle.decodeFrame, dropped, loaded]
      · cases encoded

theorem Pickle.wanted_eq_zero_iff {pickle : Pickle Object} {object : Object}
    {bytes got : List UInt8}
    (encoded : pickle.encodeFrame object = some bytes)
    (part : got <+: bytes) : wanted got = 0 ↔ got = bytes := by
  unfold Pickle.encodeFrame at encoded
  cases dumped : pickle.dumps object with
  | none => simp [dumped] at encoded
  | some payload =>
      simp only [dumped] at encoded
      split at encoded
      · rename_i short
        cases encoded
        exact Network.wanted_eq_zero_iff short part
      · cases encoded

/-- A frame is never empty. -/
theorem Pickle.encodeFrame_ne_nil {pickle : Pickle Object} {object : Object} :
    pickle.encodeFrame object ≠ some [] := by
  intro encoded
  have nothing := (pickle.wanted_eq_zero_iff encoded List.prefix_rfl).mpr rfl
  simp at nothing

end Sqlery.Network
