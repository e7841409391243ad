import Sqlery.Network.Frames

/-!
# Frames through a pipe

`write_all` and `read_frame`, over a pipe that takes and gives bytes in pieces
of any size.  A read waits for a byte or for the end of the stream, so what a
reader sees are the bytes written, in some pieces, whenever they were written.
-/

namespace Sqlery.Network

/-! ## The pipe -/

/-- The bytes on their way, and the sizes of the pieces to come at each end. -/
structure Pipe where
  bytes : List UInt8 := []
  accepts : Nat → Nat
  delivers : Nat → Nat

/-- A piece is as large as the pipe likes, but at least a byte. -/
def piece (sizes : Nat → Nat) (most : Nat) : Nat :=
  min most (max 1 (sizes 0))

theorem piece_pos (sizes : Nat → Nat) {most : Nat} (some : most ≠ 0) :
    0 < piece sizes most := by
  unfold piece
  omega

theorem piece_le (sizes : Nat → Nat) (most : Nat) :
    piece sizes most ≤ most :=
  Nat.min_le_left _ _

/-- `os.write`, which returns how many bytes it took. -/
def osWrite (pipe : Pipe) (data : List UInt8) : Nat × Pipe :=
  let count := piece pipe.accepts data.length
  (count, { pipe with
    bytes := pipe.bytes ++ data.take count
    accepts := fun call => pipe.accepts (call + 1) })

/-- `os.read`, of nothing when the writer has closed. -/
def osRead (pipe : Pipe) (size : Nat) : List UInt8 × Pipe :=
  let count := piece pipe.delivers size
  (pipe.bytes.take count, { pipe with
    bytes := pipe.bytes.drop count
    delivers := fun call => pipe.delivers (call + 1) })

theorem osWrite_shorter {pipe : Pipe} {view : List UInt8}
    (some : view ≠ []) :
    (view.drop (osWrite pipe view).1).length < view.length := by
  have length := List.length_pos_iff.mpr some
  have taken := piece_pos pipe.accepts (Nat.pos_iff_ne_zero.mp length)
  simp only [osWrite, List.length_drop]
  omega

def writeAll (pipe : Pipe) (view : List UInt8) : Pipe :=
  if view = [] then pipe
  else
    let written := osWrite pipe view
    writeAll written.2 (view.drop written.1)
termination_by view.length
decreasing_by exact osWrite_shorter ‹_›

theorem osRead_fewer {pipe : Pipe} {size : Nat} (wants : size ≠ 0)
    (some : (osRead pipe size).1 ≠ []) :
    size - (osRead pipe size).1.length < size := by
  have length := List.length_pos_iff.mpr some
  omega

/-- `_read_exact`, with the chunks it has. -/
def readExact (pipe : Pipe) (size : Nat) (chunks : List (List UInt8)) :
    Option (List UInt8) × Pipe :=
  if size = 0 then (some chunks.flatten, pipe)
  else
    let read := osRead pipe size
    if read.1 = [] then (none, read.2)
    else readExact read.2 (size - read.1.length) (chunks ++ [read.1])
termination_by size
decreasing_by exact osRead_fewer ‹_› ‹_›

variable {Object : Type}

/-- An object is `none` where it is Python's `None`.  There is no result when
`pickle.loads` raises. -/
def readFrame (pickle : Pickle (Option Object)) (pipe : Pipe) :
    Option (Option Object) × Pipe :=
  match readExact pipe 4 [] with
  | (none, rest) => (some none, rest)
  | (some header, rest) =>
      match readExact rest (headerSize header) [] with
      | (none, rest) => (some none, rest)
      | (some payload, rest) => (pickle.loads payload, rest)

/-- The objects go through the pipe one after the other. -/
def writeObjects (pickle : Pickle (Option Object)) (pipe : Pipe) :
    List Object → Option Pipe
  | [] => some pipe
  | object :: objects =>
      match pickle.encodeFrame (some object) with
      | some data => writeObjects pickle (writeAll pipe data) objects
      | none => none

/-- The results of so many calls of `read_frame`. -/
def readFrames (pickle : Pickle (Option Object)) :
    Nat → Pipe → List (Option (Option Object))
  | 0, _ => []
  | calls + 1, pipe =>
      let read := readFrame pickle pipe
      read.1 :: readFrames pickle calls read.2

/-! ## Writing -/

theorem bytes_osWrite (pipe : Pipe) (view : List UInt8) :
    (osWrite pipe view).2.bytes ++ view.drop (osWrite pipe view).1 =
      pipe.bytes ++ view := by
  simp only [osWrite, List.append_assoc, List.take_append_drop]

theorem bytes_writeAll (pipe : Pipe) (view : List UInt8) :
    (writeAll pipe view).bytes = pipe.bytes ++ view := by
  induction pipe, view using writeAll.induct with
  | case1 pipe => simp [writeAll]
  | case2 pipe view some written induction =>
      rw [writeAll, if_neg some, induction]
      exact bytes_osWrite pipe view

/-! ## Reading so many bytes -/

theorem osRead_append (pipe : Pipe) (size : Nat) :
    (osRead pipe size).1 ++ (osRead pipe size).2.bytes = pipe.bytes :=
  List.take_append_drop _ _

theorem length_osRead_le (pipe : Pipe) (size : Nat) :
    (osRead pipe size).1.length ≤ size := by
  have most := piece_le pipe.delivers size
  simp only [osRead, List.length_take]
  omega

/-- Nothing is read only at the end of the stream. -/
theorem bytes_of_osRead_nil {pipe : Pipe} {size : Nat} (wants : size ≠ 0)
    (nothing : (osRead pipe size).1 = []) : pipe.bytes = [] := by
  have least := piece_pos pipe.delivers wants
  rcases List.take_eq_nil_iff.mp nothing with zero | empty
  · omega
  · exact empty

theorem bytes_readExact (pipe : Pipe) (size : Nat)
    (chunks : List (List UInt8)) :
    (readExact pipe size chunks).2.bytes = pipe.bytes.drop size := by
  induction pipe, size, chunks using readExact.induct with
  | case1 pipe chunks => simp [readExact]
  | case2 pipe size chunks wants read nothing =>
      have none := bytes_of_osRead_nil wants nothing
      rw [readExact, if_neg wants, if_pos nothing, none]
      simp [osRead, none]
  | case3 pipe size chunks wants read some induction =>
      have whole := osRead_append pipe size
      have length := length_osRead_le pipe size
      rw [readExact, if_neg wants, if_neg some, induction, ← whole,
        List.drop_append, List.drop_of_length_le length, List.nil_append]

/-- The bytes wanted, once there are enough of them, and `None` otherwise. -/
theorem readExact_value (pipe : Pipe) (size : Nat)
    (chunks : List (List UInt8)) :
    (readExact pipe size chunks).1 =
      if size ≤ pipe.bytes.length then
        some (chunks.flatten ++ pipe.bytes.take size)
      else none := by
  induction pipe, size, chunks using readExact.induct with
  | case1 pipe chunks => simp [readExact]
  | case2 pipe size chunks wants read nothing =>
      have none := bytes_of_osRead_nil wants nothing
      rw [readExact, if_neg wants, if_pos nothing, none]
      simp [wants]
  | case3 pipe size chunks wants read some induction =>
      have whole := osRead_append pipe size
      have length := length_osRead_le pipe size
      have enough : size - read.1.length ≤ read.2.bytes.length ↔
          size ≤ pipe.bytes.length := by
        rw [← whole, List.length_append, Nat.sub_le_iff_le_add,
          Nat.add_comm]
      have bytes : read.1 ++ read.2.bytes.take (size - read.1.length) =
          pipe.bytes.take size := by
        rw [← whole, List.take_append, List.take_of_length_le length]
      rw [readExact, if_neg wants, if_neg some, induction, List.flatten_append]
      simp only [enough, List.flatten_cons, List.flatten_nil, List.append_nil,
        List.append_assoc, bytes]

theorem readExact_enough {pipe : Pipe} {size : Nat} {taken rest : List UInt8}
    (bytes : pipe.bytes = taken ++ rest) (length : taken.length = size) :
    ∃ after, readExact pipe size [] = (some taken, after) ∧
      after.bytes = rest := by
  refine ⟨(readExact pipe size []).2, ?_, ?_⟩
  · have enough : size ≤ pipe.bytes.length := by
      rw [bytes, List.length_append]
      omega
    have value := readExact_value pipe size []
    rw [if_pos enough, bytes, List.take_left' length] at value
    exact Prod.ext value rfl
  · rw [bytes_readExact, bytes, List.drop_left' length]

theorem readExact_short {pipe : Pipe} {size : Nat}
    (short : pipe.bytes.length < size) :
    ∃ after, readExact pipe size [] = (none, after) ∧ after.bytes = [] := by
  refine ⟨(readExact pipe size []).2, ?_, ?_⟩
  · have value := readExact_value pipe size []
    rw [if_neg (Nat.not_le_of_lt short)] at value
    exact Prod.ext value rfl
  · rw [bytes_readExact]
    exact List.drop_of_length_le short.le

/-! ## Reading a frame -/

variable {pickle : Pickle (Option Object)}

/-- What a header of this size is followed by. -/
theorem readFrame_header {pipe middle : Pipe} {got : List UInt8} {size : Nat}
    (isHeader : readExact pipe 4 [] = (some got, middle))
    (isSize : headerSize got = size) :
    readFrame pickle pipe =
      match readExact middle size [] with
      | (none, rest) => (some none, rest)
      | (some payload, rest) => (pickle.loads payload, rest) := by
  subst isSize
  rw [readFrame, isHeader]

variable (pickle)

theorem readFrame_frame {pipe : Pipe} {payload rest : List UInt8}
    (short : payload.length < 2 ^ 32)
    (bytes : pipe.bytes = frame payload ++ rest) :
    ∃ after, readFrame pickle pipe = (pickle.loads payload, after) ∧
      after.bytes = rest := by
  have parts : pipe.bytes =
      header payload.length ++ (payload ++ rest) := by
    rw [bytes, frame, List.append_assoc]
  obtain ⟨middle, isHeader, following⟩ := readExact_enough parts
    (length_header payload.length)
  obtain ⟨after, isPayload, last⟩ := readExact_enough following rfl
  refine ⟨after, ?_, last⟩
  rw [readFrame_header isHeader (headerSize_header short), isPayload]

/-- A frame that was cut off is read as the end of the stream. -/
theorem readFrame_part {pipe : Pipe} {payload : List UInt8}
    (short : payload.length < 2 ^ 32) (part : pipe.bytes <+: frame payload)
    (less : pipe.bytes.length < (frame payload).length) :
    ∃ after, readFrame pickle pipe = (some none, after) ∧
      after.bytes = [] := by
  by_cases few : pipe.bytes.length < 4
  · obtain ⟨after, isNone, empty⟩ := readExact_short few
    refine ⟨after, ?_, empty⟩
    simp only [readFrame, isNone]
  · have leads : header payload.length <+: pipe.bytes :=
      List.prefix_of_prefix_length_le (List.prefix_append _ _) part
        (by rw [length_header]; omega)
    obtain ⟨got, parts⟩ := leads
    obtain ⟨middle, isHeader, following⟩ := readExact_enough parts.symm
      (length_header payload.length)
    have missing : middle.bytes.length < payload.length := by
      rw [length_frame, ← parts, List.length_append, length_header] at less
      rw [following]
      omega
    obtain ⟨after, isNone, empty⟩ := readExact_short missing
    refine ⟨after, ?_, empty⟩
    rw [readFrame_header isHeader (headerSize_header short), isNone]

theorem readFrame_end {pipe : Pipe} (empty : pipe.bytes = []) :
    ∃ after, readFrame pickle pipe = (some none, after) ∧
      after.bytes = [] := by
  have part : pipe.bytes <+: frame [] := by
    rw [empty]
    exact List.nil_prefix
  apply readFrame_part pickle _ part
  · simp [empty]
  · simp

variable {pickle}

/-! ## Reading frame after frame -/

/-- However often `read_frame` is called, it returns the objects one by one
and then `None`. -/
def Receives (pickle : Pickle (Option Object)) (pipe : Pipe)
    (objects : List Object) : Prop :=
  ∀ calls, readFrames pickle calls pipe =
    ((objects.map some ++ List.replicate calls none).take calls).map some

theorem Receives.nil {pipe after : Pipe}
    (ends : readFrame pickle pipe = (some none, after))
    (empty : after.bytes = []) : Receives pickle pipe [] := by
  intro calls
  induction calls generalizing pipe after with
  | zero => rfl
  | succ calls induction =>
      obtain ⟨later, endsAgain, isEmpty⟩ := readFrame_end pickle empty
      have rest := induction endsAgain isEmpty
      simp only [readFrames, ends, rest]
      simp [List.replicate_succ]

theorem Receives.cons {pipe after : Pipe} {object : Object}
    {objects : List Object}
    (read : readFrame pickle pipe = (some (some object), after))
    (rest : Receives pickle after objects) :
    Receives pickle pipe (object :: objects) := by
  intro calls
  cases calls with
  | zero => rfl
  | succ calls =>
      have later := rest calls
      have fits : ((objects.map some ++
          List.replicate (calls + 1) none).take calls) =
            (objects.map some ++ List.replicate calls none).take calls := by
        rw [List.replicate_succ', ← List.append_assoc,
          List.take_append_of_le_length]
        simp
      simp only [readFrames, read, later, List.map_cons, List.cons_append,
        List.take_succ_cons, fits]

/-! ## The round trip -/

/-- The bytes of the objects' frames. -/
def stream (pickle : Pickle (Option Object)) (objects : List Object) :
    List UInt8 :=
  objects.flatMap fun object =>
    (pickle.encodeFrame (some object)).getD []

/-- The object can be pickled, in a size that fits into the header. -/
def Fits (pickle : Pickle (Option Object)) (object : Object) : Prop :=
  ∃ payload, pickle.dumps (some object) = some payload ∧
    payload.length < 2 ^ 32

theorem encodeFrame_of_dumps {object : Object} {payload : List UInt8}
    (dumped : pickle.dumps (some object) = some payload)
    (short : payload.length < 2 ^ 32) :
    pickle.encodeFrame (some object) = some (frame payload) := by
  simp only [Pickle.encodeFrame, dumped, if_pos short]

theorem stream_cons {object : Object} {payload : List UInt8}
    (dumped : pickle.dumps (some object) = some payload)
    (short : payload.length < 2 ^ 32) (objects : List Object) :
    stream pickle (object :: objects) =
      frame payload ++ stream pickle objects := by
  simp only [stream, List.flatMap_cons, encodeFrame_of_dumps dumped short,
    Option.getD_some]

theorem writeObjects_stream {objects : List Object}
    (fits : ∀ object ∈ objects, Fits pickle object) (pipe : Pipe) :
    ∃ written, writeObjects pickle pipe objects = some written ∧
      written.bytes = pipe.bytes ++ stream pickle objects := by
  induction objects generalizing pipe with
  | nil => exact ⟨pipe, rfl, by simp [stream]⟩
  | cons object objects induction =>
      obtain ⟨payload, dumped, short⟩ := fits object List.mem_cons_self
      obtain ⟨written, isWritten, bytes⟩ := induction
        (fun other member => fits other (List.mem_cons_of_mem _ member))
        (writeAll pipe (frame payload))
      refine ⟨written, ?_, ?_⟩
      · simp only [writeObjects, encodeFrame_of_dumps dumped short, isWritten]
      · rw [bytes, bytes_writeAll, stream_cons dumped short,
          List.append_assoc]

theorem receives_stream {objects : List Object}
    (fits : ∀ object ∈ objects, Fits pickle object) {pipe : Pipe}
    (bytes : pipe.bytes = stream pickle objects) :
    Receives pickle pipe objects := by
  induction objects generalizing pipe with
  | nil =>
      obtain ⟨after, ends, empty⟩ := readFrame_end pickle bytes
      exact .nil ends empty
  | cons object objects induction =>
      obtain ⟨payload, dumped, short⟩ := fits object List.mem_cons_self
      rw [stream_cons dumped short] at bytes
      obtain ⟨after, read, rest⟩ := readFrame_frame pickle short bytes
      rw [pickle.loads_dumps _ _ dumped] at read
      apply Receives.cons read
      exact induction
        (fun other member => fits other (List.mem_cons_of_mem _ member)) rest

/-- The frames of the first `count` objects are complete in `cut`, and that of
the next one is not. -/
structure Complete (pickle : Pickle (Option Object)) (objects : List Object)
    (cut : List UInt8) (count : Nat) : Prop where
  fewer : count < objects.length
  complete : stream pickle (objects.take count) <+: cut
  next : ¬stream pickle (objects.take (count + 1)) <+: cut

theorem receives_cut {objects : List Object}
    (fits : ∀ object ∈ objects, Fits pickle object) {pipe : Pipe}
    (part : pipe.bytes <+: stream pickle objects)
    (less : pipe.bytes ≠ stream pickle objects) :
    ∃ count, Complete pickle objects pipe.bytes count ∧
      Receives pickle pipe (objects.take count) := by
  induction objects generalizing pipe with
  | nil => exact (less (List.prefix_nil.mp part)).elim
  | cons object objects induction =>
      obtain ⟨payload, dumped, short⟩ := fits object List.mem_cons_self
      rw [stream_cons dumped short] at part less
      by_cases cutOff : pipe.bytes.length < (frame payload).length
      · have within : pipe.bytes <+: frame payload :=
          List.prefix_of_prefix_length_le part (List.prefix_append _ _)
            cutOff.le
        obtain ⟨after, ends, empty⟩ := readFrame_part pickle short within
          cutOff
        refine ⟨0, ⟨Nat.succ_pos _, List.nil_prefix, ?_⟩, .nil ends empty⟩
        intro complete
        rw [List.take_succ_cons, stream_cons dumped short] at complete
        have long := complete.length_le
        rw [List.length_append] at long
        omega
      · have leads : frame payload <+: pipe.bytes :=
          List.prefix_of_prefix_length_le (List.prefix_append _ _) part
            (Nat.le_of_not_lt cutOff)
        obtain ⟨got, parts⟩ := leads
        obtain ⟨after, read, rest⟩ := readFrame_frame pickle short parts.symm
        rw [pickle.loads_dumps _ _ dumped] at read
        rw [← parts] at part less
        have partAfter : after.bytes <+: stream pickle objects := by
          rw [rest]
          exact (List.prefix_append_right_inj _).mp part
        have lessAfter : after.bytes ≠ stream pickle objects := by
          intro same
          exact less (by rw [← rest, same])
        obtain ⟨count, cut, receives⟩ := induction
          (fun other member => fits other (List.mem_cons_of_mem _ member))
          partAfter lessAfter
        rw [rest] at cut
        refine ⟨count + 1, ?_, Receives.cons read receives⟩
        constructor
        · exact Nat.succ_lt_succ cut.fewer
        · rw [List.take_succ_cons, stream_cons dumped short, ← parts]
          exact (List.prefix_append_right_inj _).mpr cut.complete
        · rw [List.take_succ_cons, stream_cons dumped short, ← parts]
          intro complete
          exact cut.next ((List.prefix_append_right_inj _).mp complete)

/-- The objects read are the objects written and, when the stream breaks off,
those of them that came whole. -/
theorem readFrames_writeObjects (pickle : Pickle (Option Object))
    (objects : List Object) (fits : ∀ object ∈ objects, Fits pickle object)
    (accepts delivers : Nat → Nat) :
    ∃ written, writeObjects pickle { accepts, delivers } objects =
        some written ∧
      Receives pickle written objects ∧
      ∀ cut, cut <+: written.bytes → cut ≠ written.bytes →
        ∃ count, Complete pickle objects cut count ∧
          Receives pickle { written with bytes := cut }
            (objects.take count) := by
  obtain ⟨written, isWritten, bytes⟩ := writeObjects_stream fits
    { accepts, delivers }
  rw [List.nil_append] at bytes
  refine ⟨written, isWritten, receives_stream fits bytes, ?_⟩
  intro cut part less
  rw [bytes] at part less
  have broken : ({ written with bytes := cut } : Pipe).bytes <+:
      stream pickle objects := part
  exact receives_cut fits broken less

/-- A pickle of answers, in one byte or in three. -/
def pickleAnswers : Pickle (Option Bool) where
  dumps answer :=
    match answer with
    | none => some [0]
    | some false => some [1]
    | some true => some [2, 7, 9]
  loads payload :=
    match payload with
    | [0] => some none
    | [1] => some (some false)
    | [2, 7, 9] => some (some true)
    | _ => none
  loads_dumps := by
    intro answer payload dumped
    rcases answer with _ | _ | _ <;> cases dumped <;> rfl

theorem readFrames_writeObjects_answers :
    ∃ written, writeObjects pickleAnswers
        { accepts := fun _ => 1, delivers := fun call => call }
        [true, false, true] = some written ∧
      Receives pickleAnswers written [true, false, true] ∧
      ∀ cut, cut <+: written.bytes → cut ≠ written.bytes →
        ∃ count, Complete pickleAnswers [true, false, true] cut count ∧
          Receives pickleAnswers { written with bytes := cut }
            ([true, false, true].take count) := by
  apply readFrames_writeObjects
  intro answer _
  cases answer
  · exact ⟨[1], rfl, by decide⟩
  · exact ⟨[2, 7, 9], rfl, by decide⟩

end Sqlery.Network
