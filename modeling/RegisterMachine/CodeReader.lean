import RegisterMachine.Fault
import RegisterMachine.Sizing
import RegisterMachine.Value.Codec

namespace RegisterMachine

/-- Loaded code with a reading position. The position may be anywhere up to the capacity, but only
loaded bytes can be read. -/
structure CodeReader where
  data : List UInt8
  capacity : Nat
  cursor : Nat
  deriving DecidableEq, Repr

namespace CodeReader

/-- A reader without code that can hold `capacity` bytes. -/
def empty (capacity : Nat) : CodeReader := ⟨[], capacity, 0⟩

/-- Replaces the code and goes back to its start. -/
def load (r : CodeReader) (code : List UInt8) : Except LoadError CodeReader :=
  if r.capacity < code.length then .error (.capacityExceeded code.length r.capacity)
  else .ok { r with data := code, cursor := 0 }

/-- The number of loaded bytes. -/
def length (r : CodeReader) : Nat := r.data.length

/-- Whether every loaded byte is behind the reading position. -/
def atEnd (r : CodeReader) : Bool := r.length ≤ r.cursor

/-- A reading step. A step that fails says where it leaves the reader. -/
abbrev Reading (α : Type) : Type := EStateM Fault CodeReader α

/-- Moves the reading position. -/
def seek (position : Nat) : Reading Unit := fun r =>
  if r.capacity < position then .error (.outOfRange position r.capacity) r
  else .ok () { r with cursor := position }

/-- Reads one byte. -/
def byte : Reading UInt8 := fun r =>
  match r.data[r.cursor]? with
  | some b => .ok b { r with cursor := r.cursor + 1 }
  | none => .error (.endOfStream r.cursor) r

/-- Decodes what stands at the reading position. The position moves only on success. -/
def decode {α : Type} (decoder : Decoder α) : Reading α := fun r =>
  if r.length < r.cursor then .error (.endOfStream r.cursor) r
  else
    match decoder (r.data.drop r.cursor) with
    | .ok x rest => .ok x { r with cursor := r.length - rest.length }
    | .error e _ => .error (Fault.ofDecodeError r.cursor e) r

/-- Reads a value with its tag. -/
def value : Reading Value := decode Codec.value.decode

/-- Reads a string without a tag. A string that is cut short leaves the position where it was, one
that is no text has been passed over. -/
def string : Reading String := fun r =>
  match byte r with
  | .error fault r' => .error fault r'
  | .ok length r' =>
    let remaining := r'.length - r'.cursor
    if remaining < length.toNat then
      .error (.truncatedStream r.cursor length.toNat remaining) r
    else
      let passed := { r' with cursor := r'.cursor + length.toNat }
      match Codec.ofUtf8? ((r'.data.drop r'.cursor).take length.toNat) with
      | some s => .ok s passed
      | none => .error (.malformedValue r.cursor .invalidUtf8) passed

/-- The reader at another position. -/
def movedTo (r : CodeReader) (position : Nat) : CodeReader := { r with cursor := position }

section Steps

variable {α : Type} {r : CodeReader} {decoder : Decoder α} {rest : List UInt8}

theorem byte_of_ahead_nil (h : r.data.drop r.cursor = []) : byte r = .error (.endOfStream r.cursor) r := by
  have hb : r.data[r.cursor]? = none := by
    rw [← List.head?_drop, h]
    rfl
  simp only [byte, hb]

theorem byte_of_ahead {b : UInt8} (h : r.data.drop r.cursor = b :: rest) :
    byte r = .ok b (r.movedTo (r.cursor + 1)) := by
  have hb : r.data[r.cursor]? = some b := by
    rw [← List.head?_drop, h]
    rfl
  simp only [byte, hb, movedTo]

theorem decode_of_ok {x : α} (hc : r.cursor ≤ r.data.length) (h : decoder (r.data.drop r.cursor) = .ok x rest) :
    decode decoder r = .ok x (r.movedTo (r.data.length - rest.length)) := by
  simp only [decode, CodeReader.length, if_neg (Nat.not_lt.mpr hc), h, movedTo]

theorem decode_of_error {e : DecodeError} (hc : r.cursor ≤ r.data.length)
    (h : decoder (r.data.drop r.cursor) = .error e rest) :
    decode decoder r = .error (Fault.ofDecodeError r.cursor e) r := by
  simp only [decode, CodeReader.length, if_neg (Nat.not_lt.mpr hc), h]

end Steps

end CodeReader

end RegisterMachine
