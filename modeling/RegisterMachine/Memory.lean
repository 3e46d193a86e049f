import RegisterMachine.Fault
import RegisterMachine.Value.Codec

namespace RegisterMachine

/-- Memory of `capacity` bytes. Those behind the last one ever written are zero and are not kept. -/
structure Memory where
  capacity : Nat
  written : List UInt8
  deriving DecidableEq, Repr

namespace Memory

/-- Memory of zeros. -/
def zeroed (capacity : Nat) : Memory := ⟨capacity, []⟩

/-- The byte at an address. -/
def byteAt (m : Memory) (address : Nat) : UInt8 := m.written.getD address 0

/-- The first `count` bytes from an address on, fewer where the memory ends before. -/
def window (m : Memory) (address count : Nat) : List UInt8 :=
  let present := min count (m.capacity - address)
  ((m.written.drop address).take present).rightpad present 0

/-- Replaces the bytes from an address on. -/
def overwrite (m : Memory) (address : Nat) (bytes : List UInt8) : Memory :=
  { m with
    written := (m.written.take address).rightpad address 0 ++ bytes ++
      m.written.drop (address + bytes.length) }

/-- The most bytes that a value takes: a string with its tag and its length. -/
def widest : Nat := 2 + Value.maxStringLength

/-- The number of bytes that a value claims to take, by its tag and what is stored behind the tag. -/
def claimedWidth (tag : UInt8) (content : List UInt8) : Nat :=
  1 + match Kind.ofTag? tag with
    | some .byte => 1
    | some .boolean => 1
    | some .int => 4
    | some .long => 8
    | some .double => 8
    | some .string => 1 + (content.getD 0 0).toNat
    | none => 0

/-- Writes a value with its tag, if it fits as a whole. -/
def store (m : Memory) (address : Nat) (v : Value) : Except Fault Memory :=
  match v.tooLong? with
  | some length => .error (.stringTooLong length)
  | none =>
    let bytes := Codec.value.encode v
    if address + bytes.length ≤ m.capacity then .ok (m.overwrite address bytes)
    else .error (.addressOutOfRange address bytes.length m.capacity)

/-- Reads the value at an address. A value that the end of the memory cuts short is reported with
the width that it claims; where not even a tag is left, one byte is missed. -/
def load (m : Memory) (address : Nat) : Except Fault Value :=
  match m.window address widest with
  | [] => .error (.addressOutOfRange address 1 m.capacity)
  | tag :: content =>
    match Codec.value.decode (tag :: content) with
    | .ok v _ => .ok v
    | .error .unexpectedEnd _ =>
      .error (.addressOutOfRange address (claimedWidth tag content) m.capacity)
    | .error (.truncated _ _) _ =>
      .error (.addressOutOfRange address (claimedWidth tag content) m.capacity)
    | .error e _ => .error (Fault.ofDecodeError address e)

/-- Overwriting changes the bytes that it covers and no others. -/
theorem byteAt_overwrite (m : Memory) (address : Nat) (bytes : List UInt8) (a : Nat) :
    (m.overwrite address bytes).byteAt a =
      if address ≤ a ∧ a < address + bytes.length then bytes.getD (a - address) 0
      else m.byteAt a := by
  have front : ((m.written.take address).rightpad address 0).length = address := by
    simp only [List.rightpad, List.length_append, List.length_take, List.length_replicate]
    omega
  simp only [byteAt, overwrite, List.getD_eq_getElem?_getD, List.append_assoc]
  by_cases before : a < address
  · rw [if_neg (by omega), List.getElem?_append_left (by omega), List.rightpad]
    by_cases kept : a < m.written.length
    · rw [List.getElem?_append_left (by simp only [List.length_take]; omega), List.getElem?_take_of_lt before]
    · rw [List.getElem?_append_right (by simp only [List.length_take]; omega),
        List.getElem?_eq_none (l := m.written) (by omega), List.getElem?_replicate]
      split <;> rfl
  · rw [List.getElem?_append_right (by omega), front]
    by_cases inside : a < address + bytes.length
    · rw [if_pos (by omega), List.getElem?_append_left (by omega)]
    · rw [if_neg (by omega), List.getElem?_append_right (by omega), List.getElem?_drop]
      congr 2
      omega

/-- A window shows the bytes from its address on. -/
theorem getElem?_window (m : Memory) (address count i : Nat) :
    (m.window address count)[i]? =
      if i < min count (m.capacity - address) then some (m.byteAt (address + i)) else none := by
  simp only [window, byteAt, List.rightpad, List.getD_eq_getElem?_getD, List.getElem?_append,
    List.getElem?_take, List.getElem?_drop, List.getElem?_replicate, List.length_take,
    List.length_drop]
  grind

end Memory

end RegisterMachine
