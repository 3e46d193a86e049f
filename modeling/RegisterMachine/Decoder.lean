import RegisterMachine.Numeral

namespace RegisterMachine

/-- Why bytes could not be decoded. -/
inductive DecodeError
  | unexpectedEnd
  | truncated (expected remaining : Nat)
  | invalidValue
  | lengthOverflow
  | unknownTag (tag : UInt8)
  | invalidUtf8
  deriving DecidableEq, Repr

/-- The text that reports a decoding error. -/
def DecodeError.message : DecodeError → String
  | unexpectedEnd => "unexpected end of input"
  | truncated expected remaining =>
    s!"truncated payload: expected {expected} bytes, {remaining} remaining"
  | invalidValue => "invalid value"
  | lengthOverflow => "length prefix too large"
  | unknownTag tag => "unknown type tag " ++ Numeral.hexByte tag
  | invalidUtf8 => "string payload is not valid UTF-8"

/-- A decoder takes bytes from the front of its input. What it has taken stays taken when a
later part fails. -/
abbrev Decoder (α : Type) : Type := EStateM DecodeError (List UInt8) α

/-- The first `n` entries of a list and the rest, when there are that many. -/
def splitExactly {α : Type} : Nat → List α → Option (List α × List α)
  | 0, xs => some ([], xs)
  | _ + 1, [] => none
  | n + 1, x :: xs => (splitExactly n xs).map fun (taken, rest) => (x :: taken, rest)

theorem splitExactly_eq {α : Type} (n : Nat) (xs : List α) :
    splitExactly n xs = if n ≤ xs.length then some (xs.take n, xs.drop n) else none := by
  induction n generalizing xs with
  | zero => simp [splitExactly]
  | succ n ih =>
    cases xs with
    | nil => simp [splitExactly]
    | cons x xs =>
      simp only [splitExactly, ih, List.length_cons, Nat.add_le_add_iff_right]
      split <;> simp

namespace Decoder

/-- Takes exactly `n` bytes, or none of them. -/
def take (n : Nat) : Decoder (List UInt8) := fun input =>
  match splitExactly n input with
  | some (taken, rest) => .ok taken rest
  | none => .error .unexpectedEnd input

/-- Takes one byte. -/
def byte : Decoder UInt8
  | b :: rest => .ok b rest
  | [] => .error .unexpectedEnd []

/-- The number of bytes not taken yet. -/
def remaining : Decoder Nat := fun input => .ok input.length input

/-- Decodes `n` entries after those in `taken`, which has the latest first. -/
def timesFrom {α : Type} (entry : Decoder α) : Nat → List α → Decoder (List α)
  | 0, taken => fun input => .ok taken.reverse input
  | n + 1, taken => fun input =>
    match entry input with
    | .ok x rest => timesFrom entry n (x :: taken) rest
    | .error e rest => .error e rest

/-- Decodes `n` entries one after the other. -/
def times {α : Type} (entry : Decoder α) (n : Nat) : Decoder (List α) :=
  timesFrom entry n []

/-- Decodes all of `input`; bytes left over make the value invalid. -/
def whole {α : Type} (decoder : Decoder α) (input : List UInt8) : Except DecodeError α :=
  match decoder input with
  | .ok x [] => .ok x
  | .ok _ (_ :: _) => .error .invalidValue
  | .error e _ => .error e

end Decoder

end RegisterMachine
