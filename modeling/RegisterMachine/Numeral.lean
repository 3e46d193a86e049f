namespace RegisterMachine

namespace Numeral

/-- The value of a decimal digit. -/
def decimalDigit? (c : Char) : Option Nat :=
  if '0' ≤ c ∧ c ≤ '9' then some (c.toNat - '0'.toNat) else none

/-- The value of a hexadecimal digit of either case. -/
def hexDigit? (c : Char) : Option Nat :=
  if '0' ≤ c ∧ c ≤ '9' then some (c.toNat - '0'.toNat)
  else if 'a' ≤ c ∧ c ≤ 'f' then some (c.toNat - 'a'.toNat + 10)
  else if 'A' ≤ c ∧ c ≤ 'F' then some (c.toNat - 'A'.toNat + 10)
  else none

/-- Continues a positional numeral from the value read so far. -/
def readFrom (base : Nat) (digit? : Char → Option Nat) : Nat → List Char → Option Nat
  | acc, [] => some acc
  | acc, c :: cs =>
    match digit? c with
    | some d => readFrom base digit? (acc * base + d) cs
    | none => none

/-- A non-empty run of digits and nothing else. -/
def read? (base : Nat) (digit? : Char → Option Nat) : List Char → Option Nat
  | [] => none
  | cs => readFrom base digit? 0 cs

/-- The natural number written in decimal digits. -/
def natural? (cs : List Char) : Option Nat :=
  read? 10 decimalDigit? cs

/-- A decimal natural number that may carry a plus sign. -/
def unsigned? : List Char → Option Nat
  | '+' :: cs => natural? cs
  | cs => natural? cs

/-- A hexadecimal natural number that may carry a plus sign. -/
def hexadecimal? : List Char → Option Nat
  | '+' :: cs => read? 16 hexDigit? cs
  | cs => read? 16 hexDigit? cs

/-- A decimal integer that may carry either sign. -/
def integer? : List Char → Option Int
  | '-' :: cs => (natural? cs).map fun n => -(n : Int)
  | cs => (unsigned? cs).map fun n => (n : Int)

/-- The integer, when it lies between the two bounds. -/
def within? (low high : Int) (n : Int) : Option Int :=
  if low ≤ n ∧ n ≤ high then some n else none

/-- The byte with the given value, when there is one. -/
def byte? (n : Nat) : Option UInt8 :=
  if n < 256 then some (UInt8.ofNat n) else none

/-- One lower-case hexadecimal digit. -/
def hexDigit (n : Nat) : Char :=
  Nat.digitChar (n % 16)

/-- A byte as two hexadecimal digits. -/
def hexPair (b : UInt8) : String :=
  String.ofList [hexDigit (b.toNat / 16), hexDigit b.toNat]

/-- A byte as error texts show it, `0x` and two hexadecimal digits. -/
def hexByte (b : UInt8) : String :=
  "0x" ++ hexPair b

/-- `text` after as many blanks as bring it to `width` characters. -/
def padLeft (width : Nat) (text : String) : String :=
  String.ofList (List.leftpad width ' ' text.toList)

end Numeral

end RegisterMachine
