import RegisterMachine.Assembly.Problem
import RegisterMachine.Double.Reader
import RegisterMachine.Operand

namespace RegisterMachine

namespace Literal

/-- The number behind the letter of a register. -/
def registerNumber? : List Char → Option Nat
  | 'R' :: digits => Numeral.natural? digits
  | _ => none

/-- A register, `R` and a number of at most 255. -/
def register (token : String) : Except Problem UInt8 :=
  match (registerNumber? token.toList).bind Numeral.byte? with
  | some index => .ok index
  | none => .error (.invalidRegister token)

/-- The digits of a hexadecimal literal. -/
def hexDigits? : List Char → Option (List Char)
  | '0' :: 'x' :: digits => some digits
  | '0' :: 'X' :: digits => some digits
  | _ => none

/-- The text between the quotes of a string literal, given from behind the opening quote. -/
def quoted? (rest : List Char) : Option String :=
  match rest.reverse with
  | '"' :: body => if body.contains '"' then none else some (String.ofList body.reverse)
  | _ => none

/-- The characters before a last one that is either of the given two. -/
def beforeSuffix? (upper lower : Char) (cs : List Char) : Option (List Char) :=
  match cs.reverse with
  | c :: body => if c = upper ∨ c = lower then some body.reverse else none
  | [] => none

/-- A decimal integer of at most 64 bits. -/
def long? (cs : List Char) : Option Value :=
  ((Numeral.integer? cs).bind
    (Numeral.within? Int64.minValue.toInt Int64.maxValue.toInt)).map fun n => .long (Int64.ofInt n)

/-- A decimal integer, which is a byte if it can be and an int otherwise. -/
def plainInteger? (cs : List Char) : Option Value :=
  match Numeral.integer? cs with
  | none => none
  | some n =>
    if -128 ≤ n ∧ n ≤ 127 then some (.byte (Int8.ofInt n))
    else
      (Numeral.within? Int32.minValue.toInt Int32.maxValue.toInt n).map fun n =>
        .int (Int32.ofInt n)

/-- Literals other than strings. A hexadecimal byte is told by how it begins, so it may end in
`D`. -/
def simple? (cs : List Char) : Option Value :=
  match hexDigits? cs with
  | some digits => ((Numeral.hexadecimal? digits).bind Numeral.byte?).map fun b => .byte b.toInt8
  | none =>
    match beforeSuffix? 'L' 'l' cs with
    | some digits => long? digits
    | none =>
      match beforeSuffix? 'D' 'd' cs with
      | some digits => (Double.read? digits).map .double
      | none =>
        if cs = "true".toList then some (.bool true)
        else if cs = "false".toList then some (.bool false)
        else plainInteger? cs

/-- A literal value. -/
def value (token : String) : Except Problem Value :=
  match token.toList with
  | '"' :: rest =>
    match quoted? rest with
    | none => .error (.invalidLiteral token)
    | some text =>
      match (Value.string text).tooLong? with
      | some length => .error (.stringTooLong length)
      | none => .ok (.string text)
  | cs =>
    match simple? cs with
    | some v => .ok v
    | none => .error (.invalidLiteral token)

/-- A register or a literal. What has the shape of a register is never taken for a literal. -/
def operand (token : String) : Except Problem Operand :=
  match registerNumber? token.toList with
  | some _ => (register token).map .register
  | none => (value token).map .value

/-- The number that an address is read as, of whatever size. -/
def addressNumber? (cs : List Char) : Option Nat :=
  match hexDigits? cs with
  | some digits => Numeral.hexadecimal? digits
  | none => Numeral.unsigned? cs

/-- A memory address, a number of one byte. -/
def address (token : String) : Except Problem UInt8 :=
  match (addressNumber? token.toList).bind Numeral.byte? with
  | some a => .ok a
  | none => .error (.invalidAddress token)

end Literal

end RegisterMachine
