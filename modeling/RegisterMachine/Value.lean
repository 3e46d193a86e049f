import RegisterMachine.Double.Printer

namespace RegisterMachine

/-- The six kinds of values. -/
inductive Kind
  | byte
  | int
  | long
  | double
  | string
  | boolean
  deriving DecidableEq, Repr

namespace Kind

/-- The byte that announces a value of this kind. -/
def tag : Kind → UInt8
  | byte => 1
  | int => 2
  | long => 3
  | double => 4
  | string => 5
  | boolean => 6

/-- The kind that a byte announces. -/
def ofTag? : UInt8 → Option Kind
  | 1 => some byte
  | 2 => some int
  | 3 => some long
  | 4 => some double
  | 5 => some string
  | 6 => some boolean
  | _ => none

/-- The name that error texts use. -/
def name : Kind → String
  | byte => "byte"
  | int => "int"
  | long => "long"
  | double => "double"
  | string => "string"
  | boolean => "boolean"

@[simp]
theorem ofTag?_tag (k : Kind) : ofTag? k.tag = some k := by
  cases k <;> rfl

/-- Only the tag of a kind is read as that kind. -/
theorem eq_tag_of_ofTag? {b : UInt8} {k : Kind} (h : ofTag? b = some k) : b = k.tag := by
  unfold ofTag? at h
  split at h <;> simp_all <;> subst h <;> rfl

end Kind

/-- A value of the machine. -/
inductive Value
  | byte (v : Int8)
  | int (v : Int32)
  | long (v : Int64)
  | double (v : Double)
  | string (s : String)
  | bool (b : Bool)
  deriving DecidableEq, Repr

namespace Value

/-- The kind of a value. -/
def kind : Value → Kind
  | byte _ => .byte
  | int _ => .int
  | long _ => .long
  | double _ => .double
  | string _ => .string
  | bool _ => .boolean

/-- The number of bytes that a string may have. -/
def maxStringLength : Nat := 255

/-- Whether a value keeps to the limit on strings. -/
def Fits : Value → Prop
  | string s => s.utf8ByteSize ≤ maxStringLength
  | _ => True

instance : DecidablePred Fits := fun v => by
  cases v <;> unfold Fits <;> infer_instance

/-- The length of a string that exceeds the limit. -/
def tooLong? : Value → Option Nat
  | string s => if maxStringLength < s.utf8ByteSize then some s.utf8ByteSize else none
  | _ => none

/-- The text that a value is printed as. -/
def text : Value → String
  | byte v => toString v.toInt
  | int v => toString v.toInt
  | long v => toString v.toInt
  | double v => v.text
  | string s => s
  | bool b => if b then "true" else "false"

/-- The number that an integer value stands for. -/
def integer? : Value → Option Int
  | byte v => some v.toInt
  | int v => some v.toInt
  | long v => some v.toInt
  | _ => none

/-- A number as a double. -/
def double? : Value → Option Double
  | byte v => some (Double.ofInt v.toInt)
  | int v => some (Double.ofInt v.toInt)
  | long v => some (Double.ofInt v.toInt)
  | double v => some v
  | string _ => none
  | bool _ => none

/-- How a number compares with zero. -/
def sign? : Value → Option Sign
  | byte v => some (Sign.ofInt v.toInt)
  | int v => some (Sign.ofInt v.toInt)
  | long v => some (Sign.ofInt v.toInt)
  | double v => some v.sign
  | string _ => none
  | bool _ => none

/-- An integer as an exit status; of a long the lowest 32 bits count. -/
def status? : Value → Option Int32
  | byte v => some v.toInt32
  | int v => some v
  | long v => some v.toInt32
  | _ => none

end Value

end RegisterMachine
