import RegisterMachine.Fault

namespace RegisterMachine

/-- Two numbers brought to the kind in which they are combined. -/
inductive Promoted
  | double (x y : Double)
  | int (x y : Int32)
  | byte (x y : Int8)
  | long (x y : Int64)

namespace Value

/-- The number of a numeric value as a long; the promotion rules ask this of integers only. -/
def asLong : Value → Int64
  | byte v => v.toInt64
  | int v => v.toInt64
  | long v => v
  | _ => 0

/-- A double makes the result a double. Two ints or two bytes stay what they are, and other
integers meet as longs. -/
def promote (op : ArithmeticOp) (a b : Value) : Except Fault Promoted :=
  match a.double?, b.double? with
  | none, _ => .error (.typeMismatch (.arithmetic op) .numeric a.kind)
  | some _, none => .error (.typeMismatch (.arithmetic op) .numeric b.kind)
  | some x, some y =>
    match a, b with
    | double _, _ => .ok (.double x y)
    | _, double _ => .ok (.double x y)
    | int x, int y => .ok (.int x y)
    | byte x, byte y => .ok (.byte x y)
    | _, _ => .ok (.long a.asLong b.asLong)

/-- Whether a value is a string. -/
def isString : Value → Bool
  | string _ => true
  | _ => false

/-- The sum of two numbers. A string on either side joins the texts of both. -/
def add (a b : Value) : Except Fault Value :=
  if a.isString || b.isString then Value.ofText (a.text ++ b.text)
  else
    match promote .add a b with
    | .error fault => .error fault
    | .ok (.double x y) => .ok (.double (x.add y))
    | .ok (.int x y) => .ok (.int (x + y))
    | .ok (.byte x y) => .ok (.byte (x + y))
    | .ok (.long x y) => .ok (.long (x + y))

/-- The difference of two numbers, wrapped to their kind. -/
def sub (a b : Value) : Except Fault Value :=
  match promote .sub a b with
  | .error fault => .error fault
  | .ok (.double x y) => .ok (.double (x.sub y))
  | .ok (.int x y) => .ok (.int (x - y))
  | .ok (.byte x y) => .ok (.byte (x - y))
  | .ok (.long x y) => .ok (.long (x - y))

/-- The product of two numbers, wrapped to their kind. -/
def mul (a b : Value) : Except Fault Value :=
  match promote .mul a b with
  | .error fault => .error fault
  | .ok (.double x y) => .ok (.double (x.mul y))
  | .ok (.int x y) => .ok (.int (x * y))
  | .ok (.byte x y) => .ok (.byte (x * y))
  | .ok (.long x y) => .ok (.long (x * y))

/-- An int or a double that is zero, which is refused as a divisor whatever is divided. -/
def isZeroDivisor : Value → Bool
  | int v => v == 0
  | double v => v.isZero
  | _ => false

/-- The quotient, rounded toward zero for integers. Other zeros than those of `isZeroDivisor` are
refused when integers are divided by them. -/
def div (a b : Value) : Except Fault Value :=
  match promote .div a b with
  | .error fault => .error fault
  | .ok numbers =>
    if b.isZeroDivisor then .error .divisionByZero
    else
      match numbers with
      | .double x y => .ok (.double (x.div y))
      | .int x y => .ok (.int (x / y))
      | .byte x y => if y = 0 then .error (.nativeDivision .byte) else .ok (.byte (x / y))
      | .long x y => if y = 0 then .error (.nativeDivision .long) else .ok (.long (x / y))

end Value

/-- The result of an arithmetic instruction. -/
def ArithmeticOp.apply : ArithmeticOp → Value → Value → Except Fault Value
  | add => Value.add
  | sub => Value.sub
  | mul => Value.mul
  | div => Value.div

end RegisterMachine
