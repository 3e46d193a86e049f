import RegisterMachine.Numeral
import RegisterMachine.Text.Blank

namespace RegisterMachine

/-- How large the parts of a machine are. Without a capacity the code takes what it needs. -/
structure Sizing where
  codeCapacity : Option Nat := none
  memorySize : Nat := 2 * 1024 * 1024
  registerCount : Nat := 256
  deriving DecidableEq, Repr

/-- The environment variables that set a size. -/
inductive SizeVariable
  | memory
  | registers
  | codeCapacity
  deriving DecidableEq, Repr

/-- The name of a variable in the environment. -/
def SizeVariable.name : SizeVariable → String
  | memory => "MICRO_MEMORY"
  | registers => "MICRO_REGISTERS"
  | codeCapacity => "MICRO_BYTECODE_CAPACITY"

/-- Why a sizing is refused. -/
inductive SizingError
  | notANumber (key : SizeVariable) (text : String)
  | registerCount (count : Nat)
  deriving DecidableEq, Repr

/-- The text that reports a refused sizing. -/
def SizingError.message : SizingError → String
  | notANumber key text =>
    s!"invalid configuration {key.name}={text}: expected a non-negative integer"
  | registerCount count =>
    s!"invalid configuration {SizeVariable.registers.name}={count}: " ++
      "register count must be between 1 and 256"

namespace Sizing

/-- The size that a text gives, a number of at most 64 bits with blanks around it or not. -/
def size? (text : String) : Option Nat :=
  (Numeral.unsigned? (Text.trim text.toList)).filter (· < UInt64.size)

/-- The size that a variable gives, if it is set. -/
def lookup (env : String → Option String) (key : SizeVariable) :
    Except SizingError (Option Nat) :=
  match env key.name with
  | none => .ok none
  | some text =>
    match size? text with
    | some size => .ok (some size)
    | none => .error (.notANumber key text)

/-- Register numbers are bytes, so there are at most 256 registers. There is at least one. -/
def Valid (s : Sizing) : Prop := 1 ≤ s.registerCount ∧ s.registerCount ≤ 256

instance : DecidablePred Valid := fun s => by unfold Valid; infer_instance

/-- Refuses a sizing that is not valid. -/
def validate (s : Sizing) : Except SizingError Unit :=
  if s.Valid then .ok () else .error (.registerCount s.registerCount)

/-- The sizes that the environment sets, and the default where it sets none. -/
def ofEnvironment (env : String → Option String) : Except SizingError Sizing := do
  let base : Sizing := {}
  let memory ← lookup env .memory
  let registers ← lookup env .registers
  let codeCapacity ← lookup env .codeCapacity
  let sizing : Sizing :=
    { codeCapacity
      memorySize := memory.getD base.memorySize
      registerCount := registers.getD base.registerCount }
  sizing.validate
  return sizing

end Sizing

/-- Why a program cannot be loaded into a machine. -/
inductive LoadError
  | sizing (cause : SizingError)
  | capacityExceeded (length capacity : Nat)
  deriving DecidableEq, Repr

/-- The text that reports a program that cannot be loaded. -/
def LoadError.message : LoadError → String
  | sizing cause => cause.message
  | capacityExceeded length capacity =>
    s!"program of {length} bytes exceeds bytecode capacity {capacity}"

end RegisterMachine
