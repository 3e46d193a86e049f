import RegisterMachine.Assembly.Literal
import RegisterMachine.Assembly.Token
import RegisterMachine.Instruction

namespace RegisterMachine

/-- What the names in operands stand for. -/
structure Scope (Location Syscall : Type) where
  location? : String → Option Location
  syscall? : String → Option Syscall

/-- The scope in which every name stands for itself. -/
def Scope.names : Scope String String := ⟨some, some⟩

/-- The fewest words that operands take in source text. -/
def Opcode.leastOperands (op : Opcode) : Nat :=
  op.slots.foldl (fun n slot => n + slot.least) 0

/-- The most words that operands take in source text, as far as there is a limit. -/
def Opcode.mostOperands (op : Opcode) : Nat :=
  op.slots.foldl (fun n slot => n + slot.most?.getD 0) 0

/-- The number of operands to report as expected when there are `actual` of them. -/
def Opcode.expectedOperands (op : Opcode) (actual : Nat) : Nat :=
  if actual < op.leastOperands then op.leastOperands else op.mostOperands

namespace Instruction

variable {Location Syscall : Type}

/-- Reads one operand, and blames its column if that fails. -/
def operandAt {α : Type} (read : String → Except Problem α) (token : Token) : Except Blame α :=
  match read token.text with
  | .ok x => .ok x
  | .error problem => .error ⟨token.column, problem⟩

/-- A label that is declared somewhere. -/
def locationOf (scope : Scope Location Syscall) (name : String) : Except Problem Location :=
  match scope.location? name with
  | some location => .ok location
  | none => .error (.undefinedLabel name)

/-- A system call that the table has. -/
def syscallOf (scope : Scope Location Syscall) (name : String) : Except Problem Syscall :=
  match scope.syscall? name with
  | some syscall => .ok syscall
  | none => .error (.unknownSyscall name)

/-- Reads an instruction from its words. The operands are looked at in order, and the first that
is wrong is blamed. -/
def parse (scope : Scope Location Syscall) (op : Opcode) (head : Token) (operands : List Token) :
    Except Blame (Instruction Location Syscall) :=
  match op, operands with
  | .load, [target, source] => do
    let target ← operandAt Literal.register target
    let source ← operandAt Literal.operand source
    return .load target source
  | .store, [address, source] => do
    let address ← operandAt Literal.address address
    let source ← operandAt Literal.operand source
    return .store address source
  | .fetch, [address, target] => do
    let address ← operandAt Literal.address address
    let target ← operandAt Literal.register target
    return .fetch address target
  | .arithmetic op, [left, right, target] => do
    let left ← operandAt Literal.operand left
    let right ← operandAt Literal.operand right
    let target ← operandAt Literal.register target
    return .arithmetic op left right target
  | .halt, [] => return .halt (.value (.byte 0))
  | .halt, [status] => do
    let status ← operandAt Literal.operand status
    return .halt status
  | .branch test, [condition, location] => do
    let condition ← operandAt Literal.operand condition
    let location ← operandAt (locationOf scope) location
    return .branch test condition location
  | .jump, [location] => do
    let location ← operandAt (locationOf scope) location
    return .jump location
  | .mark, [location] => do
    let location ← operandAt (locationOf scope) location
    return .mark location
  | .call, name :: arguments => do
    let syscall ← operandAt (syscallOf scope) name
    let arguments ← arguments.mapM (operandAt Literal.operand)
    if 255 < arguments.length then
      throw ⟨name.column, .tooManyArguments arguments.length⟩
    return .call syscall arguments
  | op, operands =>
    let actual := operands.length
    .error ⟨head.column, .arityMismatch head.text (op.expectedOperands actual) actual⟩

end Instruction

end RegisterMachine
