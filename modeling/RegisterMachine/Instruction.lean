import RegisterMachine.Opcode
import RegisterMachine.Operand

namespace RegisterMachine

/-- An instruction with its operands. Locations and system calls are numbers in bytecode and names
in source text. -/
inductive Instruction (Location Syscall : Type)
  | load (target : UInt8) (source : Operand)
  | store (address : UInt8) (source : Operand)
  | fetch (address target : UInt8)
  | arithmetic (op : ArithmeticOp) (left right : Operand) (target : UInt8)
  | halt (status : Operand)
  | branch (test : Test) (condition : Operand) (location : Location)
  | jump (location : Location)
  | mark (location : Location)
  | call (syscall : Syscall) (arguments : List Operand)
  deriving DecidableEq, Repr

namespace Instruction

/-- The instruction without its operands. -/
def opcode {Location Syscall : Type} : Instruction Location Syscall → Opcode
  | load .. => .load
  | store .. => .store
  | fetch .. => .fetch
  | arithmetic op .. => .arithmetic op
  | halt _ => .halt
  | branch test .. => .branch test
  | jump _ => .jump
  | mark _ => .mark
  | call .. => .call

/-- The bytes after the opcode. A call is the number of its system call, the number of its
arguments and the arguments. -/
def operandBytes : Instruction UInt8 UInt8 → List UInt8
  | load target source => target :: source.encode
  | store address source => address :: source.encode
  | fetch address target => [address, target]
  | arithmetic _ left right target => left.encode ++ right.encode ++ [target]
  | halt status => status.encode
  | branch _ condition location => condition.encode ++ [location]
  | jump location => [location]
  | mark location => [location]
  | call syscall arguments =>
    syscall :: UInt8.ofNat arguments.length :: arguments.flatMap Operand.encode

/-- The bytecode of an instruction. -/
def encode (i : Instruction UInt8 UInt8) : List UInt8 :=
  i.opcode.code :: i.operandBytes

end Instruction

end RegisterMachine
