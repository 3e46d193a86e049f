import RegisterMachine.Value

namespace RegisterMachine

/-- The four operations on numbers. -/
inductive ArithmeticOp
  | add
  | sub
  | mul
  | div
  deriving DecidableEq, Repr

/-- The conditions under which a branch is taken. -/
inductive Test
  | zero
  | positive
  | negative
  | nonzero
  | isTrue
  | isFalse
  deriving DecidableEq, Repr

/-- The instructions without their operands. -/
inductive Opcode
  | load
  | store
  | fetch
  | arithmetic (op : ArithmeticOp)
  | halt
  | branch (test : Test)
  | jump
  | mark
  | call
  deriving DecidableEq, Repr

/-- What an operand position holds. -/
inductive Slot
  | register
  | address
  | location
  | source
  | status
  | syscall
  deriving DecidableEq, Repr

namespace Slot

/-- The fewest words that an operand position takes in source text. Only an exit status may be
left out. -/
def least : Slot → Nat
  | status => 0
  | _ => 1

/-- The most words that an operand position takes in source text. A system call takes any number
of arguments. -/
def most? : Slot → Option Nat
  | syscall => none
  | _ => some 1

end Slot

namespace Opcode

/-- Every instruction, in the order of the instruction table. -/
def all : List Opcode :=
  [load, store, fetch,
    arithmetic .add, arithmetic .sub, arithmetic .mul, arithmetic .div,
    halt,
    branch .zero, branch .positive, branch .negative, branch .nonzero,
    branch .isTrue, branch .isFalse,
    jump, mark, call]

/-- The byte that stands for an instruction. -/
def code : Opcode → UInt8
  | load => 0x00
  | store => 0x0a
  | fetch => 0x0e
  | arithmetic .add => 0x01
  | arithmetic .sub => 0x02
  | arithmetic .mul => 0x03
  | arithmetic .div => 0x04
  | halt => 0x05
  | branch .zero => 0x06
  | branch .positive => 0x07
  | branch .negative => 0x08
  | branch .nonzero => 0x09
  | branch .isTrue => 0x0f
  | branch .isFalse => 0x12
  | jump => 0x0c
  | mark => 0x0d
  | call => 0x0b

/-- The word for an instruction in source text. -/
def mnemonic : Opcode → String
  | load => "load"
  | store => "store"
  | fetch => "fetch"
  | arithmetic .add => "add"
  | arithmetic .sub => "sub"
  | arithmetic .mul => "mul"
  | arithmetic .div => "div"
  | halt => "halt"
  | branch .zero => "jez"
  | branch .positive => "jmz"
  | branch .negative => "jlz"
  | branch .nonzero => "jnz"
  | branch .isTrue => "jit"
  | branch .isFalse => "jif"
  | jump => "jump"
  | mark => "loc"
  | call => "call"

/-- The operands of an instruction, in order. -/
def slots : Opcode → List Slot
  | load => [.register, .source]
  | store => [.address, .source]
  | fetch => [.address, .register]
  | arithmetic _ => [.source, .source, .register]
  | halt => [.status]
  | branch _ => [.source, .location]
  | jump => [.location]
  | mark => [.location]
  | call => [.syscall]

/-- The instruction that a byte stands for. -/
def ofCode? (b : UInt8) : Option Opcode :=
  all.find? fun op => op.code == b

/-- The instruction that a word of source text names. Markers are written as labels, so they have
no word of their own. -/
def ofMnemonic? (name : String) : Option Opcode :=
  all.find? fun op => op.mnemonic == name && op != mark

theorem mem_all (op : Opcode) : op ∈ all := by
  cases op with
  | arithmetic op => cases op <;> decide
  | branch test => cases test <;> decide
  | _ => decide

@[simp]
theorem ofCode?_code (op : Opcode) : ofCode? op.code = some op := by
  cases op with
  | arithmetic op => cases op <;> rfl
  | branch test => cases test <;> rfl
  | _ => rfl

theorem code_eq_of_ofCode? {b : UInt8} {op : Opcode} (h : ofCode? b = some op) : op.code = b := by
  simpa using List.find?_some h

end Opcode

end RegisterMachine
