import RegisterMachine.Value.Codec

namespace RegisterMachine

/-- What an instruction takes as a source: the content of a register, or a value as it stands. -/
inductive Operand
  | register (index : UInt8)
  | value (v : Value)
  deriving DecidableEq, Repr

/-- The two kinds of operands. -/
inductive OperandKind
  | register
  | value
  deriving DecidableEq, Repr

namespace OperandKind

/-- The byte that announces an operand of this kind. -/
def code : OperandKind → UInt8
  | register => 0
  | value => 1

/-- The kind that a byte announces. -/
def ofCode? : UInt8 → Option OperandKind
  | 0 => some register
  | 1 => some value
  | _ => none

end OperandKind

namespace Operand

/-- The kind of an operand. -/
def kind : Operand → OperandKind
  | register _ => .register
  | value _ => .value

/-- An operand is the byte of its kind and the register or the value. -/
def encode (operand : Operand) : List UInt8 :=
  operand.kind.code ::
    match operand with
    | register index => Codec.uint8.encode index
    | value v => Codec.value.encode v

/-- The number of bytes of an operand. -/
def size (operand : Operand) : Nat :=
  1 + match operand with
    | register index => Codec.uint8.size index
    | value v => Codec.value.size v

end Operand

end RegisterMachine
