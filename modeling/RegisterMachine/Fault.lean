import RegisterMachine.Decoder
import RegisterMachine.Opcode

namespace RegisterMachine

/-- What an instruction demands of an operand. -/
inductive Demand
  | numeric
  | boolean
  | status
  deriving DecidableEq, Repr

/-- The words for a demand in error texts. -/
def Demand.text : Demand → String
  | numeric => "numeric operand"
  | boolean => "boolean operand"
  | status => "integer status"

/-- Why a machine, or one of its parts, could not go on. -/
inductive Fault
  | invalidInstruction (opcode : UInt8) (offset : Nat)
  | missingHalt (offset : Nat)
  | endOfStream (offset : Nat)
  | truncatedStream (offset expected remaining : Nat)
  | unknownTag (tag : UInt8)
  | malformedValue (offset : Nat) (cause : DecodeError)
  | invalidOperandKind (kind : UInt8) (offset : Nat)
  | outOfRange (position capacity : Nat)
  | unresolvedLocation (id : UInt8)
  | typeMismatch (instruction : Opcode) (expected : Demand) (actual : Kind)
  | divisionByZero
  | nativeDivision (kind : Kind)
  | indexOutOfRange (index : UInt8) (capacity : Nat)
  | uninitializedRegister (index : UInt8)
  | addressOutOfRange (address width capacity : Nat)
  | stringTooLong (length : Nat)
  | unknownSyscall (index : UInt8) (available : Nat)
  | arityMismatch (syscall : String) (expected actual : Nat)
  | output (reason : String)
  | alreadyStarted
  | workerFailed (reason : String)
  deriving DecidableEq, Repr

namespace Fault

/-- A decoding error as a fault of the code or memory at `offset`. -/
def ofDecodeError (offset : Nat) : DecodeError → Fault
  | .unexpectedEnd => endOfStream offset
  | .truncated expected remaining => truncatedStream offset expected remaining
  | .unknownTag tag => unknownTag tag
  | cause => malformedValue offset cause

/-- The text that reports a fault. -/
def message : Fault → String
  | invalidInstruction opcode offset =>
    s!"invalid instruction {Numeral.hexByte opcode} at offset {offset}"
  | missingHalt offset => s!"program ended at offset {offset} without executing halt"
  | endOfStream offset => s!"unexpected end of bytecode at offset {offset}"
  | truncatedStream offset expected remaining =>
    s!"truncated value at offset {offset}: expected {expected} bytes, {remaining} remaining"
  | unknownTag tag => s!"unknown type tag {Numeral.hexByte tag}"
  | malformedValue offset cause => s!"malformed value at offset {offset}: {cause.message}"
  | invalidOperandKind kind offset =>
    s!"invalid operand kind {Numeral.hexByte kind} at offset {offset}"
  | outOfRange position capacity => s!"position {position} out of range (capacity {capacity})"
  | unresolvedLocation id => s!"unresolved location {id.toNat}"
  | typeMismatch instruction expected actual =>
    s!"{instruction.mnemonic} expected {expected.text}, got {actual.name}"
  | divisionByZero => "division by zero"
  | nativeDivision kind => s!"native {kind.name} division by zero"
  | indexOutOfRange index capacity =>
    s!"register index {index.toNat} out of range (capacity {capacity})"
  | uninitializedRegister index => s!"register R{index.toNat} is uninitialized"
  | addressOutOfRange address width capacity =>
    s!"memory access of {width} bytes at {address} out of range (capacity {capacity})"
  | stringTooLong length => s!"string of {length} bytes exceeds the 255-byte limit"
  | unknownSyscall index available =>
    s!"unknown syscall index {index.toNat} ({available} registered)"
  | arityMismatch syscall expected actual =>
    s!"operand count mismatch for {syscall}: expected {expected}, got {actual}"
  | output reason => s!"output error: {reason}"
  | alreadyStarted => "vm already started"
  | workerFailed reason => s!"vm worker thread failed: {reason}"

end Fault

/-- A string value, unless the text is too long for one. -/
def Value.ofText (s : String) : Except Fault Value :=
  match (Value.string s).tooLong? with
  | some length => .error (.stringTooLong length)
  | none => .ok (.string s)

end RegisterMachine
