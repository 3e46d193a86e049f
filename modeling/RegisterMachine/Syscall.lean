import RegisterMachine.Status
import RegisterMachine.Text.Quoted
import RegisterMachine.Value

namespace RegisterMachine

/-- What a system call does, step by step. A step asks something of the machine, and the answer
chooses the steps that follow. -/
inductive Script
  /-- The call is over. -/
  | done
  /-- The call fails. -/
  | fail (cause : Fault)
  /-- The thread that runs the machine dies. -/
  | crash
  /-- Takes the next operand from the code. -/
  | operand (next : Except Fault Value → Script)
  /-- Prints a line. -/
  | line (text : String) (next : Except Fault Unit → Script)
  /-- Looks at a register. -/
  | register (index : UInt8) (next : Except Fault Value → Script)
  /-- Asks the machine to run its program. -/
  | run (next : Except Fault Int32 → Script)
  /-- Looks at the phase and the exit status. -/
  | observe (next : Phase → Option Int32 → Script)
  /-- Asks whether the machine has a thread of its own. -/
  | onWorker (next : Bool → Script)

namespace Script

/-- Takes an operand, or fails with the reason why there is none. -/
def withOperand (next : Value → Script) : Script :=
  operand fun
    | .ok v => next v
    | .error cause => fail cause

/-- Prints a line and is done. -/
def printing (text : String) : Script :=
  line text fun
    | .ok () => done
    | .error cause => fail cause

/-- Takes `n` operands one after the other. -/
def withOperands : Nat → (List Value → Script) → Script
  | 0, next => next []
  | n + 1, next => withOperand fun v => withOperands n fun vs => next (v :: vs)

/-- Looks at registers one after the other. -/
def withRegisters : List UInt8 → (List (UInt8 × Except Fault Value) → Script) → Script
  | [], next => next []
  | i :: is, next => register i fun answer => withRegisters is fun rest => next ((i, answer) :: rest)

end Script

/-- A system call, which is told how many arguments the program passes. -/
structure Syscall where
  name : String
  script : UInt8 → Script

/-- An entry of a table as reports show it. -/
def Syscall.describe (s : Syscall) : String :=
  "Syscall \x7b name: " ++ Text.quoted s.name ++ " \x7d"

/-- The system calls that a program can make, by number. -/
structure SyscallTable where
  entries : List Syscall

namespace SyscallTable

/-- The number of system calls. -/
def length (t : SyscallTable) : Nat := t.entries.length

/-- The number of the first system call of a name, if a byte can hold it. -/
def indexOf? (t : SyscallTable) (name : String) : Option UInt8 :=
  match t.entries.findIdx? fun entry => entry.name == name with
  | some i => if i < 256 then some (UInt8.ofNat i) else none
  | none => none

/-- The system call of a number. -/
def get (t : SyscallTable) (index : UInt8) : Except Fault Syscall :=
  match t.entries[index.toNat]? with
  | some entry => .ok entry
  | none => .error (.unknownSyscall index t.length)

end SyscallTable

end RegisterMachine
