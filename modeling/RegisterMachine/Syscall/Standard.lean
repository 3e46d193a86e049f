import RegisterMachine.Syscall

namespace RegisterMachine

namespace Script

/-- Prints its one argument. -/
def printLine (count : UInt8) : Script :=
  if count = 1 then withOperand fun v => printing v.text
  else fail (.arityMismatch "PRINTLN" 1 count.toNat)

end Script

/-- The system calls that every machine has unless it is given others. -/
def SyscallTable.standard : SyscallTable := ⟨[⟨"PRINTLN", Script.printLine⟩]⟩

end RegisterMachine
