import RegisterMachine.Syscall

namespace RegisterMachine

namespace Script

/-- Prints its arguments with commas between them. -/
def printJoined (count : UInt8) : Script :=
  withOperands count.toNat fun vs => printing (String.intercalate "," (vs.map Value.text))

/-- Leaves its arguments in the code, where they are taken for instructions. -/
def ignore (_ : UInt8) : Script := done

/-- Prints the number of its arguments and leaves them in the code. -/
def printCount (count : UInt8) : Script := printing (toString count.toNat)

/-- The kind and the text of a value. -/
def described (v : Value) : String := v.kind.name ++ ":" ++ v.text

/-- Describes one argument, whatever the number of arguments. -/
def describeOne (_ : UInt8) : Script :=
  withOperand fun v => printing (described v)

/-- Prints the registers that hold a value. -/
def dumpRegisters (_ : UInt8) : Script :=
  withRegisters ((List.range 256).map UInt8.ofNat) fun answers =>
    printing ("regs" ++ String.join (answers.map fun
      | (i, .ok v) => s!" R{i.toNat}={described v}"
      | (_, .error _) => ""))

/-- An exit status as reports show it. -/
def statusText : Option Int32 → String
  | some code => s!"Some({code.toInt})"
  | none => "None"

/-- Prints the phase and the exit status. -/
def printStatus (_ : UInt8) : Script :=
  observe fun phase status => printing (phase.name ++ " " ++ statusText status)

/-- Fails as if its output were refused. -/
def refuse (count : UInt8) : Script := fail (.output s!"fail {count.toNat}")

/-- Asks the machine to run once more and prints the answer. -/
def rerun (_ : UInt8) : Script :=
  run fun
    | .ok code => printing s!"ok {code.toInt}"
    | .error cause => printing s!"err {cause.message}"

/-- Prints which thread runs the machine. -/
def printThread (_ : UInt8) : Script :=
  onWorker fun own => printing (if own then "worker" else "caller")

/-- Takes its thread down. -/
def crashing (_ : UInt8) : Script := crash

end Script

end RegisterMachine
