import RegisterMachine.Fault

namespace RegisterMachine

/-- The phases of a machine's life, which it passes through in one direction. -/
inductive Phase
  | idle
  | running
  | halted
  | faulted
  deriving DecidableEq, Repr

/-- The word for a phase in reports. -/
def Phase.name : Phase → String
  | idle => "Idle"
  | running => "Running"
  | halted => "Halted"
  | faulted => "Faulted"

/-- What an observer can see of a run: its phase, and an exit code that counts once the machine has
halted. -/
structure Status where
  phase : Phase := .idle
  exitCode : Int32 := 0
  deriving DecidableEq, Repr

namespace Status

/-- The exit code of a machine that has halted. -/
def exitStatus? (s : Status) : Option Int32 :=
  match s.phase with
  | .halted => some s.exitCode
  | _ => none

/-- Whether the program is being executed. -/
def isRunning (s : Status) : Bool := s.phase = .running

/-- A machine is started once. -/
def begin (s : Status) : Except Fault Status :=
  match s.phase with
  | .idle => .ok { s with phase := .running }
  | _ => .error .alreadyStarted

/-- Sets the exit code alone. -/
def storeExitCode (s : Status) (code : Int32) : Status := { s with exitCode := code }

/-- Sets the phase alone. -/
def storePhase (s : Status) (phase : Phase) : Status := { s with phase }

/-- The exit code is in place before the phase changes. -/
def halt (s : Status) (code : Int32) : Status := (s.storeExitCode code).storePhase .halted

/-- The run has ended without an exit code. -/
def fault (s : Status) : Status := s.storePhase .faulted

end Status

end RegisterMachine
