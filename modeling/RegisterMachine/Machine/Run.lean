import RegisterMachine.Machine

namespace RegisterMachine

/-- How a run ends. A run that takes more instructions than it was granted is unfinished. -/
inductive Outcome
  | halted (status : Int32)
  | failed (cause : Fault)
  | crashed
  | unfinished
  deriving DecidableEq, Repr

/-- The answer to whoever waits for a run, and nothing for a run without an answer. -/
def Outcome.answer? : Outcome → Option (Except Fault Int32)
  | halted status => some (.ok status)
  | failed cause => some (.error cause)
  | crashed => none
  | unfinished => none

namespace Machine

/-- Carries out instructions until the program halts or fails, at most as many as `fuel` says. -/
def drive : Nat → Machine → Outcome × Machine
  | 0, m => (.unfinished, m)
  | fuel + 1, m =>
    match step m with
    | .ok .next m' => drive fuel m'
    | .ok (.halt code) m' => (.halted code, { m' with status := m'.status.halt code })
    | .ok .crash m' => (.crashed, m')
    | .error cause m' => (.failed cause, { m' with status := m'.status.fault })

/-- Runs the program, which a machine does once. -/
def run (fuel : Nat) (m : Machine) : Outcome × Machine :=
  match m.status.begin with
  | .error cause => (.failed cause, m)
  | .ok status => drive fuel { m with status }

end Machine

/-- What is left of a machine that runs on a thread of its own: its status for observers, the way
its run ended, and what it printed. -/
structure Worker where
  status : Status
  outcome : Outcome
  output : Sink

namespace Worker

/-- Runs the program on a thread of its own. -/
def start (fuel : Nat) (m : Machine) : Except Fault Worker :=
  match m.status.begin with
  | .error cause => .error cause
  | .ok status =>
    let (outcome, m') := Machine.drive fuel { m with status, onWorker := true }
    .ok ⟨m'.status, outcome, m'.output⟩

/-- Waits for the end of the run. A thread that died has faulted once this is noticed. -/
def join (w : Worker) : Option (Except Fault Int32) × Status :=
  match w.outcome with
  | .crashed => (some (.error (.workerFailed "vm thread panicked")), w.status.fault)
  | outcome => (outcome.answer?, w.status)

end Worker

end RegisterMachine
