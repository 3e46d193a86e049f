import RegisterMachine.Assembly
import RegisterMachine.Assembly.Diagnostic
import RegisterMachine.CommandLine.Command
import RegisterMachine.Disk
import RegisterMachine.Log
import RegisterMachine.Machine.Run
import RegisterMachine.Program

namespace RegisterMachine

/-- What the command line needs from its surroundings. -/
structure Host (m : Type → Type) where
  readFile : String → m (Except FileError (List UInt8))
  writeFile : String → List UInt8 → m (Except FileError Unit)
  print : Array UInt8 → m Unit
  report : String → m Unit
  time : m String

/-- Why a command did not succeed. -/
inductive Failure
  | file (path : String) (cause : FileError)
  | assembly (cause : AssemblyError)
  | program (cause : ProgramError)
  | load (cause : LoadError)
  | fault (cause : Fault)
  | unfinished
  deriving DecidableEq, Repr

/-- The text that reports a failure. -/
def Failure.message : Failure → String
  | file path cause => s!"io error on {path}: {cause.message}"
  | assembly cause => cause.message
  | program cause => cause.message
  | load cause => cause.message
  | fault cause => cause.message
  | unfinished => "program did not finish"

namespace CommandLine

variable {m : Type → Type} [Monad m]

/-- Writes a log message. -/
def log (host : Host m) (settings : LogSettings) (level : Level) (message : String) : m Unit := do
  if settings.level.enabled level then
    host.report (settings.render (← host.time) level message)

/-- Passes on what a machine has printed and the instructions that it has fetched. -/
def passOn (host : Host m) (settings : LogSettings) (machine : Machine) : m Unit := do
  unless machine.output.bytes.isEmpty do
    host.print machine.output.bytes
  if settings.level.enabled .debug then
    for (offset, op) in machine.trace.reverse do
      log host settings .debug (Numeral.padLeft 6 (toString offset) ++ ": " ++ op.mnemonic)

/-- The machine after its output and its trace have been passed on. -/
def relieved (machine : Machine) : Machine :=
  { machine with output := { machine.output with bytes := #[] }, trace := [] }

/-- The number of instructions after which output is passed on. -/
def stretch : Nat := 1000

/-- Drives a machine stretch by stretch. -/
def drive (host : Host m) (settings : LogSettings) : Nat → Machine → m Outcome
  | 0, _ => pure .unfinished
  | patience + 1, machine => do
    let (outcome, machine') := machine.drive stretch
    passOn host settings machine'
    match outcome with
    | .unfinished => drive host settings patience (relieved machine')
    | finished => pure finished

/-- Runs the program of a machine and tells of its start and its end. -/
def runMachine (host : Host m) (settings : LogSettings) (patience : Nat) (machine : Machine) :
    m (Except Failure Int32) := do
  match machine.status.begin with
  | .error cause => return .error (.fault cause)
  | .ok status =>
    log host settings .debug
      (s!"vm start: {machine.code.length} bytes of bytecode, " ++
        s!"{machine.registers.count} registers, {machine.memory.capacity} bytes of memory")
    match ← drive host settings patience { machine with status } with
    | .halted code =>
      log host settings .debug s!"vm halted with status {code.toInt}"
      return .ok code
    | .failed cause =>
      log host settings .debug s!"vm faulted: {cause.message}"
      return .error (.fault cause)
    | _ => return .error .unfinished

/-- Loads and runs bytecode on a machine whose sizes the environment sets. -/
def execute (host : Host m) (settings : LogSettings) (patience : Nat)
    (env : String → Option String) (code : List UInt8) : m (Except Failure Int32) :=
  match Sizing.ofEnvironment env with
  | .error cause => return .error (.load (.sizing cause))
  | .ok sizing =>
    match Machine.load sizing code with
    | .error cause => return .error (.load cause)
    | .ok machine => runMachine host settings patience machine

/-- Assembles a file. What is wrong with its text is reported with the line in question. -/
def assembleFile (host : Host m) (settings : LogSettings) (path : String) :
    m (Except Failure (List UInt8)) := do
  match ← host.readFile path with
  | .error cause => return .error (.file path cause)
  | .ok bytes =>
    match Codec.ofUtf8? bytes with
    | none => return .error (.file path .notText)
    | some source =>
      match assemble .standard source with
      | .ok code => return .ok code
      | .error cause =>
        for line in cause.diagnostic path source do
          log host settings .error line
        return .error (.assembly cause)

/-- Runs a compiled program. -/
def interpret (host : Host m) (settings : LogSettings) (patience : Nat)
    (env : String → Option String) (path : String) : m (Except Failure Int32) := do
  match ← host.readFile path with
  | .error cause => return .error (.file path cause)
  | .ok bytes =>
    match Program.ofFile bytes with
    | .error cause => return .error (.program cause)
    | .ok program => execute host settings patience env program.code

/-- The place for a compiled program, with a warning if the input looks like one. -/
def outputFor (host : Host m) (settings : LogSettings) (input : String) : m String := do
  let output := Command.defaultOutput input
  if Command.isCompiled input then
    log host settings .warn s!"{input} already ends in .mc, writing to {output}"
  return output

/-- Assembles a file into a compiled program. -/
def compile (host : Host m) (settings : LogSettings) (input : String) (output : Option String) :
    m (Except Failure Int32) := do
  let output ← match output with
    | some output => pure output
    | none => outputFor host settings input
  match ← assembleFile host settings input with
  | .error failure => return .error failure
  | .ok code =>
    match ← host.writeFile output (Program.toFile ⟨code⟩) with
    | .error cause => return .error (.file output cause)
    | .ok () =>
      log host settings .info
        s!"Compiled {input} -> {output} ({code.length} bytes of bytecode)"
      return .ok 0

/-- Assembles a file and runs it. -/
def run (host : Host m) (settings : LogSettings) (patience : Nat)
    (env : String → Option String) (input : String) : m (Except Failure Int32) := do
  match ← assembleFile host settings input with
  | .error failure => return .error failure
  | .ok code => execute host settings patience env code

/-- The exit status of a command. A problem with source text has been reported already. -/
def conclude (host : Host m) (settings : LogSettings) : Except Failure Int32 → m UInt8
  | .ok status => return status.toUInt32.toUInt8
  | .error (.assembly _) => return 1
  | .error failure => do
    log host settings .error failure.message
    return 1

/-- Carries out a command line for the program of the given name and gives the exit status. The
patience bounds how long programs run. -/
def invoke (host : Host m) (patience : Nat) (program : String) (env : String → Option String)
    (arguments : List String) : m UInt8 := do
  match LogSettings.ofEnvironment env with
  | .error message =>
    host.report (message ++ "\n")
    return 1
  | .ok settings =>
    match Command.ofArguments arguments with
    | .error e =>
      host.report (e.message ++ "\n\n" ++ Command.usage program ++ "\n")
      return 1
    | .ok .help =>
      host.report (Command.usage program ++ "\n")
      return 0
    | .ok (.interpret file) => conclude host settings (← interpret host settings patience env file)
    | .ok (.compile input output) => conclude host settings (← compile host settings input output)
    | .ok (.run input) => conclude host settings (← run host settings patience env input)

end CommandLine

end RegisterMachine
