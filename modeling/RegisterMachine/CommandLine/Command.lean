import RegisterMachine.PathName
import RegisterMachine.Text.Lowercase

namespace RegisterMachine

/-- What the command line asks for. -/
inductive Command
  | help
  | interpret (file : String)
  | compile (input : String) (output : Option String)
  | run (input : String)
  deriving DecidableEq, Repr

/-- Why a command line is refused. -/
inductive UsageError
  | missingCommand
  | unexpectedArguments (command : String)
  deriving DecidableEq, Repr

/-- The text that reports a refused command line. -/
def UsageError.message : UsageError → String
  | missingCommand => "Missing command"
  | unexpectedArguments command => s!"Unexpected arguments for `{command}`"

namespace Command

/-- The command that a word in lower case names with its arguments. -/
def named (name : String) (arguments : List String) : Except UsageError Command :=
  match name, arguments with
  | "help", _ => .ok .help
  | "--help", _ => .ok .help
  | "-h", _ => .ok .help
  | "interpret", [file] => .ok (.interpret file)
  | "compile", [input] => .ok (.compile input none)
  | "compile", [input, output] => .ok (.compile input (some output))
  | "run", [input] => .ok (.run input)
  | other, _ => .error (.unexpectedArguments other)

/-- Reads the arguments of the command line. Capitals make no difference in the command. -/
def ofArguments : List String → Except UsageError Command
  | [] => .error .missingCommand
  | command :: arguments => named (String.ofList (Text.toLower command.toList)) arguments

/-- The extension of compiled programs. -/
def compiledExtension : List Char := ['m', 'c']

/-- Whether a path already has the extension of compiled programs. -/
def isCompiled (input : String) : Bool :=
  PathName.extension? input.toList = some compiledExtension

/-- Where a compiled program goes when no place is given: the input with the extension of compiled
programs, which is added to an input that has it already. -/
def defaultOutput (input : String) : String :=
  if isCompiled input then input ++ ".mc"
  else String.ofList (PathName.withExtension input.toList compiledExtension)

/-- The text that explains the command line. -/
def usage (program : String) : String :=
  s!"Micro register VM

USAGE:
    {program} <command> [ARGS]

COMMANDS:
    interpret <file>            Run a compiled program
    compile <input> [output]    Assemble source into a compiled program
                                (output defaults to <input> with a .mc extension)
    run <input>                 Assemble source and run it directly
    help                        Print this help message

ENVIRONMENT:
    MICRO_LOG                   Log level: debug, info, warn or error (default info)
    MICRO_LOG_TIMESTAMPS        Set to 0, false or off to drop log timestamps
    MICRO_MEMORY                Linear memory size in bytes (default 2097152)
    MICRO_REGISTERS             Register count, 1-256 (default 256)
    MICRO_BYTECODE_CAPACITY     Bytecode buffer size (default: program length)

EXAMPLES:
    {program} compile hello.masm
    {program} interpret hello.mc
    {program} run hello.masm
"

end Command

end RegisterMachine
