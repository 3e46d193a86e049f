import RegisterMachine.Calendar
import RegisterMachine.CommandLine
import Std.Time.DateTime.Timestamp

namespace RegisterMachine

namespace Terminal

/-- The error of a file operation. -/
def fileError : IO.Error → FileError
  | .noFileOrDirectory .. => .notFound
  | .inappropriateType _ 20 _ => .notADirectory
  | .inappropriateType _ 21 _ => .isADirectory
  | .invalidArgument _ 36 _ => .nameTooLong
  | .permissionDenied _ code _ => .other s!"Permission denied (os error {code.toNat})"
  | e => .other (toString e)

/-- A host that works on the files and the streams of the process. -/
def host : Host IO where
  readFile path := do
    try
      return .ok (← IO.FS.readBinFile path).data.toList
    catch e => return .error (fileError e)
  writeFile path bytes := do
    try
      IO.FS.writeBinFile path ⟨bytes.toArray⟩
      return .ok ()
    catch e => return .error (fileError e)
  print bytes := do
    let stdout ← IO.getStdout
    stdout.write ⟨bytes⟩
    stdout.flush
  report text := IO.eprint text
  time := do
    let now ← Std.Time.Timestamp.now
    return timestamp now.toMillisecondsSinceUnixEpoch.toInt.toNat

/-- The environment variables that matter. -/
def variableNames : List String :=
  ["MICRO_LOG", "MICRO_LOG_TIMESTAMPS", "TERM", "NO_COLOR"] ++
    [SizeVariable.memory, .registers, .codeCapacity].map SizeVariable.name

/-- Programs may run for as long as they like. -/
def patience : Nat := 0x8000000000000000

end Terminal

end RegisterMachine

open RegisterMachine in
/-- The command line of the register machine. -/
def main (arguments : List String) : IO UInt32 := do
  let values ← Terminal.variableNames.filterMapM fun name => do
    return (← IO.getEnv name).map fun text => (name, text)
  let status ← CommandLine.invoke Terminal.host Terminal.patience "micro"
    (fun name => values.lookup name) arguments
  return status.toUInt32
