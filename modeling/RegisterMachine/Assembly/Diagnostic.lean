import RegisterMachine.Assembly.Problem
import RegisterMachine.Numeral
import RegisterMachine.Text.Lines

namespace RegisterMachine

namespace AssemblyError

/-- The source line that an error is about, without carriage returns at its end. -/
def excerpt? (e : AssemblyError) (source : String) : Option (List Char) :=
  ((Text.lines source.toList)[e.line - 1]?).map Text.withoutReturns

/-- The source line of an error as the report shows it, behind its number. -/
def excerptLine (e : AssemblyError) (line : List Char) : String :=
  Numeral.padLeft 4 (toString e.line) ++ " | " ++ String.ofList line

/-- The line with a caret under the blamed column. -/
def caretLine (e : AssemblyError) : String :=
  "     | " ++ String.ofList (List.replicate (e.column - 1) ' ') ++ "^"

/-- The report of an error: its text, its place, and the source line with a caret below it. -/
def report (e : AssemblyError) (file source : String) : String :=
  let heading := s!"error: {e.problem.message}\n --> {file}:{e.line}:{e.column}\n"
  match e.excerpt? source with
  | none => heading
  | some line => heading ++ "     |\n" ++ e.excerptLine line ++ "\n" ++ e.caretLine ++ "\n"

/-- The lines of the report. -/
def diagnostic (e : AssemblyError) (file source : String) : List String :=
  (Text.lines (e.report file source).toList).map String.ofList

end AssemblyError

end RegisterMachine
