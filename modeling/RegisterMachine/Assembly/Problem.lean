namespace RegisterMachine

/-- What is wrong with a piece of source text. -/
inductive Problem
  | unknownInstruction (name : String)
  | arityMismatch (instruction : String) (expected actual : Nat)
  | invalidRegister (token : String)
  | invalidLiteral (token : String)
  | invalidAddress (token : String)
  | unterminatedString (column : Nat)
  | emptyLabel
  | duplicateLabel (label : String)
  | undefinedLabel (label : String)
  | unknownSyscall (name : String)
  | tooManyArguments (count : Nat)
  | stringTooLong (length : Nat)
  deriving DecidableEq, Repr

/-- The text that reports a problem. -/
def Problem.message : Problem → String
  | unknownInstruction name => s!"unknown instruction `{name}`"
  | arityMismatch instruction expected actual =>
    s!"operand count mismatch for {instruction}: expected {expected}, got {actual}"
  | invalidRegister token => s!"invalid register `{token}`"
  | invalidLiteral token => s!"invalid literal `{token}`"
  | invalidAddress token => s!"invalid address `{token}`, expected 0-255 or 0x00-0xff"
  | unterminatedString column => s!"unterminated string literal starting at column {column}"
  | emptyLabel => "empty label name"
  | duplicateLabel label => s!"duplicate label `{label}`"
  | undefinedLabel label => s!"undefined label `{label}`"
  | unknownSyscall name => s!"unknown syscall `{name}`"
  | tooManyArguments count => s!"too many syscall arguments: {count} (max 255)"
  | stringTooLong length => s!"string of {length} bytes exceeds the 255-byte limit"

/-- A problem with the column to blame for it. Columns count bytes from one. -/
structure Blame where
  column : Nat
  problem : Problem
  deriving DecidableEq, Repr

/-- A problem with its place in the source text. -/
structure AssemblyError extends Blame where
  line : Nat
  deriving DecidableEq, Repr

/-- The text of a problem with its place in front. -/
def AssemblyError.message (e : AssemblyError) : String :=
  s!"line {e.line}:{e.column}: {e.problem.message}"

end RegisterMachine
