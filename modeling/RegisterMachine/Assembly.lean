import RegisterMachine.Assembly.Line
import RegisterMachine.Assembly.Parser
import RegisterMachine.Syscall.Standard
import RegisterMachine.Text.Lines

namespace RegisterMachine

/-- A line that takes part in the program. A label has the number of its location, and an
instruction the number of its line. -/
inductive Statement
  | label (name : String) (id : UInt8)
  | instruction (line : Nat) (op : Opcode) (head : Token) (operands : List Token)
  deriving DecidableEq, Repr

/-- The labels of a program with the numbers of their locations. -/
abbrev Labels : Type := List (String × UInt8)

/-- The statements of a source text and the labels that they declare. -/
structure Survey where
  labels : Labels
  statements : List Statement
  deriving DecidableEq, Repr

namespace Survey

/-- Puts a statement in front of the others. -/
def cons (statement : Statement) (s : Survey) : Survey :=
  { s with statements := statement :: s.statements }

/-- Surveys numbered lines that follow the given labels and `count` instructions. The number of a
location is the count of the instructions before it, as far as a byte holds it. -/
def follow (labels : Labels) (count : Nat) : List (List Char × Nat) → Except AssemblyError Survey
  | [] => .ok ⟨labels, []⟩
  | (raw, number) :: rest =>
    match Line.ofText raw with
    | .error blame => .error ⟨blame, number⟩
    | .ok .blank => follow labels count rest
    | .ok (.label name column) =>
      match labels.lookup name with
      | some _ => .error ⟨⟨column, .duplicateLabel name⟩, number⟩
      | none =>
        let id := UInt8.ofNat count
        (follow ((name, id) :: labels) count rest).map (cons (.label name id))
    | .ok (.instruction op head operands) =>
      (follow labels (count + 1) rest).map (cons (.instruction number op head operands))

/-- Surveys a source text. -/
def ofSource (source : String) : Except AssemblyError Survey :=
  follow [] 0 ((Text.lines source.toList).zipIdx 1)

/-- Labels stand for their numbers and system calls for their places in the table. -/
def scope (s : Survey) (table : SyscallTable) : Scope UInt8 UInt8 :=
  ⟨fun name => s.labels.lookup name, table.indexOf?⟩

end Survey

/-- The instruction of a statement. A label becomes the marker of its location. -/
def Statement.instruction? (scope : Scope UInt8 UInt8) :
    Statement → Except AssemblyError (Instruction UInt8 UInt8)
  | label _ id => .ok (.mark id)
  | instruction line op head operands =>
    match Instruction.parse scope op head operands with
    | .ok i => .ok i
    | .error blame => .error ⟨blame, line⟩

/-- The instructions of a source text. Labels may be used before they are declared. -/
def instructionsOf (table : SyscallTable) (source : String) :
    Except AssemblyError (List (Instruction UInt8 UInt8)) := do
  let survey ← Survey.ofSource source
  survey.statements.mapM (Statement.instruction? (survey.scope table))

/-- The bytecode of a source text. -/
def assemble (table : SyscallTable) (source : String) : Except AssemblyError (List UInt8) := do
  let instructions ← instructionsOf table source
  return instructions.flatMap Instruction.encode

end RegisterMachine
