import RegisterMachine.Assembly.Token
import RegisterMachine.Opcode
import RegisterMachine.Text.Blank

namespace RegisterMachine

/-- What a line of source text says. -/
inductive Line
  | blank
  | label (name : String) (column : Nat)
  | instruction (op : Opcode) (head : Token) (operands : List Token)
  deriving DecidableEq, Repr

namespace Line

/-- The line without its comment, which a semicolon starts wherever it stands. -/
def withoutComment (raw : List Char) : List Char := raw.takeWhile (· ≠ ';')

/-- The column of the first character that is not blank. -/
def firstColumn (code : List Char) : Nat :=
  Text.byteLength (code.takeWhile Text.isBlank) + 1

/-- The words of an instruction, the first of which names it. -/
def instructionOf (code : List Char) : Except Blame Line :=
  match Token.scan code with
  | .error (.unterminatedString column) => .error ⟨column, .unterminatedString column⟩
  | .error problem => .error ⟨firstColumn code, problem⟩
  | .ok [] => .error ⟨1, .unknownInstruction ""⟩
  | .ok (head :: operands) =>
    match Opcode.ofMnemonic? head.text with
    | some op => .ok (.instruction op head operands)
    | none => .error ⟨head.column, .unknownInstruction head.text⟩

/-- Reads a line. A colon at its end makes it a label. -/
def ofText (raw : List Char) : Except Blame Line :=
  let code := withoutComment raw
  match (Text.trim code).reverse with
  | [] => .ok .blank
  | ':' :: rest =>
    let name := Text.trim rest.reverse
    if name.isEmpty then .error ⟨firstColumn code, .emptyLabel⟩
    else .ok (.label (String.ofList name) (firstColumn code))
  | _ => instructionOf code

end Line

end RegisterMachine
