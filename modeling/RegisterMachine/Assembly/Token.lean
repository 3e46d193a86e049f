import RegisterMachine.Assembly.Problem

namespace RegisterMachine

/-- A word of a line with the column where it starts. Columns count bytes from one. -/
structure Token where
  text : String
  column : Nat
  deriving DecidableEq, Repr

namespace Token

/-- The characters that part words. -/
def isSeparator (c : Char) : Bool := c = ' ' ∨ c = '\t' ∨ c = '\r'

/-- A word that is being read: where it started and its characters from the latest back. -/
structure Begun where
  column : Nat
  chars : List Char

/-- The word with one more character, or a new word that starts with it. -/
def Begun.extend (c : Char) (column : Nat) : Option Begun → Begun
  | some p => { p with chars := c :: p.chars }
  | none => ⟨column, [c]⟩

/-- Puts a word that is over in front of the later ones. -/
def finish (current : Option Begun) (later : List Token) : List Token :=
  match current with
  | some p => ⟨String.ofList p.chars.reverse, p.column⟩ :: later
  | none => later

/-- Reads the words of a line from `column` on, where `current` is the word begun before it and
`quote` the column of a quote that is still open. -/
def scanFrom (column : Nat) (current : Option Begun) (quote : Option Nat) :
    List Char → Except Problem (List Token)
  | [] =>
    match quote with
    | some opened => .error (.unterminatedString opened)
    | none => .ok (finish current [])
  | c :: cs =>
    if c = '"' then
      scanFrom (column + 1) (some (Begun.extend c column current))
        (if quote.isSome then none else some column) cs
    else if isSeparator c ∧ quote.isNone then
      match scanFrom (column + 1) none none cs with
      | .ok later => .ok (finish current later)
      | .error problem => .error problem
    else
      scanFrom (column + c.utf8Size) (some (Begun.extend c column current)) quote cs

/-- The words of a line. Between quotes nothing parts a word. -/
def scan (line : List Char) : Except Problem (List Token) := scanFrom 1 none none line

end Token

end RegisterMachine
