import RegisterMachine.Text.Unprintable

namespace RegisterMachine

namespace Text

/-- Whether a character is shown as an escape. -/
def isUnprintable (c : Char) : Bool :=
  c.toNat < 0x20 ||
    unprintableRanges.any fun (first, last) => first ≤ c.toNat && c.toNat ≤ last

/-- A character as it stands between quotes. -/
def quotedChar (c : Char) : List Char :=
  match c with
  | '"' => ['\\', '"']
  | '\\' => ['\\', '\\']
  | '\n' => ['\\', 'n']
  | '\r' => ['\\', 'r']
  | '\t' => ['\\', 't']
  | '\x00' => ['\\', '0']
  | c =>
    if isUnprintable c then
      ['\\', 'u', '\x7b'] ++ Nat.toDigits 16 c.toNat ++ ['\x7d']
    else [c]

/-- A text between quotes, with escapes for the characters that cannot stand there. -/
def quoted (s : String) : String :=
  String.ofList ('"' :: s.toList.flatMap quotedChar ++ ['"'])

end Text

end RegisterMachine
