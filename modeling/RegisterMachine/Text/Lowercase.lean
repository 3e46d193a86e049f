import RegisterMachine.Text.LetterCase

namespace RegisterMachine

namespace Text

/-- Whether the small letter of a character is found by way of the run. -/
def CapitalRun.contains (run : CapitalRun) (n : Nat) : Bool :=
  run.first ≤ n ∧ n ≤ run.last ∧ (n - run.first) % run.distance = 0

/-- The small letter of a character that has just one, and any other character itself. -/
def smallLetter (c : Char) : Char :=
  match capitalRuns.find? fun run => run.contains c.toNat with
  | some run => Char.ofNat (c.toNat + run.shift).toNat
  | none => c

/-- Whether a character lies in one of the ranges. -/
def inRanges (ranges : List (Nat × Nat)) (c : Char) : Bool :=
  ranges.any fun (first, last) => first ≤ c.toNat && c.toNat ≤ last

/-- Whether a character is a letter that has a case. -/
def isCased (c : Char) : Bool := inRanges casedRanges c

/-- Whether a character is passed over when letters around it are looked for. -/
def isCaseIgnorable (c : Char) : Bool := inRanges caseIgnorableRanges c

/-- Whether the first character that matters for letter case is a letter. -/
def meetsLetter (cs : List Char) : Bool :=
  match cs.dropWhile isCaseIgnorable with
  | c :: _ => isCased c
  | [] => false

/-- The lower case of a text whose earlier characters, the latest first, are given. A capital
sigma at the end of a word has a form of its own, and a capital i with a dot keeps its dot as a
mark. -/
def toLowerAfter (before : List Char) : List Char → List Char
  | [] => []
  | c :: cs =>
    let small :=
      if c = 'Σ' then
        if meetsLetter before && !meetsLetter cs then ['ς'] else ['σ']
      else if c = 'İ' then ['i', Char.ofNat 0x307]
      else [smallLetter c]
    small ++ toLowerAfter (c :: before) cs

/-- The text in lower case. -/
def toLower (cs : List Char) : List Char := toLowerAfter [] cs

end Text

end RegisterMachine
