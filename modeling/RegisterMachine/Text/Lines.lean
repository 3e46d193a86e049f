namespace RegisterMachine

namespace Text

/-- A line, given from its end, without the carriage return that belongs to its line feed. -/
def endedLine : List Char → List Char
  | '\r' :: cs => cs.reverse
  | cs => cs.reverse

/-- The lines of a text when `current`, given from its end, stands before it on the first one. -/
def linesFrom (current : List Char) : List Char → List (List Char)
  | [] => if current.isEmpty then [] else [current.reverse]
  | '\n' :: cs => endedLine current :: linesFrom [] cs
  | c :: cs => linesFrom (c :: current) cs

/-- The lines of a text. A line feed, with a carriage return before it or not, ends a line, and a
last line without one counts when it is not empty. -/
def lines (cs : List Char) : List (List Char) := linesFrom [] cs

/-- The line without the carriage returns at its end. -/
def withoutReturns (line : List Char) : List Char := (line.reverse.dropWhile (· = '\r')).reverse

end Text

end RegisterMachine
