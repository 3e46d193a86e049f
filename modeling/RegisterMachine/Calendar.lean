import RegisterMachine.Numeral

namespace RegisterMachine

/-- A day of the Gregorian calendar. -/
structure Date where
  year : UInt32
  month : Nat
  day : Nat
  deriving DecidableEq, Repr

/-- The date of a day counted from the first of January 1970. Years begin in March here until the
last step, so that a leap day ends its year, and 400 of them have 146097 days. Day numbers are
counted in signed words. -/
def Date.ofDays (days : UInt64) : Date :=
  let shifted := (days.toInt64 + 719468).toInt
  let era := shifted.fdiv 146097
  let dayOfEra := (shifted.fmod 146097).toNat
  let yearOfEra :=
    (dayOfEra - dayOfEra / 1460 + dayOfEra / 36524 - dayOfEra / 146096) / 365
  let dayOfYear := dayOfEra - (365 * yearOfEra + yearOfEra / 4 - yearOfEra / 100)
  let fromMarch := (5 * dayOfYear + 2) / 153
  let day := dayOfYear - (153 * fromMarch + 2) / 5 + 1
  let month := if fromMarch < 10 then fromMarch + 3 else fromMarch - 9
  let year := (yearOfEra : Int) + era * 400 + (if month ≤ 2 then 1 else 0)
  ⟨UInt32.ofInt year, month, day⟩

/-- A number with zeros in front of it up to the given width. -/
def zeroPadded (width n : Nat) : String :=
  String.ofList (List.leftpad width '0' (Nat.toDigits 10 n))

/-- A moment, given in milliseconds from the start of 1970, as log lines show it. -/
def timestamp (milliseconds : Nat) : String :=
  let seconds := milliseconds / 1000
  let date := Date.ofDays (UInt64.ofNat (seconds / 86400))
  zeroPadded 4 date.year.toNat ++ "-" ++ zeroPadded 2 date.month ++ "-" ++
    zeroPadded 2 date.day ++ " " ++ zeroPadded 2 (seconds / 3600 % 24) ++ ":" ++
    zeroPadded 2 (seconds / 60 % 60) ++ ":" ++ zeroPadded 2 (seconds % 60) ++ "." ++
    zeroPadded 3 (milliseconds % 1000)

end RegisterMachine
