import Mathlib.Algebra.Ring.Int.Defs
import Mathlib.Algebra.Ring.Nat
import Mathlib.Logic.Function.Iterate
import RegisterMachine.Calendar

namespace RegisterMachine

/-- A year has a leap day if four divides it, but of the hundreds only every fourth has one. -/
def LeapYear (year : Nat) : Prop := year % 4 = 0 ∧ (year % 100 ≠ 0 ∨ year % 400 = 0)

instance : DecidablePred LeapYear := fun _ => instDecidableAnd

/-- The number of days of a month. January is the first one. -/
def monthLength (year month : Nat) : Nat :=
  match month with
  | 2 => if LeapYear year then 29 else 28
  | 4 | 6 | 9 | 11 => 30
  | _ => 31

theorem monthLength_pos (year month : Nat) : 1 ≤ monthLength year month := by
  unfold monthLength
  repeat' split
  all_goals omega

/-- A day of the Gregorian calendar in any year. -/
structure CivilDay where
  year : Nat
  month : Nat
  day : Nat
  month_pos : 1 ≤ month
  month_le : month ≤ 12
  day_pos : 1 ≤ day
  day_le : day ≤ monthLength year month

namespace CivilDay

/-- The first of January 1970. -/
def epoch : CivilDay := ⟨1970, 1, 1, by decide, by decide, by decide, by decide⟩

/-- The day after. -/
def next (d : CivilDay) : CivilDay :=
  if h : d.day < monthLength d.year d.month then
    ⟨d.year, d.month, d.day + 1, d.month_pos, d.month_le, Nat.le_add_left 1 d.day, h⟩
  else if hm : d.month < 12 then
    ⟨d.year, d.month + 1, 1, Nat.le_add_left 1 d.month, hm, Nat.le_refl 1, monthLength_pos d.year (d.month + 1)⟩
  else ⟨d.year + 1, 1, 1, Nat.le_refl 1, by decide, Nat.le_refl 1, monthLength_pos (d.year + 1) 1⟩

/-- The day that is reached from the first of January 1970 by advancing this often. -/
def after (days : Nat) : CivilDay := next^[days] epoch

end CivilDay

section DayNumbers

/-- The year that a month belongs to when years begin in March. -/
def marchYear (year month : Nat) : Int := if month ≤ 2 then (year : Int) - 1 else year

/-- The days from the first of March of the year zero to that of another year. -/
def daysBeforeMarch (year : Int) : Int := 365 * year + year / 4 - year / 100 + year / 400

/-- The months since the latest March. -/
def monthsSinceMarch (month : Nat) : Nat := if month ≤ 2 then month + 9 else month - 3

/-- The days since the latest first of March. -/
def daysSinceMarch (month day : Nat) : Nat := (153 * monthsSinceMarch month + 2) / 5 + (day - 1)

/-- The days from the first of March of the year zero to the given day. -/
def dayNumber (year month day : Nat) : Int := daysBeforeMarch (marchYear year month) + daysSinceMarch month day

/-- Between two Marches lie 337 days and a February. -/
theorem daysBeforeMarch_eq (year : Nat) :
    daysBeforeMarch year = daysBeforeMarch ((year : Int) - 1) + 337 + monthLength year 2 := by
  unfold daysBeforeMarch
  by_cases hl : LeapYear year
  · have hlong : monthLength year 2 = 29 := if_pos hl
    unfold LeapYear at hl
    omega
  · have hlong : monthLength year 2 = 28 := if_neg hl
    unfold LeapYear at hl
    omega

theorem month_cases {month : Nat} (h : 1 ≤ month) (h' : month ≤ 12) :
    month = 1 ∨ month = 2 ∨ month = 3 ∨ month = 4 ∨ month = 5 ∨ month = 6 ∨ month = 7 ∨ month = 8 ∨ month = 9 ∨
      month = 10 ∨ month = 11 ∨ month = 12 := by
  omega

theorem dayNumber_tomorrow (year month : Nat) {day : Nat} (h : 1 ≤ day) :
    dayNumber year month (day + 1) = dayNumber year month day + 1 := by
  unfold dayNumber daysSinceMarch
  omega

/-- A month begins after the last day of the one before. -/
theorem dayNumber_next_month (year : Nat) {month : Nat} (h : 1 ≤ month) (h' : month < 12) :
    dayNumber year (month + 1) 1 = dayNumber year month (monthLength year month) + 1 := by
  have hlong := monthLength_pos year month
  have hfebruary := daysBeforeMarch_eq year
  rcases month_cases h (Nat.le_of_lt h') with rfl | rfl | rfl | rfl | rfl | rfl | rfl | rfl | rfl | rfl | rfl | rfl
  case inr.inl =>
    -- The year that begins in March takes the length of February over.
    simp only [dayNumber, marchYear, daysSinceMarch, monthsSinceMarch, Nat.reduceAdd, Nat.reduceLeDiff, if_true,
      if_false]
    omega
  case inr.inr.inr.inr.inr.inr.inr.inr.inr.inr.inr => exact absurd h' (by decide)
  all_goals
    simp only [dayNumber, marchYear, daysSinceMarch, monthsSinceMarch, monthLength, Nat.reduceAdd, Nat.reduceLeDiff,
      if_true, if_false]
    omega

theorem dayNumber_next_year (year : Nat) : dayNumber (year + 1) 1 1 = dayNumber year 12 (monthLength year 12) + 1 := by
  have hyear : ((year + 1 : Nat) : Int) - 1 = year := by omega
  simp only [dayNumber, marchYear, daysSinceMarch, monthsSinceMarch, monthLength, Nat.reduceLeDiff, if_true, if_false,
    hyear]
  omega

end DayNumbers

namespace CivilDay

/-- The days from the first of March of the year zero to this one. -/
def number (d : CivilDay) : Int := dayNumber d.year d.month d.day

theorem number_next (d : CivilDay) : d.next.number = d.number + 1 := by
  unfold next
  split
  next => exact dayNumber_tomorrow d.year d.month d.day_pos
  next hlast =>
    have hday : d.day = monthLength d.year d.month := Nat.le_antisymm d.day_le (Nat.le_of_not_lt hlast)
    split
    next hm =>
      rw [number, number, hday]
      exact dayNumber_next_month d.year d.month_pos hm
    next hm =>
      have hmonth : d.month = 12 := Nat.le_antisymm d.month_le (Nat.le_of_not_lt hm)
      rw [number, number, hday, hmonth]
      exact dayNumber_next_year d.year

/-- Every advance adds one to the number of the day. -/
theorem number_after (days : Nat) : (after days).number = days + 719468 := by
  unfold after
  induction days with
  | zero => decide
  | succ days ih =>
    rw [Function.iterate_succ_apply', number_next, ih]
    omega

/-- A year that begins in March has 365 days, and one more only if it ends with a leap day. -/
theorem daysSinceMarch_le (d : CivilDay) :
    daysSinceMarch d.month d.day ≤ 364 ∨ daysSinceMarch d.month d.day = 365 ∧ LeapYear d.year ∧ d.month ≤ 2 := by
  have hday := d.day_le
  rcases month_cases d.month_pos d.month_le with h | h | h | h | h | h | h | h | h | h | h | h
  case inr.inl =>
    rw [h] at hday ⊢
    simp only [daysSinceMarch, monthsSinceMarch, monthLength, Nat.reduceLeDiff, if_true] at hday ⊢
    split at hday
    next hl => exact (Nat.lt_or_ge _ 365).imp Nat.le_of_lt_succ fun h => ⟨by omega, hl, trivial⟩
    next => omega
  all_goals
    rw [h] at hday ⊢
    simp only [daysSinceMarch, monthsSinceMarch, monthLength, Nat.reduceLeDiff, if_true, if_false] at hday ⊢
    omega

/-- From March on, the month follows from the days that have passed. -/
theorem month_of_daysSinceMarch (d : CivilDay) :
    (5 * daysSinceMarch d.month d.day + 2) / 153 = monthsSinceMarch d.month := by
  have hday := d.day_le
  have hpos := d.day_pos
  rcases month_cases d.month_pos d.month_le with h | h | h | h | h | h | h | h | h | h | h | h
  case inr.inl =>
    rw [h] at hday ⊢
    simp only [daysSinceMarch, monthsSinceMarch, monthLength, Nat.reduceLeDiff, if_true] at hday ⊢
    split at hday <;> omega
  all_goals
    rw [h] at hday ⊢
    simp only [daysSinceMarch, monthsSinceMarch, monthLength, Nat.reduceLeDiff, if_true, if_false] at hday ⊢
    omega

theorem day_of_daysSinceMarch (d : CivilDay) :
    daysSinceMarch d.month d.day - (153 * monthsSinceMarch d.month + 2) / 5 + 1 = d.day := by
  have h := d.day_pos
  unfold daysSinceMarch
  omega

theorem month_of_monthsSinceMarch (d : CivilDay) :
    (if monthsSinceMarch d.month < 10 then monthsSinceMarch d.month + 3 else monthsSinceMarch d.month - 9) =
      d.month := by
  have h := d.month_pos
  have h' := d.month_le
  unfold monthsSinceMarch
  split <;> split <;> omega

theorem year_of_marchYear (d : CivilDay) : marchYear d.year d.month + (if d.month ≤ 2 then 1 else 0) = d.year := by
  unfold marchYear
  split <;> omega

end CivilDay

section Eras

variable {century fours years day n : Nat}

/-- An era has four centuries of 36524 days and a last day beyond them. -/
theorem centuries_eq (hc : century ≤ 3) (hf : fours ≤ 24) (hy : years ≤ 3)
    (hd : day ≤ 364 ∨ day = 365 ∧ years = 3 ∧ (fours < 24 ∨ century = 3))
    (hn : n = 36524 * century + 1461 * fours + 365 * years + day) : n / 36524 = century + n / 146096 := by
  by_cases hlast : n < 36524 * (century + 1)
  · have hdiv : n / 36524 = century := Nat.div_eq_of_lt_le (by omega) (by omega)
    omega
  · have hn' : n = 146096 := by omega
    subst hn'
    omega

/-- Without the leap days that have passed, the days of an era are whole years of 365. -/
theorem yearOfEra_eq (hc : century ≤ 3) (hf : fours ≤ 24) (hy : years ≤ 3)
    (hd : day ≤ 364 ∨ day = 365 ∧ years = 3 ∧ (fours < 24 ∨ century = 3))
    (hn : n = 36524 * century + 1461 * fours + 365 * years + day) :
    (n - n / 1460 + n / 36524 - n / 146096) / 365 = 100 * century + 4 * fours + years := by
  have hcenturies := centuries_eq hc hf hy hd hn
  have hfours : n / 1460 = 25 * century + fours + (24 * century + fours + 365 * years + day) / 1460 := by omega
  have hrest : (24 * century + fours + 365 * years + day) / 1460 ≤ day ∧
      day - (24 * century + fours + 365 * years + day) / 1460 < 365 := by omega
  -- One leap day may have passed since the latest group of four years, or the day is one itself.
  generalize (24 * century + fours + 365 * years + day) / 1460 = leap at hfours hrest
  generalize n / 146096 = last at hcenturies ⊢
  have hyears : n - n / 1460 + n / 36524 - last = 365 * (100 * century + 4 * fours + years) + (day - leap) := by omega
  rw [hyears]
  omega

/-- Where a day stands: the year and the day of its era, both counted from zero. -/
structure CivilDay.InEra (d : CivilDay) (era : Int) (year day : Nat) : Prop where
  number_eq : d.number = 146097 * era + day
  day_lt : day < 146097
  marchYear_eq : marchYear d.year d.month = 400 * era + year
  year_lt : year < 400
  day_eq : day = 365 * year + year / 4 - year / 100 + daysSinceMarch d.month d.day
  yearOfEra_eq : (day - day / 1460 + day / 36524 - day / 146096) / 365 = year

theorem daysBeforeMarch_era (era : Int) {year : Nat} (h : year < 400) :
    daysBeforeMarch (400 * era + year) = 146097 * era + (365 * year + year / 4 - year / 100 : Nat) := by
  unfold daysBeforeMarch
  omega

theorem CivilDay.exists_inEra (d : CivilDay) : ∃ era year day, d.InEra era year day := by
  obtain ⟨era, year, hyear, hlt⟩ : ∃ (era : Int) (year : Nat),
      marchYear d.year d.month = 400 * era + year ∧ year < 400 :=
    ⟨marchYear d.year d.month / 400, (marchYear d.year d.month % 400).toNat, by omega, by omega⟩
  have hday : daysSinceMarch d.month d.day ≤ 364 ∨
      daysSinceMarch d.month d.day = 365 ∧ year % 4 = 3 ∧ (year % 100 / 4 < 24 ∨ year / 100 = 3) := by
    refine d.daysSinceMarch_le.imp_right ?_
    rintro ⟨hd, ⟨hfour, hhundred⟩, hm⟩
    rw [marchYear, if_pos hm] at hyear
    refine ⟨hd, by omega, ?_⟩
    rcases hhundred with h | h <;> omega
  have hnumber : d.number = 146097 * era +
      (365 * year + year / 4 - year / 100 + daysSinceMarch d.month d.day : Nat) := by
    rw [number, dayNumber, hyear, daysBeforeMarch_era era hlt]
    omega
  have hparts : 365 * year + year / 4 - year / 100 + daysSinceMarch d.month d.day = 36524 * (year / 100) +
      1461 * (year % 100 / 4) + 365 * (year % 4) + daysSinceMarch d.month d.day := by omega
  have hof := yearOfEra_eq (by omega) (by omega) (by omega) hday hparts
  refine ⟨era, year, _, hnumber, ?_, hyear, hlt, rfl, ?_⟩
  · clear hof hnumber hyear
    omega
  · rw [hof]
    omega

end Eras

namespace Date

/-- The number, if an unsigned word of 32 bits holds it. -/
def word? (n : Int) : Option Nat := if 0 ≤ n ∧ n < 2 ^ 32 then some n.toNat else none

/-- The number, if a signed word of 64 bits holds it. -/
def long? (n : Int) : Option Int := if -2 ^ 63 ≤ n ∧ n < 2 ^ 63 then some n else none

/-- The year of the era, by steps that may not leave the range of words. -/
def yearOfEra? (dayOfEra : Nat) : Option Nat := do
  let days ← word? (dayOfEra - (dayOfEra / 1460 : Nat))
  let days ← word? (days + (dayOfEra / 36524 : Nat))
  let days ← word? (days - (dayOfEra / 146096 : Nat))
  return days / 365

/-- The day of the year, by such steps. -/
def dayOfYear? (dayOfEra yearOfEra : Nat) : Option Nat := do
  let before ← word? (365 * yearOfEra)
  let before ← word? (before + (yearOfEra / 4 : Nat))
  let before ← word? (before - (yearOfEra / 100 : Nat))
  word? (dayOfEra - before)

/-- The month from March on, by such steps. -/
def monthFromMarch? (dayOfYear : Nat) : Option Nat := do
  let days ← word? (5 * dayOfYear)
  let days ← word? (days + 2)
  return days / 153

/-- The day of a month that is counted from March on, by such steps. -/
def dayOfMonth? (dayOfYear fromMarch : Nat) : Option Nat := do
  let before ← word? (153 * fromMarch)
  let before ← word? (before + 2)
  let day ← word? (dayOfYear - (before / 5 : Nat))
  word? (day + 1)

/-- The number of that month from January on, by such a step. -/
def monthOfYear? (fromMarch : Nat) : Option Nat :=
  if fromMarch < 10 then word? (fromMarch + 3) else word? (fromMarch - 9)

/-- The year of a month in a year that began in March, by such a step. -/
def yearOfMonth? (year : Int) (month : Nat) : Option Int := if month ≤ 2 then long? (year + 1) else some year

/-- The date of a day, by the steps of `Date.ofDays`. None of them may leave the range of its words. -/
def checked? (days : UInt64) : Option Date := do
  let signed ← long? days.toNat
  let shifted ← long? (signed + 719468)
  let era ← long? (shifted.fdiv 146097)
  let dayOfEra ← word? (shifted.fmod 146097)
  let yearOfEra ← yearOfEra? dayOfEra
  let eraYears ← long? (era * 400)
  let year ← long? (yearOfEra + eraYears)
  let dayOfYear ← dayOfYear? dayOfEra yearOfEra
  let fromMarch ← monthFromMarch? dayOfYear
  let day ← dayOfMonth? dayOfYear fromMarch
  let month ← monthOfYear? fromMarch
  let year ← yearOfMonth? year month
  return ⟨UInt32.ofInt year, month, day⟩

section Checked

variable {n r j m : Nat}

theorem bind_of_some {α β : Type} {x : Option α} {a : α} {f : α → Option β} (h : x = some a) : (x >>= f) = f a := by
  rw [h]
  rfl

theorem word?_eq {k : Int} (h : k = n) (hn : n < 2 ^ 32) : word? k = some n := by
  subst h
  have hfits : (0 : Int) ≤ n ∧ (n : Int) < 2 ^ 32 := by omega
  rw [word?, if_pos hfits, Int.toNat_natCast]

theorem long?_eq {k : Int} (h : -2 ^ 63 ≤ k) (h' : k < 2 ^ 63) : long? k = some k := if_pos ⟨h, h'⟩

theorem yearOfEra?_eq (h : n < 146097) :
    yearOfEra? n = some ((n - n / 1460 + n / 36524 - n / 146096) / 365) := by
  unfold yearOfEra?
  rw [bind_of_some (word?_eq (n := n - n / 1460) (by omega) (by omega)),
    bind_of_some (word?_eq (n := n - n / 1460 + n / 36524) (by omega) (by omega)),
    bind_of_some (word?_eq (n := n - n / 1460 + n / 36524 - n / 146096) (by omega) (by omega))]
  rfl

theorem dayOfYear?_eq (hr : r < 400) (hj : j ≤ 365) (hn : n = 365 * r + r / 4 - r / 100 + j) :
    dayOfYear? n r = some j := by
  unfold dayOfYear?
  rw [bind_of_some (word?_eq (n := 365 * r) (by omega) (by omega)),
    bind_of_some (word?_eq (n := 365 * r + r / 4) (by omega) (by omega)),
    bind_of_some (word?_eq (n := 365 * r + r / 4 - r / 100) (by omega) (by omega))]
  exact word?_eq (by omega) (by omega)

theorem monthFromMarch?_eq (h : j ≤ 365) : monthFromMarch? j = some ((5 * j + 2) / 153) := by
  unfold monthFromMarch?
  rw [bind_of_some (word?_eq (n := 5 * j) (by omega) (by omega)),
    bind_of_some (word?_eq (n := 5 * j + 2) (by omega) (by omega))]
  rfl

theorem dayOfMonth?_eq (hj : j ≤ 365) (hm : (153 * m + 2) / 5 ≤ j) :
    dayOfMonth? j m = some (j - (153 * m + 2) / 5 + 1) := by
  unfold dayOfMonth?
  rw [bind_of_some (word?_eq (n := 153 * m) (by omega) (by omega)),
    bind_of_some (word?_eq (n := 153 * m + 2) (by omega) (by omega)),
    bind_of_some (word?_eq (n := j - (153 * m + 2) / 5) (by omega) (by omega))]
  exact word?_eq (by omega) (by omega)

theorem monthOfYear?_eq (h : m ≤ 11) : monthOfYear? m = some (if m < 10 then m + 3 else m - 9) := by
  unfold monthOfYear?
  split
  next => exact word?_eq (by omega) (by omega)
  next => exact word?_eq (by omega) (by omega)

theorem yearOfMonth?_eq {year : Int} (h : -2 ^ 63 ≤ year) (h' : year + 1 < 2 ^ 63) (month : Nat) :
    yearOfMonth? year month = some (year + if month ≤ 2 then 1 else 0) := by
  unfold yearOfMonth?
  split
  next => exact long?_eq (by omega) h'
  next => rw [Int.add_zero]

end Checked

end Date

namespace CivilDay.InEra

variable {d : CivilDay} {days : UInt64} {era : Int} {year day : Nat}

theorem fdiv_number (h : d.InEra era year day) : d.number.fdiv 146097 = era := by
  have hn := h.number_eq
  have hlt := h.day_lt
  rw [Int.fdiv_eq_ediv_of_nonneg _ (by decide)]
  omega

theorem fmod_number (h : d.InEra era year day) : d.number.fmod 146097 = day := by
  have hn := h.number_eq
  have hlt := h.day_lt
  rw [Int.fmod_eq_emod_of_nonneg _ (by decide)]
  omega

theorem year_add (h : d.InEra era year day) : (year : Int) + era * 400 = marchYear d.year d.month := by
  rw [h.marchYear_eq]
  omega

/-- The closed form finds the year, the month and the day again. -/
theorem ofDays_eq (h : d.InEra era year day) (hdays : (days.toInt64 + 719468).toInt = d.number) :
    Date.ofDays days = ⟨UInt32.ofInt d.year, d.month, d.day⟩ := by
  have hday : day - (365 * year + year / 4 - year / 100) = daysSinceMarch d.month d.day := by
    have hd := h.day_eq
    omega
  simp only [Date.ofDays, hdays, h.fdiv_number, h.fmod_number, Int.toNat_natCast, h.yearOfEra_eq, hday,
    d.month_of_daysSinceMarch, d.day_of_daysSinceMarch, d.month_of_monthsSinceMarch, h.year_add, d.year_of_marchYear]

theorem checked?_eq (h : d.InEra era year day) (hdays : d.number = days.toNat + 719468)
    (hfits : days.toNat + 719468 ≤ 2 ^ 63 - 1) :
    Date.checked? days = some ⟨UInt32.ofInt d.year, d.month, d.day⟩ := by
  have hn := h.number_eq
  have hlt := h.day_lt
  have hyear := h.year_lt
  have hmarch := h.year_add
  have hle : daysSinceMarch d.month d.day ≤ 365 := by rcases d.daysSinceMarch_le with hd | ⟨hd, -⟩ <;> omega
  have hmonths : monthsSinceMarch d.month ≤ 11 := by
    rw [← d.month_of_daysSinceMarch]
    omega
  unfold Date.checked?
  rw [Date.bind_of_some (Date.long?_eq (by omega) (by omega)), ← hdays,
    Date.bind_of_some (Date.long?_eq (by omega) (by omega)), h.fdiv_number, h.fmod_number,
    Date.bind_of_some (Date.long?_eq (by omega) (by omega)), Date.bind_of_some (Date.word?_eq rfl (by omega)),
    Date.bind_of_some (Date.yearOfEra?_eq hlt), h.yearOfEra_eq,
    Date.bind_of_some (Date.long?_eq (by omega) (by omega)), hmarch,
    Date.bind_of_some (Date.long?_eq (by omega) (by omega)), Date.bind_of_some (Date.dayOfYear?_eq hyear hle h.day_eq),
    Date.bind_of_some (Date.monthFromMarch?_eq hle), d.month_of_daysSinceMarch,
    Date.bind_of_some (Date.dayOfMonth?_eq hle (Nat.le_add_right _ _)), d.day_of_daysSinceMarch,
    Date.bind_of_some (Date.monthOfYear?_eq hmonths), d.month_of_monthsSinceMarch,
    Date.bind_of_some (Date.yearOfMonth?_eq (by omega) (by omega) d.month), d.year_of_marchYear]
  rfl

end CivilDay.InEra

theorem toInt_add_of_le {days : UInt64} (h : days.toNat + 719468 ≤ 2 ^ 63 - 1) :
    (days.toInt64 + 719468).toInt = days.toNat + 719468 := by
  have hdays : days.toInt64.toInt = (days.toNat : Int).bmod (2 ^ 64) := BitVec.toInt_eq_toNat_bmod days.toBitVec
  have hshift : (719468 : Int64).toInt = 719468 := by decide
  rw [Int64.toInt_add, hshift, hdays, Int.bmod_eq_of_le (n := (days.toNat : Int)) (by omega) (by omega),
    Int.bmod_eq_of_le (by omega) (by omega)]

/-- The date of a day is the one that the calendar shows when it is advanced day by day, with the year as far as a word
holds it. The steps to it stay within their words. -/
theorem Date.follows_calendar {days : UInt64} (h : days.toNat + 719468 ≤ 2 ^ 63 - 1) :
    (Date.ofDays days).year.toNat = (CivilDay.after days.toNat).year % 2 ^ 32 ∧
      (Date.ofDays days).month = (CivilDay.after days.toNat).month ∧
      (Date.ofDays days).day = (CivilDay.after days.toNat).day ∧ Date.checked? days = some (Date.ofDays days) := by
  have hnumber := CivilDay.number_after days.toNat
  obtain ⟨era, year, day, hera⟩ := (CivilDay.after days.toNat).exists_inEra
  have hdate := hera.ofDays_eq ((toInt_add_of_le h).trans hnumber.symm)
  rw [hera.checked?_eq hnumber h, hdate]
  refine ⟨?_, rfl, rfl, rfl⟩
  rw [UInt32.ofInt, UInt32.toNat_ofNat']
  omega

/-- The last century of an era has a leap day. -/
theorem Date.follows_calendar_to_leap_day :
    (11016 : UInt64).toNat + 719468 ≤ 2 ^ 63 - 1 ∧ Date.ofDays 11016 = ⟨2000, 2, 29⟩ ∧
      (CivilDay.after 11016).year % 2 ^ 32 = 2000 ∧ (CivilDay.after 11016).month = 2 ∧
      (CivilDay.after 11016).day = 29 ∧ Date.checked? 11016 = some ⟨2000, 2, 29⟩ := by
  have hfits : (11016 : UInt64).toNat + 719468 ≤ 2 ^ 63 - 1 := by decide
  have hdate : Date.ofDays 11016 = ⟨2000, 2, 29⟩ := by decide
  obtain ⟨hyear, hmonth, hday, hchecked⟩ := Date.follows_calendar hfits
  have hn : (11016 : UInt64).toNat = 11016 := rfl
  rw [hdate, hn] at hyear hmonth hday
  rw [hdate] at hchecked
  exact ⟨hfits, hdate, hyear.symm, hmonth.symm, hday.symm, hchecked⟩

end RegisterMachine
