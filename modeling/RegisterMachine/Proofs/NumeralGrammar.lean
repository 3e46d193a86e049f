import Mathlib.Data.Nat.Digits.Defs
import Mathlib.Tactic.Ring
import RegisterMachine.Assembly.Literal

namespace RegisterMachine

namespace Numeral

/-- The value of a digit of either case. What is no digit comes out as 16. -/
def digitValue (c : Char) : Nat := "0123456789abcdef".toList.idxOf c.toLower

/-- The characters are a run of digits, at least one, that stand for the number in this base. -/
structure Writes (base : Nat) (cs : List Char) (n : Nat) : Prop where
  ne_nil : cs ≠ []
  digits : ∀ c ∈ cs, digitValue c < base
  value : n = Nat.ofDigits base (cs.reverse.map digitValue)

section Digits

variable {c : Char}

theorem of_ascii {P : Char → Prop} (h : ∀ n < 128, P (Char.ofNat n)) (hc : c.toNat < 128) : P c := by
  have hp := h c.toNat hc
  rwa [Char.ofNat_toNat] at hp

theorem toLower_of_large (h : 128 ≤ c.toNat) : c.toLower = c := by
  have hz : ¬ (c.val ≥ 'A'.val ∧ c.val ≤ 'Z'.val) := by
    rintro ⟨-, hle⟩
    have hn : c.toNat ≤ 'Z'.toNat := hle
    exact absurd (Nat.le_trans h hn) (by decide)
  exact dif_neg hz

/-- Every digit is an ASCII character. -/
theorem digitValue_of_large (h : 128 ≤ c.toNat) : digitValue c = 16 := by
  rw [digitValue, toLower_of_large h]
  apply List.idxOf_eq_length
  intro hm
  have hall : ("0123456789abcdef".toList.all fun d => d.toNat < 128) = true := by decide +kernel
  have hlt := of_decide_eq_true (List.all_eq_true.mp hall c hm)
  omega

theorem not_le_of_large {last : Char} (h : 128 ≤ c.toNat) (hl : last.toNat < 128) : ¬ c ≤ last := by
  intro hle
  have hn : c.toNat ≤ last.toNat := hle
  omega

theorem decimalDigit?_eq (c : Char) : decimalDigit? c = if digitValue c < 10 then some (digitValue c) else none := by
  by_cases h : c.toNat < 128
  · revert h
    apply of_ascii
    decide +kernel
  · rw [Nat.not_lt] at h
    rw [digitValue_of_large h, decimalDigit?, if_neg fun hd => not_le_of_large h (by decide) hd.2]
    rfl

theorem hexDigit?_eq (c : Char) : hexDigit? c = if digitValue c < 16 then some (digitValue c) else none := by
  by_cases h : c.toNat < 128
  · revert h
    apply of_ascii
    decide +kernel
  · rw [Nat.not_lt] at h
    rw [digitValue_of_large h, hexDigit?, if_neg fun hd => not_le_of_large h (by decide) hd.2,
      if_neg fun hd => not_le_of_large h (by decide) hd.2, if_neg fun hd => not_le_of_large h (by decide) hd.2]
    rfl

end Digits

section Runs

variable {base acc n : Nat} {digit? : Char → Option Nat} {c : Char} {cs : List Char}

/-- A number has one more digit at its end. -/
theorem ofDigits_reverse_cons (base : Nat) (c : Char) (cs : List Char) :
    Nat.ofDigits base ((c :: cs).reverse.map digitValue) =
      Nat.ofDigits base (cs.reverse.map digitValue) + base ^ cs.length * digitValue c := by
  simp [Nat.ofDigits_append]

theorem readFrom_eq_some (hd : ∀ c, digit? c = if digitValue c < base then some (digitValue c) else none) :
    readFrom base digit? acc cs = some n ↔ (∀ c ∈ cs, digitValue c < base) ∧
      n = acc * base ^ cs.length + Nat.ofDigits base (cs.reverse.map digitValue) := by
  induction cs generalizing acc with
  | nil => simp [readFrom, eq_comm]
  | cons c cs ih =>
    have hvalue : (acc * base + digitValue c) * base ^ cs.length + Nat.ofDigits base (cs.reverse.map digitValue) =
        acc * base ^ (c :: cs).length + Nat.ofDigits base ((c :: cs).reverse.map digitValue) := by
      rw [ofDigits_reverse_cons, List.length_cons]
      ring
    rw [readFrom, hd, List.forall_mem_cons]
    by_cases hc : digitValue c < base
    · rw [if_pos hc, and_iff_right hc, ← hvalue]
      exact ih
    · simp [hc]

theorem read?_eq_some (hd : ∀ c, digit? c = if digitValue c < base then some (digitValue c) else none) :
    read? base digit? cs = some n ↔ Writes base cs n := by
  cases cs with
  | nil =>
    constructor
    · intro h
      cases h
    · intro h
      exact (h.ne_nil rfl).elim
  | cons c cs =>
    have hread : read? base digit? (c :: cs) = readFrom base digit? 0 (c :: cs) := rfl
    rw [hread, readFrom_eq_some hd, Nat.zero_mul, Nat.zero_add]
    exact ⟨fun h => ⟨List.cons_ne_nil c cs, h.1, h.2⟩, fun h => ⟨h.digits, h.value⟩⟩

theorem natural?_eq_some : natural? cs = some n ↔ Writes 10 cs n := read?_eq_some decimalDigit?_eq

/-- A run of digits does not begin with a sign or a letter beyond them. -/
theorem not_writes_cons (h : base ≤ digitValue c) : ¬ Writes base (c :: cs) n :=
  fun hw => absurd (hw.digits c List.mem_cons_self) (Nat.not_lt.mpr h)

end Runs

/-- A run of digits with a plus sign in front or without one. -/
def MayPlus (base : Nat) (cs : List Char) (n : Nat) : Prop :=
  Writes base cs n ∨ ∃ digits, cs = '+' :: digits ∧ Writes base digits n

section Signs

variable {base n : Nat} {cs digits : List Char}

theorem mayPlus_cons (h : base ≤ 16) : MayPlus base ('+' :: cs) n ↔ Writes base cs n := by
  have hsign : ¬ Writes base ('+' :: cs) n := not_writes_cons h
  simp [MayPlus, hsign]

theorem mayPlus_of_ne (h : ∀ digits, cs ≠ '+' :: digits) : MayPlus base cs n ↔ Writes base cs n :=
  or_iff_left fun ⟨digits, he, _⟩ => h digits he

theorem unsigned?_eq_some : unsigned? cs = some n ↔ MayPlus 10 cs n := by
  unfold unsigned?
  split
  next => rw [natural?_eq_some, mayPlus_cons (by decide)]
  next hne => rw [natural?_eq_some, mayPlus_of_ne fun digits he => hne digits he]

theorem hexadecimal?_eq_some : hexadecimal? cs = some n ↔ MayPlus 16 cs n := by
  unfold hexadecimal?
  split
  next => rw [read?_eq_some hexDigit?_eq, mayPlus_cons (Nat.le_refl 16)]
  next hne => rw [read?_eq_some hexDigit?_eq, mayPlus_of_ne fun digits he => hne digits he]

theorem byte?_eq_some {b : UInt8} : byte? n = some b ↔ n = b.toNat := by
  unfold byte?
  split
  next h =>
    rw [Option.some.injEq, ← UInt8.toNat_inj, UInt8.toNat_ofNat', Nat.mod_eq_of_lt h]
  next h =>
    have hb := b.toNat_lt
    simp only [reduceCtorEq, false_iff]
    omega

theorem bind_byte?_eq_some {x : Option Nat} {b : UInt8} : x.bind byte? = some b ↔ x = some b.toNat := by
  rw [Option.bind_eq_some_iff]
  simp only [byte?_eq_some]
  exact ⟨fun ⟨_, hx, hn⟩ => hn ▸ hx, fun hx => ⟨_, hx, rfl⟩⟩

end Signs

end Numeral

namespace Literal

open Numeral

/-- A hexadecimal literal with these characters behind its mark. -/
def HexMarked (cs digits : List Char) : Prop := cs = '0' :: 'x' :: digits ∨ cs = '0' :: 'X' :: digits

/-- The forms of an address: a decimal numeral, or a hexadecimal one behind its mark. -/
def Addresses (Spells : Nat → List Char → Nat → Prop) (cs : List Char) (n : Nat) : Prop :=
  Spells 10 cs n ∨ ∃ digits, HexMarked cs digits ∧ Spells 16 digits n

section Grammar

variable {cs digits : List Char} {token : String} {n : Nat}

theorem hexDigits?_eq_some : hexDigits? cs = some digits ↔ HexMarked cs digits := by
  unfold hexDigits? HexMarked
  split
  next => simp [eq_comm]
  next => simp [eq_comm]
  next hx hX =>
    simp only [reduceCtorEq, false_iff]
    rintro (h | h)
    · exact hx digits h
    · exact hX digits h

theorem not_hexMarked (h : hexDigits? cs = none) (digits : List Char) : ¬ HexMarked cs digits := by
  intro hm
  rw [hexDigits?_eq_some.mpr hm] at h
  cases h

/-- Behind its mark no literal is a decimal numeral. -/
theorem HexMarked.not_mayPlus (h : HexMarked cs digits) : ¬ MayPlus 10 cs n := by
  have hletter : ∀ x, digitValue x = 16 → ¬ MayPlus 10 ('0' :: x :: digits) n := by
    intro x hx
    rw [mayPlus_of_ne fun _ he => by cases he]
    intro hw
    have hd := hw.digits x (by simp)
    omega
  rcases h with rfl | rfl
  · exact hletter 'x' (by decide +kernel)
  · exact hletter 'X' (by decide +kernel)

theorem HexMarked.unique {digits' : List Char} (h : HexMarked cs digits) (h' : HexMarked cs digits') :
    digits = digits' := by
  have he := hexDigits?_eq_some.mpr h
  rw [hexDigits?_eq_some.mpr h', Option.some.injEq] at he
  exact he.symm

theorem addressNumber?_eq_some : addressNumber? cs = some n ↔ Addresses MayPlus cs n := by
  unfold addressNumber? Addresses
  cases hx : hexDigits? cs with
  | some digits =>
    have hm := hexDigits?_eq_some.mp hx
    constructor
    · intro h
      exact .inr ⟨digits, hm, hexadecimal?_eq_some.mp h⟩
    · rintro (h | ⟨digits', hm', h⟩)
      · exact (hm.not_mayPlus h).elim
      · rw [hm.unique hm']
        exact hexadecimal?_eq_some.mpr h
  | none =>
    constructor
    · intro h
      exact .inl (unsigned?_eq_some.mp h)
    · rintro (h | ⟨digits, hm, -⟩)
      · exact unsigned?_eq_some.mpr h
      · exact (not_hexMarked hx digits hm).elim

theorem address_cases (token : String) :
    (∃ a, (addressNumber? token.toList).bind byte? = some a ∧ address token = .ok a) ∨
      (addressNumber? token.toList).bind byte? = none ∧ address token = .error (.invalidAddress token) := by
  unfold address
  generalize (addressNumber? token.toList).bind byte? = found
  cases found with
  | some a => exact .inl ⟨a, rfl, rfl⟩
  | none => exact .inr ⟨rfl, rfl⟩

theorem address_eq_ok {a : UInt8} : address token = .ok a ↔ Addresses MayPlus token.toList a.toNat := by
  rw [← addressNumber?_eq_some, ← bind_byte?_eq_some]
  rcases address_cases token with ⟨b, hb, ha⟩ | ⟨hb, ha⟩
  · simp [hb, ha]
  · simp [hb, ha]

theorem address_eq_error {problem : Problem} : address token = .error problem ↔
    problem = .invalidAddress token ∧ ∀ a : UInt8, ¬ Addresses MayPlus token.toList a.toNat := by
  simp only [← address_eq_ok]
  rcases address_cases token with ⟨b, -, ha⟩ | ⟨-, ha⟩
  · simp [ha]
  · simp [ha, eq_comm]

theorem value_of_unquoted (h : ∀ rest, token.toList ≠ '"' :: rest) :
    value token = match simple? token.toList with
      | some v => .ok v
      | none => .error (.invalidLiteral token) := by
  unfold value
  split
  next rest hq => exact (h rest hq).elim
  next => rfl

theorem HexMarked.unquoted (h : HexMarked cs digits) (rest : List Char) : cs ≠ '"' :: rest := by
  rcases h with rfl | rfl <;> simp

theorem value_of_hexMarked (h : HexMarked token.toList digits) :
    value token = match (hexadecimal? digits).bind byte? with
      | some b => .ok (.byte b.toInt8)
      | none => .error (.invalidLiteral token) := by
  have hsimple : simple? token.toList = ((hexadecimal? digits).bind byte?).map fun b => .byte b.toInt8 := by
    rw [simple?, hexDigits?_eq_some.mpr h]
  rw [value_of_unquoted h.unquoted, hsimple]
  cases (hexadecimal? digits).bind byte? <;> rfl

theorem value_eq_ok_of_hexMarked {v : Value} (h : HexMarked token.toList digits) :
    value token = .ok v ↔ ∃ b : UInt8, v = .byte b.toInt8 ∧ MayPlus 16 digits b.toNat := by
  simp only [← hexadecimal?_eq_some, ← bind_byte?_eq_some]
  rw [value_of_hexMarked h]
  cases (hexadecimal? digits).bind byte? with
  | none => simp
  | some b => simp [eq_comm]

theorem value_eq_error_of_hexMarked {problem : Problem} (h : HexMarked token.toList digits) :
    value token = .error problem ↔ problem = .invalidLiteral token ∧ ∀ b : UInt8, ¬ MayPlus 16 digits b.toNat := by
  simp only [← hexadecimal?_eq_some, ← bind_byte?_eq_some]
  rw [value_of_hexMarked h]
  cases (hexadecimal? digits).bind byte? with
  | none => simp [eq_comm]
  | some b => simp

theorem mayPlus_of_not_mem {base : Nat} (h : '+' ∉ cs) : MayPlus base cs n ↔ Writes base cs n :=
  mayPlus_of_ne fun _ he => h (he ▸ List.mem_cons_self)

theorem HexMarked.mem {c : Char} (h : HexMarked cs digits) (hc : c ∈ digits) : c ∈ cs := by
  rcases h with rfl | rfl <;> simp [hc]

/-- Without a plus sign in it, a word is an address as the text for wrong ones describes them. -/
theorem addresses_of_not_mem (h : '+' ∉ cs) : Addresses MayPlus cs n ↔ Addresses Writes cs n := by
  refine or_congr (mayPlus_of_not_mem h) (exists_congr fun digits => and_congr_right fun hm => ?_)
  exact mayPlus_of_not_mem fun hc => h (hm.mem hc)

end Grammar

/-- An address is a decimal numeral, or a hexadecimal one behind its mark, that a byte holds, and a literal with such a
mark is the byte with that bit pattern. Everything else is refused. A plus sign may stand in front of the digits of
either numeral. -/
theorem numerals_read_exactly (token : String) :
    (∀ a, address token = .ok a ↔ Addresses MayPlus token.toList a.toNat) ∧
    (∀ problem, address token = .error problem ↔
      problem = .invalidAddress token ∧ ∀ a : UInt8, ¬ Addresses MayPlus token.toList a.toNat) ∧
    (∀ digits, HexMarked token.toList digits →
      (∀ v, value token = .ok v ↔ ∃ b : UInt8, v = .byte b.toInt8 ∧ MayPlus 16 digits b.toNat) ∧
      ∀ problem, value token = .error problem ↔
        problem = .invalidLiteral token ∧ ∀ b : UInt8, ¬ MayPlus 16 digits b.toNat) ∧
    ('+' ∉ token.toList → (∀ n, Addresses MayPlus token.toList n ↔ Addresses Writes token.toList n) ∧
      ∀ digits n, HexMarked token.toList digits → (MayPlus 16 digits n ↔ Writes 16 digits n)) := by
  refine ⟨fun _ => address_eq_ok, fun _ => address_eq_error, fun digits hm => ?_, fun hplus => ?_⟩
  · exact ⟨fun _ => value_eq_ok_of_hexMarked hm, fun _ => value_eq_error_of_hexMarked hm⟩
  · exact ⟨fun _ => addresses_of_not_mem hplus,
      fun digits _ hm => mayPlus_of_not_mem fun hc => hplus (hm.mem hc)⟩

/-- Digits of either case make up the byte with all bits set. -/
theorem numerals_read_exactly_of_mixed_case :
    HexMarked "0XfF".toList "fF".toList ∧ '+' ∉ "0XfF".toList ∧ Writes 16 "fF".toList 255 ∧
      value "0XfF" = .ok (.byte (-1)) ∧ address "0XfF" = .ok 255 := by
  have hm : HexMarked "0XfF".toList "fF".toList := .inr (by decide +kernel)
  have hplus : '+' ∉ "0XfF".toList := by decide +kernel
  have hall : ("fF".toList.all fun c => digitValue c < 16) = true := by decide +kernel
  have hw : Writes 16 "fF".toList 255 :=
    ⟨by decide +kernel, fun c hc => of_decide_eq_true (List.all_eq_true.mp hall c hc), by decide +kernel⟩
  obtain ⟨haddress, -, hhex, hplain⟩ := numerals_read_exactly "0XfF"
  refine ⟨hm, hplus, hw, ?_, ?_⟩
  · exact ((hhex _ hm).1 _).mpr ⟨255, by decide, ((hplain hplus).2 _ _ hm).mpr hw⟩
  · exact (haddress 255).mpr (((hplain hplus).1 _).mpr (.inr ⟨_, hm, hw⟩))

/-- A plus sign is no digit, but it is taken in front of them. -/
theorem plus_sign_taken :
    address "+5" = .ok 5 ∧ (∀ n, ¬ Addresses Writes "+5".toList n) ∧
      HexMarked "0x+5".toList "+5".toList ∧ value "0x+5" = .ok (.byte 5) ∧ ∀ n, ¬ Writes 16 "+5".toList n := by
  have hlist : "+5".toList = ['+', '5'] := by decide +kernel
  refine ⟨by decide +kernel, ?_, .inl (by decide +kernel), by decide +kernel, ?_⟩
  · rw [hlist]
    rintro n (h | ⟨digits, hm, -⟩)
    · exact not_writes_cons (by decide +kernel) h
    · rcases hm with hm | hm <;> cases hm
  · rw [hlist]
    exact fun n => not_writes_cons (by decide +kernel)

end Literal

end RegisterMachine
