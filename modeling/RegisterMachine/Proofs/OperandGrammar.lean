import RegisterMachine.Proofs.NumeralGrammar
import RegisterMachine.Proofs.ValueCodecLaws

namespace RegisterMachine

namespace Numeral

/-- A run of decimal digits with either sign in front or with none. -/
inductive Signed : List Char → Int → Prop
  | plain {cs : List Char} {n : Nat} : Writes 10 cs n → Signed cs n
  | plus {cs : List Char} {n : Nat} : Writes 10 cs n → Signed ('+' :: cs) n
  | minus {cs : List Char} {n : Nat} : Writes 10 cs n → Signed ('-' :: cs) (-n)

section Signed

variable {c : Char} {cs : List Char} {n : Int}

theorem integer?_minus {digits : List Char} :
    integer? ('-' :: digits) = some n ↔ ∃ m : Nat, Writes 10 digits m ∧ n = -m := by
  simp only [integer?, ← natural?_eq_some]
  cases natural? digits <;> simp [eq_comm]

theorem integer?_of_ne (h : ∀ digits, cs ≠ '-' :: digits) :
    integer? cs = some n ↔ ∃ m : Nat, MayPlus 10 cs m ∧ n = m := by
  simp only [← unsigned?_eq_some]
  unfold integer?
  split
  next digits => exact (h digits rfl).elim
  next => cases unsigned? cs <;> simp [eq_comm]

theorem integer?_eq_some : integer? cs = some n ↔ Signed cs n := by
  by_cases h : ∃ digits, cs = '-' :: digits
  · obtain ⟨digits, rfl⟩ := h
    rw [integer?_minus]
    constructor
    · rintro ⟨m, hw, rfl⟩
      exact .minus hw
    · intro hs
      cases hs with
      | plain hw => exact (not_writes_cons (by decide +kernel) hw).elim
      | minus hw => exact ⟨_, hw, rfl⟩
  · rw [integer?_of_ne fun digits he => h ⟨digits, he⟩]
    constructor
    · rintro ⟨m, hw | ⟨digits, rfl, hw⟩, rfl⟩
      · exact .plain hw
      · exact .plus hw
    · intro hs
      cases hs with
      | plain hw => exact ⟨_, .inl hw, rfl⟩
      | plus hw => exact ⟨_, .inr ⟨_, rfl, hw⟩, rfl⟩
      | minus hw => exact (h ⟨_, rfl⟩).elim

/-- Nothing but digits and signs stands in a signed numeral. -/
theorem Signed.digit_or_sign (h : Signed cs n) (hc : c ∈ cs) : digitValue c < 10 ∨ c = '+' ∨ c = '-' := by
  cases h with
  | plain hw => exact .inl (hw.digits c hc)
  | plus hw =>
    rcases List.mem_cons.mp hc with rfl | hc
    · exact .inr (.inl rfl)
    · exact .inl (hw.digits c hc)
  | minus hw =>
    rcases List.mem_cons.mp hc with rfl | hc
    · exact .inr (.inr rfl)
    · exact .inl (hw.digits c hc)

theorem Signed.not_mem (h : Signed cs n) (hother : 10 ≤ digitValue c ∧ c ≠ '+' ∧ c ≠ '-') : c ∉ cs := by
  intro hc
  obtain ⟨hv, hp, hm⟩ := hother
  rcases h.digit_or_sign hc with hd | rfl | rfl
  · omega
  · exact hp rfl
  · exact hm rfl

theorem digitValue_digitChar {d : Nat} (h : d < 10) : digitValue d.digitChar = d := by
  have hall : ∀ d < 10, digitValue (Nat.digitChar d) = d := by decide +kernel
  exact hall d h

theorem Writes.concat {base n : Nat} (h : Writes base cs n) (hc : digitValue c < base) :
    Writes base (cs ++ [c]) (base * n + digitValue c) := by
  refine ⟨by simp, ?_, ?_⟩
  · intro d hd
    rcases List.mem_append.mp hd with hd | hd
    · exact h.digits d hd
    · rw [List.mem_singleton.mp hd]
      exact hc
  · rw [List.reverse_append, List.reverse_singleton, List.singleton_append, List.map_cons, Nat.ofDigits_cons, ← h.value]
    exact Nat.add_comm _ _

/-- The decimal text of a number writes it. -/
theorem writes_toDigits (n : Nat) : Writes 10 (Nat.toDigits 10 n) n := by
  induction n using Nat.strongRecOn with
  | ind n ih =>
    by_cases h : n < 10
    · rw [Nat.toDigits_of_lt_base h]
      refine ⟨List.cons_ne_nil _ _, ?_, ?_⟩
      · simpa [digitValue_digitChar h] using h
      · simp [digitValue_digitChar h]
    · have hlast : n % 10 < 10 := Nat.mod_lt n (by decide)
      have hc := (ih (n / 10) (by omega)).concat (c := (n % 10).digitChar) (by rwa [digitValue_digitChar hlast])
      rw [digitValue_digitChar hlast, Nat.div_add_mod] at hc
      rwa [Nat.toDigits_of_base_le (by decide) (Nat.not_lt.mp h)]

theorem signed_toString (n : Int) : Signed (toString n).toList n := by
  cases n with
  | ofNat n =>
    have ht : (toString (Int.ofNat n)).toList = Nat.toDigits 10 n := Nat.toList_repr
    rw [ht]
    exact .plain (writes_toDigits n)
  | negSucc n =>
    have ht : (toString (Int.negSucc n)).toList = '-' :: Nat.toDigits 10 (n + 1) := by
      rw [Int.toString_eq_repr, Int.repr_eq_if, if_neg (by omega), String.toList_append, Nat.toList_repr]
      rfl
    rw [ht]
    exact .minus (writes_toDigits (n + 1))

end Signed

end Numeral

namespace Literal

open Numeral

/-- The letter of registers and a decimal numeral. -/
def NamesRegister (cs : List Char) (n : Nat) : Prop := ∃ digits, cs = 'R' :: digits ∧ Writes 10 digits n

/-- A text without quotes, between quotes. -/
def Quotes (cs : List Char) (s : String) : Prop := cs = '"' :: (s.toList ++ ['"']) ∧ '"' ∉ s.toList

/-- The characters, the last of which is either of the two, without it. -/
def EndsIn (upper lower : Char) (cs body : List Char) : Prop := cs = body ++ [upper] ∨ cs = body ++ [lower]

/-- A decimal numeral that says that it is a long. -/
def NamesLong (cs : List Char) (n : Int) : Prop := ∃ digits, EndsIn 'L' 'l' cs digits ∧ Signed digits n

/-- What a word may be read as, with what it then looks like. -/
inductive Reading (token : String) : Except Problem Operand → Prop
  | register {r : UInt8} : NamesRegister token.toList r.toNat → Reading token (.ok (.register r))
  | noRegister {n : Nat} : NamesRegister token.toList n → 255 < n → Reading token (.error (.invalidRegister token))
  | string {s : String} : Quotes token.toList s → s.utf8ByteSize ≤ 255 → Reading token (.ok (.value (.string s)))
  | noString {s : String} : Quotes token.toList s → 255 < s.utf8ByteSize →
      Reading token (.error (.stringTooLong s.utf8ByteSize))
  | hexadecimal {digits : List Char} {b : Int8} : HexMarked token.toList digits →
      Reading token (.ok (.value (.byte b)))
  | long {n : Int64} : NamesLong token.toList n.toInt → Reading token (.ok (.value (.long n)))
  | double {digits : List Char} {v : Double} : EndsIn 'D' 'd' token.toList digits →
      Reading token (.ok (.value (.double v)))
  | bool {b : Bool} : token = (if b then "true" else "false") → Reading token (.ok (.value (.bool b)))
  | byte {b : Int8} : Signed token.toList b.toInt → Reading token (.ok (.value (.byte b)))
  | int {i : Int32} : Signed token.toList i.toInt → ¬ (-128 ≤ i.toInt ∧ i.toInt ≤ 127) →
      Reading token (.ok (.value (.int i)))
  | noLiteral : Reading token (.error (.invalidLiteral token))

section Parts

variable {cs rest body : List Char} {token s : String} {v : Value}

theorem registerNumber?_eq_some {n : Nat} : registerNumber? cs = some n ↔ NamesRegister cs n := by
  unfold registerNumber? NamesRegister
  split
  next digits => simp [natural?_eq_some]
  next h =>
    simp only [reduceCtorEq, false_iff]
    rintro ⟨digits, rfl, -⟩
    exact h digits rfl

theorem quoted?_eq_some : quoted? rest = some s ↔ Quotes ('"' :: rest) s := by
  unfold quoted? Quotes
  split
  next body h =>
    have hr : rest = body.reverse ++ ['"'] := by rw [← List.reverse_reverse rest, h, List.reverse_cons]
    have hs : '"' :: rest = '"' :: (s.toList ++ ['"']) ↔ String.ofList body.reverse = s := by
      rw [hr, List.cons.injEq, List.append_cancel_right_eq, ← String.toList_inj, String.toList_ofList]
      simp
    rw [hs]
    by_cases hq : '"' ∈ body
    · simp only [List.contains_iff_mem, if_pos hq, reduceCtorEq, false_iff]
      rintro ⟨rfl, hn⟩
      exact hn (by simpa using hq)
    · simp only [List.contains_iff_mem, if_neg hq, Option.some.injEq]
      refine ⟨fun he => ⟨he, ?_⟩, And.left⟩
      rw [← he]
      simpa using hq
  next h =>
    simp only [reduceCtorEq, false_iff]
    rintro ⟨he, -⟩
    obtain ⟨-, rfl⟩ := List.cons.inj he
    exact h s.toList.reverse (by simp)

theorem beforeSuffix?_eq_some {upper lower : Char} :
    beforeSuffix? upper lower cs = some body ↔ EndsIn upper lower cs body := by
  unfold beforeSuffix? EndsIn
  split
  next c front h =>
    have hr : cs = front.reverse ++ [c] := by rw [← List.reverse_reverse cs, h, List.reverse_cons]
    have hs : ∀ d, cs = body ++ [d] ↔ front.reverse = body ∧ c = d := by
      intro d
      rw [hr, ← List.concat_eq_append, ← List.concat_eq_append, List.concat_inj]
    rw [hs, hs, ← and_or_left]
    by_cases hc : c = upper ∨ c = lower
    · simp [hc]
    · simp [hc]
  next h =>
    rw [List.reverse_eq_nil_iff] at h
    simp [h]

theorem within?_eq_some {low high m n : Int} : within? low high m = some n ↔ m = n ∧ low ≤ n ∧ n ≤ high := by
  unfold within?
  split
  next h =>
    rw [Option.some.injEq]
    exact ⟨fun he => ⟨he, he ▸ h⟩, And.left⟩
  next h =>
    simp only [reduceCtorEq, false_iff]
    rintro ⟨rfl, hr⟩
    exact h hr

theorem long?_eq_some : long? cs = some v ↔ ∃ n : Int64, v = .long n ∧ Signed cs n.toInt := by
  simp only [long?, Option.map_eq_some_iff, Option.bind_eq_some_iff, within?_eq_some, ← integer?_eq_some]
  constructor
  · rintro ⟨n, ⟨m, hm, rfl, hlow, hhigh⟩, rfl⟩
    have hn : (Int64.ofInt m).toInt = m := Int64.toInt_ofInt_of_le hlow (Int.lt_of_le_of_lt hhigh (by decide))
    exact ⟨_, rfl, by rw [hn, hm]⟩
  · rintro ⟨n, rfl, hn⟩
    exact ⟨n.toInt, ⟨_, hn, rfl, n.minValue_le_toInt, n.toInt_le⟩, by rw [Int64.ofInt_toInt]⟩

theorem plainInteger?_eq_some : plainInteger? cs = some v ↔ (∃ b : Int8, v = .byte b ∧ Signed cs b.toInt) ∨
    ∃ i : Int32, v = .int i ∧ Signed cs i.toInt ∧ ¬ (-128 ≤ i.toInt ∧ i.toInt ≤ 127) := by
  simp only [plainInteger?, ← integer?_eq_some]
  cases hn : integer? cs with
  | none => simp
  | some n =>
    simp only [Option.some.injEq]
    split
    next h =>
      have hb : (Int8.ofInt n).toInt = n := Int8.toInt_ofInt_of_le h.1 (Int.lt_of_le_of_lt h.2 (by decide))
      constructor
      · intro hv
        rw [Option.some.injEq] at hv
        exact .inl ⟨_, hv.symm, hb.symm⟩
      · rintro (⟨b, rfl, rfl⟩ | ⟨i, -, rfl, hi⟩)
        · rw [Int8.ofInt_toInt]
        · exact (hi h).elim
    next h =>
      simp only [Option.map_eq_some_iff, within?_eq_some]
      constructor
      · rintro ⟨m, ⟨rfl, hlow, hhigh⟩, rfl⟩
        have hi : (Int32.ofInt n).toInt = n := Int32.toInt_ofInt_of_le hlow (Int.lt_of_le_of_lt hhigh (by decide))
        exact .inr ⟨_, rfl, hi.symm, by rwa [hi]⟩
      · rintro (⟨b, -, rfl⟩ | ⟨i, rfl, rfl, -⟩)
        · exact (h ⟨b.le_toInt, Int.le_of_lt_add_one b.toInt_lt⟩).elim
        · exact ⟨i.toInt, ⟨rfl, i.minValue_le_toInt, i.toInt_le⟩, by rw [Int32.ofInt_toInt]⟩

end Parts

section Readings

variable {cs digits : List Char} {token : String} {n : Int}

theorem reading_register {n : Nat} (h : NamesRegister token.toList n) :
    Reading token ((register token).map .register) := by
  unfold register
  rw [registerNumber?_eq_some.mpr h, Option.bind_some]
  cases hb : byte? n with
  | some r =>
    rw [byte?_eq_some] at hb
    exact .register (hb ▸ h)
  | none =>
    refine .noRegister h ?_
    by_contra hle
    rw [byte?, if_pos (by omega)] at hb
    cases hb

theorem reading_simple {v : Value} (h : simple? token.toList = some v) : Reading token (.ok (.value v)) := by
  unfold simple? at h
  split at h
  next digits hx =>
    obtain ⟨b, -, rfl⟩ := Option.map_eq_some_iff.mp h
    exact .hexadecimal (hexDigits?_eq_some.mp hx)
  next =>
    split at h
    next digits hl =>
      obtain ⟨n, rfl, hn⟩ := long?_eq_some.mp h
      exact .long ⟨digits, beforeSuffix?_eq_some.mp hl, hn⟩
    next =>
      split at h
      next digits hd =>
        obtain ⟨d, -, rfl⟩ := Option.map_eq_some_iff.mp h
        exact .double (beforeSuffix?_eq_some.mp hd)
      next =>
        split at h
        next ht =>
          cases h
          exact .bool (b := true) (String.toList_inj.mp ht)
        next =>
          split at h
          next hf =>
            cases h
            exact .bool (b := false) (String.toList_inj.mp hf)
          next =>
            rcases plainInteger?_eq_some.mp h with ⟨b, rfl, hb⟩ | ⟨i, rfl, hi, hr⟩
            · exact .byte hb
            · exact .int hi hr

theorem reading_value (token : String) : Reading token ((value token).map .value) := by
  unfold value
  split
  next rest ht =>
    cases hq : quoted? rest with
    | none => exact .noLiteral
    | some s =>
      have hs : Quotes token.toList s := ht ▸ quoted?_eq_some.mp hq
      by_cases hlong : 255 < s.utf8ByteSize
      · have hl : (Value.string s).tooLong? = some s.utf8ByteSize := if_pos hlong
        simp only [hl]
        exact .noString hs hlong
      · have hl : (Value.string s).tooLong? = none := if_neg hlong
        simp only [hl]
        exact .string hs (Nat.not_lt.mp hlong)
  next =>
    cases hv : simple? token.toList with
    | none => exact .noLiteral
    | some v => exact reading_simple hv

/-- Every word is read as what it looks like. -/
theorem reading_operand (token : String) : Reading token (operand token) := by
  unfold operand
  split
  next n hn => exact reading_register (registerNumber?_eq_some.mp hn)
  next => exact reading_value token

theorem operand_of_register {r : UInt8} (h : NamesRegister token.toList r.toNat) :
    operand token = .ok (.register r) := by
  have hn := registerNumber?_eq_some.mpr h
  have hb : byte? r.toNat = some r := byte?_eq_some.mpr rfl
  simp only [operand, register, hn, Option.bind_some, hb]
  rfl

theorem operand_of_no_register {n : Nat} (h : NamesRegister token.toList n) (hn : 255 < n) :
    operand token = .error (.invalidRegister token) := by
  have hs := registerNumber?_eq_some.mpr h
  have hb : byte? n = none := if_neg (by omega)
  simp only [operand, register, hs, Option.bind_some, hb]
  rfl

theorem operand_of_other (h : ∀ rest, token.toList ≠ 'R' :: rest) : operand token = (value token).map .value := by
  have hn : registerNumber? token.toList = none := by
    rw [Option.eq_none_iff_forall_ne_some]
    intro n he
    obtain ⟨digits, ht, -⟩ := registerNumber?_eq_some.mp he
    exact h digits ht
  simp only [operand, hn]

theorem operand_of_quotes {s : String} (h : Quotes token.toList s) :
    operand token =
      if 255 < s.utf8ByteSize then .error (.stringTooLong s.utf8ByteSize) else .ok (.value (.string s)) := by
  have hq : quoted? (s.toList ++ ['"']) = some s := quoted?_eq_some.mpr ⟨rfl, h.2⟩
  rw [operand_of_other fun rest he => by rw [h.1] at he; cases he]
  simp only [value, h.1, hq]
  by_cases hlong : 255 < s.utf8ByteSize
  · have hl : (Value.string s).tooLong? = some s.utf8ByteSize := if_pos hlong
    simp only [hl, if_pos hlong]
    rfl
  · have hl : (Value.string s).tooLong? = none := if_neg hlong
    simp only [hl, if_neg hlong]
    rfl

theorem operand_of_simple {v : Value} (hr : 'R' ∉ token.toList) (hq : '"' ∉ token.toList)
    (h : simple? token.toList = some v) : operand token = .ok (.value v) := by
  rw [operand_of_other fun rest he => hr (he ▸ List.mem_cons_self),
    value_of_unquoted fun rest he => hq (he ▸ List.mem_cons_self), h]
  rfl

theorem hexDigits?_of_not_mem (hx : 'x' ∉ cs) (hX : 'X' ∉ cs) : hexDigits? cs = none := by
  rw [Option.eq_none_iff_forall_ne_some]
  intro digits he
  rcases hexDigits?_eq_some.mp he with rfl | rfl
  · exact hx (by simp)
  · exact hX (by simp)

theorem beforeSuffix?_of_not_mem {upper lower : Char} (hu : upper ∉ cs) (hl : lower ∉ cs) :
    beforeSuffix? upper lower cs = none := by
  rw [Option.eq_none_iff_forall_ne_some]
  intro body he
  rcases beforeSuffix?_eq_some.mp he with rfl | rfl
  · exact hu (by simp)
  · exact hl (by simp)

theorem operand_of_long {n : Int64} (h : NamesLong token.toList n.toInt) : operand token = .ok (.value (.long n)) := by
  obtain ⟨digits, hend, hs⟩ := h
  -- A letter other than the suffix would have to stand among the digits.
  have hout : ∀ c : Char, (10 ≤ digitValue c ∧ c ≠ '+' ∧ c ≠ '-') ∧ c ≠ 'L' ∧ c ≠ 'l' → c ∉ token.toList := by
    rintro c ⟨hother, hL, hl⟩ hc
    have hd := hs.not_mem hother
    rcases hend with he | he
    · rw [he] at hc
      exact (List.mem_append.mp hc).elim hd fun h => hL (List.mem_singleton.mp h)
    · rw [he] at hc
      exact (List.mem_append.mp hc).elim hd fun h => hl (List.mem_singleton.mp h)
  have hx := hexDigits?_of_not_mem (hout 'x' (by decide +kernel)) (hout 'X' (by decide +kernel))
  refine operand_of_simple (hout 'R' (by decide +kernel)) (hout '"' (by decide +kernel)) ?_
  simp only [simple?, hx, beforeSuffix?_eq_some.mpr hend]
  exact long?_eq_some.mpr ⟨n, rfl, hs⟩

theorem operand_of_signed {v : Value} (h : Signed token.toList n) (hv : plainInteger? token.toList = some v) :
    operand token = .ok (.value v) := by
  have hx := hexDigits?_of_not_mem (h.not_mem (c := 'x') (by decide +kernel)) (h.not_mem (by decide +kernel))
  have hL : beforeSuffix? 'L' 'l' token.toList = none :=
    beforeSuffix?_of_not_mem (h.not_mem (by decide +kernel)) (h.not_mem (by decide +kernel))
  have hD : beforeSuffix? 'D' 'd' token.toList = none :=
    beforeSuffix?_of_not_mem (h.not_mem (by decide +kernel)) (h.not_mem (by decide +kernel))
  have hword : ∀ word : String, 'e' ∈ word.toList → token.toList ≠ word.toList := by
    intro word he ht
    exact h.not_mem (by decide +kernel) (ht ▸ he)
  refine operand_of_simple (h.not_mem (by decide +kernel)) (h.not_mem (by decide +kernel)) ?_
  simp only [simple?, hx, hL, hD, if_neg (hword "true" (by decide +kernel)),
    if_neg (hword "false" (by decide +kernel)), hv]

theorem operand_of_byte {b : Int8} (h : Signed token.toList b.toInt) : operand token = .ok (.value (.byte b)) :=
  operand_of_signed h (plainInteger?_eq_some.mpr (.inl ⟨b, rfl, h⟩))

theorem operand_of_int {i : Int32} (h : Signed token.toList i.toInt) (hi : ¬ (-128 ≤ i.toInt ∧ i.toInt ≤ 127)) :
    operand token = .ok (.value (.int i)) :=
  operand_of_signed h (plainInteger?_eq_some.mpr (.inr ⟨i, rfl, h, hi⟩))

end Readings

/-- A word that has none of the forms of operands, hexadecimal bytes and doubles included. -/
structure Formless (token : String) : Prop where
  no_register : ∀ n, ¬ NamesRegister token.toList n
  no_string : ∀ s, ¬ Quotes token.toList s
  no_hexadecimal : ∀ digits, ¬ HexMarked token.toList digits
  no_long : ∀ n : Int64, ¬ NamesLong token.toList n.toInt
  no_double : ∀ digits, ¬ EndsIn 'D' 'd' token.toList digits
  no_bool : token ≠ "true" ∧ token ≠ "false"
  no_integer : ∀ i : Int32, ¬ Signed token.toList i.toInt

theorem Formless.operand_eq {token : String} (h : Formless token) :
    operand token = .error (.invalidLiteral token) := by
  have hread := reading_operand token
  generalize operand token = result at hread ⊢
  cases hread with
  | register hr => exact (h.no_register _ hr).elim
  | noRegister hr => exact (h.no_register _ hr).elim
  | string hs => exact (h.no_string _ hs).elim
  | noString hs => exact (h.no_string _ hs).elim
  | hexadecimal hx => exact (h.no_hexadecimal _ hx).elim
  | long hn => exact (h.no_long _ hn).elim
  | double hd => exact (h.no_double _ hd).elim
  | @bool b hb =>
    cases b with
    | true => exact (h.no_bool.1 hb).elim
    | false => exact (h.no_bool.2 hb).elim
  | @byte b hb => exact (h.no_integer b.toInt32 (by rwa [Int8.toInt_toInt32])).elim
  | int hi => exact (h.no_integer _ hi).elim
  | noLiteral => rfl

/-- Operands are told apart by their forms. A register has a number of one byte, and a larger number is never a literal.
Strings have at most 255 bytes. Whole numbers are longs if they say so, bytes if they can be, and ints otherwise. The
texts of bytes, and those of longs with their suffix, are read as the same values again. -/
theorem operands_told_apart (token : String) :
    (∀ r, operand token = .ok (.register r) ↔ NamesRegister token.toList r.toNat) ∧
    (∀ n, NamesRegister token.toList n → 255 < n → operand token = .error (.invalidRegister token)) ∧
    (∀ s, operand token = .ok (.value (.string s)) ↔ Quotes token.toList s ∧ s.utf8ByteSize ≤ 255) ∧
    (∀ s, Quotes token.toList s → 255 < s.utf8ByteSize → operand token = .error (.stringTooLong s.utf8ByteSize)) ∧
    (∀ n, operand token = .ok (.value (.long n)) ↔ NamesLong token.toList n.toInt) ∧
    ((∀ digits, ¬ HexMarked token.toList digits) →
      ∀ b, operand token = .ok (.value (.byte b)) ↔ Signed token.toList b.toInt) ∧
    (∀ i, operand token = .ok (.value (.int i)) ↔
      Signed token.toList i.toInt ∧ ¬ (-128 ≤ i.toInt ∧ i.toInt ≤ 127)) ∧
    (∀ b, operand token = .ok (.value (.bool b)) ↔ token = if b then "true" else "false") ∧
    (Formless token → operand token = .error (.invalidLiteral token)) ∧
    (∀ b, operand (Value.byte b).text = .ok (.value (.byte b))) ∧
    ∀ n, operand ((Value.long n).text ++ "L") = .ok (.value (.long n)) := by
  have hread := reading_operand token
  refine ⟨fun r => ⟨fun h => ?_, operand_of_register⟩, fun n => operand_of_no_register,
    fun s => ⟨fun h => ?_, fun ⟨hs, hle⟩ => ?_⟩, fun s hs hlong => ?_, fun n => ⟨fun h => ?_, operand_of_long⟩,
    fun hx b => ⟨fun h => ?_, operand_of_byte⟩, fun i => ⟨fun h => ?_, fun ⟨hi, hr⟩ => operand_of_int hi hr⟩,
    fun b => ⟨fun h => ?_, fun ht => ?_⟩, Formless.operand_eq, fun b => ?_, fun n => ?_⟩
  · rw [h] at hread
    cases hread with
    | register hr => exact hr
  · rw [h] at hread
    cases hread with
    | string hs hle => exact ⟨hs, hle⟩
  · rw [operand_of_quotes hs, if_neg (Nat.not_lt.mpr hle)]
  · rw [operand_of_quotes hs, if_pos hlong]
  · rw [h] at hread
    cases hread with
    | long hn => exact hn
  · rw [h] at hread
    cases hread with
    | hexadecimal hd => exact (hx _ hd).elim
    | byte hb => exact hb
  · rw [h] at hread
    cases hread with
    | int hi hr => exact ⟨hi, hr⟩
  · rw [h] at hread
    cases hread with
    | bool hb => exact hb
  · subst ht
    cases b <;> decide +kernel
  · exact operand_of_byte (signed_toString b.toInt)
  · refine operand_of_long ⟨(Value.long n).text.toList, .inl String.toList_append, ?_⟩
    exact signed_toString n.toInt

theorem formless_maybe : Formless "maybe" := by
  have hl : "maybe".toList = ['m', 'a', 'y', 'b', 'e'] := by decide +kernel
  -- Neither the first letter nor the last one is that of any form.
  have hlast : ∀ c body, c ≠ 'e' → "maybe".toList ≠ body ++ [c] := by
    intro c body hc he
    have hg := congrArg List.getLast? he
    rw [hl, List.getLast?_concat] at hg
    exact hc (Option.some.inj hg).symm
  constructor
  case no_register =>
    rintro n ⟨digits, he, -⟩
    cases hl.symm.trans he
  case no_string =>
    rintro s ⟨he, -⟩
    cases hl.symm.trans he
  case no_hexadecimal =>
    rintro digits (he | he)
    · cases hl.symm.trans he
    · cases hl.symm.trans he
  case no_long =>
    rintro n ⟨digits, he | he, -⟩
    · exact hlast 'L' digits (by decide) he
    · exact hlast 'l' digits (by decide) he
  case no_double =>
    rintro digits (he | he)
    · exact hlast 'D' digits (by decide) he
    · exact hlast 'd' digits (by decide) he
  case no_bool => decide
  case no_integer =>
    intro i hi
    exact hi.not_mem (c := 'm') (by decide +kernel) (by decide +kernel)

/-- A register too many, a string one byte too long, the least byte, and a word of no form. -/
theorem operands_told_apart_at_limits :
    (NamesRegister "R256".toList 256 ∧ operand "R256" = .error (.invalidRegister "R256")) ∧
    (let s := String.ofList (List.replicate 256 'a')
      let token := String.ofList ('"' :: (s.toList ++ ['"']))
      Quotes token.toList s ∧ operand token = .error (.stringTooLong 256)) ∧
    ((∀ digits, ¬ HexMarked "-128".toList digits) ∧ operand "-128" = .ok (.value (.byte (-128)))) ∧
    Formless "maybe" ∧ operand "maybe" = .error (.invalidLiteral "maybe") := by
  refine ⟨?_, ?_, ?_, formless_maybe, ?_⟩
  · have hr : NamesRegister "R256".toList 256 := ⟨Nat.toDigits 10 256, by decide +kernel, writes_toDigits 256⟩
    exact ⟨hr, (operands_told_apart "R256").2.1 256 hr (by decide)⟩
  · intro s token
    have hq : '"' ∉ s.toList := by
      rw [String.toList_ofList, List.mem_replicate]
      decide
    have hs : Quotes token.toList s := ⟨String.toList_ofList, hq⟩
    have hsize : s.utf8ByteSize = 256 := by
      rw [utf8ByteSize_ofList]
      decide +kernel
    exact ⟨hs, hsize ▸ (operands_told_apart token).2.2.2.1 s hs (by omega)⟩
  · have hx : ∀ digits, ¬ HexMarked "-128".toList digits := by
      have hl : "-128".toList = ['-', '1', '2', '8'] := by decide +kernel
      rintro digits (he | he)
      · cases hl.symm.trans he
      · cases hl.symm.trans he
    have hs : Signed "-128".toList (-128 : Int8).toInt := signed_toString (-128 : Int8).toInt
    obtain ⟨-, -, -, -, -, hbyte, -⟩ := operands_told_apart "-128"
    exact ⟨hx, (hbyte hx (-128)).mpr hs⟩
  · obtain ⟨-, -, -, -, -, -, -, -, hnone, -⟩ := operands_told_apart "maybe"
    exact hnone formless_maybe

end Literal

end RegisterMachine
