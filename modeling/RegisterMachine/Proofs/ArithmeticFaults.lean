import RegisterMachine.Proofs.IntegerArithmetic

namespace RegisterMachine

/-- Strings and Booleans are no numbers. -/
def Kind.isNumber : Kind → Bool
  | string => false
  | boolean => false
  | _ => true

/-- Zero is the bit pattern without any bit, or with the minus sign alone. -/
theorem Double.isZero_iff {d : Double} : d.isZero = true ↔ d = ⟨0⟩ ∨ d = ⟨0x8000000000000000⟩ := by
  obtain ⟨bits⟩ := d
  have hlt : bits.toNat < 2 ^ 64 := bits.toNat_lt
  have hz : isZero ⟨bits⟩ = true ↔
      bits.toNat / 0x10000000000000 % 2048 = 0 ∧ bits.toNat % 0x10000000000000 = 0 := decide_eq_true_iff
  rw [hz, mk.injEq, mk.injEq, ← UInt64.toNat_inj, ← UInt64.toNat_inj]
  change _ ↔ bits.toNat = 0 ∨ bits.toNat = 0x8000000000000000
  omega

/-- Whether a division of words is due whose divisor is zero. Doubles have a quotient for every divisor. -/
def Promoted.DividesByZero : Promoted → Prop
  | double _ _ => False
  | int _ y => y = 0
  | byte _ y => y = 0
  | long _ y => y = 0

namespace Value

/-- The fault of operands that are not both numbers. It names the first that is none. -/
inductive Mismatch (op : ArithmeticOp) (a b : Value) : Fault → Prop
  | left : a.kind.isNumber = false → Mismatch op a b (.typeMismatch (.arithmetic op) .numeric a.kind)
  | right : a.kind.isNumber = true → b.kind.isNumber = false →
      Mismatch op a b (.typeMismatch (.arithmetic op) .numeric b.kind)

/-- The fault of numbers that have no quotient. The zero of an int or a double is refused whatever is divided,
the zero of a byte or a long only when integers are divided by it. -/
inductive Undivided (a b : Value) : Fault → Prop
  | zero : a.kind.isNumber = true → b = .int 0 ∨ b = .double ⟨0⟩ ∨ b = .double ⟨0x8000000000000000⟩ →
      Undivided a b .divisionByZero
  | byte : a.kind = .byte → b = .byte 0 → Undivided a b (.nativeDivision .byte)
  | long : a.kind = .byte ∨ a.kind = .int ∨ a.kind = .long → b = .byte 0 ∨ b = .long 0 →
      ¬ (a.kind = .byte ∧ b.kind = .byte) → Undivided a b (.nativeDivision .long)

section Faults

variable {a b v : Value} {op : ArithmeticOp} {cause : Fault} {numbers : Promoted}

theorem double?_eq_none : a.double? = none ↔ a.kind.isNumber = false := by
  cases a <;> simp [double?, kind, Kind.isNumber]

theorem exists_double? (h : a.kind.isNumber = true) : ∃ x, a.double? = some x := by
  refine Option.ne_none_iff_exists'.mp fun hn => ?_
  rw [double?_eq_none.mp hn] at h
  cases h

/-- Numbers can always be brought to one kind. -/
theorem exists_promote (op : ArithmeticOp) (ha : a.kind.isNumber = true) (hb : b.kind.isNumber = true) :
    ∃ numbers, promote op a b = .ok numbers := by
  obtain ⟨x, hx⟩ := exists_double? ha
  obtain ⟨y, hy⟩ := exists_double? hb
  simp only [promote, hx, hy]
  split
  next => exact ⟨_, rfl⟩
  next => exact ⟨_, rfl⟩
  next => exact ⟨_, rfl⟩
  next => exact ⟨_, rfl⟩
  next => exact ⟨_, rfl⟩

theorem promote_eq_error : promote op a b = .error cause ↔ Mismatch op a b cause := by
  constructor
  · intro h
    unfold promote at h
    split at h
    next ha =>
      cases h
      exact .left (double?_eq_none.mp ha)
    next x ha hb =>
      cases h
      refine .right ?_ (double?_eq_none.mp hb)
      refine Bool.eq_true_of_not_eq_false fun hf => ?_
      rw [double?_eq_none.mpr hf] at ha
      cases ha
    next => split at h <;> cases h
  · intro h
    cases h with
    | left ha => simp only [promote, double?_eq_none.mpr ha]
    | right ha hb =>
      obtain ⟨x, hx⟩ := exists_double? ha
      simp only [promote, hx, double?_eq_none.mpr hb]

theorem integer_or_double (h : a.kind.isNumber = true) : (∃ x, a.integer? = some x) ∨ ∃ x, a = .double x := by
  cases a with
  | double x => exact .inr ⟨x, rfl⟩
  | string s => cases h
  | bool t => cases h
  | _ => exact .inl ⟨_, rfl⟩

theorem isNumber_of_promote (h : promote op a b = .ok numbers) :
    a.kind.isNumber = true ∧ b.kind.isNumber = true := by
  constructor
  · refine Bool.eq_true_of_not_eq_false fun ha => ?_
    rw [promote_eq_error.mpr (.left ha)] at h
    cases h
  · refine Bool.eq_true_of_not_eq_false fun hb => ?_
    cases ha : a.kind.isNumber with
    | false => rw [promote_eq_error.mpr (.left ha)] at h; cases h
    | true => rw [promote_eq_error.mpr (.right ha hb)] at h; cases h

theorem promote_of_double (op : ArithmeticOp) (ha : a.kind.isNumber = true) (hb : b.kind.isNumber = true)
    (h : (∃ x, a = .double x) ∨ ∃ y, b = .double y) : ∃ x y, promote op a b = .ok (.double x y) := by
  obtain ⟨x, hx⟩ := exists_double? ha
  obtain ⟨y, hy⟩ := exists_double? hb
  refine ⟨x, y, ?_⟩
  simp only [promote, hx, hy]
  rcases h with ⟨u, rfl⟩ | ⟨w, rfl⟩
  · rfl
  · cases a <;> rfl

/-- Numbers are brought together as doubles, or as integers of one kind. -/
theorem meets_of_promote (h : promote op a b = .ok numbers) : (∃ x y, numbers = .double x y) ∨ Meets a b numbers := by
  obtain ⟨ha, hb⟩ := isNumber_of_promote h
  by_cases hd : (∃ x, a = .double x) ∨ ∃ y, b = .double y
  · obtain ⟨x, y, hp⟩ := promote_of_double op ha hb hd
    rw [h] at hp
    cases hp
    exact .inl ⟨x, y, rfl⟩
  · rw [not_or] at hd
    obtain ⟨x, hx⟩ := (integer_or_double ha).resolve_right hd.1
    obtain ⟨y, hy⟩ := (integer_or_double hb).resolve_right hd.2
    obtain ⟨other, hp, hm⟩ := promote_of_integers op hx hy
    rw [h] at hp
    cases hp
    exact .inr hm

theorem isString_iff : a.isString = true ↔ a.kind = .string := by
  cases a <;> simp [isString, kind]

theorem ofText_eq_error {s : String} :
    Value.ofText s = .error cause ↔ 255 < s.utf8ByteSize ∧ cause = .stringTooLong s.utf8ByteSize := by
  by_cases hl : 255 < s.utf8ByteSize
  · have ht : (Value.string s).tooLong? = some s.utf8ByteSize := if_pos hl
    simp [Value.ofText, ht, hl, eq_comm]
  · have ht : (Value.string s).tooLong? = none := if_neg hl
    simp [Value.ofText, ht, hl]

/-- Numbers always have a sum, a difference and a product, so that these fail only where promotion does. -/
theorem apply_eq_error (op : ArithmeticOp) (hop : op ≠ .div) (hs : op = .add → (a.isString || b.isString) = false) :
    op.apply a b = .error cause ↔ Mismatch op a b cause := by
  rw [← promote_eq_error]
  cases op with
  | add =>
    simp only [ArithmeticOp.apply, add, hs rfl, Bool.false_eq_true, if_false]
    split <;> simp_all
  | sub =>
    simp only [ArithmeticOp.apply, sub]
    split <;> simp_all
  | mul =>
    simp only [ArithmeticOp.apply, mul]
    split <;> simp_all
  | div => exact (hop rfl).elim

theorem add_eq_error : a.add b = .error cause ↔
    (a.kind = .string ∨ b.kind = .string) ∧ 255 < a.text.utf8ByteSize + b.text.utf8ByteSize ∧
        cause = .stringTooLong (a.text.utf8ByteSize + b.text.utf8ByteSize) ∨
      (a.kind ≠ .string ∧ b.kind ≠ .string) ∧ Mismatch .add a b cause := by
  by_cases hs : a.kind = .string ∨ b.kind = .string
  · have hb : (a.isString || b.isString) = true := by simpa [isString_iff] using hs
    have hn : ¬ (a.kind ≠ .string ∧ b.kind ≠ .string) := fun h => hs.elim h.1 h.2
    simp only [add, hb, if_true, ofText_eq_error, String.utf8ByteSize_append, hs, hn, true_and, false_and, or_false]
  · have hn : a.kind ≠ .string ∧ b.kind ≠ .string := not_or.mp hs
    have hb : (a.isString || b.isString) = false := by
      rw [Bool.or_eq_false_iff, ← Bool.not_eq_true, ← Bool.not_eq_true, isString_iff, isString_iff]
      exact hn
    have ha : a.add b = .error cause ↔ Mismatch .add a b cause := apply_eq_error .add (by decide) fun _ => hb
    rw [ha]
    simp [hn]

theorem isZeroDivisor_iff :
    b.isZeroDivisor = true ↔ b = .int 0 ∨ b = .double ⟨0⟩ ∨ b = .double ⟨0x8000000000000000⟩ := by
  cases b with
  | int y => simp [isZeroDivisor]
  | double y => simp [isZeroDivisor, Double.isZero_iff]
  | _ => simp [isZeroDivisor]

theorem eq_of_integer?_zero (h : b.integer? = some 0) : b = .byte 0 ∨ b = .int 0 ∨ b = .long 0 := by
  cases b with
  | byte y => exact .inl (congrArg Value.byte (Int8.toInt_inj.mp (Option.some.inj h)))
  | int y => exact .inr (.inl (congrArg Value.int (Int32.toInt_inj.mp (Option.some.inj h))))
  | long y => exact .inr (.inr (congrArg Value.long (Int64.toInt_inj.mp (Option.some.inj h))))
  | _ => cases h

theorem integer?_iff : (∃ x, a.integer? = some x) ↔ a.kind = .byte ∨ a.kind = .int ∨ a.kind = .long := by
  cases a <;> simp [integer?, kind]

theorem undivided_of_div (hp : promote .div a b = .ok numbers) (h : a.div b = .error cause) : Undivided a b cause := by
  simp only [div, hp] at h
  by_cases hz : b.isZeroDivisor = true
  · rw [if_pos hz] at h
    cases h
    exact .zero (isNumber_of_promote hp).1 (isZeroDivisor_iff.mp hz)
  · rw [if_neg hz] at h
    rcases meets_of_promote hp with ⟨x, y, rfl⟩ | hm
    · cases h
    · cases hm with
      | bytes x y =>
        by_cases hy : y = 0
        · simp only [if_pos hy] at h
          cases h
          exact .byte rfl (congrArg Value.byte hy)
        · simp only [if_neg hy] at h
          cases h
      | ints x y => cases h
      | @longs _ _ x y hk hx hy =>
        by_cases hw : y = 0
        · simp only [if_pos hw] at h
          cases h
          subst hw
          refine .long (integer?_iff.mp ⟨_, hx⟩) ?_ ?_
          · -- the zero of an int has been refused before
            rcases eq_of_integer?_zero hy with hb | rfl | hb
            · exact .inl hb
            · exact (hz rfl).elim
            · exact .inr hb
          · rintro ⟨ha, hb⟩
            rw [ha, hb] at hk
            cases hk
        · simp only [if_neg hw] at h
          cases h

theorem Undivided.div_eq (h : Undivided a b cause) : a.div b = .error cause := by
  cases h with
  | zero ha hb =>
    have hz : b.isZeroDivisor = true := isZeroDivisor_iff.mpr hb
    have hn : b.kind.isNumber = true := by rcases hb with rfl | rfl | rfl <;> rfl
    obtain ⟨numbers, hp⟩ := exists_promote .div ha hn
    simp only [div, hp, if_pos hz]
  | byte ha hb =>
    subst hb
    cases a with
    | byte x => rfl
    | _ => cases ha
  | long ha hb hk =>
    have hz : ¬ b.isZeroDivisor = true := by rcases hb with rfl | rfl <;> simp [isZeroDivisor]
    have hy : b.integer? = some 0 := by rcases hb with rfl | rfl <;> rfl
    obtain ⟨x, hx⟩ := integer?_iff.mpr ha
    obtain ⟨numbers, hp, hm⟩ := promote_of_integers .div hx hy
    simp only [div, hp, if_neg hz]
    cases hm with
    | bytes u w => exact (hk ⟨rfl, rfl⟩).elim
    | ints u w => simp at hb
    | @longs _ _ u w _ _ hw =>
      have he : w = 0 := Int64.toInt_inj.mp (Option.some.inj (hw.symm.trans hy))
      exact if_pos he

theorem div_eq_error : a.div b = .error cause ↔ Mismatch .div a b cause ∨ Undivided a b cause := by
  constructor
  · intro h
    cases hp : promote .div a b with
    | error fault =>
      simp only [div, hp] at h
      cases h
      exact .inl (promote_eq_error.mp hp)
    | ok numbers => exact .inr (undivided_of_div hp h)
  · rintro (hm | hu)
    · simp only [div, promote_eq_error.mpr hm]
    · exact hu.div_eq

/-- The words that are divided have a divisor other than zero. -/
theorem not_dividesByZero (h : a.div b = .ok v) (hp : promote .div a b = .ok numbers) : ¬ numbers.DividesByZero := by
  intro hd
  simp only [div, hp] at h
  by_cases hz : b.isZeroDivisor = true
  · simp [if_pos hz] at h
  · rw [if_neg hz] at h
    cases numbers with
    | double x y => exact hd
    | byte x y => simp [show y = 0 from hd] at h
    | long x y => simp [show y = 0 from hd] at h
    | int x y =>
      rcases meets_of_promote hp with ⟨u, w, he⟩ | hm
      · cases he
      · cases hm
        exact hz (isZeroDivisor_iff.mpr (.inl (congrArg Value.int hd)))

/-- A double can be divided by the zero of a byte or a long, which is brought to a double before. -/
theorem exists_div_of_double (ha : a.kind = .double) (hb : b = .byte 0 ∨ b = .long 0) : ∃ v, a.div b = .ok v := by
  cases h : a.div b with
  | ok v => exact ⟨v, rfl⟩
  | error cause =>
    rcases div_eq_error.mp h with hm | hu
    · cases hm with
      | left hn => simp [ha, Kind.isNumber] at hn
      | right _ hn => rcases hb with rfl | rfl <;> cases hn
    · cases hu with
      | zero _ hz => rcases hb with rfl | rfl <;> simp at hz
      | byte hk => simp [ha] at hk
      | long hk => simp [ha] at hk

end Faults

/-- Arithmetic fails exactly here. Joined texts are too long, an operand is no number, or a number is divided by
zero. Words are never divided by zero. -/
theorem arithmetic_fails_exactly (a b : Value) :
    (∀ cause, a.add b = .error cause ↔
      (a.kind = .string ∨ b.kind = .string) ∧ 255 < a.text.utf8ByteSize + b.text.utf8ByteSize ∧
          cause = .stringTooLong (a.text.utf8ByteSize + b.text.utf8ByteSize) ∨
        (a.kind ≠ .string ∧ b.kind ≠ .string) ∧ Mismatch .add a b cause) ∧
    (∀ cause, a.sub b = .error cause ↔ Mismatch .sub a b cause) ∧
    (∀ cause, a.mul b = .error cause ↔ Mismatch .mul a b cause) ∧
    (∀ cause, a.div b = .error cause ↔ Mismatch .div a b cause ∨ Undivided a b cause) ∧
    (a.kind = .double → b = .byte 0 ∨ b = .long 0 → ∃ v, a.div b = .ok v) ∧
    ∀ v numbers, a.div b = .ok v → promote .div a b = .ok numbers → ¬ numbers.DividesByZero := by
  have hother : ∀ op : ArithmeticOp, op ≠ .div → op ≠ .add → ∀ cause,
      op.apply a b = .error cause ↔ Mismatch op a b cause :=
    fun op hd ha cause => apply_eq_error op hd fun h => (ha h).elim
  refine ⟨fun cause => add_eq_error, hother .sub (by decide) (by decide), hother .mul (by decide) (by decide),
    fun cause => div_eq_error, exists_div_of_double, ?_⟩
  intro v numbers hd hp
  exact not_dividesByZero hd hp

-- Operands are looked at before the divisor, and the left one first.
example : (Value.bool true).div (.int 0) = .error (.typeMismatch (.arithmetic .div) .numeric .boolean) := rfl

end Value

end RegisterMachine
