import Mathlib.Data.Int.ModEq
import Mathlib.Tactic.Positivity
import RegisterMachine.Arithmetic

namespace RegisterMachine

/-- The number of bits of a number of a kind. Strings and Booleans are no numbers. -/
def Kind.bits : Kind → Nat
  | byte => 8
  | int => 32
  | long => 64
  | double => 64
  | string => 0
  | boolean => 0

/-- The kind of the result when integers of two kinds are combined. -/
def Kind.meet : Kind → Kind → Kind
  | byte, byte => byte
  | int, int => int
  | _, _ => long

theorem Kind.meet_comm (k l : Kind) : k.meet l = l.meet k := by
  cases k <;> cases l <;> rfl

namespace ArithmeticOp

/-- The result of an operation on integers without bounds. Quotients are rounded toward zero. -/
def onIntegers : ArithmeticOp → Int → Int → Int
  | add, x, y => x + y
  | sub, x, y => x - y
  | mul, x, y => x * y
  | div, x, y => x.tdiv y

/-- The result of an operation on words. -/
def onWords {α : Type} [Add α] [Sub α] [Mul α] [Div α] : ArithmeticOp → α → α → α
  | add, x, y => x + y
  | sub, x, y => x - y
  | mul, x, y => x * y
  | div, x, y => x / y

theorem toInt_onBytes (op : ArithmeticOp) (x y : Int8) :
    (op.onWords x y).toInt = (op.onIntegers x.toInt y.toInt).bmod (2 ^ 8) := by
  cases op with
  | add => exact Int8.toInt_add x y
  | sub => exact Int8.toInt_sub x y
  | mul => exact Int8.toInt_mul x y
  | div => exact Int8.toInt_div x y

theorem toInt_onInts (op : ArithmeticOp) (x y : Int32) :
    (op.onWords x y).toInt = (op.onIntegers x.toInt y.toInt).bmod (2 ^ 32) := by
  cases op with
  | add => exact Int32.toInt_add x y
  | sub => exact Int32.toInt_sub x y
  | mul => exact Int32.toInt_mul x y
  | div => exact Int32.toInt_div x y

theorem toInt_onLongs (op : ArithmeticOp) (x y : Int64) :
    (op.onWords x y).toInt = (op.onIntegers x.toInt y.toInt).bmod (2 ^ 64) := by
  cases op with
  | add => exact Int64.toInt_add x y
  | sub => exact Int64.toInt_sub x y
  | mul => exact Int64.toInt_mul x y
  | div => exact Int64.toInt_div x y

theorem natAbs_onIntegers_le (op : ArithmeticOp) (x y : Int) :
    (op.onIntegers x y).natAbs ≤ x.natAbs + y.natAbs + x.natAbs * y.natAbs := by
  cases op with
  | add =>
    have h := Int.natAbs_add_le x y
    exact h.trans (Nat.le_add_right _ _)
  | sub =>
    have h := Int.natAbs_sub_le x y
    exact h.trans (Nat.le_add_right _ _)
  | mul =>
    rw [onIntegers, Int.natAbs_mul]
    omega
  | div =>
    have h : x.natAbs / y.natAbs ≤ x.natAbs := Nat.div_le_self _ _
    have hd : (x.tdiv y).natAbs = x.natAbs / y.natAbs := Int.natAbs_tdiv x y
    rw [onIntegers, hd]
    omega

end ArithmeticOp

/-- What a word of `bits` bits with a sign keeps of a number: the one in its range that differs from it by a
multiple of `2 ^ bits`. -/
structure Wraps (bits : Nat) (n z : Int) : Prop where
  lower : -2 ^ (bits - 1) ≤ z
  upper : z < 2 ^ (bits - 1)
  congruent : z ≡ n [ZMOD 2 ^ bits]

theorem wraps_iff {bits : Nat} (hb : 0 < bits) {n z : Int} : Wraps bits n z ↔ n.bmod (2 ^ bits) = z := by
  have hhalf : (2 : Int) ^ bits = 2 * 2 ^ (bits - 1) := by
    rw [← pow_succ', Nat.sub_add_cancel hb]
  have hcast : ((2 ^ bits : Nat) : Int) = 2 ^ bits := by norm_cast
  have hdvd : z ≡ n [ZMOD 2 ^ bits] ↔ (2 : Int) ^ bits ∣ z - n := by
    rw [Int.modEq_comm, Int.modEq_iff_dvd]
  rw [Int.bmod_eq_iff (by positivity), hcast, ← hdvd]
  constructor
  · rintro ⟨hl, hu, hc⟩
    exact ⟨by omega, by omega, hc⟩
  · rintro ⟨hl, hu, hc⟩
    exact ⟨by omega, by omega, hc⟩

namespace Value

/-- How two integers are brought to one kind. -/
inductive Meets : Value → Value → Promoted → Prop
  | bytes (x y : Int8) : Meets (.byte x) (.byte y) (.byte x y)
  | ints (x y : Int32) : Meets (.int x) (.int y) (.int x y)
  | longs {a b : Value} {x y : Int64} : a.kind.meet b.kind = .long → a.integer? = some x.toInt →
      b.integer? = some y.toInt → Meets a b (.long x y)

section Integers

variable {a b v w : Value} {x y : Int}

theorem integer?_eq_asLong (h : a.integer? = some x) : a.integer? = some a.asLong.toInt := by
  cases a with
  | byte u => exact congrArg some u.toInt_toInt64.symm
  | int u => exact congrArg some u.toInt_toInt64.symm
  | long u => rfl
  | _ => cases h

theorem promote_of_integers (op : ArithmeticOp) (ha : a.integer? = some x) (hb : b.integer? = some y) :
    ∃ numbers, promote op a b = .ok numbers ∧ Meets a b numbers := by
  have hx := integer?_eq_asLong ha
  have hy := integer?_eq_asLong hb
  cases a with
  | byte u =>
    cases b with
    | byte w => exact ⟨_, rfl, .bytes u w⟩
    | int w => exact ⟨_, rfl, .longs rfl hx hy⟩
    | long w => exact ⟨_, rfl, .longs rfl hx hy⟩
    | _ => cases hb
  | int u =>
    cases b with
    | byte w => exact ⟨_, rfl, .longs rfl hx hy⟩
    | int w => exact ⟨_, rfl, .ints u w⟩
    | long w => exact ⟨_, rfl, .longs rfl hx hy⟩
    | _ => cases hb
  | long u =>
    cases b with
    | byte w => exact ⟨_, rfl, .longs rfl hx hy⟩
    | int w => exact ⟨_, rfl, .longs rfl hx hy⟩
    | long w => exact ⟨_, rfl, .longs rfl hx hy⟩
    | _ => cases hb
  | _ => cases ha

theorem isString_of_integer? (h : a.integer? = some x) : a.isString = false := by
  cases a with
  | string s => cases h
  | _ => rfl

theorem isZeroDivisor_of_ne_zero (h : b.integer? = some y) (hy : y ≠ 0) : b.isZeroDivisor = false := by
  cases b with
  | int u =>
    cases h
    refine beq_eq_false_iff_ne.mpr ?_
    rintro rfl
    exact hy rfl
  | double d => cases h
  | _ => rfl

theorem apply_of_longs {op : ArithmeticOp} {u w : Int64} (hp : promote op a b = .ok (.long u w))
    (ha : a.integer? = some x) (hb : b.integer? = some w.toInt) (hz : op = .div → w.toInt ≠ 0) :
    op.apply a b = .ok (.long (op.onWords u w)) := by
  cases op with
  | add =>
    have hs : (a.isString || b.isString) = false := by
      rw [isString_of_integer? ha, isString_of_integer? hb, Bool.or_self]
    simp only [ArithmeticOp.apply, add, hs, hp, Bool.false_eq_true, if_false, ArithmeticOp.onWords]
  | sub => simp only [ArithmeticOp.apply, sub, hp, ArithmeticOp.onWords]
  | mul => simp only [ArithmeticOp.apply, mul, hp, ArithmeticOp.onWords]
  | div =>
    have hd := isZeroDivisor_of_ne_zero hb (hz rfl)
    have hw : w ≠ 0 := by
      rintro rfl
      exact hz rfl rfl
    simp only [ArithmeticOp.apply, div, hp, hd, Bool.false_eq_true, hw, if_false, ArithmeticOp.onWords]

/-- Integers that are combined give an integer of the kind in which they meet. -/
theorem apply_of_integers {op : ArithmeticOp} (ha : a.integer? = some x) (hb : b.integer? = some y)
    (hz : op = .div → y ≠ 0) :
    ∃ v, op.apply a b = .ok v ∧ v.kind = a.kind.meet b.kind ∧
      v.integer? = some ((op.onIntegers x y).bmod (2 ^ v.kind.bits)) := by
  obtain ⟨numbers, hp, hm⟩ := promote_of_integers op ha hb
  -- in each kind the words wrap by themselves, so that only the divisor has to be looked at
  cases hm with
  | bytes u w =>
    cases ha
    cases hb
    refine ⟨.byte (op.onWords u w), ?_, rfl, congrArg some (op.toInt_onBytes u w)⟩
    cases op with
    | div =>
      have hw : w ≠ 0 := by
        rintro rfl
        exact hz rfl rfl
      exact if_neg hw
    | _ => rfl
  | ints u w =>
    cases ha
    cases hb
    refine ⟨.int (op.onWords u w), ?_, rfl, congrArg some (op.toInt_onInts u w)⟩
    cases op with
    | div =>
      have hw : ¬ (w == 0) = true := by
        rw [beq_iff_eq]
        rintro rfl
        exact hz rfl rfl
      exact if_neg hw
    | _ => rfl
  | @longs _ _ u w hk hx hy =>
    obtain rfl := Option.some.inj (ha.symm.trans hx)
    obtain rfl := Option.some.inj (hb.symm.trans hy)
    exact ⟨.long (op.onWords u w), apply_of_longs hp hx hy hz, hk.symm, congrArg some (op.toInt_onLongs u w)⟩

theorem div_of_zero (ha : a.integer? = some x) (hb : b.integer? = some 0) : ∃ cause, a.div b = .error cause := by
  obtain ⟨numbers, hp, hm⟩ := promote_of_integers .div ha hb
  cases hm with
  | bytes u w =>
    have hw : w = 0 := Int8.toInt_inj.mp (Option.some.inj hb)
    exact ⟨_, if_pos hw⟩
  | ints u w =>
    have hw : w = 0 := Int32.toInt_inj.mp (Option.some.inj hb)
    exact ⟨_, if_pos (beq_iff_eq.mpr hw)⟩
  | @longs _ _ u w hk hx hy =>
    have hw : w = 0 := Int64.toInt_inj.mp (Option.some.inj (hy.symm.trans hb))
    simp only [div, hp, hw, if_true]
    split
    · exact ⟨_, rfl⟩
    · exact ⟨_, rfl⟩

theorem exists_apply_iff (op : ArithmeticOp) (ha : a.integer? = some x) (hb : b.integer? = some y) :
    (∃ v, op.apply a b = .ok v) ↔ (op = .div → y ≠ 0) := by
  constructor
  · rintro ⟨v, hv⟩ rfl rfl
    obtain ⟨cause, hc⟩ := div_of_zero ha hb
    cases hc.symm.trans hv
  · intro hz
    obtain ⟨v, hv, -, -⟩ := apply_of_integers ha hb hz
    exact ⟨v, hv⟩

theorem apply_eq_ok {op : ArithmeticOp} (ha : a.integer? = some x) (hb : b.integer? = some y)
    (h : op.apply a b = .ok v) :
    v.kind = a.kind.meet b.kind ∧ v.integer? = some ((op.onIntegers x y).bmod (2 ^ v.kind.bits)) := by
  obtain ⟨w, hw, hk, hn⟩ := apply_of_integers ha hb ((exists_apply_iff op ha hb).mp ⟨v, h⟩)
  cases h.symm.trans hw
  exact ⟨hk, hn⟩

/-- An integer value is known by its kind and its number. -/
theorem eq_of_integer? (hk : v.kind = w.kind) (hv : v.integer? = some x) (hw : w.integer? = some x) : v = w := by
  cases v with
  | byte u =>
    cases w with
    | byte t => exact congrArg Value.byte (Int8.toInt_inj.mp (Option.some.inj (hv.trans hw.symm)))
    | _ => cases hk
  | int u =>
    cases w with
    | int t => exact congrArg Value.int (Int32.toInt_inj.mp (Option.some.inj (hv.trans hw.symm)))
    | _ => cases hk
  | long u =>
    cases w with
    | long t => exact congrArg Value.long (Int64.toInt_inj.mp (Option.some.inj (hv.trans hw.symm)))
    | _ => cases hk
  | _ => cases hv

theorem bits_meet_pos (k l : Kind) : 0 < (k.meet l).bits := by
  cases k <;> cases l <;> decide

/-- An operation commutes on integers when it does on unbounded ones. -/
theorem apply_comm {op : ArithmeticOp} (hop : op ≠ .div) (hc : op.onIntegers x y = op.onIntegers y x)
    (ha : a.integer? = some x) (hb : b.integer? = some y) : op.apply a b = op.apply b a := by
  obtain ⟨v, hv, hvk, hvn⟩ := apply_of_integers ha hb fun h => (hop h).elim
  obtain ⟨w, hw, hwk, hwn⟩ := apply_of_integers hb ha fun h => (hop h).elim
  have hk : v.kind = w.kind := by rw [hvk, hwk, Kind.meet_comm]
  rw [← hc, ← hk] at hwn
  rw [hv, hw, eq_of_integer? hk hvn hwn]

theorem natAbs_le_of_small (hk : a.kind = .byte ∨ a.kind = .int) (ha : a.integer? = some x) :
    x.natAbs ≤ 2 ^ 31 := by
  cases a with
  | byte u =>
    have hl := u.le_toInt
    have hu := u.toInt_lt
    cases ha
    omega
  | int u =>
    have hl := u.le_toInt
    have hu := u.toInt_lt
    cases ha
    omega
  | _ => simp [kind] at hk

theorem bmod_onIntegers_of_small (op : ArithmeticOp) (hx : x.natAbs ≤ 2 ^ 31) (hy : y.natAbs ≤ 2 ^ 31) :
    (op.onIntegers x y).bmod (2 ^ 64) = op.onIntegers x y := by
  have hb := op.natAbs_onIntegers_le x y
  have hm : x.natAbs * y.natAbs ≤ 2 ^ 31 * 2 ^ 31 := Nat.mul_le_mul hx hy
  exact Int.bmod_eq_of_le_mul_two (by omega) (by omega)

theorem apply_of_byte_and_int {op : ArithmeticOp} (ha : a.integer? = some x) (hb : b.integer? = some y)
    (hmixed : a.kind = .byte ∧ b.kind = .int ∨ a.kind = .int ∧ b.kind = .byte) (h : op.apply a b = .ok v) :
    v.integer? = some (op.onIntegers x y) := by
  obtain ⟨hk, hn⟩ := apply_eq_ok ha hb h
  have hlong : v.kind = .long := by
    rcases hmixed with ⟨h, h'⟩ | ⟨h, h'⟩ <;> rw [hk, h, h'] <;> rfl
  have hx : x.natAbs ≤ 2 ^ 31 := natAbs_le_of_small (hmixed.imp And.left And.left) ha
  have hy : y.natAbs ≤ 2 ^ 31 := natAbs_le_of_small (hmixed.symm.imp And.right And.right) hb
  rw [hn, hlong]
  exact congrArg some (bmod_onIntegers_of_small op hx hy)

end Integers

/-- Integers are added, subtracted, multiplied and divided as numbers without bounds would be, and the result is
wrapped to the kind in which they meet. Only a division by zero has no result. A byte and an int never wrap, and
sums and products do not depend on the order. -/
theorem integer_arithmetic_exact {a b : Value} {x y : Int} (ha : a.integer? = some x) (hb : b.integer? = some y) :
    (∀ op : ArithmeticOp, (∃ v, op.apply a b = .ok v) ↔ (op = .div → y ≠ 0)) ∧
    (∀ (op : ArithmeticOp) v, op.apply a b = .ok v →
      v.kind = a.kind.meet b.kind ∧ ∀ z, v.integer? = some z ↔ Wraps v.kind.bits (op.onIntegers x y) z) ∧
    (∀ (op : ArithmeticOp) v, a.kind = .byte ∧ b.kind = .int ∨ a.kind = .int ∧ b.kind = .byte →
      op.apply a b = .ok v → v.integer? = some (op.onIntegers x y)) ∧
    a.add b = b.add a ∧ a.mul b = b.mul a := by
  have hadd : ArithmeticOp.add.apply a b = ArithmeticOp.add.apply b a :=
    apply_comm (by decide) (Int.add_comm x y) ha hb
  have hmul : ArithmeticOp.mul.apply a b = ArithmeticOp.mul.apply b a :=
    apply_comm (by decide) (Int.mul_comm x y) ha hb
  refine ⟨fun op => exists_apply_iff op ha hb, ?_, ?_, hadd, hmul⟩
  · intro op v hv
    obtain ⟨hk, hn⟩ := apply_eq_ok ha hb hv
    refine ⟨hk, ?_⟩
    intro z
    rw [hn, Option.some.injEq, wraps_iff (hk ▸ bits_meet_pos a.kind b.kind)]
  · intro op v hmixed hv
    exact apply_of_byte_and_int ha hb hmixed hv

/-- The least byte divided by minus one wraps to itself, and divided by an int it does not. -/
theorem integer_arithmetic_exact_of_least_byte :
    ((Value.byte (-128)).div (.byte (-1)) = .ok (.byte (-128)) ∧ Wraps 8 128 (-128)) ∧
      (Value.byte (-128)).div (.int (-1)) = .ok (.long 128) ∧
        (Value.long 128).integer? = some (ArithmeticOp.div.onIntegers (-128) (-1)) := by
  obtain ⟨-, hbytes, -⟩ :=
    integer_arithmetic_exact (a := .byte (-128)) (b := .byte (-1)) (x := -128) (y := -1) rfl rfl
  obtain ⟨-, -, hmixed, -⟩ :=
    integer_arithmetic_exact (a := .byte (-128)) (b := .int (-1)) (x := -128) (y := -1) rfl rfl
  have hb : (Value.byte (-128)).div (.byte (-1)) = .ok (.byte (-128)) := by decide
  have hm : (Value.byte (-128)).div (.int (-1)) = .ok (.long 128) := by decide
  exact ⟨⟨hb, ((hbytes .div _ hb).2 (-128)).mp rfl⟩, hm, hmixed .div _ (.inl ⟨rfl, rfl⟩) hm⟩

end Value

end RegisterMachine
