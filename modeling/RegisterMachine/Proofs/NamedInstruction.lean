import Mathlib.Data.List.Forall2
import RegisterMachine.Assembly
import RegisterMachine.Proofs.InstructionDecoder

namespace RegisterMachine

theorem except_bind_eq_ok {ε α β : Type} {x : Except ε α} {f : α → Except ε β} {b : β} :
    (x >>= f) = .ok b ↔ ∃ a, x = .ok a ∧ f a = .ok b := by
  cases x with
  | error e =>
    constructor
    · intro h
      cases h
    · intro h
      obtain ⟨a, h, -⟩ := h
      cases h
  | ok a =>
    constructor
    · intro h
      exact ⟨a, rfl, h⟩
    · intro h
      obtain ⟨a', he, h⟩ := h
      cases he
      exact h

theorem mapM_eq_ok {ε α β : Type} {f : α → Except ε β} {xs : List α} {ys : List β} :
    xs.mapM f = .ok ys ↔ List.Forall₂ (fun x y => f x = .ok y) xs ys := by
  induction xs generalizing ys with
  | nil =>
    rw [List.mapM_nil, List.forall₂_nil_left_iff]
    constructor
    · intro h
      cases h
      rfl
    · intro h
      rw [h]
      rfl
  | cons x xs ih =>
    rw [List.mapM_cons, except_bind_eq_ok, List.forall₂_cons_left_iff]
    constructor
    · intro h
      obtain ⟨y, hy, h⟩ := h
      obtain ⟨ys', hs, h⟩ := except_bind_eq_ok.mp h
      cases h
      exact ⟨y, ys', hy, ih.mp hs, rfl⟩
    · intro h
      obtain ⟨y, ys', hy, hs, rfl⟩ := h
      exact ⟨y, hy, except_bind_eq_ok.mpr ⟨ys', ih.mpr hs, rfl⟩⟩

theorem forall₂_right {α β : Type} {R : α → β → Prop} {xs : List α} {ys : List β} (h : List.Forall₂ R xs ys)
    {k : Nat} {y : β} (hy : ys[k]? = some y) : ∃ x, xs[k]? = some x ∧ R x y := by
  induction h generalizing k with
  | nil => simp at hy
  | @cons a b as bs hr hs ih =>
    cases k with
    | zero =>
      cases hy
      exact ⟨a, rfl, hr⟩
    | succ k => exact ih hy

theorem forall₂_left {α β : Type} {R : α → β → Prop} {xs : List α} {ys : List β} (h : List.Forall₂ R xs ys)
    {k : Nat} {x : α} (hx : xs[k]? = some x) : ∃ y, ys[k]? = some y ∧ R x y :=
  forall₂_right (R := flip R) h.flip hx

namespace Literal

theorem simple?_fits {cs : List Char} {v : Value} (h : simple? cs = some v) : v.Fits := by
  unfold simple? at h
  split at h
  next =>
    obtain ⟨b, -, rfl⟩ := Option.map_eq_some_iff.mp h
    trivial
  next =>
    split at h
    next =>
      obtain ⟨n, -, rfl⟩ := Option.map_eq_some_iff.mp h
      trivial
    next =>
      split at h
      next =>
        obtain ⟨d, -, rfl⟩ := Option.map_eq_some_iff.mp h
        trivial
      next =>
        split at h
        next => cases h; trivial
        next =>
          split at h
          next => cases h; trivial
          next =>
            unfold plainInteger? at h
            split at h
            next => cases h
            next =>
              split at h
              next => cases h; trivial
              next =>
                obtain ⟨n, -, rfl⟩ := Option.map_eq_some_iff.mp h
                trivial

theorem value_fits {token : String} {v : Value} (h : value token = .ok v) : v.Fits := by
  unfold value at h
  split at h
  next rest _ =>
    split at h
    next => cases h
    next text _ =>
      split at h
      next => cases h
      next ht =>
        cases h
        rw [Value.tooLong?, ite_eq_right_iff] at ht
        exact Nat.le_of_not_lt fun hl => by cases ht hl
  next cs _ =>
    split at h
    next v' hv =>
      cases h
      exact simple?_fits hv
    next => cases h

theorem operand_fits {token : String} {o : Operand} (h : operand token = .ok o) : o.Fits := by
  unfold operand at h
  split at h
  next =>
    cases hr : register token with
    | ok index =>
      rw [hr] at h
      cases h
      trivial
    | error problem =>
      rw [hr] at h
      cases h
  next =>
    cases hv : value token with
    | ok v =>
      rw [hv] at h
      cases h
      exact value_fits hv
    | error problem =>
      rw [hv] at h
      cases h

end Literal

namespace Instruction

/-- The name of a location that a line declares, which only a marker does. -/
def label? {Location Syscall : Type} : Instruction Location Syscall → Option Location
  | mark location => some location
  | _ => none

/-- The instruction with its names looked up. -/
def resolve {Location Syscall : Type} (scope : Scope Location Syscall) :
    Instruction String String → Option (Instruction Location Syscall)
  | load target source => some (load target source)
  | store address source => some (store address source)
  | fetch address target => some (fetch address target)
  | arithmetic op left right target => some (arithmetic op left right target)
  | halt status => some (halt status)
  | branch test condition name => (scope.location? name).map (branch test condition)
  | jump name => (scope.location? name).map jump
  | mark name => (scope.location? name).map mark
  | call name arguments => (scope.syscall? name).map (call · arguments)

section Parse

variable {Location Syscall : Type} {scope : Scope Location Syscall}

theorem operandAt_eq_ok {α : Type} {read : String → Except Problem α} {token : Token} {x : α}
    (h : operandAt read token = .ok x) : read token.text = .ok x := by
  unfold operandAt at h
  split at h
  next y hy => cases h; exact hy
  next => cases h

theorem locationOf_eq_ok {token : Token} {location : Location}
    (h : operandAt (locationOf scope) token = .ok location) : scope.location? token.text = some location := by
  have hl := operandAt_eq_ok h
  unfold locationOf at hl
  split at hl
  next l hs => cases hl; exact hs
  next => cases hl

theorem syscallOf_eq_ok {token : Token} {syscall : Syscall}
    (h : operandAt (syscallOf scope) token = .ok syscall) : scope.syscall? token.text = some syscall := by
  have hl := operandAt_eq_ok h
  unfold syscallOf at hl
  split at hl
  next l hs => cases hl; exact hs
  next => cases hl

theorem fits_of_operandAt {token : Token} {o : Operand} (h : operandAt Literal.operand token = .ok o) : o.Fits :=
  Literal.operand_fits (operandAt_eq_ok h)

/-- Reading an instruction and looking its names up are two separate matters. What is read keeps to
the limits of the encoding. -/
theorem parse_eq_ok {op : Opcode} {head : Token} {operands : List Token} {i : Instruction Location Syscall}
    (h : parse scope op head operands = .ok i) :
    ∃ written, parse .names op head operands = .ok written ∧ written.resolve scope = some i ∧
      written.opcode = op ∧ i.Encodable := by
  unfold parse at h
  split at h
  next target source =>
    obtain ⟨t, ht, h⟩ := except_bind_eq_ok.mp h
    obtain ⟨s, hs, h⟩ := except_bind_eq_ok.mp h
    cases h
    refine ⟨.load t s, ?_, rfl, rfl, fits_of_operandAt hs⟩
    exact except_bind_eq_ok.mpr ⟨t, ht, except_bind_eq_ok.mpr ⟨s, hs, rfl⟩⟩
  next address source =>
    obtain ⟨a, ha, h⟩ := except_bind_eq_ok.mp h
    obtain ⟨s, hs, h⟩ := except_bind_eq_ok.mp h
    cases h
    refine ⟨.store a s, ?_, rfl, rfl, fits_of_operandAt hs⟩
    exact except_bind_eq_ok.mpr ⟨a, ha, except_bind_eq_ok.mpr ⟨s, hs, rfl⟩⟩
  next address target =>
    obtain ⟨a, ha, h⟩ := except_bind_eq_ok.mp h
    obtain ⟨t, ht, h⟩ := except_bind_eq_ok.mp h
    cases h
    refine ⟨.fetch a t, ?_, rfl, rfl, trivial⟩
    exact except_bind_eq_ok.mpr ⟨a, ha, except_bind_eq_ok.mpr ⟨t, ht, rfl⟩⟩
  next op left right target =>
    obtain ⟨l, hl, h⟩ := except_bind_eq_ok.mp h
    obtain ⟨r, hr, h⟩ := except_bind_eq_ok.mp h
    obtain ⟨t, ht, h⟩ := except_bind_eq_ok.mp h
    cases h
    refine ⟨.arithmetic op l r t, ?_, rfl, rfl, fits_of_operandAt hl, fits_of_operandAt hr⟩
    exact except_bind_eq_ok.mpr ⟨l, hl, except_bind_eq_ok.mpr ⟨r, hr, except_bind_eq_ok.mpr ⟨t, ht, rfl⟩⟩⟩
  next =>
    cases h
    exact ⟨.halt (.value (.byte 0)), rfl, rfl, rfl, trivial⟩
  next status =>
    obtain ⟨s, hs, h⟩ := except_bind_eq_ok.mp h
    cases h
    refine ⟨.halt s, ?_, rfl, rfl, fits_of_operandAt hs⟩
    exact except_bind_eq_ok.mpr ⟨s, hs, rfl⟩
  next test condition location =>
    obtain ⟨c, hc, h⟩ := except_bind_eq_ok.mp h
    obtain ⟨l, hl, h⟩ := except_bind_eq_ok.mp h
    cases h
    refine ⟨.branch test c location.text, ?_, ?_, rfl, fits_of_operandAt hc⟩
    · exact except_bind_eq_ok.mpr ⟨c, hc, rfl⟩
    · rw [resolve, locationOf_eq_ok hl]
      rfl
  next location =>
    obtain ⟨l, hl, h⟩ := except_bind_eq_ok.mp h
    cases h
    refine ⟨.jump location.text, rfl, ?_, rfl, trivial⟩
    rw [resolve, locationOf_eq_ok hl]
    rfl
  next location =>
    obtain ⟨l, hl, h⟩ := except_bind_eq_ok.mp h
    cases h
    refine ⟨.mark location.text, rfl, ?_, rfl, trivial⟩
    rw [resolve, locationOf_eq_ok hl]
    rfl
  next name arguments =>
    obtain ⟨s, hs, h⟩ := except_bind_eq_ok.mp h
    obtain ⟨as, ha, h⟩ := except_bind_eq_ok.mp h
    by_cases hl : 255 < as.length
    · simp only [if_pos hl] at h
      cases h
    · simp only [if_neg hl] at h
      cases h
      refine ⟨.call name.text as, ?_, ?_, rfl, Nat.le_of_not_lt hl, ?_⟩
      · refine except_bind_eq_ok.mpr ⟨name.text, rfl, except_bind_eq_ok.mpr ⟨as, ha, ?_⟩⟩
        simp only [if_neg hl]
        rfl
      · rw [resolve, syscallOf_eq_ok hs]
        rfl
      · intro a hm
        obtain ⟨k, hk⟩ := List.mem_iff_getElem?.mp hm
        obtain ⟨token, -, ht⟩ := forall₂_right (mapM_eq_ok.mp ha) hk
        exact fits_of_operandAt ht
  next => cases h

end Parse

end Instruction

end RegisterMachine
