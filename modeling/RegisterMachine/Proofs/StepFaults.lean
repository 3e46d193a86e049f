import RegisterMachine.Proofs.DataFaults
import RegisterMachine.Proofs.StepControl

namespace RegisterMachine

namespace Machine

theorem jumpTo_error {id : UInt8} {m m' : Machine} {cause : Fault} (h : jumpTo id m = .error cause m') :
    (m.locations.find? id = none ∧ cause = .unresolvedLocation id) ∨
      ∃ p, m.locations.find? id = some p ∧ m.code.capacity < p ∧ cause = .outOfRange p m.code.capacity := by
  cases hp : m.locations.find? id with
  | none =>
    rw [jumpTo_of_none hp] at h
    cases h
    exact .inl ⟨rfl, rfl⟩
  | some p =>
    rcases Nat.lt_or_ge m.code.capacity p with hc | hc
    · rw [jumpTo_of_beyond hp hc] at h
      cases h
      exact .inr ⟨p, rfl, hc, rfl⟩
    · rw [jumpTo_of_some hp hc] at h
      cases h

/-- An instruction other than a call fails over the values at hand, or because it jumps and cannot. -/
theorem carryOut_error {i : Instruction UInt8 UInt8} {m m' : Machine} {cause : Fault}
    (hi : ∀ index arguments, i ≠ .call index arguments) (h : carryOut i m = .error cause m') :
    cause.IsData ∨ ∃ id, i.Jumps m.registers id ∧ jumpTo id m = .error cause m' := by
  cases i with
  | load target source =>
    left
    have hr : Raises Fault.IsData (carryOut (.load target source)) :=
      (operandValue_raises source).bind fun v => (setRegister_raises target v).bind fun _ => raises_pure _
    exact hr _ _ _ h
  | store address source =>
    left
    have hr : Raises Fault.IsData (carryOut (.store address source)) :=
      (operandValue_raises source).bind fun v => (storeValue_raises address v).bind fun _ => raises_pure _
    exact hr _ _ _ h
  | fetch address target =>
    left
    have hr : Raises Fault.IsData (carryOut (.fetch address target)) :=
      (raises_asking fun m cause h => memory_load_fault h).bind fun v =>
        (setRegister_raises target v).bind fun _ => raises_pure _
    exact hr _ _ _ h
  | arithmetic op left right target =>
    left
    have hr : Raises Fault.IsData (carryOut (.arithmetic op left right target)) :=
      (operandValue_raises left).bind fun a => (operandValue_raises right).bind fun b =>
        (raises_asking fun m cause h => arithmetic_fault h).bind fun v =>
          (setRegister_raises target v).bind fun _ => raises_pure _
    exact hr _ _ _ h
  | halt status =>
    left
    obtain h | ⟨v, m₁, -, hk⟩ := bind_eq_error.mp h
    · exact operandValue_raises status _ _ _ h
    · cases hs : v.status? with
      | none => rw [hs] at hk; cases hk; exact ⟨rfl, rfl⟩
      | some code => rw [hs] at hk; cases hk
  | branch test condition id =>
    obtain h | ⟨v, m₁, hq, hk⟩ := bind_eq_error.mp h
    · exact .inl (operandValue_raises condition _ _ _ h)
    · obtain ⟨hv, rfl⟩ := asking_eq_ok hq
      cases ht : test.holds? v with
      | none => rw [ht] at hk; cases hk; exact .inl ⟨rfl, rfl⟩
      | some taken =>
        rw [ht] at hk
        cases taken with
        | true =>
          obtain hj | ⟨u, m₂, -, he⟩ := bind_eq_error.mp hk
          · exact .inr ⟨id, ⟨rfl, v, hv, ht⟩, hj⟩
          · cases he
        | false => cases hk
  | jump id =>
    obtain hj | ⟨u, m₂, -, he⟩ := bind_eq_error.mp h
    · exact .inr ⟨id, rfl, hj⟩
    · cases he
  | mark id =>
    obtain hj | ⟨u, m₂, -, he⟩ := bind_eq_error.mp h
    · cases hj
    · cases he
  | call index arguments => exact (hi index arguments rfl).elim

theorem carryOut_of_jump {i : Instruction UInt8 UInt8} {m : Machine} {id : UInt8}
    (hj : i.Jumps m.registers id) : carryOut i m = (jumpTo id >>= fun _ => pure .next) m := by
  cases i with
  | branch test condition location =>
    obtain ⟨rfl, v, hv, ht⟩ := hj
    simp only [carryOut]
    rw [bind_of_ok (operandValue_of_ok m hv), ht]
  | jump location =>
    have he : location = id := hj
    rw [he]
    rfl
  | load target source => exact hj.elim
  | store address source => exact hj.elim
  | fetch address target => exact hj.elim
  | arithmetic op left right target => exact hj.elim
  | halt status => exact hj.elim
  | mark location => exact hj.elim
  | call index arguments => exact hj.elim

theorem Agree.error_of_right {r : EStateM.Result Fault Machine Flow} {cause : Fault} {m : Machine}
    (h : Agree r (.error cause m)) : ∃ p, r = .error cause (m.movedTo p) := by
  cases h with
  | refl => exact ⟨m.code.cursor, rfl⟩
  | error cause m p => exact ⟨p, rfl⟩

theorem Agree.error_of_left {r : EStateM.Result Fault Machine Flow} {cause : Fault} {m : Machine}
    (h : Agree (.error cause m) r) : ∃ m' p, r = .error cause m' ∧ m = m'.movedTo p := by
  cases h with
  | refl => exact ⟨m, m.code.cursor, rfl, rfl⟩
  | error cause m p => exact ⟨_, p, rfl, rfl⟩

theorem Agree.eq_of_ok_right {r : EStateM.Result Fault Machine Flow} {flow : Flow} {m : Machine}
    (hf : flow ≠ .crash) (h : Agree r (.ok flow m)) : r = .ok flow m := by
  cases h with
  | refl => rfl
  | crash m p => exact (hf rfl).elim

section Jump

variable {i : Instruction UInt8 UInt8} {m : Machine} {rest : List UInt8} {id : UInt8}

theorem step_of_jump {p : Nat} (hs : m.syscalls.Disciplined) (hd : Instruction.decode m.ahead = .ok i rest)
    (hj : i.Jumps m.registers id) (hp : m.locations.find? id = some p) (hc : p ≤ m.code.capacity) :
    step m = .ok .next ((m.recorded i.opcode).movedTo p) := by
  have hg := step_agrees hs hd
  have he := carryOut_of_jump (m := (m.recorded i.opcode).leaving rest) hj
  have ht := jumpTo_of_some (m := (m.recorded i.opcode).leaving rest) hp hc
  rw [he, bind_of_ok ht] at hg
  exact hg.eq_of_ok_right (by simp)

theorem step_of_unresolved_jump (hs : m.syscalls.Disciplined) (hd : Instruction.decode m.ahead = .ok i rest)
    (hj : i.Jumps m.registers id) (hp : m.locations.find? id = none) :
    ∃ m', step m = .error (.unresolvedLocation id) m' := by
  have hg := step_agrees hs hd
  have he := carryOut_of_jump (m := (m.recorded i.opcode).leaving rest) hj
  have ht := jumpTo_of_none (m := (m.recorded i.opcode).leaving rest) hp
  rw [he, bind_of_error ht] at hg
  obtain ⟨q, hq⟩ := hg.error_of_right
  exact ⟨_, hq⟩

end Jump

end Machine

end RegisterMachine
