import RegisterMachine.Proofs.StepFrame

namespace RegisterMachine

/-- Whether an instruction goes to a location when the registers hold what they hold. -/
def Instruction.Jumps {Location Syscall : Type} (registers : Registers) (target : Location) :
    Instruction Location Syscall → Prop
  | jump location => location = target
  | branch test condition location =>
    location = target ∧ ∃ v, condition.valueIn registers = .ok v ∧ test.holds? v = some true
  | _ => False

namespace Machine

/-- Where the machine goes on after an instruction that ends at `behind`, and what becomes of the
locations that it knows. -/
inductive Moves (i : Instruction UInt8 UInt8) (registers : Registers) (locations : Locations)
    (behind : Nat) (m' : Machine) : Prop
  | onward : (∀ id, i ≠ .mark id) → m'.code.cursor = behind → m'.locations = locations →
      Moves i registers locations behind m'
  | mark (id : UInt8) : i = .mark id → m'.code.cursor = behind →
      m'.locations = locations.insert id behind → Moves i registers locations behind m'
  | jump (id : UInt8) (p : Nat) : i.Jumps registers id → locations.find? id = some p →
      m'.code.cursor = p → m'.locations = locations → Moves i registers locations behind m'

theorem asking_eq_ok {α : Type} {question : Machine → Except Fault α} {m m' : Machine} {x : α}
    (h : asking question m = .ok x m') : question m = .ok x ∧ m' = m := by
  unfold asking at h
  split at h
  next y hy => cases h; exact ⟨hy, rfl⟩
  next => cases h

theorem setRegister_eq_ok {index : UInt8} {v : Value} {m m' : Machine} {u : Unit}
    (h : setRegister index v m = .ok u m') :
    ∃ registers, m.registers.set index v = .ok registers ∧ m' = { m with registers } := by
  unfold setRegister changing at h
  cases hr : m.registers.set index v with
  | ok registers =>
    simp only [hr, Except.map] at h
    cases h
    exact ⟨registers, rfl, rfl⟩
  | error cause => simp [hr, Except.map] at h

theorem storeValue_eq_ok {address : UInt8} {v : Value} {m m' : Machine} {u : Unit}
    (h : storeValue address v m = .ok u m') :
    ∃ memory, m.memory.store address.toNat v = .ok memory ∧ m' = { m with memory } := by
  unfold storeValue changing at h
  cases hr : m.memory.store address.toNat v with
  | ok memory =>
    simp only [hr, Except.map] at h
    cases h
    exact ⟨memory, rfl, rfl⟩
  | error cause => simp [hr, Except.map] at h

theorem writeLine_eq_ok {line : String} {m m' : Machine} {u : Unit} (h : writeLine line m = .ok u m') :
    ∃ output, Sink.writeLine line m.output = .ok () output ∧ m' = { m with output } := by
  unfold writeLine at h
  split at h
  next output hw => cases h; exact ⟨output, hw, rfl⟩
  next => cases h

theorem jumpTo_eq_ok {id : UInt8} {m m' : Machine} {u : Unit} (h : jumpTo id m = .ok u m') :
    ∃ p, m.locations.find? id = some p ∧ m' = m.movedTo p := by
  cases hp : m.locations.find? id with
  | none =>
    rw [jumpTo_of_none hp] at h
    cases h
  | some p =>
    refine ⟨p, rfl, ?_⟩
    rcases Nat.lt_or_ge m.code.capacity p with hc | hc
    · rw [jumpTo_of_beyond hp hc] at h
      cases h
    · rw [jumpTo_of_some hp hc] at h
      cases h
      rfl

/-- What becomes of a machine when an instruction other than a call succeeds. -/
inductive CarriedOut (m : Machine) : Instruction UInt8 UInt8 → Flow → Machine → Prop
  | load {target : UInt8} {source : Operand} {v : Value} {registers : Registers} :
      source.valueIn m.registers = .ok v → m.registers.set target v = .ok registers →
      CarriedOut m (.load target source) .next { m with registers }
  | store {address : UInt8} {source : Operand} {v : Value} {memory : Memory} :
      source.valueIn m.registers = .ok v → m.memory.store address.toNat v = .ok memory →
      CarriedOut m (.store address source) .next { m with memory }
  | fetch {address target : UInt8} {v : Value} {registers : Registers} :
      m.memory.load address.toNat = .ok v → m.registers.set target v = .ok registers →
      CarriedOut m (.fetch address target) .next { m with registers }
  | arithmetic {op : ArithmeticOp} {left right : Operand} {target : UInt8} {a b v : Value} {registers : Registers} :
      left.valueIn m.registers = .ok a → right.valueIn m.registers = .ok b → op.apply a b = .ok v →
      m.registers.set target v = .ok registers →
      CarriedOut m (.arithmetic op left right target) .next { m with registers }
  | halt {status : Operand} {v : Value} {code : Int32} :
      status.valueIn m.registers = .ok v → v.status? = some code → CarriedOut m (.halt status) (.halt code) m
  | taken {test : Test} {condition : Operand} {id : UInt8} {v : Value} {p : Nat} :
      condition.valueIn m.registers = .ok v → test.holds? v = some true → m.locations.find? id = some p →
      CarriedOut m (.branch test condition id) .next (m.movedTo p)
  | passed {test : Test} {condition : Operand} {id : UInt8} {v : Value} :
      condition.valueIn m.registers = .ok v → test.holds? v = some false →
      CarriedOut m (.branch test condition id) .next m
  | jump {id : UInt8} {p : Nat} : m.locations.find? id = some p → CarriedOut m (.jump id) .next (m.movedTo p)
  | mark {id : UInt8} : CarriedOut m (.mark id) .next { m with locations := m.locations.insert id m.code.cursor }

theorem carryOut_eq_ok {i : Instruction UInt8 UInt8} {m m' : Machine} {flow : Flow}
    (hi : ∀ index arguments, i ≠ .call index arguments) (h : carryOut i m = .ok flow m') :
    CarriedOut m i flow m' := by
  cases i with
  | load target source =>
    obtain ⟨v, m₁, hq, h⟩ := bind_eq_ok.mp h
    obtain ⟨u, m₂, hs, h⟩ := bind_eq_ok.mp h
    obtain ⟨hv, rfl⟩ := asking_eq_ok hq
    obtain ⟨registers, hr, rfl⟩ := setRegister_eq_ok hs
    cases h
    exact .load hv hr
  | store address source =>
    obtain ⟨v, m₁, hq, h⟩ := bind_eq_ok.mp h
    obtain ⟨u, m₂, hs, h⟩ := bind_eq_ok.mp h
    obtain ⟨hv, rfl⟩ := asking_eq_ok hq
    obtain ⟨memory, hr, rfl⟩ := storeValue_eq_ok hs
    cases h
    exact .store hv hr
  | fetch address target =>
    obtain ⟨v, m₁, hq, h⟩ := bind_eq_ok.mp h
    obtain ⟨u, m₂, hs, h⟩ := bind_eq_ok.mp h
    obtain ⟨hv, rfl⟩ := asking_eq_ok hq
    obtain ⟨registers, hr, rfl⟩ := setRegister_eq_ok hs
    cases h
    exact .fetch hv hr
  | arithmetic op left right target =>
    obtain ⟨a, m₁, hl, h⟩ := bind_eq_ok.mp h
    obtain ⟨b, m₂, hr, h⟩ := bind_eq_ok.mp h
    obtain ⟨v, m₃, hq, h⟩ := bind_eq_ok.mp h
    obtain ⟨u, m₄, hs, h⟩ := bind_eq_ok.mp h
    obtain ⟨ha, rfl⟩ := asking_eq_ok hl
    obtain ⟨hb, rfl⟩ := asking_eq_ok hr
    obtain ⟨hv, rfl⟩ := asking_eq_ok hq
    obtain ⟨registers, hr, rfl⟩ := setRegister_eq_ok hs
    cases h
    exact .arithmetic ha hb hv hr
  | halt status =>
    obtain ⟨v, m₁, hq, hk⟩ := bind_eq_ok.mp h
    obtain ⟨hv, rfl⟩ := asking_eq_ok hq
    cases hs : v.status? with
    | none => rw [hs] at hk; cases hk
    | some code =>
      rw [hs] at hk
      cases hk
      exact .halt hv hs
  | branch test condition id =>
    obtain ⟨v, m₁, hq, hk⟩ := bind_eq_ok.mp h
    obtain ⟨hv, rfl⟩ := asking_eq_ok hq
    cases ht : test.holds? v with
    | none => rw [ht] at hk; cases hk
    | some taken =>
      rw [ht] at hk
      cases taken with
      | true =>
        obtain ⟨u, m₂, hj, he⟩ := bind_eq_ok.mp hk
        obtain ⟨p, hp, rfl⟩ := jumpTo_eq_ok hj
        cases he
        exact .taken hv ht hp
      | false =>
        cases hk
        exact .passed hv ht
  | jump id =>
    obtain ⟨u, m₂, hj, h⟩ := bind_eq_ok.mp h
    obtain ⟨p, hp, rfl⟩ := jumpTo_eq_ok hj
    cases h
    exact .jump hp
  | mark id =>
    obtain ⟨u, m₂, hj, h⟩ := bind_eq_ok.mp h
    cases hj
    cases h
    exact .mark
  | call index arguments => exact (hi index arguments rfl).elim

/-- An instruction other than a call goes on behind itself, notes a location, or jumps. -/
theorem carryOut_moves {i : Instruction UInt8 UInt8} {m m' : Machine}
    (hi : ∀ index arguments, i ≠ .call index arguments) (h : carryOut i m = .ok .next m') :
    Moves i m.registers m.locations m.code.cursor m' := by
  cases carryOut_eq_ok hi h with
  | load hv hr => exact .onward (by simp) rfl rfl
  | store hv hr => exact .onward (by simp) rfl rfl
  | fetch hv hr => exact .onward (by simp) rfl rfl
  | arithmetic ha hb hv hr => exact .onward (by simp) rfl rfl
  | taken hv ht hp => exact .jump _ _ ⟨rfl, _, hv, ht⟩ hp rfl rfl
  | passed hv ht => exact .onward (by simp) rfl rfl
  | jump hp => exact .jump _ _ rfl hp rfl rfl
  | mark => exact .mark _ rfl rfl rfl

theorem Agree.eq_of_ok {r : EStateM.Result Fault Machine Flow} {flow : Flow} {m : Machine} (hf : flow ≠ .crash)
    (h : Agree (.ok flow m) r) : r = .ok flow m := by
  cases h with
  | refl => rfl
  | crash m p => exact (hf rfl).elim

theorem step_call_eq {m : Machine} {index : UInt8} {arguments : List Operand} {rest : List UInt8}
    (ha : m.ahead = (Instruction.call index arguments).encode ++ rest) :
    step m =
      match m.syscalls.get index with
      | .ok entry => perform (entry.script (UInt8.ofNat arguments.length))
          ((m.recorded .call).leaving (arguments.flatMap Operand.encode ++ rest))
      | .error cause =>
        .error cause ((m.recorded .call).leaving (arguments.flatMap Operand.encode ++ rest)) := by
  have hc : m.ahead = Opcode.code .call :: index :: UInt8.ofNat arguments.length ::
      (arguments.flatMap Operand.encode ++ rest) := ha
  rw [step_eq_execute (Opcode.ofCode?_code .call) hc]
  exact execute_call_eq (ahead_leaving (show (m.recorded .call).ahead = [Opcode.code .call] ++ _ from hc))

/-- After a step that the run survives, the machine stands behind the instruction or behind the
marker that it jumped to. -/
theorem step_moves {i : Instruction UInt8 UInt8} {m m' : Machine} {rest : List UInt8}
    (hs : m.syscalls.Disciplined) (hd : Instruction.decode m.ahead = .ok i rest)
    (h : step m = .ok .next m') : Moves i m.registers m.locations (m.leaving rest).code.cursor m' := by
  by_cases hi : ∃ index arguments, i = .call index arguments
  · obtain ⟨index, arguments, rfl⟩ := hi
    obtain ⟨⟨hl, hf⟩, ha⟩ := Instruction.decode_eq_ok.mp hd
    have hb : ((m.recorded .call).leaving (arguments.flatMap Operand.encode ++ rest)).ahead =
        arguments.flatMap Operand.encode ++ rest :=
      ahead_leaving (show (m.recorded .call).ahead =
        [Opcode.code .call, index, UInt8.ofNat arguments.length] ++ _ from ha)
    rw [step_call_eq ha] at h
    cases hg : m.syscalls.get index with
    | error cause => simp [hg] at h
    | ok entry =>
      simp only [hg] at h
      have ht := hs entry (mem_of_get hg) _ _ _ h
      rw [UInt8.toNat_ofNat'] at ht
      have hc := code_of_perform _ hf hb (Nat.sub_le _ _) (by omega) h
      have hk := perform_locations (entry.script (UInt8.ofNat arguments.length))
        ((m.recorded .call).leaving (arguments.flatMap Operand.encode ++ rest))
      rw [h] at hk
      exact .onward (by simp) (by rw [hc]; rfl) hk
  · have hg := step_agrees hs hd
    rw [h] at hg
    exact carryOut_moves (fun index arguments he => hi ⟨index, arguments, he⟩) (hg.eq_of_ok (by simp))

end Machine

end RegisterMachine
