import RegisterMachine.Proofs.StandardStep
import RegisterMachine.Proofs.ValueFormat

namespace RegisterMachine

theorem Registers.slots_set_of_ne {r r' : Registers} {index : UInt8} {v : Value} (h : r.set index v = .ok r')
    {i : Nat} (hi : i ≠ index.toNat) : r'.slots[i]? = r.slots[i]? := by
  unfold set at h
  split at h
  next => cases h; exact Array.getElem?_setIfInBounds_ne (Ne.symm hi)
  next => cases h

namespace Machine

/-- The data of the machine are as they were. -/
structure Unchanged (before after : Machine) : Prop where
  registers : after.registers = before.registers
  memory : after.memory = before.memory
  locations : after.locations = before.locations

/-- One register has been written, and nothing else. -/
structure WritesRegister (target : UInt8) (v : Value) (before after : Machine) : Prop where
  written : after.registers.get target = .ok v
  count : after.registers.count = before.registers.count
  others : ∀ i, i ≠ target.toNat → after.registers.slots[i]? = before.registers.slots[i]?
  memory : after.memory = before.memory
  locations : after.locations = before.locations

/-- One value has been written to memory, and nothing else. -/
structure WritesMemory (address : Nat) (v : Value) (before after : Machine) : Prop where
  written : ∀ i, i < Codec.value.size v → after.memory.byteAt (address + i) = (Codec.value.encode v).getD i 0
  others : ∀ a, a < address ∨ address + Codec.value.size v ≤ a → after.memory.byteAt a = before.memory.byteAt a
  capacity : after.memory.capacity = before.memory.capacity
  registers : after.registers = before.registers
  locations : after.locations = before.locations

/-- The place of one location has been noted, and nothing else. -/
structure WritesLocation (id : UInt8) (before after : Machine) : Prop where
  written : after.locations.find? id = some after.code.cursor
  others : ∀ other, other ≠ id → after.locations.find? other = before.locations.find? other
  registers : after.registers = before.registers
  memory : after.memory = before.memory

/-- What an instruction does when it succeeds. Its sources are the values that stood there before it. -/
inductive Effect (before : Machine) : Instruction UInt8 UInt8 → Flow → Machine → Prop
  | load {target : UInt8} {source : Operand} {v : Value} {after : Machine} :
      source.valueIn before.registers = .ok v → WritesRegister target v before after →
      Effect before (.load target source) .next after
  | store {address : UInt8} {source : Operand} {v : Value} {after : Machine} :
      source.valueIn before.registers = .ok v → WritesMemory address.toNat v before after →
      Effect before (.store address source) .next after
  | fetch {address target : UInt8} {v : Value} {after : Machine} :
      before.memory.load address.toNat = .ok v → WritesRegister target v before after →
      Effect before (.fetch address target) .next after
  | arithmetic {op : ArithmeticOp} {left right : Operand} {target : UInt8} {a b v : Value} {after : Machine} :
      left.valueIn before.registers = .ok a → right.valueIn before.registers = .ok b → op.apply a b = .ok v →
      WritesRegister target v before after → Effect before (.arithmetic op left right target) .next after
  | halt {status : Operand} {v : Value} {code : Int32} {after : Machine} :
      status.valueIn before.registers = .ok v → v.status? = some code → Unchanged before after →
      Effect before (.halt status) (.halt code) after
  | branch {test : Test} {condition : Operand} {id : UInt8} {v : Value} {taken : Bool} {after : Machine} :
      condition.valueIn before.registers = .ok v → test.holds? v = some taken → Unchanged before after →
      Effect before (.branch test condition id) .next after
  | jump {id : UInt8} {after : Machine} : Unchanged before after → Effect before (.jump id) .next after
  | mark {id : UInt8} {after : Machine} : WritesLocation id before after → Effect before (.mark id) .next after
  | call {index : UInt8} {argument : Operand} {v : Value} {after : Machine} :
      argument.valueIn before.registers = .ok v → Sink.writeLine v.text before.output = .ok () after.output →
      Unchanged before after → Effect before (.call index [argument]) .next after

section Faults

theorem unchanged_lasting : Lasting Unchanged where
  refl _ := ⟨rfl, rfl, rfl⟩
  trans h h' := ⟨h'.registers.trans h.registers, h'.memory.trans h.memory, h'.locations.trans h.locations⟩

theorem OnlyMoved.unchanged (m m' : Machine) (h : OnlyMoved m m') : Unchanged m m' := by
  obtain ⟨p, rfl⟩ := h
  exact ⟨rfl, rfl, rfl⟩

theorem readByte_unchanged : Respects Unchanged readByte := readByte_moves.mono OnlyMoved.unchanged

theorem readOperand_unchanged : Respects Unchanged readOperand := readOperand_moves.mono OnlyMoved.unchanged

theorem writeLine_unchanged (line : String) : Respects Unchanged (writeLine line) := by
  intro m
  simp only [writeLine]
  cases Sink.writeLine line m.output <;> exact ⟨rfl, rfl, rfl⟩

/-- The action changes data only as it succeeds. -/
def Atomic {α : Type} (x : Action α) : Prop := ∀ m cause m', x m = .error cause m' → Unchanged m m'

variable {α β : Type}

theorem Respects.atomic {x : Action α} (hx : Respects Unchanged x) : Atomic x := by
  intro m cause m' h
  have hu := hx m
  rw [h] at hu
  exact hu

/-- As long as nothing has been changed, the next action may be the one that changes something. -/
theorem Atomic.after {x : Action α} {f : α → Action β} (hx : Respects Unchanged x) (hf : ∀ a, Atomic (f a)) :
    Atomic (x >>= f) := by
  intro m cause m' h
  obtain h | ⟨a, m₁, ha, h⟩ := bind_eq_error.mp h
  · exact hx.atomic m cause m' h
  · have hu := hx m
    rw [ha] at hu
    exact unchanged_lasting.trans hu (hf a m₁ cause m' h)

theorem Atomic.done {x : Action α} (hx : Atomic x) (b : β) : Atomic (x >>= fun _ => pure b) := by
  intro m cause m' h
  obtain h | ⟨a, m₁, -, h⟩ := bind_eq_error.mp h
  · exact hx m cause m' h
  · cases h

theorem atomic_pure (a : α) : Atomic (pure a) := by
  intro m cause m' h
  cases h

theorem atomic_throw (cause : Fault) : Atomic (throw cause : Action α) := by
  intro m cause' m' h
  cases h
  exact unchanged_lasting.refl m

theorem atomic_changing (change : Machine → Except Fault Machine) : Atomic (changing change) := by
  intro m cause m' h
  unfold changing at h
  split at h <;> cases h
  exact unchanged_lasting.refl m

theorem jumpTo_atomic (id : UInt8) : Atomic (jumpTo id) :=
  ((jumpTo_moves id).mono OnlyMoved.unchanged).atomic

theorem execute_atomic (op : Opcode) : Atomic (execute op) := by
  have hasking : ∀ {γ : Type} (question : Machine → Except Fault γ), Respects Unchanged (asking question) :=
    fun question => respects_asking unchanged_lasting question
  cases op with
  | load =>
    apply Atomic.after readByte_unchanged
    intro target
    apply Atomic.after readOperand_unchanged
    intro v
    exact (atomic_changing _).done _
  | store =>
    apply Atomic.after readByte_unchanged
    intro address
    apply Atomic.after readOperand_unchanged
    intro v
    exact (atomic_changing _).done _
  | fetch =>
    apply Atomic.after readByte_unchanged
    intro address
    apply Atomic.after readByte_unchanged
    intro target
    apply Atomic.after (hasking _)
    intro v
    exact (atomic_changing _).done _
  | arithmetic op =>
    apply Atomic.after readOperand_unchanged
    intro a
    apply Atomic.after readOperand_unchanged
    intro b
    apply Atomic.after readByte_unchanged
    intro target
    apply Atomic.after (hasking _)
    intro v
    exact (atomic_changing _).done _
  | halt =>
    apply Atomic.after readOperand_unchanged
    intro v
    split
    next => exact atomic_pure _
    next => exact atomic_throw _
  | branch test =>
    apply Atomic.after readOperand_unchanged
    intro v
    apply Atomic.after readByte_unchanged
    intro id
    split
    next => exact (jumpTo_atomic id).done _
    next => exact atomic_pure _
    next => exact atomic_throw _
  | jump =>
    apply Atomic.after readByte_unchanged
    intro id
    exact (jumpTo_atomic id).done _
  | mark =>
    apply Atomic.after readByte_unchanged
    intro id m cause m' h
    cases h
  | call =>
    apply Atomic.after readByte_unchanged
    intro index
    apply Atomic.after readByte_unchanged
    intro count
    apply Atomic.after (hasking _)
    intro entry
    exact (respects_perform unchanged_lasting readOperand_unchanged writeLine_unchanged _).atomic

theorem fetch_unchanged : Respects Unchanged fetch := by
  intro m
  cases ha : m.ahead with
  | nil =>
    rw [fetch_of_ahead_nil ha]
    exact unchanged_lasting.refl m
  | cons b rest =>
    cases hb : Opcode.ofCode? b with
    | none =>
      rw [fetch_of_invalid hb ha]
      exact ⟨rfl, rfl, rfl⟩
    | some op =>
      rw [fetch_of_ahead hb ha]
      exact ⟨rfl, rfl, rfl⟩

theorem step_atomic : Atomic step := Atomic.after fetch_unchanged execute_atomic

end Faults

section Success

variable {m m' : Machine}

theorem writesRegister_of_set {target : UInt8} {v : Value} {registers : Registers} (hu : Unchanged m m')
    (h : m'.registers.set target v = .ok registers) : WritesRegister target v m { m' with registers } where
  written := Registers.get_set_self h
  count := (Registers.count_set h).trans (congrArg Registers.count hu.registers)
  others i hi := (Registers.slots_set_of_ne h hi).trans (by rw [hu.registers])
  memory := hu.memory
  locations := hu.locations

theorem writesMemory_of_store {address : Nat} {v : Value} {memory : Memory} (hu : Unchanged m m')
    (h : m'.memory.store address v = .ok memory) : WritesMemory address v m { m' with memory } := by
  obtain ⟨-, he⟩ := Memory.store_eq_ok h
  rw [hu.memory] at he
  refine ⟨?_, ?_, by rw [he]; rfl, hu.registers, hu.locations⟩
  · intro i hi
    rw [Codec.size_value] at hi
    change memory.byteAt (address + i) = _
    rw [he, Memory.byteAt_overwrite, if_pos (by omega), Nat.add_sub_cancel_left]
  · intro a ha
    rw [Codec.size_value] at ha
    change memory.byteAt a = _
    rw [he, Memory.byteAt_overwrite, if_neg (by omega)]

theorem carryOut_effect {i : Instruction UInt8 UInt8} {rest : List UInt8} {flow : Flow}
    (hi : ∀ index arguments, i ≠ .call index arguments)
    (h : carryOut i ((m.recorded i.opcode).leaving rest) = .ok flow m') : Effect m i flow m' := by
  have hu : Unchanged m ((m.recorded i.opcode).leaving rest) := ⟨rfl, rfl, rfl⟩
  cases carryOut_eq_ok hi h with
  | load hv hr => exact .load hv (writesRegister_of_set hu hr)
  | store hv hr => exact .store hv (writesMemory_of_store hu hr)
  | fetch hv hr => exact .fetch hv (writesRegister_of_set hu hr)
  | arithmetic ha hb hv hr => exact .arithmetic ha hb hv (writesRegister_of_set hu hr)
  | halt hv hc => exact .halt hv hc hu
  | taken hv ht hp => exact .branch hv ht ⟨rfl, rfl, rfl⟩
  | passed hv ht => exact .branch hv ht hu
  | jump hp => exact .jump ⟨rfl, rfl, rfl⟩
  | mark =>
    exact .mark ⟨Locations.find?_insert_self _ _ _, fun other hne => Locations.find?_insert_of_ne _ _ hne, rfl, rfl⟩

theorem step_call_effect {index : UInt8} {arguments : List Operand} {rest : List UInt8} {flow : Flow}
    (hs : m.syscalls = .standard) (hd : Instruction.decode m.ahead = .ok (.call index arguments) rest)
    (h : step m = .ok flow m') : Effect m (.call index arguments) flow m' := by
  obtain ⟨⟨hl, hf⟩, ha⟩ := Instruction.decode_eq_ok.mp hd
  have hb : ((m.recorded .call).leaving (arguments.flatMap Operand.encode ++ rest)).ahead =
      arguments.flatMap Operand.encode ++ rest :=
    ahead_leaving (show (m.recorded .call).ahead =
      [Opcode.code .call, index, UInt8.ofNat arguments.length] ++ _ from ha)
  rw [step_call_eq ha, hs] at h
  cases hg : SyscallTable.standard.get index with
  | error cause => simp [hg] at h
  | ok entry =>
    rw [hg, get_standard hg] at h
    obtain ⟨hc, v, m₁, hr, hp⟩ := perform_printLine_eq_ok h
    have hn : arguments.length = 1 := by
      have hc' := congrArg UInt8.toNat hc
      rw [UInt8.toNat_ofNat'] at hc'
      change arguments.length % 256 = 1 at hc'
      omega
    obtain ⟨argument, rfl⟩ := List.length_eq_one_iff.mp hn
    rw [readOperand_of_ahead (hf argument (by simp)) (by simpa using hb)] at hr
    obtain ⟨hv, rfl⟩ := asking_eq_ok hr
    rw [perform_printing] at hp
    obtain ⟨u, m₂, hw, hp⟩ := bind_eq_ok.mp hp
    obtain ⟨output, ho, rfl⟩ := writeLine_eq_ok hw
    cases hp
    exact .call hv ho ⟨rfl, rfl, rfl⟩

theorem step_effect {i : Instruction UInt8 UInt8} {rest : List UInt8} {flow : Flow}
    (hs : m.syscalls = .standard) (hd : Instruction.decode m.ahead = .ok i rest) (h : step m = .ok flow m') :
    Effect m i flow m' := by
  by_cases hi : ∃ index arguments, i = .call index arguments
  · obtain ⟨index, arguments, rfl⟩ := hi
    exact step_call_effect hs hd h
  · have hne : ∀ index arguments, i ≠ .call index arguments := fun index arguments he => hi ⟨index, arguments, he⟩
    have hg := step_agrees (hs ▸ standard_disciplined) hd
    rw [h] at hg
    generalize hr : carryOut i ((m.recorded i.opcode).leaving rest) = r at hg
    cases hg with
    | refl => exact carryOut_effect hne hr
    | crash m₁ p => cases carryOut_effect hne hr

/-- Every instruction is carried out as a whole and touches nothing but its target. After a fault, the
registers, the memory and the locations are as they were, wherever in the instruction it occurred. An
instruction that succeeds has its own effect on them, with the values from before it as its sources. -/
theorem instruction_atomic (hs : m.syscalls = .standard) :
    (∀ cause m', step m = .error cause m' → Unchanged m m') ∧
    ∀ flow m', step m = .ok flow m' →
      ∃ i rest, Instruction.decode m.ahead = .ok i rest ∧ Effect m i flow m' := by
  constructor
  · intro cause m' h
    exact step_atomic m cause m' h
  · intro flow m' h
    obtain ⟨i, rest, hd⟩ := decodes_of_step hs h
    exact ⟨i, rest, hd, step_effect hs hd h⟩

/-- A register is added to itself and takes the sum. Divided by zero, it keeps what it holds. -/
theorem instruction_atomic_of_own_source :
    (∃ before after, before.syscalls = .standard ∧ step before = .ok .next after ∧
      before.registers.get 0 = .ok (.byte 3) ∧ WritesRegister 0 (.byte 6) before after) ∧
    ∃ before after, before.syscalls = .standard ∧ step before = .error (.nativeDivision .byte) after ∧
      Unchanged before after := by
  have hsum :
      step { code := ⟨[0x01, 0, 0, 0, 0, 0], 6, 0⟩, registers := ⟨#[some (.byte 3)]⟩, memory := .zeroed 0 } =
        .ok .next { code := ⟨[0x01, 0, 0, 0, 0, 0], 6, 6⟩, registers := ⟨#[some (.byte 6)]⟩, memory := .zeroed 0,
                    trace := [(0, .arithmetic .add)] } := rfl
  have hquotient :
      step { code := ⟨[0x04, 0, 0, 1, 1, 0, 0], 7, 0⟩, registers := ⟨#[some (.byte 3)]⟩, memory := .zeroed 0 } =
        .error (.nativeDivision .byte)
          { code := ⟨[0x04, 0, 0, 1, 1, 0, 0], 7, 7⟩, registers := ⟨#[some (.byte 3)]⟩, memory := .zeroed 0,
            trace := [(0, .arithmetic .div)] } := rfl
  refine ⟨⟨_, _, rfl, hsum, rfl, ?_⟩, _, _, rfl, hquotient, (instruction_atomic rfl).1 _ _ hquotient⟩
  obtain ⟨i, rest, hd, he⟩ := (instruction_atomic rfl).2 _ _ hsum
  have hi : Instruction.decode [0x01, 0, 0, 0, 0, 0] =
      .ok (.arithmetic .add (.register 0) (.register 0) 0) [] := rfl
  cases hi.symm.trans hd
  cases he with
  | arithmetic ha hb hv hw =>
    cases ha
    cases hb
    cases hv
    exact hw

end Success

end Machine

end RegisterMachine
