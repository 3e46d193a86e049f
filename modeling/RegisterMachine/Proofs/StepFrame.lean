import RegisterMachine.Proofs.DecodedStep

namespace RegisterMachine

namespace Machine

/-- The machine that an action leaves behind, whether it succeeds or fails. -/
def finalOf {α : Type} : EStateM.Result Fault Machine α → Machine
  | .ok _ m => m
  | .error _ m => m

/-- Every machine is so related to the one that the action leaves behind. -/
def Respects {α : Type} (R : Machine → Machine → Prop) (x : Action α) : Prop := ∀ m, R m (finalOf (x m))

/-- A relation that holds along a sequence of actions if each of them respects it. -/
structure Lasting (R : Machine → Machine → Prop) : Prop where
  refl : ∀ m, R m m
  trans : ∀ {m₁ m₂ m₃}, R m₁ m₂ → R m₂ m₃ → R m₁ m₃

section Sequences

variable {R : Machine → Machine → Prop}

theorem Respects.bind {α β : Type} {x : Action α} {f : α → Action β} (hR : Lasting R) (hx : Respects R x)
    (hf : ∀ a, Respects R (f a)) : Respects R (x >>= f) := by
  intro m
  have hm := hx m
  cases hr : x m with
  | ok a m' =>
    rw [hr] at hm
    rw [bind_of_ok hr]
    exact hR.trans hm (hf a m')
  | error cause m' =>
    rw [hr] at hm
    rw [bind_of_error hr]
    exact hm

theorem respects_asking {α : Type} (hR : Lasting R) (question : Machine → Except Fault α) :
    Respects R (asking question) := by
  intro m
  cases h : question m with
  | ok x => rw [asking_of_ok m h]; exact hR.refl m
  | error cause => rw [asking_of_error m h]; exact hR.refl m

/-- A system call reads operands and prints lines, and touches nothing else. -/
theorem respects_perform (hR : Lasting R) (ho : Respects R readOperand)
    (hw : ∀ line, Respects R (writeLine line)) (script : Script) : Respects R (perform script) := by
  induction script with
  | done => exact hR.refl
  | fail cause => exact hR.refl
  | crash => exact hR.refl
  | operand next ih =>
    intro m
    have hr := ho m
    simp only [perform]
    cases h : readOperand m with
    | ok v m' => rw [h] at hr; exact hR.trans hr (ih _ m')
    | error cause m' => rw [h] at hr; exact hR.trans hr (ih _ m')
  | line text next ih =>
    intro m
    have hl := hw text m
    simp only [perform]
    cases h : writeLine text m with
    | ok v m' => rw [h] at hl; exact hR.trans hl (ih _ m')
    | error cause m' => rw [h] at hl; exact hR.trans hl (ih _ m')
  | register index next ih => exact fun m => ih _ m
  | run next ih =>
    intro m
    simp only [perform]
    cases m.status.begin with
    | ok status => exact hR.refl m
    | error cause => exact ih _ m
  | observe next ih => exact fun m => ih _ _ m
  | onWorker next ih => exact fun m => ih _ m

end Sequences

theorem Respects.mono {α : Type} {R S : Machine → Machine → Prop} {x : Action α} (hx : Respects R x)
    (h : ∀ m m', R m m' → S m m') : Respects S x :=
  fun m => h _ _ (hx m)

def OnlyMoved (m m' : Machine) : Prop := ∃ p, m' = m.movedTo p

theorem onlyMoved_lasting : Lasting OnlyMoved where
  refl m := ⟨m.code.cursor, rfl⟩
  trans := by
    intro m₁ m₂ m₃ h h'
    obtain ⟨p, rfl⟩ := h
    obtain ⟨q, rfl⟩ := h'
    exact ⟨q, rfl⟩

theorem readByte_moves : Respects OnlyMoved readByte := by
  intro m
  cases ha : m.ahead with
  | nil => rw [readByte_of_ahead_nil ha]; exact onlyMoved_lasting.refl m
  | cons b rest => rw [readByte_of_ahead ha]; exact ⟨_, rfl⟩

theorem readValue_moves : Respects OnlyMoved (reading CodeReader.value) := by
  intro m
  simp only [reading, CodeReader.value, CodeReader.decode]
  by_cases hc : m.code.length < m.code.cursor
  · simp only [if_pos hc]
    exact onlyMoved_lasting.refl m
  · simp only [if_neg hc]
    cases Codec.value.decode (m.code.data.drop m.code.cursor) with
    | ok v rest => exact ⟨_, rfl⟩
    | error e rest => exact onlyMoved_lasting.refl m

theorem readOperand_moves : Respects OnlyMoved readOperand := by
  have hget : Respects OnlyMoved get := onlyMoved_lasting.refl
  apply hget.bind onlyMoved_lasting
  intro m
  apply readByte_moves.bind onlyMoved_lasting
  intro kind
  cases OperandKind.ofCode? kind with
  | none => exact onlyMoved_lasting.refl
  | some k =>
    cases k with
    | register => exact readByte_moves.bind onlyMoved_lasting fun _ => respects_asking onlyMoved_lasting _
    | value => exact readValue_moves

/-- What stays as it is while an instruction is carried out. -/
structure Kept (m m' : Machine) : Prop where
  data : m'.code.data = m.code.data
  capacity : m'.code.capacity = m.code.capacity
  syscalls : m'.syscalls = m.syscalls
  trace : m'.trace = m.trace

theorem kept_lasting : Lasting Kept where
  refl _ := ⟨rfl, rfl, rfl, rfl⟩
  trans h h' := ⟨h'.data.trans h.data, h'.capacity.trans h.capacity, h'.syscalls.trans h.syscalls,
    h'.trace.trans h.trace⟩

theorem OnlyMoved.kept (m m' : Machine) (h : OnlyMoved m m') : Kept m m' := by
  obtain ⟨p, rfl⟩ := h
  exact ⟨rfl, rfl, rfl, rfl⟩

theorem readByte_keeps : Respects Kept readByte := readByte_moves.mono OnlyMoved.kept

theorem readOperand_keeps : Respects Kept readOperand := readOperand_moves.mono OnlyMoved.kept

theorem setRegister_keeps (index : UInt8) (v : Value) : Respects Kept (setRegister index v) := by
  intro m
  simp only [setRegister, changing]
  cases m.registers.set index v <;> exact ⟨rfl, rfl, rfl, rfl⟩

theorem storeValue_keeps (address : UInt8) (v : Value) : Respects Kept (storeValue address v) := by
  intro m
  simp only [storeValue, changing]
  cases m.memory.store address.toNat v <;> exact ⟨rfl, rfl, rfl, rfl⟩

theorem writeLine_keeps (line : String) : Respects Kept (writeLine line) := by
  intro m
  simp only [writeLine]
  cases Sink.writeLine line m.output <;> exact ⟨rfl, rfl, rfl, rfl⟩

section Jump

variable {id : UInt8} {m : Machine}

theorem jumpTo_of_none (h : m.locations.find? id = none) :
    jumpTo id m = .error (.unresolvedLocation id) m := by
  have hg : (get : Action Machine) m = .ok m m := rfl
  unfold jumpTo
  rw [bind_of_ok hg, h]
  rfl

theorem jumpTo_of_known {p : Nat} (h : m.locations.find? id = some p) :
    jumpTo id m = reading (CodeReader.seek p) m := by
  have hg : (get : Action Machine) m = .ok m m := rfl
  unfold jumpTo
  rw [bind_of_ok hg, h]

theorem jumpTo_of_some {p : Nat} (h : m.locations.find? id = some p) (hp : p ≤ m.code.capacity) :
    jumpTo id m = .ok () (m.movedTo p) := by
  rw [jumpTo_of_known h]
  simp only [reading, CodeReader.seek, if_neg (Nat.not_lt.mpr hp)]
  rfl

theorem jumpTo_of_beyond {p : Nat} (h : m.locations.find? id = some p) (hp : m.code.capacity < p) :
    jumpTo id m = .error (.outOfRange p m.code.capacity) m := by
  rw [jumpTo_of_known h]
  simp only [reading, CodeReader.seek, if_pos hp]

end Jump

theorem jumpTo_moves (id : UInt8) : Respects OnlyMoved (jumpTo id) := by
  intro m
  cases h : m.locations.find? id with
  | none =>
    rw [jumpTo_of_none h]
    exact onlyMoved_lasting.refl m
  | some p =>
    rcases Nat.lt_or_ge m.code.capacity p with hp | hp
    · rw [jumpTo_of_beyond h hp]
      exact onlyMoved_lasting.refl m
    · rw [jumpTo_of_some h hp]
      exact ⟨p, rfl⟩

/-- No instruction touches the code, the system calls or the record of fetches. -/
theorem execute_keeps (op : Opcode) : Respects Kept (execute op) := by
  have hpure : ∀ flow, Respects Kept (pure flow : Action Flow) := fun _ => kept_lasting.refl
  have hthrow : ∀ cause, Respects Kept (throw cause : Action Flow) := fun _ => kept_lasting.refl
  have hjump : ∀ id, Respects Kept (jumpTo id) := fun id => (jumpTo_moves id).mono OnlyMoved.kept
  have hmark : ∀ id, Respects Kept (markHere id) := fun _ _ => ⟨rfl, rfl, rfl, rfl⟩
  cases op with
  | load =>
    exact readByte_keeps.bind kept_lasting fun target => readOperand_keeps.bind kept_lasting fun v =>
      (setRegister_keeps target v).bind kept_lasting fun _ => hpure _
  | store =>
    exact readByte_keeps.bind kept_lasting fun address => readOperand_keeps.bind kept_lasting fun v =>
      (storeValue_keeps address v).bind kept_lasting fun _ => hpure _
  | fetch =>
    exact readByte_keeps.bind kept_lasting fun address => readByte_keeps.bind kept_lasting fun target =>
      (respects_asking kept_lasting _).bind kept_lasting fun v =>
        (setRegister_keeps target v).bind kept_lasting fun _ => hpure _
  | arithmetic op =>
    exact readOperand_keeps.bind kept_lasting fun a => readOperand_keeps.bind kept_lasting fun b =>
      readByte_keeps.bind kept_lasting fun target => (respects_asking kept_lasting _).bind kept_lasting fun v =>
        (setRegister_keeps target v).bind kept_lasting fun _ => hpure _
  | halt =>
    apply readOperand_keeps.bind kept_lasting
    intro v
    split
    next => exact hpure _
    next => exact hthrow _
  | branch test =>
    apply readOperand_keeps.bind kept_lasting
    intro v
    apply readByte_keeps.bind kept_lasting
    intro id
    split
    next => exact (hjump id).bind kept_lasting fun _ => hpure _
    next => exact hpure _
    next => exact hthrow _
  | jump => exact readByte_keeps.bind kept_lasting fun id => (hjump id).bind kept_lasting fun _ => hpure _
  | mark => exact readByte_keeps.bind kept_lasting fun id => (hmark id).bind kept_lasting fun _ => hpure _
  | call =>
    exact readByte_keeps.bind kept_lasting fun index => readByte_keeps.bind kept_lasting fun count =>
      (respects_asking kept_lasting _).bind kept_lasting fun entry =>
        respects_perform kept_lasting readOperand_keeps writeLine_keeps _

theorem perform_locations (script : Script) :
    Respects (fun m m' => m'.locations = m.locations) (perform script) := by
  apply respects_perform
  · exact ⟨fun _ => rfl, fun h h' => h'.trans h⟩
  · refine readOperand_moves.mono ?_
    intro m m' h
    obtain ⟨p, rfl⟩ := h
    rfl
  · intro line m
    simp only [writeLine]
    cases Sink.writeLine line m.output <;> rfl

end Machine

end RegisterMachine
