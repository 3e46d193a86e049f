import RegisterMachine.Proofs.DecodedStep
import RegisterMachine.Proofs.ValueMisreads

namespace RegisterMachine

namespace Fault

/-- The faults of a machine that cannot make sense of its code. -/
def isDecoding : Fault → Bool
  | invalidInstruction .. => true
  | endOfStream .. => true
  | truncatedStream .. => true
  | invalidOperandKind .. => true
  | outOfRange .. => true
  | unknownSyscall .. => true
  | _ => false

/-- The fault of a jump without a target. -/
def isUnresolved : Fault → Bool
  | unresolvedLocation _ => true
  | _ => false

/-- The faults of arithmetic. -/
def isArithmetic : Fault → Bool
  | typeMismatch .. => true
  | divisionByZero => true
  | nativeDivision _ => true
  | stringTooLong _ => true
  | _ => false

/-- The faults that come from the values at hand and not from the code. -/
def IsData (cause : Fault) : Prop := cause.isDecoding = false ∧ cause.isUnresolved = false

theorem isData_of_isArithmetic {cause : Fault} (h : cause.isArithmetic = true) : cause.IsData := by
  cases cause with
  | typeMismatch instruction expected actual => exact ⟨rfl, rfl⟩
  | divisionByZero => exact ⟨rfl, rfl⟩
  | nativeDivision kind => exact ⟨rfl, rfl⟩
  | stringTooLong length => exact ⟨rfl, rfl⟩
  | _ => cases h

end Fault

namespace Registers

variable {r : Registers} {index : UInt8} {cause : Fault}

theorem get_eq_error (h : r.get index = .error cause) :
    (cause = .indexOutOfRange index r.count ∧ r.count ≤ index.toNat) ∨
      (cause = .uninitializedRegister index ∧ r.slots[index.toNat]? = some none) := by
  unfold get at h
  split at h
  next hs => cases h; exact .inl ⟨rfl, Array.getElem?_eq_none_iff.mp hs⟩
  next hs => cases h; exact .inr ⟨rfl, hs⟩
  next => cases h

theorem set_eq_error {v : Value} (h : r.set index v = .error cause) :
    cause = .indexOutOfRange index r.count ∧ r.count ≤ index.toNat := by
  unfold set at h
  split at h
  next => cases h
  next hb => cases h; exact ⟨rfl, Nat.le_of_not_lt hb⟩

end Registers

namespace Memory

variable {m : Memory} {address : Nat} {v : Value}

theorem store_eq_ok {m' : Memory} (h : m.store address v = .ok m') :
    address + (Codec.value.encode v).length ≤ m.capacity ∧ m' = m.overwrite address (Codec.value.encode v) := by
  unfold store at h
  split at h
  next => cases h
  next =>
    simp only at h
    split at h
    next hb => cases h; exact ⟨hb, rfl⟩
    next => cases h

theorem store_eq_error {cause : Fault} (h : m.store address v = .error cause) :
    (∃ length, v.tooLong? = some length ∧ cause = .stringTooLong length) ∨
      (cause = .addressOutOfRange address (Codec.value.encode v).length m.capacity ∧
        m.capacity < address + (Codec.value.encode v).length) := by
  unfold store at h
  split at h
  next length hl => cases h; exact .inl ⟨length, hl, rfl⟩
  next =>
    simp only at h
    split at h
    next => cases h
    next hb => cases h; exact .inr ⟨rfl, Nat.lt_of_not_le hb⟩

end Memory

theorem registers_get_fault {r : Registers} {index : UInt8} {cause : Fault}
    (h : r.get index = .error cause) : cause.IsData := by
  rcases Registers.get_eq_error h with ⟨rfl, -⟩ | ⟨rfl, -⟩
  · exact ⟨rfl, rfl⟩
  · exact ⟨rfl, rfl⟩

theorem registers_set_fault {r : Registers} {index : UInt8} {v : Value} {cause : Fault}
    (h : r.set index v = .error cause) : cause.IsData := by
  obtain ⟨rfl, -⟩ := Registers.set_eq_error h
  exact ⟨rfl, rfl⟩

theorem memory_store_fault {m : Memory} {address : Nat} {v : Value} {cause : Fault}
    (h : m.store address v = .error cause) : cause.IsData := by
  rcases Memory.store_eq_error h with ⟨length, -, rfl⟩ | ⟨rfl, -⟩
  · exact ⟨rfl, rfl⟩
  · exact ⟨rfl, rfl⟩

/-- A value that the memory cuts short is reported as an address, so reading memory never looks
like reading code. -/
theorem memory_load_fault {m : Memory} {address : Nat} {cause : Fault}
    (h : m.load address = .error cause) : cause.IsData := by
  rcases Memory.load_eq_error h with ⟨width, rfl, -⟩ | ⟨e, he, rfl⟩
  · exact ⟨rfl, rfl⟩
  · cases e with
    | unexpectedEnd => cases he
    | truncated expected remaining => cases he
    | _ => exact ⟨rfl, rfl⟩

theorem promote_cause {op : ArithmeticOp} {a b : Value} {cause : Fault}
    (h : Value.promote op a b = .error cause) : cause.isArithmetic = true := by
  unfold Value.promote at h
  split at h
  next => cases h; rfl
  next => cases h; rfl
  next => split at h <;> cases h

theorem arithmetic_cause {op : ArithmeticOp} {a b : Value} {cause : Fault}
    (h : op.apply a b = .error cause) : cause.isArithmetic = true := by
  cases op with
  | add =>
    simp only [ArithmeticOp.apply, Value.add] at h
    split at h
    next =>
      unfold Value.ofText at h
      split at h <;> cases h
      rfl
    next =>
      split at h
      next fault hp => cases h; exact promote_cause hp
      all_goals cases h
  | sub =>
    simp only [ArithmeticOp.apply, Value.sub] at h
    split at h
    next fault hp => cases h; exact promote_cause hp
    all_goals cases h
  | mul =>
    simp only [ArithmeticOp.apply, Value.mul] at h
    split at h
    next fault hp => cases h; exact promote_cause hp
    all_goals cases h
  | div =>
    simp only [ArithmeticOp.apply, Value.div] at h
    split at h
    next fault hp => cases h; exact promote_cause hp
    next numbers hp =>
      split at h
      next => cases h; rfl
      next =>
        split at h
        next => cases h
        next => cases h
        next => split at h <;> cases h; rfl
        next => split at h <;> cases h; rfl

theorem arithmetic_fault {op : ArithmeticOp} {a b : Value} {cause : Fault}
    (h : op.apply a b = .error cause) : cause.IsData :=
  Fault.isData_of_isArithmetic (arithmetic_cause h)

namespace Machine

/-- Every fault of the action is of the given sort. -/
def Raises {α : Type} (P : Fault → Prop) (x : Action α) : Prop :=
  ∀ m cause m', x m = .error cause m' → P cause

theorem Raises.bind {α β : Type} {P : Fault → Prop} {x : Action α} {f : α → Action β} (hx : Raises P x)
    (hf : ∀ a, Raises P (f a)) : Raises P (x >>= f) := by
  intro m cause m' h
  obtain h | ⟨a, u, -, h⟩ := bind_eq_error.mp h
  · exact hx _ _ _ h
  · exact hf a _ _ _ h

theorem raises_pure {α : Type} {P : Fault → Prop} (x : α) : Raises P (pure x) := by
  intro m cause m' h
  cases h

theorem raises_throw {α : Type} {P : Fault → Prop} {cause : Fault} (h : P cause) :
    Raises P (throw cause : Action α) := by
  intro m c m' he
  cases he
  exact h

theorem raises_asking {α : Type} {P : Fault → Prop} {question : Machine → Except Fault α}
    (hq : ∀ m cause, question m = .error cause → P cause) : Raises P (asking question) := by
  intro m cause m' h
  unfold asking at h
  split at h
  next => cases h
  next c hc => cases h; exact hq m _ hc

theorem changing_eq_error {α : Type} {part : Machine → Except Fault α} {put : Machine → α → Machine}
    {m m' : Machine} {cause : Fault} (h : changing (fun m => (part m).map (put m)) m = .error cause m') :
    part m = .error cause := by
  unfold changing at h
  cases hp : part m with
  | ok a => simp [hp, Except.map] at h
  | error c =>
    simp only [hp, Except.map] at h
    cases h
    rfl

theorem operandValue_raises (o : Operand) : Raises Fault.IsData (operandValue o) := by
  apply raises_asking
  intro m cause h
  cases o with
  | register index => exact registers_get_fault h
  | value v => cases h

theorem setRegister_raises (index : UInt8) (v : Value) : Raises Fault.IsData (setRegister index v) :=
  fun _ _ _ h => registers_set_fault (changing_eq_error h)

theorem storeValue_raises (address : UInt8) (v : Value) : Raises Fault.IsData (storeValue address v) :=
  fun _ _ _ h => memory_store_fault (changing_eq_error h)

theorem writeLine_eq_error {line : String} {m m' : Machine} {cause : Fault}
    (h : writeLine line m = .error cause m') : ∃ reason output, cause = .output reason ∧ m' = { m with output } := by
  unfold writeLine Sink.writeLine at h
  simp only at h
  split at h
  next => cases h
  next c output hw =>
    cases h
    split at hw
    next => cases hw; exact ⟨_, _, rfl, rfl⟩
    next => split at hw <;> cases hw; exact ⟨_, _, rfl, rfl⟩

theorem writeLine_raises (line : String) : Raises Fault.IsData (writeLine line) := by
  intro m cause m' h
  obtain ⟨reason, output, rfl, -⟩ := writeLine_eq_error h
  exact ⟨rfl, rfl⟩

end Machine

end RegisterMachine
