import RegisterMachine.Proofs.SourceInterpreter
import RegisterMachine.Proofs.Synchronization

namespace RegisterMachine

/-- What a machine and a program in its source form have in common while they run side by side. The
machine knows the locations of the labels passed by the number of instructions before them. -/
structure Shared (program : List (Instruction String String)) (encoded : List (Instruction UInt8 UInt8))
    (m : Machine) (s : Interpreter) : Prop where
  registers : m.registers = s.registers
  memory : m.memory = s.memory
  output : m.output = s.output
  position : m.code.cursor = offsetOf encoded s.index
  locations : ∀ id, m.locations.find? id =
    (s.passed.find? fun k => instructionsBefore program k % 256 == id.toNat).map fun k => offsetOf encoded (k + 1)

/-- Two results with the same answer or the same fault, on states that are so related. -/
inductive Matched {α : Type} (R : Machine → Interpreter → Prop) :
    EStateM.Result Fault Machine α → EStateM.Result Fault Interpreter α → Prop
  | ok {a : α} {m : Machine} {s : Interpreter} : R m s → Matched R (.ok a m) (.ok a s)
  | error {cause : Fault} {m : Machine} {s : Interpreter} : R m s → Matched R (.error cause m) (.error cause s)

theorem Matched.bind {α β : Type} {R : Machine → Interpreter → Prop} {x : Machine.Action α}
    {y : Interpreter.Action α} {f : α → Machine.Action β} {g : α → Interpreter.Action β} {m : Machine}
    {s : Interpreter} (hx : Matched R (x m) (y s))
    (hf : ∀ a m' s', x m = .ok a m' → y s = .ok a s' → R m' s' → Matched R (f a m') (g a s')) :
    Matched R ((x >>= f) m) ((y >>= g) s) := by
  cases hr : x m with
  | ok a m' =>
    cases hq : y s with
    | ok b s' =>
      rw [hr, hq] at hx
      cases hx with
      | ok hR =>
        rw [bind_of_ok hr, bind_of_ok hq]
        exact hf a m' s' hr hq hR
    | error cause s' =>
      rw [hr, hq] at hx
      cases hx
  | error cause m' =>
    cases hq : y s with
    | ok b s' =>
      rw [hr, hq] at hx
      cases hx
    | error cause' s' =>
      rw [hr, hq] at hx
      cases hx with
      | error hR =>
        rw [bind_of_error hr, bind_of_error hq]
        exact .error hR

section Actions

variable {program : List (Instruction String String)} {encoded : List (Instruction UInt8 UInt8)}
  {m : Machine} {s : Interpreter}

theorem valueOf_matched (h : Shared program encoded m s) (o : Operand) :
    Matched (Shared program encoded) (Machine.operandValue o m) (Interpreter.valueOf o s) := by
  simp only [Machine.operandValue, Machine.asking, Interpreter.valueOf, h.registers]
  cases o.valueIn s.registers with
  | ok v => exact .ok h
  | error cause => exact .error h

theorem setRegister_matched (h : Shared program encoded m s) (index : UInt8) (v : Value) :
    Matched (Shared program encoded) (Machine.setRegister index v m) (Interpreter.setRegister index v s) := by
  simp only [Machine.setRegister, Machine.changing, Interpreter.setRegister, h.registers]
  cases s.registers.set index v with
  | ok registers => exact .ok ⟨rfl, h.memory, h.output, h.position, h.locations⟩
  | error cause => exact .error h

theorem storeValue_matched (h : Shared program encoded m s) (address : UInt8) (v : Value) :
    Matched (Shared program encoded) (Machine.storeValue address v m) (Interpreter.storeValue address v s) := by
  simp only [Machine.storeValue, Machine.changing, Interpreter.storeValue, h.memory]
  cases s.memory.store address.toNat v with
  | ok memory => exact .ok ⟨h.registers, rfl, h.output, h.position, h.locations⟩
  | error cause => exact .error h

theorem fetchValue_matched (h : Shared program encoded m s) (address : UInt8) :
    Matched (Shared program encoded) (Machine.fetchValue address m) (Interpreter.fetchValue address s) := by
  simp only [Machine.fetchValue, Machine.asking, Interpreter.fetchValue, h.memory]
  cases s.memory.load address.toNat with
  | ok v => exact .ok h
  | error cause => exact .error h

theorem writeLine_matched (h : Shared program encoded m s) (line : String) :
    Matched (Shared program encoded) (Machine.writeLine line m) (Interpreter.writeLine line s) := by
  simp only [Machine.writeLine, Interpreter.writeLine, h.output]
  cases Sink.writeLine line s.output with
  | ok u output => exact .ok ⟨h.registers, h.memory, rfl, h.position, h.locations⟩
  | error cause output => exact .error ⟨h.registers, h.memory, rfl, h.position, h.locations⟩

/-- The machine jumps to the line that the program goes on with, where no further label stands before it. -/
theorem jumpTo_matched {name : String} {id : UInt8} (h : Shared program encoded m s)
    (hid : id = UInt8.ofNat (labelCount program name)) (hroom : ∀ k, offsetOf encoded k ≤ m.code.capacity)
    (hland : ∀ count k, s.passed.find? (fun k => instructionsBefore program k % 256 == count) = some k →
      lineAfter program k = k + 1) :
    Matched (Shared program encoded) (Machine.jumpTo id m) (Interpreter.jumpTo program name s) := by
  have hn : id.toNat = labelCount program name % 256 := by
    rw [hid, UInt8.toNat_ofNat']
  have hl := h.locations id
  rw [hn] at hl
  simp only [Interpreter.jumpTo]
  cases hf : s.passed.find? fun k => instructionsBefore program k % 256 == labelCount program name % 256 with
  | none =>
    rw [hf] at hl
    rw [Machine.jumpTo_of_none hl, hid]
    exact .error h
  | some k =>
    rw [hf] at hl
    have hk := hland _ k hf
    rw [Machine.jumpTo_of_some hl (hroom _)]
    exact .ok ⟨h.registers, h.memory, h.output, by rw [hk]; rfl, h.locations⟩

theorem supplied_fail (answers : List (Except Fault Value)) (cause : Fault) :
    Script.supplied answers (.fail cause) = .fail cause := by
  cases answers <;> rfl

theorem printLine_matched {arguments : List Operand} (h : Shared program encoded m s) (hn : arguments.length ≤ 255) :
    Matched (Shared program encoded)
      (Machine.perform ((Script.printLine (UInt8.ofNat arguments.length)).supplied
        (arguments.map (Operand.valueIn m.registers))) m)
      (Interpreter.printLine arguments s) := by
  by_cases hl : arguments.length = 1
  · obtain ⟨argument, rfl⟩ := List.length_eq_one_iff.mp hl
    change Matched _ (Machine.perform (Script.supplied [argument.valueIn m.registers]
      (Script.withOperand fun v => Script.printing v.text)) m) _
    simp only [Script.withOperand, Script.supplied, Interpreter.printLine]
    cases hv : argument.valueIn m.registers with
    | error cause =>
      rw [h.registers] at hv
      have hs : Interpreter.valueOf argument s = .error cause s := by simp only [Interpreter.valueOf, hv]
      rw [bind_of_error hs]
      exact .error h
    | ok v =>
      rw [h.registers] at hv
      have hs : Interpreter.valueOf argument s = .ok v s := by simp only [Interpreter.valueOf, hv]
      rw [bind_of_ok hs]
      change Matched _ (Machine.perform (Script.printing v.text) m) _
      rw [perform_printing]
      exact (writeLine_matched h v.text).bind fun _ m' s' _ _ h' => .ok h'
  · have hc : UInt8.ofNat arguments.length ≠ 1 := by
      intro he
      have ht := congrArg UInt8.toNat he
      rw [UInt8.toNat_ofNat'] at ht
      change arguments.length % 256 = 1 at ht
      omega
    have ht : (UInt8.ofNat arguments.length).toNat = arguments.length := by
      rw [UInt8.toNat_ofNat']
      omega
    have hs : Interpreter.printLine arguments s = .error (.arityMismatch "PRINTLN" 1 arguments.length) s := by
      cases arguments with
      | nil => rfl
      | cons a rest =>
        cases rest with
        | nil => exact (hl rfl).elim
        | cons b rest => rfl
    rw [Script.printLine, if_neg hc, supplied_fail, ht, hs]
    exact .error h

end Actions

theorem location_of_scope {table : SyscallTable} {program : List (Instruction String String)} {name : String}
    {id : UInt8} (h : (scopeOf table program).location? name = some id) :
    id = UInt8.ofNat (labelCount program name) := by
  obtain ⟨k, hk, rfl⟩ := Option.map_eq_some_iff.mp h
  rw [labelCount, hk]
  rfl

theorem standard_of_indexOf? {name : String} {index : UInt8} (h : SyscallTable.standard.indexOf? name = some index) :
    name = "PRINTLN" ∧ SyscallTable.standard.get index = .ok ⟨"PRINTLN", Script.printLine⟩ := by
  obtain ⟨entry, hf, hg⟩ := get_of_indexOf? h
  have he := Machine.get_standard hg
  have hn := List.find?_some hf
  rw [he] at hg hn
  exact ⟨(beq_iff_eq.mp hn).symm, hg⟩

section Line

variable {program : List (Instruction String String)} {encoded : List (Instruction UInt8 UInt8)}
  {written : Instruction String String} {i : Instruction UInt8 UInt8} {line : Nat} {m : Machine} {s : Interpreter}

theorem mark_matched {name : String} {id : UInt8} (h : Shared program encoded m s) (hs : s.index = line + 1)
    (hid : id.toNat = instructionsBefore program line % 256) :
    Matched (Shared program encoded) (Machine.carryOut (.mark id) m)
      (Interpreter.carryOut program line (.mark name) s) := by
  refine .ok ⟨h.registers, h.memory, h.output, h.position, ?_⟩
  intro other
  have hp : m.code.cursor = offsetOf encoded (line + 1) := by rw [h.position, hs]
  change (m.locations.insert id m.code.cursor).find? other =
    ((line :: s.passed).find? fun k => instructionsBefore program k % 256 == other.toNat).map fun k =>
      offsetOf encoded (k + 1)
  by_cases he : other = id
  · subst he
    rw [Locations.find?_insert_self, List.find?_cons_of_pos (by simp [hid]), hp]
    rfl
  · have hne : instructionsBefore program line % 256 ≠ other.toNat := by
      intro hn
      rw [← hid] at hn
      exact he (UInt8.toNat_inj.mp hn).symm
    rw [Locations.find?_insert_of_ne _ _ he, List.find?_cons_of_neg (by simpa using hne), h.locations]

/-- A line and the instruction that it is assembled to do the same. -/
theorem carryOut_matched (hl : Linked .standard program encoded) (hw : program[line]? = some written)
    (hr : written.resolve (scopeOf .standard program) = some i) (he : i.Encodable)
    (h : Shared program encoded m s) (ht : m.syscalls = .standard) (hs : s.index = line + 1)
    (hroom : ∀ k, offsetOf encoded k ≤ m.code.capacity)
    (hland : written.label? = none → ∀ count k,
      s.passed.find? (fun k => instructionsBefore program k % 256 == count) = some k → lineAfter program k = k + 1) :
    Matched (Shared program encoded) (Machine.carryOut i m) (Interpreter.carryOut program line written s) := by
  cases written with
  | load target source =>
    cases hr
    exact (valueOf_matched h source).bind fun v m' s' _ _ h' =>
      (setRegister_matched h' target v).bind fun _ m'' s'' _ _ h'' => .ok h''
  | store address source =>
    cases hr
    exact (valueOf_matched h source).bind fun v m' s' _ _ h' =>
      (storeValue_matched h' address v).bind fun _ m'' s'' _ _ h'' => .ok h''
  | fetch address target =>
    cases hr
    exact (fetchValue_matched h address).bind fun v m' s' _ _ h' =>
      (setRegister_matched h' target v).bind fun _ m'' s'' _ _ h'' => .ok h''
  | arithmetic op left right target =>
    cases hr
    apply (valueOf_matched h left).bind
    intro a m₁ s₁ _ _ h₁
    apply (valueOf_matched h₁ right).bind
    intro b m₂ s₂ _ _ h₂
    cases op.apply a b with
    | error cause => exact .error h₂
    | ok v => exact (setRegister_matched h₂ target v).bind fun _ m₃ s₃ _ _ h₃ => .ok h₃
  | halt status =>
    cases hr
    apply (valueOf_matched h status).bind
    intro v m₁ s₁ _ _ h₁
    cases v.status? with
    | some code => exact .ok h₁
    | none => exact .error h₁
  | branch test condition name =>
    obtain ⟨id, hid, rfl⟩ := Option.map_eq_some_iff.mp hr
    apply (valueOf_matched h condition).bind
    intro v m₁ s₁ hm hv h₁
    obtain ⟨-, rfl⟩ := Machine.asking_eq_ok hm
    have hp := Interpreter.valueOf_keeps condition s v s₁ hv
    cases test.holds? v with
    | none => exact .error h₁
    | some taken =>
      cases taken with
      | false => exact .ok h₁
      | true =>
        have hj := jumpTo_matched h₁ (location_of_scope hid) hroom (by rw [hp]; exact hland rfl)
        exact hj.bind fun _ m₂ s₂ _ _ h₂ => .ok h₂
  | jump name =>
    obtain ⟨id, hid, rfl⟩ := Option.map_eq_some_iff.mp hr
    exact (jumpTo_matched h (location_of_scope hid) hroom (hland rfl)).bind fun _ m₁ s₁ _ _ h₁ => .ok h₁
  | mark name =>
    obtain ⟨id, hid, rfl⟩ := Option.map_eq_some_iff.mp hr
    apply mark_matched h hs
    rw [location_of_scope hid, labelCount, hl.declared line name hw, UInt8.toNat_ofNat']
    rfl
  | call name arguments =>
    obtain ⟨index, hx, rfl⟩ := Option.map_eq_some_iff.mp hr
    obtain ⟨rfl, hg⟩ := standard_of_indexOf? hx
    rw [Machine.carryOut_call_eq, ht, hg]
    exact printLine_matched h he.1

end Line

end RegisterMachine
