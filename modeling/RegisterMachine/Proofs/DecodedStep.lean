import RegisterMachine.Proofs.SuppliedScript

namespace RegisterMachine

theorem bind_congr_left {ε σ α β : Type} {x y : EStateM ε σ α} {f : α → EStateM ε σ β} {s t : σ}
    (h : x s = y t) : (x >>= f) s = (y >>= f) t := by
  change EStateM.bind x f s = EStateM.bind y f t
  simp only [EStateM.bind, h]

namespace Machine

/-- Carries out an instruction whose operands have been read. -/
def carryOut : Instruction UInt8 UInt8 → Action Flow
  | .load target source => do
    let v ← operandValue source
    setRegister target v
    return .next
  | .store address source => do
    let v ← operandValue source
    storeValue address v
    return .next
  | .fetch address target => do
    let v ← fetchValue address
    setRegister target v
    return .next
  | .arithmetic op left right target => do
    let a ← operandValue left
    let b ← operandValue right
    let v ← asking fun _ => op.apply a b
    setRegister target v
    return .next
  | .halt status => do
    let v ← operandValue status
    match v.status? with
    | some code => return .halt code
    | none => throw (.typeMismatch .halt .status v.kind)
  | .branch test condition id => do
    let v ← operandValue condition
    match test.holds? v with
    | some true =>
      jumpTo id
      return .next
    | some false => return .next
    | none => throw (.typeMismatch (.branch test) test.demand v.kind)
  | .jump id => do
    jumpTo id
    return .next
  | .mark id => do
    markHere id
    return .next
  | .call index arguments => do
    let entry ← asking fun m => m.syscalls.get index
    let registers := (← get).registers
    perform ((entry.script (UInt8.ofNat arguments.length)).supplied
      (arguments.map (Operand.valueIn registers)))

theorem asking_of_ok {α : Type} {question : Machine → Except Fault α} (m : Machine) {x : α}
    (h : question m = .ok x) : asking question m = .ok x m := by
  simp only [asking, h]

theorem asking_of_error {α : Type} {question : Machine → Except Fault α} (m : Machine) {cause : Fault}
    (h : question m = .error cause) : asking question m = .error cause m := by
  simp only [asking, h]

theorem operandValue_of_ok (m : Machine) {o : Operand} {v : Value} (h : o.valueIn m.registers = .ok v) :
    operandValue o m = .ok v m :=
  asking_of_ok m h

theorem operandValue_of_error (m : Machine) {o : Operand} {cause : Fault}
    (h : o.valueIn m.registers = .error cause) : operandValue o m = .error cause m :=
  asking_of_error m h

section Execute

variable {m : Machine} {rest : List UInt8}

/-- An operand may be read from the code or taken as it stands. If that fails, what follows is not looked at. -/
theorem readOperand_bind_agrees {o : Operand} {input : List UInt8} {f g : Value → Action Flow} (ho : o.Fits)
    (ha : m.ahead = o.encode ++ input) (hfg : ∀ v, Agree (f v (m.leaving input)) (g v (m.leaving rest))) :
    Agree ((readOperand >>= f) m) ((operandValue o >>= g) (m.leaving rest)) := by
  rw [bind_congr_left (readOperand_of_ahead ho ha)]
  cases hv : o.valueIn m.registers with
  | error cause =>
    have hs : ∀ r, operandValue o (m.leaving r) = .error cause (m.leaving r) :=
      fun r => operandValue_of_error (m.leaving r) hv
    rw [bind_of_error (hs input), bind_of_error (hs rest)]
    exact .error cause (m.leaving rest) _
  | ok v =>
    have hs : ∀ r, operandValue o (m.leaving r) = .ok v (m.leaving r) :=
      fun r => operandValue_of_ok (m.leaving r) hv
    rw [bind_of_ok (hs input), bind_of_ok (hs rest)]
    exact hfg v

theorem execute_arithmetic_agrees {op : ArithmeticOp} {left right : Operand} {target : UInt8}
    (hl : left.Fits) (hr : right.Fits)
    (ha : m.ahead = left.encode ++ (right.encode ++ target :: rest)) :
    Agree (execute (.arithmetic op) m) (carryOut (.arithmetic op left right target) (m.leaving rest)) := by
  simp only [execute, carryOut]
  apply readOperand_bind_agrees hl ha
  intro a
  have ha' := ahead_leaving ha
  apply readOperand_bind_agrees (m := m.leaving _) hr ha'
  intro b
  rw [bind_of_ok (readByte_of_ahead (ahead_leaving ha'))]
  exact .refl _

theorem execute_branch_agrees {test : Test} {condition : Operand} {id : UInt8} (hc : condition.Fits)
    (ha : m.ahead = condition.encode ++ id :: rest) :
    Agree (execute (.branch test) m) (carryOut (.branch test condition id) (m.leaving rest)) := by
  simp only [execute, carryOut]
  apply readOperand_bind_agrees hc ha
  intro v
  rw [bind_of_ok (readByte_of_ahead (ahead_leaving ha))]
  exact .refl _

theorem execute_call_eq {index count : UInt8} {input : List UInt8} (ha : m.ahead = index :: count :: input) :
    execute .call m =
      match m.syscalls.get index with
      | .ok entry => perform (entry.script count) (m.leaving input)
      | .error cause => .error cause (m.leaving input) := by
  have ha' : (m.leaving (count :: input)).ahead = count :: input :=
    ahead_leaving (show m.ahead = [index] ++ (count :: input) from ha)
  simp only [execute]
  rw [bind_of_ok (readByte_of_ahead ha), bind_of_ok (readByte_of_ahead ha')]
  change (asking (fun m => m.syscalls.get index) >>= fun entry => perform (entry.script count))
    (m.leaving input) = _
  cases hg : m.syscalls.get index with
  | ok entry =>
    rw [bind_of_ok (asking_of_ok (m.leaving input) hg)]
  | error cause =>
    rw [bind_of_error (asking_of_error (m.leaving input) hg)]

theorem carryOut_call_eq (m : Machine) (index : UInt8) (arguments : List Operand) :
    carryOut (.call index arguments) m =
      match m.syscalls.get index with
      | .ok entry => perform ((entry.script (UInt8.ofNat arguments.length)).supplied
          (arguments.map (Operand.valueIn m.registers))) m
      | .error cause => .error cause m := by
  simp only [carryOut]
  cases hg : m.syscalls.get index with
  | ok entry =>
    rw [bind_of_ok (asking_of_ok m hg)]
    rfl
  | error cause => rw [bind_of_error (asking_of_error m hg)]

theorem mem_of_get {t : SyscallTable} {index : UInt8} {entry : Syscall} (h : t.get index = .ok entry) :
    entry ∈ t.entries := by
  unfold SyscallTable.get at h
  split at h
  next e he =>
    cases h
    exact List.mem_of_getElem? he
  next => cases h

theorem execute_call_agrees {index : UInt8} {arguments : List Operand} (hd : m.syscalls.Disciplined)
    (hl : arguments.length ≤ 255) (hf : ∀ a ∈ arguments, a.Fits)
    (ha : m.ahead = index :: UInt8.ofNat arguments.length :: (arguments.flatMap Operand.encode ++ rest)) :
    Agree (execute .call m) (carryOut (.call index arguments) (m.leaving rest)) := by
  have hb : (m.leaving (arguments.flatMap Operand.encode ++ rest)).ahead =
      arguments.flatMap Operand.encode ++ rest :=
    ahead_leaving (show m.ahead = [index, UInt8.ofNat arguments.length] ++ _ from ha)
  have hn : (UInt8.ofNat arguments.length).toNat = arguments.length := by
    rw [UInt8.toNat_ofNat']
    omega
  have hs : (m.leaving rest).syscalls = m.syscalls := rfl
  rw [execute_call_eq ha, carryOut_call_eq, hs]
  cases hg : m.syscalls.get index with
  | ok entry =>
    apply perform_agrees _ hf hb (Nat.sub_le _ _)
    intro m' h
    have ht := hd entry (mem_of_get hg) _ _ _ h
    omega
  | error cause => exact .error cause (m.leaving rest) _

/-- An instruction that stands ahead is carried out with its operands as they stand. -/
theorem execute_agrees {op : Opcode} {i : Instruction UInt8 UInt8} (hs : m.syscalls.Disciplined)
    (hd : Instruction.decodeOperands op m.ahead = .ok i rest) :
    Agree (execute op m) (carryOut i (m.leaving rest)) := by
  obtain ⟨rfl, he, ha⟩ := Instruction.encodable_of_decodeOperands hd
  cases i with
  | load target source =>
    have hb := readByte_of_ahead (show m.ahead = target :: (source.encode ++ rest) from ha)
    have hr := readOperand_of_ahead he (ahead_leaving (show m.ahead = [target] ++ _ from ha))
    simp only [Instruction.opcode, execute]
    rw [bind_of_ok hb, bind_congr_left hr]
    exact .refl _
  | store address source =>
    have hb := readByte_of_ahead (show m.ahead = address :: (source.encode ++ rest) from ha)
    have hr := readOperand_of_ahead he (ahead_leaving (show m.ahead = [address] ++ _ from ha))
    simp only [Instruction.opcode, execute]
    rw [bind_of_ok hb, bind_congr_left hr]
    exact .refl _
  | fetch address target =>
    have hb := readByte_of_ahead (show m.ahead = address :: target :: rest from ha)
    have hr := readByte_of_ahead (ahead_leaving (show m.ahead = [address] ++ (target :: rest) from ha))
    simp only [Instruction.opcode, execute]
    rw [bind_of_ok hb, bind_of_ok hr]
    exact .refl _
  | arithmetic op left right target =>
    simp only [Instruction.operandBytes, List.append_assoc] at ha
    exact execute_arithmetic_agrees he.1 he.2 ha
  | halt status =>
    have hr := readOperand_of_ahead he ha
    simp only [Instruction.opcode, execute]
    rw [bind_congr_left hr]
    exact .refl _
  | branch test condition id =>
    simp only [Instruction.operandBytes, List.append_assoc] at ha
    exact execute_branch_agrees he ha
  | jump id =>
    simp only [Instruction.opcode, execute]
    rw [bind_of_ok (readByte_of_ahead ha)]
    exact .refl _
  | mark id =>
    simp only [Instruction.opcode, execute]
    rw [bind_of_ok (readByte_of_ahead ha)]
    exact .refl _
  | call index arguments => exact execute_call_agrees hs he.1 he.2 ha

/-- The machine with a fetch added to its record. -/
def recorded (m : Machine) (op : Opcode) : Machine := { m with trace := (m.code.cursor, op) :: m.trace }

theorem fetch_of_ahead {op : Opcode} {b : UInt8} (hb : Opcode.ofCode? b = some op) (ha : m.ahead = b :: rest) :
    fetch m = .ok op ((m.recorded op).leaving rest) := by
  have he : m.code.atEnd = false := by
    have hl : 0 < m.ahead.length := by simp [ha]
    rw [ahead, List.length_drop] at hl
    exact decide_eq_false (show ¬ m.code.data.length ≤ m.code.cursor by omega)
  have hr := readByte_of_ahead ha
  change (if m.code.atEnd = true then _ else _ : Action Opcode) m = _
  rw [he, if_neg (by simp), bind_of_ok hr, hb]
  rfl

theorem step_eq_execute {op : Opcode} {b : UInt8} (hb : Opcode.ofCode? b = some op) (ha : m.ahead = b :: rest) :
    step m = execute op ((m.recorded op).leaving rest) := by
  simp only [step]
  rw [bind_of_ok (fetch_of_ahead hb ha)]

/-- One step of the machine does what the instruction ahead says. -/
theorem step_agrees {i : Instruction UInt8 UInt8} (hs : m.syscalls.Disciplined)
    (hd : Instruction.decode m.ahead = .ok i rest) :
    Agree (step m) (carryOut i ((m.recorded i.opcode).leaving rest)) := by
  obtain ⟨he, ha⟩ := Instruction.decode_eq_ok.mp hd
  have hc : m.ahead = i.opcode.code :: (i.operandBytes ++ rest) := ha
  rw [step_eq_execute (Opcode.ofCode?_code _) hc]
  have hb : ((m.recorded i.opcode).leaving (i.operandBytes ++ rest)).ahead = i.operandBytes ++ rest :=
    ahead_leaving (show (m.recorded i.opcode).ahead = [i.opcode.code] ++ _ from hc)
  have ho := Instruction.decodeOperands_operandBytes he rest
  rw [← hb] at ho
  exact execute_agrees (m := (m.recorded i.opcode).leaving _) hs ho

end Execute

end Machine

end RegisterMachine
