import RegisterMachine.Instruction
import RegisterMachine.Proofs.ValueCodecLaws

namespace RegisterMachine

namespace Operand

/-- An operand that can be written without loss. -/
def Fits : Operand → Prop
  | register _ => True
  | value v => v.Fits

theorem encode_register (index : UInt8) : (register index).encode = [0, index] := by
  simp [encode, Operand.kind, OperandKind.code, Codec.uint8, Codec.word, LittleEndian.bytes]

/-- Reads an operand without looking into a register. -/
def decode : Decoder Operand := do
  match OperandKind.ofCode? (← Decoder.byte) with
  | some .register => return .register (← Decoder.byte)
  | some .value => return .value (← Codec.value.decode)
  | none => throw .invalidValue

theorem eq_code_of_ofCode? {b : UInt8} {k : OperandKind} (h : OperandKind.ofCode? b = some k) :
    b = k.code := by
  unfold OperandKind.ofCode? at h
  split at h
  next => cases h; rfl
  next => cases h; rfl
  next => cases h

theorem decode_cons (kind : UInt8) (input : List UInt8) :
    decode (kind :: input) =
      match OperandKind.ofCode? kind with
      | some .register => (register <$> Decoder.byte) input
      | some .value => (value <$> Codec.value.decode) input
      | none => .error .invalidValue input := by
  change (match OperandKind.ofCode? kind with
    | some .register => do return .register (← Decoder.byte)
    | some .value => do return .value (← Codec.value.decode)
    | none => throw _ : Decoder Operand) input = _
  cases OperandKind.ofCode? kind with
  | none => rfl
  | some k => cases k <;> rfl

/-- Reading an operand undoes writing it, and reads nothing else. -/
theorem decode_eq_ok {b rest : List UInt8} {o : Operand} :
    decode b = .ok o rest ↔ o.Fits ∧ b = o.encode ++ rest := by
  cases b with
  | nil =>
    constructor
    · intro h
      cases h
    · intro h
      cases h.2
  | cons kind input =>
    rw [decode_cons]
    constructor
    · intro h
      cases hk : OperandKind.ofCode? kind with
      | none => simp [hk] at h
      | some k =>
        rw [hk] at h
        have hc := eq_code_of_ofCode? hk
        cases k with
        | register =>
          obtain ⟨index, hi, rfl⟩ := map_eq_ok.mp h
          rw [byte_eq_ok] at hi
          rw [hi, hc, encode_register]
          exact ⟨trivial, rfl⟩
        | value =>
          obtain ⟨v, hv, rfl⟩ := map_eq_ok.mp h
          obtain ⟨hf, he⟩ := Codec.value_lawful.decode_eq_ok.mp hv
          rw [he, hc]
          exact ⟨hf, rfl⟩
    · intro h
      obtain ⟨hf, he⟩ := h
      cases o with
      | register index =>
        rw [encode_register] at he
        obtain ⟨rfl, rfl⟩ := List.cons.inj he
        exact map_eq_ok.mpr ⟨index, rfl, rfl⟩
      | value v =>
        obtain ⟨rfl, hi⟩ := List.cons.inj he
        exact map_eq_ok.mpr ⟨v, Codec.value_lawful.decode_eq_ok.mpr ⟨hf, hi⟩, rfl⟩

end Operand

namespace Instruction

/-- An instruction that can be written without loss: its strings fit, and so does the number of
its arguments. -/
def Encodable {Location Syscall : Type} : Instruction Location Syscall → Prop
  | load _ source => source.Fits
  | store _ source => source.Fits
  | fetch .. => True
  | arithmetic _ left right _ => left.Fits ∧ right.Fits
  | halt status => status.Fits
  | branch _ condition _ => condition.Fits
  | jump _ => True
  | mark _ => True
  | call _ arguments => arguments.length ≤ 255 ∧ ∀ a ∈ arguments, a.Fits

/-- Reads the operands that follow an opcode. -/
def decodeOperands : Opcode → Decoder (Instruction UInt8 UInt8)
  | .load => do
    let target ← Decoder.byte
    let source ← Operand.decode
    return .load target source
  | .store => do
    let address ← Decoder.byte
    let source ← Operand.decode
    return .store address source
  | .fetch => do
    let address ← Decoder.byte
    let target ← Decoder.byte
    return .fetch address target
  | .arithmetic op => do
    let left ← Operand.decode
    let right ← Operand.decode
    let target ← Decoder.byte
    return .arithmetic op left right target
  | .halt => do
    let status ← Operand.decode
    return .halt status
  | .branch test => do
    let condition ← Operand.decode
    let location ← Decoder.byte
    return .branch test condition location
  | .jump => do
    let location ← Decoder.byte
    return .jump location
  | .mark => do
    let location ← Decoder.byte
    return .mark location
  | .call => do
    let syscall ← Decoder.byte
    let count ← Decoder.byte
    let arguments ← Decoder.times Operand.decode count.toNat
    return .call syscall arguments

/-- Reads an instruction. -/
def decode : Decoder (Instruction UInt8 UInt8) := do
  match Opcode.ofCode? (← Decoder.byte) with
  | some op => decodeOperands op
  | none => throw .invalidValue

theorem encodable_of_decodeOperands {op : Opcode} {b rest : List UInt8} {i : Instruction UInt8 UInt8}
    (h : decodeOperands op b = .ok i rest) :
    i.opcode = op ∧ i.Encodable ∧ b = i.operandBytes ++ rest := by
  cases op with
  | load =>
    simp only [decodeOperands, bind_eq_ok, byte_eq_ok, Operand.decode_eq_ok] at h
    obtain ⟨target, _, rfl, source, _, ⟨hs, rfl⟩, hi⟩ := h
    cases hi
    exact ⟨rfl, hs, rfl⟩
  | store =>
    simp only [decodeOperands, bind_eq_ok, byte_eq_ok, Operand.decode_eq_ok] at h
    obtain ⟨address, _, rfl, source, _, ⟨hs, rfl⟩, hi⟩ := h
    cases hi
    exact ⟨rfl, hs, rfl⟩
  | fetch =>
    simp only [decodeOperands, bind_eq_ok, byte_eq_ok] at h
    obtain ⟨address, _, rfl, target, _, rfl, hi⟩ := h
    cases hi
    exact ⟨rfl, trivial, rfl⟩
  | arithmetic op =>
    simp only [decodeOperands, bind_eq_ok, byte_eq_ok, Operand.decode_eq_ok] at h
    obtain ⟨left, _, ⟨hl, rfl⟩, right, _, ⟨hr, rfl⟩, target, _, rfl, hi⟩ := h
    cases hi
    exact ⟨rfl, ⟨hl, hr⟩, by simp [operandBytes]⟩
  | halt =>
    simp only [decodeOperands, bind_eq_ok, Operand.decode_eq_ok] at h
    obtain ⟨status, _, ⟨hs, rfl⟩, hi⟩ := h
    cases hi
    exact ⟨rfl, hs, rfl⟩
  | branch test =>
    simp only [decodeOperands, bind_eq_ok, byte_eq_ok, Operand.decode_eq_ok] at h
    obtain ⟨condition, _, ⟨hc, rfl⟩, location, _, rfl, hi⟩ := h
    cases hi
    exact ⟨rfl, hc, by simp [operandBytes]⟩
  | jump =>
    simp only [decodeOperands, bind_eq_ok, byte_eq_ok] at h
    obtain ⟨location, _, rfl, hi⟩ := h
    cases hi
    exact ⟨rfl, trivial, rfl⟩
  | mark =>
    simp only [decodeOperands, bind_eq_ok, byte_eq_ok] at h
    obtain ⟨location, _, rfl, hi⟩ := h
    cases hi
    exact ⟨rfl, trivial, rfl⟩
  | call =>
    simp only [decodeOperands, bind_eq_ok, byte_eq_ok, times_eq_ok (fun _ _ _ => Operand.decode_eq_ok)] at h
    obtain ⟨syscall, _, rfl, count, _, rfl, arguments, _, ⟨hl, ha, rfl⟩, hi⟩ := h
    cases hi
    have hc := count.toNat_lt
    exact ⟨rfl, ⟨by omega, ha⟩, by simp [operandBytes, hl]⟩

theorem decodeOperands_operandBytes {i : Instruction UInt8 UInt8} (h : i.Encodable) (rest : List UInt8) :
    decodeOperands i.opcode (i.operandBytes ++ rest) = .ok i rest := by
  cases i with
  | load target source =>
    simp only [opcode, decodeOperands, operandBytes, bind_eq_ok, byte_eq_ok, Operand.decode_eq_ok]
    exact ⟨target, _, rfl, source, rest, ⟨h, rfl⟩, rfl⟩
  | store address source =>
    simp only [opcode, decodeOperands, operandBytes, bind_eq_ok, byte_eq_ok, Operand.decode_eq_ok]
    exact ⟨address, _, rfl, source, rest, ⟨h, rfl⟩, rfl⟩
  | fetch address target => rfl
  | arithmetic op left right target =>
    simp only [opcode, decodeOperands, operandBytes, bind_eq_ok, byte_eq_ok, Operand.decode_eq_ok]
    exact ⟨left, _, ⟨h.1, by simp⟩, right, _, ⟨h.2, rfl⟩, target, rest, rfl, rfl⟩
  | halt status =>
    simp only [opcode, decodeOperands, operandBytes, bind_eq_ok, Operand.decode_eq_ok]
    exact ⟨status, rest, ⟨h, rfl⟩, rfl⟩
  | branch test condition location =>
    simp only [opcode, decodeOperands, operandBytes, bind_eq_ok, byte_eq_ok, Operand.decode_eq_ok]
    exact ⟨condition, _, ⟨h, by simp⟩, location, rest, rfl, rfl⟩
  | jump location => rfl
  | mark location => rfl
  | call syscall arguments =>
    simp only [opcode, decodeOperands, operandBytes, bind_eq_ok, byte_eq_ok,
      times_eq_ok (fun _ _ _ => Operand.decode_eq_ok)]
    have hl : (UInt8.ofNat arguments.length).toNat = arguments.length := by
      rw [UInt8.toNat_ofNat']
      have hb := h.1
      omega
    exact ⟨syscall, _, rfl, _, _, rfl, arguments, rest, ⟨hl.symm, h.2, rfl⟩, rfl⟩

theorem decode_cons (code : UInt8) (input : List UInt8) :
    decode (code :: input) =
      match Opcode.ofCode? code with
      | some op => decodeOperands op input
      | none => .error .invalidValue input := by
  change (match Opcode.ofCode? code with
    | some op => decodeOperands op
    | none => throw _ : Decoder (Instruction UInt8 UInt8)) input = _
  cases Opcode.ofCode? code <;> rfl

/-- Reading an instruction undoes writing it, and reads nothing else. -/
theorem decode_eq_ok {b rest : List UInt8} {i : Instruction UInt8 UInt8} :
    decode b = .ok i rest ↔ i.Encodable ∧ b = i.encode ++ rest := by
  cases b with
  | nil =>
    constructor
    · intro h
      cases h
    · intro h
      cases h.2
  | cons code input =>
    rw [decode_cons]
    constructor
    · intro h
      cases ho : Opcode.ofCode? code with
      | none => simp [ho] at h
      | some op =>
        rw [ho] at h
        obtain ⟨hop, he, hb⟩ := encodable_of_decodeOperands h
        have hc := Opcode.code_eq_of_ofCode? ho
        exact ⟨he, by rw [encode, hop, hc, hb]; rfl⟩
    · intro h
      obtain ⟨he, hb⟩ := h
      obtain ⟨hc, hi⟩ := List.cons.inj hb
      rw [hc, Opcode.ofCode?_code, hi]
      exact decodeOperands_operandBytes he rest

end Instruction

end RegisterMachine
