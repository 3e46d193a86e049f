import RegisterMachine.Machine.Run
import RegisterMachine.Proofs.InstructionDecoder

namespace RegisterMachine

theorem bind_of_ok {ε σ α β : Type} {x : EStateM ε σ α} {f : α → EStateM ε σ β} {s t : σ} {a : α}
    (h : x s = .ok a t) : (x >>= f) s = f a t := by
  change EStateM.bind x f s = _
  simp only [EStateM.bind, h]

theorem bind_of_error {ε σ α β : Type} {x : EStateM ε σ α} {f : α → EStateM ε σ β} {s t : σ} {e : ε}
    (h : x s = .error e t) : (x >>= f) s = .error e t := by
  change EStateM.bind x f s = _
  simp only [EStateM.bind, h]

/-- What an operand stands for while the registers hold what they hold. -/
def Operand.valueIn (registers : Registers) : Operand → Except Fault Value
  | register index => registers.get index
  | value v => .ok v

namespace Machine

/-- The code from the reading position on. -/
def ahead (m : Machine) : List UInt8 := m.code.data.drop m.code.cursor

/-- The machine with its reading position elsewhere. -/
def movedTo (m : Machine) (position : Nat) : Machine :=
  { m with code := { m.code with cursor := position } }

/-- The machine when all of its code but `rest` has been read. -/
def leaving (m : Machine) (rest : List UInt8) : Machine := m.movedTo (m.code.data.length - rest.length)

theorem ahead_leaving {m : Machine} {front rest : List UInt8} (h : m.ahead = front ++ rest) :
    (m.leaving rest).ahead = rest := by
  have hl : front.length + rest.length = m.code.data.length - m.code.cursor := by
    rw [← List.length_append, ← h, ahead, List.length_drop]
  have hd : (m.code.data.drop m.code.cursor).drop front.length = rest := by
    rw [← ahead, h, List.drop_left]
  rw [List.drop_drop] at hd
  by_cases hr : rest = []
  · subst hr
    simp [ahead, leaving, movedTo]
  · have hp : 0 < rest.length := List.length_pos_iff.mpr hr
    have he : m.code.data.length - rest.length = m.code.cursor + front.length := by omega
    simpa only [ahead, leaving, movedTo, he] using hd

theorem cursor_leaving {m : Machine} {front rest : List UInt8} (h : m.ahead = front ++ rest)
    (hne : front ≠ []) : (m.leaving rest).code.cursor = m.code.cursor + front.length := by
  have hl : front.length + rest.length = m.code.data.length - m.code.cursor := by
    rw [← List.length_append, ← h, ahead, List.length_drop]
  have hp : 0 < front.length := List.length_pos_iff.mpr hne
  change m.code.data.length - rest.length = _
  omega

theorem leaving_ahead {m : Machine} (h : m.code.cursor ≤ m.code.data.length) : m.leaving m.ahead = m := by
  have he : m.code.data.length - m.ahead.length = m.code.cursor := by
    rw [ahead, List.length_drop]
    omega
  rw [leaving, he]
  rfl

theorem readByte_of_ahead {m : Machine} {b : UInt8} {rest : List UInt8} (h : m.ahead = b :: rest) :
    readByte m = .ok b (m.leaving rest) := by
  have hc := cursor_leaving (show m.ahead = [b] ++ rest from h) (by simp)
  change m.code.data.length - rest.length = _ at hc
  simp only [readByte, reading, CodeReader.byte_of_ahead h, leaving, hc]
  rfl

theorem readByte_of_ahead_nil {m : Machine} (h : m.ahead = []) :
    readByte m = .error (.endOfStream m.code.cursor) m := by
  simp only [readByte, reading, CodeReader.byte_of_ahead_nil h]

/-- Looks up the value of an operand that has been read. -/
def operandValue (o : Operand) : Action Value := asking fun m => o.valueIn m.registers

theorem readValue_of_decode {m : Machine} {v : Value} {rest : List UInt8} (hc : m.code.cursor ≤ m.code.data.length)
    (hd : Codec.value.decode m.ahead = .ok v rest) : reading CodeReader.value m = .ok v (m.leaving rest) := by
  simp only [reading, CodeReader.value, CodeReader.decode_of_ok hc hd]
  rfl

theorem readValue_of_misread {m : Machine} {e : DecodeError} {rest : List UInt8}
    (hc : m.code.cursor ≤ m.code.data.length) (hd : Codec.value.decode m.ahead = .error e rest) :
    reading CodeReader.value m = .error (Fault.ofDecodeError m.code.cursor e) m := by
  simp only [reading, CodeReader.value, CodeReader.decode_of_error hc hd]

theorem readValue_of_ahead {m : Machine} {v : Value} {rest : List UInt8} (hv : v.Fits)
    (h : m.ahead = Codec.value.encode v ++ rest) :
    reading CodeReader.value m = .ok v (m.leaving rest) := by
  have hc : m.code.cursor ≤ m.code.data.length := by
    refine Nat.le_of_not_lt fun hlt => ?_
    have hn : m.ahead = [] := List.drop_eq_nil_of_le (Nat.le_of_lt hlt)
    rw [hn] at h
    cases h
  exact readValue_of_decode hc (Codec.value_lawful.decode_eq_ok.mpr ⟨hv, h⟩)

theorem readOperand_of_ahead_nil {m : Machine} (h : m.ahead = []) :
    readOperand m = .error (.endOfStream m.code.cursor) m := by
  change (readByte >>= fun kind => _) m = _
  exact bind_of_error (readByte_of_ahead_nil h)

theorem readOperand_of_kind {m : Machine} {kind : UInt8} {input : List UInt8} (h : m.ahead = kind :: input) :
    readOperand m =
      match OperandKind.ofCode? kind with
      | some .register => (readByte >>= fun index => asking fun m => m.registers.get index) (m.leaving input)
      | some .value => reading CodeReader.value (m.leaving input)
      | none => .error (.invalidOperandKind kind m.code.cursor) (m.leaving input) := by
  have hb := readByte_of_ahead h
  change (readByte >>= fun kind => _) m = _
  rw [bind_of_ok hb]
  cases OperandKind.ofCode? kind with
  | none => rfl
  | some k => cases k <;> rfl

/-- Reading an operand that stands ahead passes over exactly its bytes. -/
theorem readOperand_of_ahead {m : Machine} {o : Operand} {rest : List UInt8} (ho : o.Fits)
    (h : m.ahead = o.encode ++ rest) : readOperand m = operandValue o (m.leaving rest) := by
  cases o with
  | register index =>
    rw [Operand.encode_register] at h
    have hr := readOperand_of_kind (show m.ahead = 0 :: index :: rest from h)
    have ha : (m.leaving (index :: rest)).ahead = index :: rest :=
      ahead_leaving (show m.ahead = [0] ++ (index :: rest) from h)
    rw [hr]
    change (readByte >>= fun index => asking fun m => m.registers.get index) (m.leaving (index :: rest)) = _
    rw [bind_of_ok (readByte_of_ahead ha)]
    rfl
  | value v =>
    have hr := readOperand_of_kind (show m.ahead = 1 :: (Codec.value.encode v ++ rest) from h)
    have ha : (m.leaving (Codec.value.encode v ++ rest)).ahead = Codec.value.encode v ++ rest :=
      ahead_leaving (show m.ahead = [1] ++ (Codec.value.encode v ++ rest) from h)
    rw [hr]
    exact readValue_of_ahead ho ha

/-- What cannot be decoded as an operand cannot be read as one. -/
theorem readOperand_of_decode_error {m : Machine} {e : DecodeError} {rest : List UInt8}
    (h : Operand.decode m.ahead = .error e rest) :
    ∃ cause p, readOperand m = .error cause (m.movedTo p) := by
  cases ha : m.ahead with
  | nil => exact ⟨.endOfStream m.code.cursor, m.code.cursor, readOperand_of_ahead_nil ha⟩
  | cons kind input =>
    rw [readOperand_of_kind ha]
    rw [ha, Operand.decode_cons] at h
    have hi : (m.leaving input).ahead = input := ahead_leaving (show m.ahead = [kind] ++ input from ha)
    cases hk : OperandKind.ofCode? kind with
    | none => exact ⟨_, _, rfl⟩
    | some k =>
      rw [hk] at h
      cases k with
      | register =>
        cases input with
        | nil => exact ⟨_, _, bind_of_error (readByte_of_ahead_nil hi)⟩
        | cons index input => cases h
      | value =>
        have hv : ∃ e' rest', Codec.value.decode input = .error e' rest' := by
          cases hd : Codec.value.decode input with
          | ok v rest' =>
            have hm : (Operand.value <$> Codec.value.decode) input = .ok (.value v) rest' :=
              map_eq_ok.mpr ⟨v, hd, rfl⟩
            simp [hm] at h
          | error e' rest' => exact ⟨e', rest', rfl⟩
        obtain ⟨e', rest', hd⟩ := hv
        rw [← hi] at hd
        have hc : (m.leaving input).code.cursor ≤ (m.leaving input).code.data.length := Nat.sub_le _ _
        exact ⟨_, m.code.data.length - input.length, readValue_of_misread hc hd⟩

end Machine

end RegisterMachine
