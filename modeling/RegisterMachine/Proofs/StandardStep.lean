import RegisterMachine.Proofs.StepFaults

namespace RegisterMachine

theorem perform_printing (text : String) (m : Machine) :
    Machine.perform (Script.printing text) m = (Machine.writeLine text >>= fun _ => pure .next) m := by
  simp only [Script.printing, Machine.perform]
  cases hw : Machine.writeLine text m with
  | ok u m' => rw [bind_of_ok hw]
  | error cause m' => rw [bind_of_error hw]; rfl

namespace Machine

section Inversion

variable {m m' : Machine}

theorem readByte_eq_ok {b : UInt8} (h : readByte m = .ok b m') :
    ∃ rest, m.ahead = b :: rest ∧ m' = m.leaving rest := by
  cases ha : m.ahead with
  | nil =>
    rw [readByte_of_ahead_nil ha] at h
    cases h
  | cons c rest =>
    rw [readByte_of_ahead ha] at h
    cases h
    exact ⟨rest, rfl, rfl⟩

theorem readOperand_eq_ok {v : Value} (h : readOperand m = .ok v m') :
    ∃ o rest, Operand.decode m.ahead = .ok o rest ∧ m' = m.leaving rest := by
  cases hd : Operand.decode m.ahead with
  | error e rest =>
    obtain ⟨cause, p, he⟩ := readOperand_of_decode_error hd
    rw [he] at h
    cases h
  | ok o rest =>
    obtain ⟨hf, ha⟩ := Operand.decode_eq_ok.mp hd
    rw [readOperand_of_ahead hf ha] at h
    obtain ⟨-, rfl⟩ := asking_eq_ok h
    exact ⟨o, rest, rfl, rfl⟩

theorem ahead_of_readByte {b : UInt8} (h : readByte m = .ok b m') : m.ahead = b :: m'.ahead := by
  obtain ⟨rest, ha, rfl⟩ := readByte_eq_ok h
  rw [ahead_leaving (show m.ahead = [b] ++ rest from ha)]
  exact ha

theorem decode_of_readOperand {v : Value} (h : readOperand m = .ok v m') :
    ∃ o, Operand.decode m.ahead = .ok o m'.ahead := by
  obtain ⟨o, rest, hd, rfl⟩ := readOperand_eq_ok h
  obtain ⟨-, ha⟩ := Operand.decode_eq_ok.mp hd
  rw [ahead_leaving ha]
  exact ⟨o, hd⟩

end Inversion

theorem syscalls_get_eq_error {t : SyscallTable} {index : UInt8} {cause : Fault} (h : t.get index = .error cause) :
    cause = .unknownSyscall index t.length ∧ t.length ≤ index.toNat := by
  unfold SyscallTable.get at h
  split at h
  next => cases h
  next hn => cases h; exact ⟨rfl, List.getElem?_eq_none_iff.mp hn⟩

theorem get_standard {index : UInt8} {entry : Syscall} (h : SyscallTable.standard.get index = .ok entry) :
    entry = ⟨"PRINTLN", Script.printLine⟩ := by
  have hm := mem_of_get h
  simpa [SyscallTable.standard] using hm

theorem perform_printLine (m : Machine) :
    perform (Script.printLine 1) m = (readOperand >>= fun v => writeLine v.text >>= fun _ => pure .next) m := by
  change perform (Script.withOperand fun v => Script.printing v.text) m = _
  simp only [Script.withOperand, perform]
  cases hr : readOperand m with
  | ok v m' => rw [bind_of_ok hr, ← perform_printing]
  | error cause m' => rw [bind_of_error hr]; rfl

theorem perform_printLine_of_ne {count : UInt8} (h : count ≠ 1) (m : Machine) :
    perform (Script.printLine count) m = .error (.arityMismatch "PRINTLN" 1 count.toNat) m := by
  rw [Script.printLine, if_neg h]
  rfl

theorem perform_printLine_eq_ok {count : UInt8} {m m' : Machine} {flow : Flow}
    (h : perform (Script.printLine count) m = .ok flow m') :
    count = 1 ∧ ∃ v m₁, readOperand m = .ok v m₁ ∧ perform (Script.printing v.text) m₁ = .ok flow m' := by
  by_cases hc : count = 1
  · subst hc
    rw [perform_printLine] at h
    obtain ⟨v, m₁, hr, hw⟩ := bind_eq_ok.mp h
    exact ⟨rfl, v, m₁, hr, by rw [perform_printing]; exact hw⟩
  · rw [perform_printLine_of_ne hc] at h
    cases h

theorem operandsTaken_printing (text : String) (m : Machine) : operandsTaken (Script.printing text) m = 0 := by
  simp only [Script.printing, operandsTaken]
  cases writeLine text m <;> rfl

theorem standard_disciplined : SyscallTable.standard.Disciplined := by
  intro entry hm count m m' h
  have he : entry = ⟨"PRINTLN", Script.printLine⟩ := by simpa [SyscallTable.standard] using hm
  subst he
  obtain ⟨rfl, v, m₁, hr, -⟩ := perform_printLine_eq_ok h
  change operandsTaken (Script.withOperand fun v => Script.printing v.text) m = 1
  simp only [Script.withOperand, operandsTaken, hr, operandsTaken_printing]

theorem decodes_of_execute {op : Opcode} {m m' : Machine} {flow : Flow} (hs : m.syscalls = .standard)
    (h : execute op m = .ok flow m') : ∃ i rest, Instruction.decodeOperands op m.ahead = .ok i rest := by
  cases op with
  | load =>
    obtain ⟨target, m₁, ht, h⟩ := bind_eq_ok.mp h
    obtain ⟨v, m₂, hv, h⟩ := bind_eq_ok.mp h
    obtain ⟨o, ho⟩ := decode_of_readOperand hv
    rw [ahead_of_readByte ht]
    exact ⟨_, _, bind_eq_ok.mpr ⟨target, _, rfl, bind_eq_ok.mpr ⟨o, _, ho, rfl⟩⟩⟩
  | store =>
    obtain ⟨address, m₁, ht, h⟩ := bind_eq_ok.mp h
    obtain ⟨v, m₂, hv, h⟩ := bind_eq_ok.mp h
    obtain ⟨o, ho⟩ := decode_of_readOperand hv
    rw [ahead_of_readByte ht]
    exact ⟨_, _, bind_eq_ok.mpr ⟨address, _, rfl, bind_eq_ok.mpr ⟨o, _, ho, rfl⟩⟩⟩
  | fetch =>
    obtain ⟨address, m₁, ha, h⟩ := bind_eq_ok.mp h
    obtain ⟨target, m₂, ht, h⟩ := bind_eq_ok.mp h
    rw [ahead_of_readByte ha, ahead_of_readByte ht]
    exact ⟨_, _, rfl⟩
  | arithmetic op =>
    obtain ⟨a, m₁, ha, h⟩ := bind_eq_ok.mp h
    obtain ⟨b, m₂, hb, h⟩ := bind_eq_ok.mp h
    obtain ⟨target, m₃, ht, h⟩ := bind_eq_ok.mp h
    obtain ⟨left, hl⟩ := decode_of_readOperand ha
    obtain ⟨right, hr⟩ := decode_of_readOperand hb
    rw [ahead_of_readByte ht] at hr
    exact ⟨_, _, bind_eq_ok.mpr ⟨left, _, hl, bind_eq_ok.mpr ⟨right, _, hr, rfl⟩⟩⟩
  | halt =>
    obtain ⟨v, m₁, hv, h⟩ := bind_eq_ok.mp h
    obtain ⟨o, ho⟩ := decode_of_readOperand hv
    exact ⟨_, _, bind_eq_ok.mpr ⟨o, _, ho, rfl⟩⟩
  | branch test =>
    obtain ⟨v, m₁, hv, h⟩ := bind_eq_ok.mp h
    obtain ⟨id, m₂, hi, h⟩ := bind_eq_ok.mp h
    obtain ⟨o, ho⟩ := decode_of_readOperand hv
    rw [ahead_of_readByte hi] at ho
    exact ⟨_, _, bind_eq_ok.mpr ⟨o, _, ho, rfl⟩⟩
  | jump =>
    obtain ⟨id, m₁, hi, h⟩ := bind_eq_ok.mp h
    rw [ahead_of_readByte hi]
    exact ⟨_, _, rfl⟩
  | mark =>
    obtain ⟨id, m₁, hi, h⟩ := bind_eq_ok.mp h
    rw [ahead_of_readByte hi]
    exact ⟨_, _, rfl⟩
  | call =>
    obtain ⟨index, m₁, hi, hk⟩ := bind_eq_ok.mp h
    obtain ⟨count, m₂, hc, hk⟩ := bind_eq_ok.mp hk
    obtain ⟨entry, m₃, hq, hp⟩ := bind_eq_ok.mp hk
    obtain ⟨hg, rfl⟩ := asking_eq_ok hq
    have ht : m₃.syscalls = m.syscalls := by
      obtain ⟨_, -, rfl⟩ := readByte_eq_ok hc
      obtain ⟨_, -, rfl⟩ := readByte_eq_ok hi
      rfl
    rw [ht, hs] at hg
    rw [get_standard hg] at hp
    obtain ⟨rfl, v, m₄, hv, -⟩ := perform_printLine_eq_ok hp
    obtain ⟨o, ho⟩ := decode_of_readOperand hv
    obtain ⟨hf, ha⟩ := Operand.decode_eq_ok.mp ho
    have hn : Decoder.times Operand.decode (UInt8.toNat 1) m₃.ahead = .ok [o] m₄.ahead :=
      (times_eq_ok fun _ _ _ => Operand.decode_eq_ok).mpr ⟨rfl, by simpa using hf, by simpa using ha⟩
    rw [ahead_of_readByte hi, ahead_of_readByte hc]
    exact ⟨_, _, bind_eq_ok.mpr ⟨index, _, rfl, bind_eq_ok.mpr ⟨1, _, rfl, bind_eq_ok.mpr ⟨[o], _, hn, rfl⟩⟩⟩⟩

theorem fetch_of_ahead_nil {m : Machine} (ha : m.ahead = []) :
    fetch m = .error (.missingHalt m.code.cursor) m := by
  have he : m.code.atEnd = true := decide_eq_true (List.drop_eq_nil_iff.mp ha)
  change (if m.code.atEnd = true then _ else _ : Action Opcode) m = _
  rw [if_pos he]
  rfl

theorem fetch_of_invalid {m : Machine} {b : UInt8} {rest : List UInt8} (hb : Opcode.ofCode? b = none)
    (ha : m.ahead = b :: rest) : fetch m = .error (.invalidInstruction b m.code.cursor) (m.leaving rest) := by
  have he : ¬ m.code.atEnd = true := by
    intro hn
    have hl : m.ahead = [] := List.drop_eq_nil_of_le (of_decide_eq_true hn)
    rw [ha] at hl
    cases hl
  change (if m.code.atEnd = true then _ else _ : Action Opcode) m = _
  rw [if_neg he, bind_of_ok (readByte_of_ahead ha), hb]
  rfl

theorem step_of_ahead_nil {m : Machine} (ha : m.ahead = []) : step m = .error (.missingHalt m.code.cursor) m :=
  bind_of_error (fetch_of_ahead_nil ha)

theorem step_of_invalid {m : Machine} {b : UInt8} {rest : List UInt8} (hb : Opcode.ofCode? b = none)
    (ha : m.ahead = b :: rest) : step m = .error (.invalidInstruction b m.code.cursor) (m.leaving rest) :=
  bind_of_error (fetch_of_invalid hb ha)

/-- A step that succeeds has an instruction to carry out. -/
theorem decodes_of_step {m m' : Machine} {flow : Flow} (hs : m.syscalls = .standard)
    (h : step m = .ok flow m') : ∃ i rest, Instruction.decode m.ahead = .ok i rest := by
  cases ha : m.ahead with
  | nil =>
    rw [step_of_ahead_nil ha] at h
    cases h
  | cons b rest =>
    cases hb : Opcode.ofCode? b with
    | none =>
      rw [step_of_invalid hb ha] at h
      cases h
    | some op =>
      rw [step_eq_execute hb ha] at h
      have hr : ((m.recorded op).leaving rest).ahead = rest :=
        ahead_leaving (show (m.recorded op).ahead = [b] ++ rest from ha)
      obtain ⟨i, input, hd⟩ := decodes_of_execute (m := (m.recorded op).leaving rest) hs h
      rw [hr] at hd
      refine ⟨i, input, ?_⟩
      rw [Instruction.decode_cons, hb]
      exact hd

theorem readByte_raises : Raises (·.isUnresolved = false) readByte := by
  intro m cause m' h
  cases ha : m.ahead with
  | nil =>
    rw [readByte_of_ahead_nil ha] at h
    cases h
    rfl
  | cons b rest =>
    rw [readByte_of_ahead ha] at h
    cases h

theorem readValue_raises : Raises (·.isUnresolved = false) (reading CodeReader.value) := by
  intro m cause m' h
  by_cases hc : m.code.length < m.code.cursor
  · simp only [reading, CodeReader.value, CodeReader.decode, if_pos hc] at h
    cases h
    rfl
  · simp only [reading, CodeReader.value, CodeReader.decode, if_neg hc] at h
    cases hd : Codec.value.decode (m.code.data.drop m.code.cursor) with
    | ok v rest => simp [hd] at h
    | error e rest =>
      rw [hd] at h
      cases h
      cases e <;> rfl

theorem readOperand_raises : Raises (·.isUnresolved = false) readOperand := by
  have hget : Raises (·.isUnresolved = false) get := by
    intro m cause m' h
    cases h
  apply hget.bind
  intro m
  apply readByte_raises.bind
  intro kind
  cases OperandKind.ofCode? kind with
  | none => exact raises_throw rfl
  | some k =>
    cases k with
    | register =>
      exact readByte_raises.bind fun index => raises_asking fun m cause h => (registers_get_fault h).2
    | value => exact readValue_raises

theorem perform_printLine_raises (count : UInt8) :
    Raises (·.isUnresolved = false) (perform (Script.printLine count)) := by
  by_cases hc : count = 1
  · have hw : ∀ line, Raises (·.isUnresolved = false) (writeLine line) :=
      fun line m cause m' h => (writeLine_raises line m cause m' h).2
    rw [hc, show perform (Script.printLine 1) = _ from funext perform_printLine]
    exact readOperand_raises.bind fun v => (hw v.text).bind fun _ => raises_pure _
  · intro m cause m' h
    rw [perform_printLine_of_ne hc] at h
    cases h
    rfl

theorem unresolved_of_jumpTo {id target : UInt8} {m m' : Machine}
    (h : jumpTo target m = .error (.unresolvedLocation id) m') : target = id ∧ m.locations.find? id = none := by
  rcases jumpTo_error h with ⟨hn, hc⟩ | ⟨p, -, -, hc⟩
  · cases hc
    exact ⟨rfl, hn⟩
  · cases hc

/-- Of the instructions with the standard system calls, only one that jumps misses a location. -/
theorem unresolved_of_execute {op : Opcode} {m m' : Machine} {id : UInt8} (hs : m.syscalls = .standard)
    (h : execute op m = .error (.unresolvedLocation id) m') :
    ∃ i rest, Instruction.decodeOperands op m.ahead = .ok i rest ∧ i.Jumps m.registers id ∧
      m.locations.find? id = none := by
  have hset : ∀ target v, Raises (·.isUnresolved = false) (setRegister target v) :=
    fun target v m cause m' h => (setRegister_raises target v m cause m' h).2
  cases op with
  | load =>
    have hr : Raises (·.isUnresolved = false) (execute .load) :=
      readByte_raises.bind fun target => readOperand_raises.bind fun v => (hset target v).bind fun _ => raises_pure _
    cases hr _ _ _ h
  | store =>
    have hr : Raises (·.isUnresolved = false) (execute .store) :=
      readByte_raises.bind fun address => readOperand_raises.bind fun v =>
        Raises.bind (fun m cause m' h => (storeValue_raises address v m cause m' h).2) fun _ => raises_pure _
    cases hr _ _ _ h
  | fetch =>
    have hr : Raises (·.isUnresolved = false) (execute .fetch) :=
      readByte_raises.bind fun address => readByte_raises.bind fun target =>
        (raises_asking fun m cause h => (memory_load_fault h).2).bind fun v =>
          (hset target v).bind fun _ => raises_pure _
    cases hr _ _ _ h
  | arithmetic op =>
    have hr : Raises (·.isUnresolved = false) (execute (.arithmetic op)) :=
      readOperand_raises.bind fun a => readOperand_raises.bind fun b => readByte_raises.bind fun target =>
        (raises_asking fun m cause h => (arithmetic_fault h).2).bind fun v =>
          (hset target v).bind fun _ => raises_pure _
    cases hr _ _ _ h
  | halt =>
    obtain h | ⟨v, m₁, -, hk⟩ := bind_eq_error.mp h
    · cases readOperand_raises _ _ _ h
    · cases hv : v.status? with
      | none => rw [hv] at hk; cases hk
      | some code => rw [hv] at hk; cases hk
  | branch test =>
    obtain h | ⟨v, m₁, hv, hk⟩ := bind_eq_error.mp h
    · cases readOperand_raises _ _ _ h
    obtain h | ⟨target, m₂, hb, hk⟩ := bind_eq_error.mp hk
    · cases readByte_raises _ _ _ h
    obtain ⟨o, ho⟩ := decode_of_readOperand hv
    obtain ⟨hf, ha⟩ := Operand.decode_eq_ok.mp ho
    rw [readOperand_of_ahead hf ha] at hv
    obtain ⟨hq, hm⟩ := asking_eq_ok hv
    obtain ⟨rest, hr, rfl⟩ := readByte_eq_ok hb
    cases ht : test.holds? v with
    | none => rw [ht] at hk; cases hk
    | some taken =>
      rw [ht] at hk
      cases taken with
      | false => cases hk
      | true =>
        obtain hj | ⟨u, m₃, -, he⟩ := bind_eq_error.mp hk
        · obtain ⟨rfl, hn⟩ := unresolved_of_jumpTo hj
          rw [hm] at hn
          rw [hr] at ho
          exact ⟨_, _, bind_eq_ok.mpr ⟨o, _, ho, rfl⟩, ⟨rfl, v, hq, ht⟩, hn⟩
        · cases he
  | jump =>
    obtain h | ⟨target, m₁, hb, hk⟩ := bind_eq_error.mp h
    · cases readByte_raises _ _ _ h
    obtain hj | ⟨u, m₂, -, he⟩ := bind_eq_error.mp hk
    · obtain ⟨rfl, hn⟩ := unresolved_of_jumpTo hj
      obtain ⟨rest, hr, rfl⟩ := readByte_eq_ok hb
      rw [hr]
      exact ⟨_, _, rfl, rfl, hn⟩
    · cases he
  | mark =>
    obtain h | ⟨target, m₁, -, hk⟩ := bind_eq_error.mp h
    · cases readByte_raises _ _ _ h
    · cases hk
  | call =>
    obtain h | ⟨index, m₁, hi, hk⟩ := bind_eq_error.mp h
    · cases readByte_raises _ _ _ h
    obtain h | ⟨count, m₂, hc, hk⟩ := bind_eq_error.mp hk
    · cases readByte_raises _ _ _ h
    obtain h | ⟨entry, m₃, hq, hp⟩ := bind_eq_error.mp hk
    · have hg : Raises (·.isUnresolved = false) (asking fun m => m.syscalls.get index) :=
        raises_asking fun m cause h => by rw [(syscalls_get_eq_error h).1]; rfl
      cases hg _ _ _ h
    · obtain ⟨hg, rfl⟩ := asking_eq_ok hq
      have ht : m₃.syscalls = m.syscalls := by
        obtain ⟨_, -, rfl⟩ := readByte_eq_ok hc
        obtain ⟨_, -, rfl⟩ := readByte_eq_ok hi
        rfl
      rw [ht, hs] at hg
      rw [get_standard hg] at hp
      cases perform_printLine_raises count _ _ _ hp

/-- A step misses a location exactly when it jumps to one that no marker has noted. -/
theorem step_unresolved_iff {m : Machine} {id : UInt8} (hs : m.syscalls = .standard) :
    (∃ m', step m = .error (.unresolvedLocation id) m') ↔
      ∃ i rest, Instruction.decode m.ahead = .ok i rest ∧ i.Jumps m.registers id ∧ m.locations.find? id = none := by
  constructor
  · intro h
    obtain ⟨m', h⟩ := h
    cases ha : m.ahead with
    | nil =>
      rw [step_of_ahead_nil ha] at h
      cases h
    | cons b rest =>
      cases hb : Opcode.ofCode? b with
      | none =>
        rw [step_of_invalid hb ha] at h
        cases h
      | some op =>
        rw [step_eq_execute hb ha] at h
        have hr : ((m.recorded op).leaving rest).ahead = rest :=
          ahead_leaving (show (m.recorded op).ahead = [b] ++ rest from ha)
        obtain ⟨i, input, hd, hj, hn⟩ := unresolved_of_execute (m := (m.recorded op).leaving rest) hs h
        rw [hr] at hd
        refine ⟨i, input, ?_, hj, hn⟩
        rw [Instruction.decode_cons, hb]
        exact hd
  · intro h
    obtain ⟨i, rest, hd, hj, hn⟩ := h
    exact step_of_unresolved_jump (hs ▸ standard_disciplined) hd hj hn

end Machine

end RegisterMachine
