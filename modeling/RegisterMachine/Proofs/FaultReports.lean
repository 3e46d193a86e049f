import RegisterMachine.Proofs.ControlFlow
import RegisterMachine.Proofs.InstructionEffects
import RegisterMachine.Proofs.ReachableStates
import RegisterMachine.Proofs.ValueMisreads

namespace RegisterMachine

/-- The register that an instruction writes. -/
def Instruction.written? {Location Syscall : Type} : Instruction Location Syscall → Option UInt8
  | load target _ => some target
  | fetch _ target => some target
  | arithmetic _ _ _ target => some target
  | _ => none

/-- What a fault says is so, of the sizes of the machine, of its program and of the instructions that it has
executed. Faults over the values at hand say nothing of these. -/
def Fault.Truthful (sizing : Sizing) (program : List UInt8) (executed : Instruction UInt8 UInt8 → Prop) :
    Fault → Prop
  | invalidInstruction opcode offset => program[offset]? = some opcode ∧ ∀ op : Opcode, op.code ≠ opcode
  | missingHalt offset => offset = program.length
  | endOfStream offset =>
    offset = program.length ∨
      ∃ kind : Kind, program[offset]? = some kind.tag ∧ program.length < offset + 1 + kind.fixedWidth
  | truncatedStream offset expected remaining =>
    program[offset]? = some 5 ∧ (∃ length, program[offset + 1]? = some length ∧ length.toNat = expected) ∧
      remaining = program.length - offset - 2 ∧ remaining < expected
  | invalidOperandKind kind offset => program[offset]? = some kind ∧ kind ≠ 0 ∧ kind ≠ 1
  | unresolvedLocation id => ¬ executed (.mark id)
  | indexOutOfRange index capacity => capacity = sizing.registerCount ∧ capacity ≤ index.toNat
  | uninitializedRegister index =>
    index.toNat < sizing.registerCount ∧ ∀ i, executed i → i.written? ≠ some index
  | addressOutOfRange address width capacity => capacity = sizing.memorySize ∧ capacity < address + width
  | unknownSyscall index available =>
    available = SyscallTable.standard.length ∧ available ≤ index.toNat
  | _ => True

namespace Fault

variable {sizing : Sizing} {program : List UInt8} {executed : Instruction UInt8 UInt8 → Prop}

theorem truthful_of_isArithmetic {cause : Fault} (h : cause.isArithmetic = true) :
    cause.Truthful sizing program executed := by
  cases cause with
  | typeMismatch instruction expected actual => trivial
  | divisionByZero => trivial
  | nativeDivision kind => trivial
  | stringTooLong length => trivial
  | _ => cases h

theorem truthful_of_wrong {e : DecodeError} (h : e.isShortage = false) (offset : Nat) :
    (ofDecodeError offset e).Truthful sizing program executed := by
  cases e with
  | unexpectedEnd => cases h
  | truncated expected remaining => cases h
  | _ => trivial

/-- What cannot be read as a value is reported at the place where the value should begin. -/
theorem truthful_of_misread {offset : Nat} {e : DecodeError} (ho : offset ≤ program.length)
    (h : Codec.Misread (program.drop offset) e) : (ofDecodeError offset e).Truthful sizing program executed := by
  have hl := List.length_drop (i := offset) (l := program)
  have hfirst : program[offset]? = (program.drop offset).head? := List.head?_drop.symm
  have hsecond : program[offset + 1]? = ((program.drop offset).drop 1).head? := by
    rw [List.drop_drop, List.head?_drop]
  generalize program.drop offset = input at h hl hfirst hsecond
  cases h with
  | empty =>
    simp only [List.length_nil] at hl
    exact .inl (by omega)
  | @short kind content hc =>
    simp only [List.length_cons] at hl
    exact .inr ⟨kind, hfirst, by omega⟩
  | @cut length text ht =>
    simp only [List.length_cons] at hl
    exact ⟨hfirst, ⟨length, hsecond, rfl⟩, by omega, ht⟩
  | wrong hw => exact truthful_of_wrong hw offset

end Fault

namespace Machine

/-- The machine carries out an instruction in the course of its run. -/
def Executes (m : Machine) (i : Instruction UInt8 UInt8) : Prop :=
  ∃ fuel before after rest, run fuel m = (.unfinished, before) ∧
    Instruction.decode before.ahead = .ok i rest ∧ step before = .ok .next after

/-- The machine shows what an instruction has left behind: its register holds a value, its location is known. -/
structure Shows (m : Machine) (i : Instruction UInt8 UInt8) : Prop where
  register : ∀ index, i.written? = some index → m.registers.slots[index.toNat]? ≠ some none
  location : ∀ id, i = .mark id → m.locations.find? id ≠ none

/-- A machine in good order with the standard system calls that shows what the given instructions have left
behind. -/
structure Accounted (sizing : Sizing) (program : List UInt8) (executed : Instruction UInt8 UInt8 → Prop)
    (m : Machine) : Prop extends Underway sizing program m where
  syscalls : m.syscalls = .standard
  shown : ∀ i, executed i → Shows m i

section Effects

variable {m m' : Machine} {i : Instruction UInt8 UInt8} {flow : Flow}

theorem Effect.registers_cases (h : Effect m i flow m') :
    (i.written? = none ∧ m'.registers = m.registers) ∨
      ∃ target v, i.written? = some target ∧ WritesRegister target v m m' := by
  cases h with
  | load _ hw => exact .inr ⟨_, _, rfl, hw⟩
  | store _ hw => exact .inl ⟨rfl, hw.registers⟩
  | fetch _ hw => exact .inr ⟨_, _, rfl, hw⟩
  | arithmetic _ _ _ hw => exact .inr ⟨_, _, rfl, hw⟩
  | halt _ _ hu => exact .inl ⟨rfl, hu.registers⟩
  | branch _ _ hu => exact .inl ⟨rfl, hu.registers⟩
  | jump hu => exact .inl ⟨rfl, hu.registers⟩
  | mark hw => exact .inl ⟨rfl, hw.registers⟩
  | call _ _ hu => exact .inl ⟨rfl, hu.registers⟩

theorem Effect.locations_cases (h : Effect m i flow m') :
    ((∀ id, i ≠ .mark id) ∧ m'.locations = m.locations) ∨ ∃ id, i = .mark id ∧ WritesLocation id m m' := by
  cases h with
  | load _ hw => exact .inl ⟨by simp, hw.locations⟩
  | store _ hw => exact .inl ⟨by simp, hw.locations⟩
  | fetch _ hw => exact .inl ⟨by simp, hw.locations⟩
  | arithmetic _ _ _ hw => exact .inl ⟨by simp, hw.locations⟩
  | halt _ _ hu => exact .inl ⟨by simp, hu.locations⟩
  | branch _ _ hu => exact .inl ⟨by simp, hu.locations⟩
  | jump hu => exact .inl ⟨by simp, hu.locations⟩
  | mark hw => exact .inr ⟨_, rfl, hw⟩
  | call _ _ hu => exact .inl ⟨by simp, hu.locations⟩

theorem WritesRegister.slot_ne {target : UInt8} {v : Value} (h : WritesRegister target v m m') :
    m'.registers.slots[target.toNat]? ≠ some none := by
  rw [slot_of_get h.written]
  simp

theorem WritesLocation.find?_ne {id : UInt8} (h : WritesLocation id m m') : m'.locations.find? id ≠ none := by
  rw [h.written]
  simp

theorem Effect.shows (h : Effect m i flow m') : Shows m' i := by
  constructor
  · intro index ht
    rcases h.registers_cases with ⟨hn, -⟩ | ⟨target, v, hs, hw⟩
    · rw [hn] at ht
      cases ht
    · cases hs.symm.trans ht
      exact hw.slot_ne
  · intro id hi
    rcases h.locations_cases with ⟨hn, -⟩ | ⟨id', hs, hw⟩
    · exact (hn id hi).elim
    · cases hs.symm.trans hi
      exact hw.find?_ne

/-- What one instruction has left behind is not taken away by another. -/
theorem Effect.keeps_shown (h : Effect m i flow m') {j : Instruction UInt8 UInt8} (hj : Shows m j) : Shows m' j := by
  constructor
  · intro index ht
    rcases h.registers_cases with ⟨-, he⟩ | ⟨target, v, -, hw⟩
    · rw [he]
      exact hj.register index ht
    · by_cases hi : index = target
      · exact hi ▸ hw.slot_ne
      · rw [hw.others _ fun he => hi (UInt8.toNat_inj.mp he)]
        exact hj.register index ht
  · intro id hi
    rcases h.locations_cases with ⟨-, he⟩ | ⟨id', -, hw⟩
    · rw [he]
      exact hj.location id hi
    · by_cases hid : id = id'
      · exact hid ▸ hw.find?_ne
      · rw [hw.others id hid]
        exact hj.location id hi

end Effects

section Reports

variable {sizing : Sizing} {program : List UInt8} {executed : Instruction UInt8 UInt8 → Prop} {m m' : Machine}

theorem Accounted.recorded (h : Accounted sizing program executed m) (op : Opcode) :
    Accounted sizing program executed (m.recorded op) :=
  ⟨h.toUnderway.recorded op, h.syscalls, fun i hi => ⟨(h.shown i hi).register, (h.shown i hi).location⟩⟩

theorem Accounted.leaving (h : Accounted sizing program executed m) (rest : List UInt8) :
    Accounted sizing program executed (m.leaving rest) :=
  ⟨h.toUnderway.leaving rest, h.syscalls, fun i hi => ⟨(h.shown i hi).register, (h.shown i hi).location⟩⟩

theorem Accounted.ahead_eq (h : Accounted sizing program executed m) : m.ahead = program.drop m.code.cursor := by
  rw [ahead, h.data]

theorem Accounted.cursor_eq (h : Accounted sizing program executed m) (ha : m.ahead = []) :
    m.code.cursor = program.length := by
  rw [h.ahead_eq, List.drop_eq_nil_iff] at ha
  exact Nat.le_antisymm h.cursor ha

theorem Accounted.byte_at_cursor (h : Accounted sizing program executed m) {b : UInt8} {rest : List UInt8}
    (ha : m.ahead = b :: rest) : program[m.code.cursor]? = some b := by
  rw [← List.head?_drop, ← h.ahead_eq, ha]
  rfl

theorem readByte_reports :
    Secures (Accounted sizing program executed) (fun _ => True) (Fault.Truthful sizing program executed) readByte := by
  intro m hm
  cases ha : m.ahead with
  | nil =>
    rw [readByte_of_ahead_nil ha]
    exact .error hm (.inl (hm.cursor_eq ha))
  | cons b rest =>
    rw [readByte_of_ahead ha]
    exact .ok (hm.leaving rest) trivial

theorem readValue_reports :
    Secures (Accounted sizing program executed) (fun _ => True) (Fault.Truthful sizing program executed)
      (reading CodeReader.value) := by
  intro m hm
  have hc : m.code.cursor ≤ m.code.data.length := by
    rw [hm.data]
    exact hm.cursor
  cases hd : Codec.value.decode m.ahead with
  | ok v rest =>
    rw [readValue_of_decode hc hd]
    exact .ok (hm.leaving rest) trivial
  | error e rest =>
    rw [readValue_of_misread hc hd]
    rw [ahead, hm.data] at hd
    exact .error hm (Fault.truthful_of_misread hm.cursor (Codec.misread_of_decode hd))

/-- A register that holds nothing has not been the target of an instruction. -/
theorem registers_get_truthful (hm : Accounted sizing program executed m) {index : UInt8} {cause : Fault}
    (h : m.registers.get index = .error cause) : cause.Truthful sizing program executed := by
  rcases Registers.get_eq_error h with ⟨rfl, hle⟩ | ⟨rfl, hs⟩
  · exact ⟨hm.registers, hle⟩
  · have hlt : index.toNat < m.registers.count := (Array.getElem?_eq_some_iff.mp hs).1
    rw [hm.registers] at hlt
    exact ⟨hlt, fun i hi ht => (hm.shown i hi).register index ht hs⟩

theorem readOperand_reports :
    Secures (Accounted sizing program executed) (fun _ => True) (Fault.Truthful sizing program executed)
      readOperand := by
  intro m hm
  cases ha : m.ahead with
  | nil =>
    rw [readOperand_of_ahead_nil ha]
    exact .error hm (.inl (hm.cursor_eq ha))
  | cons kind input =>
    rw [readOperand_of_kind ha]
    cases hk : OperandKind.ofCode? kind with
    | none =>
      refine .error (hm.leaving input) ⟨hm.byte_at_cursor ha, ?_, ?_⟩
      · rintro rfl
        cases hk
      · rintro rfl
        cases hk
    | some k =>
      cases k with
      | register =>
        have hr : Secures (Accounted sizing program executed) (fun _ => True)
            (Fault.Truthful sizing program executed)
            (readByte >>= fun index => asking fun m => m.registers.get index) :=
          readByte_reports.bind fun index _ =>
            secures_asking (fun _ _ _ _ => trivial) fun _ _ hm hg => registers_get_truthful hm hg
        exact hr _ (hm.leaving input)
      | value => exact readValue_reports _ (hm.leaving input)

theorem setRegister_reports (index : UInt8) (v : Value) :
    RaisesOn (Accounted sizing program executed) (Fault.Truthful sizing program executed) (setRegister index v) := by
  intro m cause m' hm h
  obtain ⟨rfl, hle⟩ := Registers.set_eq_error (changing_eq_error h)
  exact ⟨hm.registers, hle⟩

theorem storeValue_reports (address : UInt8) (v : Value) :
    RaisesOn (Accounted sizing program executed) (Fault.Truthful sizing program executed) (storeValue address v) := by
  intro m cause m' hm h
  rcases Memory.store_eq_error (changing_eq_error h) with ⟨length, -, rfl⟩ | ⟨rfl, hlt⟩
  · trivial
  · exact ⟨hm.memory.1, hlt⟩

theorem fetchValue_reports (address : UInt8) :
    Secures (Accounted sizing program executed) (fun _ => True) (Fault.Truthful sizing program executed)
      (fetchValue address) := by
  apply secures_asking
  · exact fun _ _ _ _ => trivial
  · intro m cause hm h
    rcases Memory.load_eq_error h with ⟨width, rfl, hw⟩ | ⟨e, he, rfl⟩
    · exact ⟨hm.memory.1, hw⟩
    · exact Fault.truthful_of_wrong he _

/-- A location that is not known has no marker among the instructions executed. -/
theorem jumpTo_reports (id : UInt8) :
    RaisesOn (Accounted sizing program executed) (Fault.Truthful sizing program executed) (jumpTo id) := by
  intro m cause m' hm h
  rcases jumpTo_error h with ⟨hn, rfl⟩ | ⟨p, -, -, rfl⟩
  · exact fun hi => (hm.shown _ hi).location id rfl hn
  · trivial

theorem printLine_reports (count : UInt8) :
    RaisesOn (Accounted sizing program executed) (Fault.Truthful sizing program executed)
      (perform (Script.printLine count)) := by
  by_cases hc : count = 1
  · have hw : ∀ line, RaisesOn (Accounted sizing program executed) (Fault.Truthful sizing program executed)
        (writeLine line) := by
      intro line m cause m' _ h
      obtain ⟨reason, output, rfl, -⟩ := writeLine_eq_error h
      trivial
    rw [hc, show perform (Script.printLine 1) = _ from funext perform_printLine]
    exact readOperand_reports.bind_raisesOn fun v _ => (hw v.text).done _
  · intro m cause m' _ h
    rw [perform_printLine_of_ne hc] at h
    cases h
    trivial

theorem syscall_reports (index : UInt8) :
    Secures (Accounted sizing program executed) (fun entry => entry = ⟨"PRINTLN", Script.printLine⟩)
      (Fault.Truthful sizing program executed) (asking fun m => m.syscalls.get index) := by
  apply secures_asking
  · intro m entry hm h
    rw [hm.syscalls] at h
    exact get_standard h
  · intro m cause hm h
    rw [hm.syscalls] at h
    obtain ⟨rfl, hle⟩ := syscalls_get_eq_error h
    exact ⟨rfl, hle⟩

theorem execute_reports (op : Opcode) :
    RaisesOn (Accounted sizing program executed) (Fault.Truthful sizing program executed) (execute op) := by
  cases op with
  | load =>
    apply readByte_reports.bind_raisesOn
    intro target _
    apply readOperand_reports.bind_raisesOn
    intro v _
    exact (setRegister_reports target v).done _
  | store =>
    apply readByte_reports.bind_raisesOn
    intro address _
    apply readOperand_reports.bind_raisesOn
    intro v _
    exact (storeValue_reports address v).done _
  | fetch =>
    apply readByte_reports.bind_raisesOn
    intro address _
    apply readByte_reports.bind_raisesOn
    intro target _
    apply (fetchValue_reports address).bind_raisesOn
    intro v _
    exact (setRegister_reports target v).done _
  | arithmetic op =>
    have happly : ∀ a b, Secures (Accounted sizing program executed) (fun _ => True)
        (Fault.Truthful sizing program executed) (asking fun _ => op.apply a b) :=
      fun a b => secures_asking (fun _ _ _ _ => trivial) fun _ _ _ h =>
        Fault.truthful_of_isArithmetic (arithmetic_cause h)
    apply readOperand_reports.bind_raisesOn
    intro a _
    apply readOperand_reports.bind_raisesOn
    intro b _
    apply readByte_reports.bind_raisesOn
    intro target _
    apply (happly a b).bind_raisesOn
    intro v _
    exact (setRegister_reports target v).done _
  | halt =>
    apply readOperand_reports.bind_raisesOn
    intro v _
    split
    next => exact fun m cause m' _ h => by cases h
    next => exact fun m cause m' _ h => by cases h; trivial
  | branch test =>
    apply readOperand_reports.bind_raisesOn
    intro v _
    apply readByte_reports.bind_raisesOn
    intro id _
    split
    next => exact (jumpTo_reports id).done _
    next => exact fun m cause m' _ h => by cases h
    next => exact fun m cause m' _ h => by cases h; trivial
  | jump =>
    apply readByte_reports.bind_raisesOn
    intro id _
    exact (jumpTo_reports id).done _
  | mark =>
    apply readByte_reports.bind_raisesOn
    exact fun id _ m cause m' _ h => by cases h
  | call =>
    apply readByte_reports.bind_raisesOn
    intro index _
    apply readByte_reports.bind_raisesOn
    intro count _
    apply (syscall_reports index).bind_raisesOn
    rintro entry rfl
    exact printLine_reports count

theorem step_reports :
    RaisesOn (Accounted sizing program executed) (Fault.Truthful sizing program executed) step := by
  intro m cause m' hm h
  cases ha : m.ahead with
  | nil =>
    rw [step_of_ahead_nil ha] at h
    cases h
    exact hm.cursor_eq ha
  | cons b rest =>
    cases hb : Opcode.ofCode? b with
    | none =>
      rw [step_of_invalid hb ha] at h
      cases h
      refine ⟨hm.byte_at_cursor ha, ?_⟩
      rintro op rfl
      rw [Opcode.ofCode?_code] at hb
      cases hb
    | some op =>
      rw [step_eq_execute hb ha] at h
      exact execute_reports op _ cause m' ((hm.recorded op).leaving rest) h

theorem Accounted.next (h : Accounted sizing program executed m) (hm : step m = .ok .next m') :
    Accounted sizing program executed m' := by
  obtain ⟨i, rest, hd⟩ := decodes_of_step h.syscalls hm
  have hu := h.toUnderway.step.1
  have hk := step_records hd
  rw [hm] at hu hk
  exact ⟨hu, hk.syscalls.trans h.syscalls, fun j hj => (step_effect h.syscalls hd hm).keeps_shown (h.shown j hj)⟩

end Reports

section Runs

variable {sizing : Sizing} {program : List UInt8} {loaded m m' before after : Machine}

/-- What was executed in a run that has come to a fault was executed before it. -/
theorem drive_of_earlier {k n : Nat} {cause : Fault} {failed : Machine} (hk : drive k m = (.unfinished, before))
    (hs : step before = .ok .next after) (hn : drive n m = (.unfinished, m')) (hf : step m' = .error cause failed) :
    ∃ l, drive l after = (.unfinished, m') := by
  rcases Nat.lt_or_ge k n with hlt | hge
  · refine ⟨n - (k + 1), ?_⟩
    have hd := drive_add (n - k) hk
    rw [show k + (n - k) = n by omega, hn, show n - k = n - (k + 1) + 1 by omega] at hd
    simp only [drive, hs] at hd
    exact hd.symm
  · have hd := drive_add (k - n) hn
    rw [show n + (k - n) = k by omega, hk] at hd
    cases hl : k - n with
    | zero =>
      rw [hl] at hd
      cases hd
      rw [hs] at hf
      cases hf
    | succ l =>
      rw [hl] at hd
      simp only [drive, hf] at hd
      cases hd

/-- Faults are reported as they are. Whatever the program, what the fault that ends a run says of the bytes at
an offset, of the sizes of the machine and of the instructions executed before it is so. -/
theorem fault_reports_truthful (hl : load sizing program = .ok loaded) {output : Sink} {onWorker : Bool}
    (hm : m = { loaded with output, onWorker }) {fuel : Nat} {cause : Fault}
    (h : run fuel m = (.failed cause, m')) : cause.Truthful sizing program (Executes m) := by
  have hsys : loaded.syscalls = .standard := by
    obtain ⟨-, capacity, -, rfl⟩ := load_eq_ok hl
    rfl
  have hself : m = { loaded with syscalls := .standard, output, onWorker } := by rw [hm, ← hsys]
  have hready : Ready .standard program m := ⟨sizing, loaded, hl, by rw [hself]⟩
  have hstart : Accounted sizing program (fun _ => False) m.started :=
    ⟨hself ▸ underway_of_load hl .standard output onWorker, by rw [hself]; rfl, fun i hi => hi.elim⟩
  rw [hready.run_eq] at h
  obtain ⟨u, hu⟩ | ⟨n, -, before, hn, hc⟩ := drive_last fuel m.started
  · rw [hu] at h
    cases h
  · rw [h] at hc
    obtain ⟨failed, hf, -⟩ := error_of_conclude hc
    have hb := keeps_of_unfinished Accounted.next hstart hn
    refine step_reports before cause failed ⟨hb.toUnderway, hb.syscalls, ?_⟩ hf
    -- an instruction shows right after it, and every later step keeps what it shows
    rintro i ⟨k, s, after, rest, hk, hd, hs⟩
    rw [hready.run_eq] at hk
    obtain ⟨l, hlater⟩ := drive_of_earlier hk hs hn hf
    have hat := keeps_of_unfinished Accounted.next hstart hk
    have hafter : Accounted sizing program (· = i) after := by
      refine ⟨(hat.next hs).toUnderway, (hat.next hs).syscalls, ?_⟩
      rintro j rfl
      exact (step_effect hat.syscalls hd hs).shows
    exact (keeps_of_unfinished Accounted.next hafter hlater).shown i rfl

/-- The first instruction writes one register, and the second one reads another. -/
theorem fault_reports_truthful_of_unwritten_register :
    ∃ loaded m', load ⟨none, 0, 4⟩ [0x00, 0, 1, 1, 5, 0x00, 1, 0, 2] = .ok loaded ∧
      run 2 loaded = (.failed (.uninitializedRegister 2), m') ∧
      Executes loaded (.load 0 (.value (.byte 5))) ∧ ∀ i, Executes loaded i → i.written? ≠ some 2 := by
  have hl : load ⟨none, 0, 4⟩ [0x00, 0, 1, 1, 5, 0x00, 1, 0, 2] = .ok
      { code := ⟨[0x00, 0, 1, 1, 5, 0x00, 1, 0, 2], 9, 0⟩, registers := .empty 4, memory := .zeroed 0 } := rfl
  have hr :
      run 2 { code := ⟨[0x00, 0, 1, 1, 5, 0x00, 1, 0, 2], 9, 0⟩, registers := .empty 4, memory := .zeroed 0 } =
        (.failed (.uninitializedRegister 2), _) := rfl
  exact ⟨_, _, hl, hr, ⟨0, _, _, _, rfl, rfl, rfl⟩, (fault_reports_truthful hl rfl hr).2⟩

end Runs

end Machine

end RegisterMachine
