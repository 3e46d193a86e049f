import RegisterMachine.Proofs.RoomierData
import RegisterMachine.Proofs.Runs

namespace RegisterMachine

namespace Machine

/-- Two machines at the same point of the same program with the same data, of which one has more room than the
other. -/
structure Roomier (small large : Sizing) (m m' : Machine) : Prop where
  data : m'.code.data = m.code.data
  cursor : m'.code.cursor = m.code.cursor
  inside : m.code.cursor ≤ m.code.data.length
  room : m.code.data.length ≤ m.code.capacity
  room' : m'.code.data.length ≤ m'.code.capacity
  locations : m'.locations = m.locations
  known : ∀ id p, m.locations.find? id = some p → p ≤ m.code.data.length
  registers : Registers.Extends small large m.registers m'.registers
  bytes : m'.memory.written = m.memory.written
  memory : m.memory.capacity = small.memorySize
  memory' : m'.memory.capacity = large.memorySize
  le : small.memorySize ≤ large.memorySize
  standard : m.syscalls = .standard
  standard' : m'.syscalls = .standard
  output : m'.output = m.output
  status : m'.status = m.status
  trace : m'.trace = m.trace

/-- The action does the same on a roomier machine, unless the other one is too small. -/
abbrev Unsized {α : Type} (small large : Sizing) (x : Action α) : Prop :=
  Pairs (Roomier small large) (Fault.TooSmall small large) (·.isAddress = false) x

section Actions

variable {small large : Sizing} {m m' : Machine}

theorem Roomier.ahead_eq (h : Roomier small large m m') : m'.ahead = m.ahead := by
  rw [ahead, ahead, h.data, h.cursor]

theorem Roomier.leaving (h : Roomier small large m m') (rest : List UInt8) :
    Roomier small large (m.leaving rest) (m'.leaving rest) :=
  { h with
    cursor := by
      change m'.code.data.length - rest.length = m.code.data.length - rest.length
      rw [h.data]
    inside := Nat.sub_le _ _ }

theorem Roomier.recorded (h : Roomier small large m m') (op : Opcode) :
    Roomier small large (m.recorded op) (m'.recorded op) := by
  refine { h with trace := ?_ }
  simp only [Machine.recorded, h.cursor, h.trace]

theorem readByte_unsized : Unsized small large readByte := by
  intro m m' h
  cases ha : m.ahead with
  | nil =>
    rw [readByte_of_ahead_nil ha, readByte_of_ahead_nil (h.ahead_eq.trans ha), h.cursor]
    exact .error rfl h
  | cons b rest =>
    rw [readByte_of_ahead ha, readByte_of_ahead (h.ahead_eq.trans ha)]
    exact .ok (h.leaving rest)

theorem readValue_unsized : Unsized small large (reading CodeReader.value) := by
  intro m m' h
  have hc' : m'.code.cursor ≤ m'.code.data.length := by
    rw [h.cursor, h.data]
    exact h.inside
  cases hd : Codec.value.decode m.ahead with
  | ok v rest =>
    rw [readValue_of_decode h.inside hd, readValue_of_decode hc' (h.ahead_eq ▸ hd)]
    exact .ok (h.leaving rest)
  | error e rest =>
    rw [readValue_of_misread h.inside hd, readValue_of_misread hc' (h.ahead_eq ▸ hd), h.cursor]
    exact .error (Fault.isAddress_ofDecodeError _ e) h

theorem readOperand_unsized : Unsized small large readOperand := by
  intro m m' h
  cases ha : m.ahead with
  | nil =>
    rw [readOperand_of_ahead_nil ha, readOperand_of_ahead_nil (h.ahead_eq.trans ha), h.cursor]
    exact .error rfl h
  | cons kind input =>
    rw [readOperand_of_kind ha, readOperand_of_kind (h.ahead_eq.trans ha), h.cursor]
    cases OperandKind.ofCode? kind with
    | none => exact .error rfl (h.leaving input)
    | some k =>
      cases k with
      | register =>
        have hr : Unsized small large (readByte >>= fun index => asking fun m => m.registers.get index) :=
          readByte_unsized.bind fun index => pairs_asking fun _ _ hm => hm.registers.get_concur index
        exact hr _ _ (h.leaving input)
      | value => exact readValue_unsized _ _ (h.leaving input)

theorem setRegister_unsized (index : UInt8) (v : Value) : Unsized small large (setRegister index v) := by
  intro m m' h
  simp only [setRegister, changing]
  cases hs : m.registers.set index v with
  | ok registers =>
    obtain ⟨registers', hs', he⟩ := h.registers.set hs
    rw [hs']
    exact .ok { h with registers := he }
  | error cause =>
    rcases h.registers.set_error hs with hc | ⟨hc, hs'⟩
    · exact .excused hc
    · rw [hs']
      exact .error hc h

theorem storeValue_unsized (address : UInt8) (v : Value) : Unsized small large (storeValue address v) := by
  intro m m' h
  have hle : m.memory.capacity ≤ m'.memory.capacity := by
    rw [h.memory, h.memory']
    exact h.le
  simp only [storeValue, changing]
  rcases Memory.store_cases large h.memory hle address v with ⟨bytes, hs, hs'⟩ | ⟨cause, hs, hc⟩ | ⟨length, hs, hs'⟩
  · rw [hs, hs']
    refine .ok { h with bytes := ?_ }
    simp only [Memory.overwrite, h.bytes]
  · rw [hs]
    exact .excused hc
  · rw [hs, hs']
    exact .error rfl h

theorem fetchValue_unsized (address : UInt8) : Unsized small large (fetchValue address) := by
  apply pairs_asking
  intro m m' h
  have hle : m.memory.capacity ≤ m'.memory.capacity := by
    rw [h.memory, h.memory']
    exact h.le
  exact Memory.load_concur h.bytes h.memory hle address

theorem writeLine_unsized (line : String) : Unsized small large (writeLine line) := by
  intro m m' h
  simp only [writeLine, h.output]
  cases hw : Sink.writeLine line m.output with
  | ok u output => exact .ok { h with output := rfl }
  | error cause output =>
    have hr : writeLine line m = .error cause { m with output } := by simp only [writeLine, hw]
    obtain ⟨reason, _, rfl, -⟩ := writeLine_eq_error hr
    exact .error rfl { h with output := rfl }

/-- A known place lies within the program, and the program within the code of both machines. -/
theorem jumpTo_unsized (id : UInt8) : Unsized small large (jumpTo id) := by
  intro m m' h
  cases hf : m.locations.find? id with
  | none =>
    rw [jumpTo_of_none hf, jumpTo_of_none (h.locations ▸ hf)]
    exact .error rfl h
  | some p =>
    have hp := h.known id p hf
    have hp' : p ≤ m'.code.data.length := h.data ▸ hp
    rw [jumpTo_of_some hf (Nat.le_trans hp h.room), jumpTo_of_some (h.locations ▸ hf) (Nat.le_trans hp' h.room')]
    exact .ok { h with cursor := rfl, inside := hp }

theorem markHere_unsized (id : UInt8) : Unsized small large (markHere id) := by
  intro m m' h
  refine .ok { h with locations := ?_, known := ?_ }
  · simp only [h.locations, h.cursor]
  · intro id' p hf
    by_cases he : id' = id
    · rw [he, Locations.find?_insert_self] at hf
      cases hf
      exact h.inside
    · rw [Locations.find?_insert_of_ne _ _ he] at hf
      exact h.known id' p hf

theorem printLine_unsized (count : UInt8) : Unsized small large (perform (Script.printLine count)) := by
  by_cases hc : count = 1
  · rw [hc, show perform (Script.printLine 1) = _ from funext perform_printLine]
    exact readOperand_unsized.bind fun v => (writeLine_unsized v.text).bind fun _ => pairs_pure _
  · intro m m' h
    rw [perform_printLine_of_ne hc, perform_printLine_of_ne hc]
    exact .error rfl h

theorem syscall_unsized (index count : UInt8) :
    Unsized small large ((asking fun m => m.syscalls.get index) >>= fun entry => perform (entry.script count)) := by
  intro m m' h
  cases hg : SyscallTable.standard.get index with
  | ok entry =>
    have hg' := get_standard hg
    have ha : (asking fun m => m.syscalls.get index) m = .ok entry m := asking_of_ok m (h.standard ▸ hg)
    have ha' : (asking fun m => m.syscalls.get index) m' = .ok entry m' := asking_of_ok m' (h.standard' ▸ hg)
    rw [bind_of_ok ha, bind_of_ok ha', hg']
    exact printLine_unsized count m m' h
  | error cause =>
    have ha : (asking fun m => m.syscalls.get index) m = .error cause m := asking_of_error m (h.standard ▸ hg)
    have ha' : (asking fun m => m.syscalls.get index) m' = .error cause m' := asking_of_error m' (h.standard' ▸ hg)
    rw [bind_of_error ha, bind_of_error ha', (syscalls_get_eq_error hg).1]
    exact .error rfl h

theorem execute_unsized (op : Opcode) : Unsized small large (execute op) := by
  cases op with
  | load =>
    exact readByte_unsized.bind fun target => readOperand_unsized.bind fun v =>
      (setRegister_unsized target v).bind fun _ => pairs_pure _
  | store =>
    exact readByte_unsized.bind fun address => readOperand_unsized.bind fun v =>
      (storeValue_unsized address v).bind fun _ => pairs_pure _
  | fetch =>
    exact readByte_unsized.bind fun address => readByte_unsized.bind fun target =>
      (fetchValue_unsized address).bind fun v => (setRegister_unsized target v).bind fun _ => pairs_pure _
  | arithmetic op =>
    have happly : ∀ a b, Unsized small large (asking fun _ => op.apply a b) := by
      intro a b
      apply pairs_asking
      intro _ _ _
      cases hv : op.apply a b with
      | ok v => exact .ok v
      | error cause => exact .error (Fault.isAddress_of_isArithmetic (arithmetic_cause hv))
    exact readOperand_unsized.bind fun a => readOperand_unsized.bind fun b => readByte_unsized.bind fun target =>
      (happly a b).bind fun v => (setRegister_unsized target v).bind fun _ => pairs_pure _
  | halt =>
    apply readOperand_unsized.bind
    intro v
    split
    next => exact pairs_pure _
    next => exact pairs_throw rfl
  | branch test =>
    apply readOperand_unsized.bind
    intro v
    apply readByte_unsized.bind
    intro id
    split
    next => exact (jumpTo_unsized id).bind fun _ => pairs_pure _
    next => exact pairs_pure _
    next => exact pairs_throw rfl
  | jump => exact readByte_unsized.bind fun id => (jumpTo_unsized id).bind fun _ => pairs_pure _
  | mark => exact readByte_unsized.bind fun id => (markHere_unsized id).bind fun _ => pairs_pure _
  | call => exact readByte_unsized.bind fun index => readByte_unsized.bind fun count => syscall_unsized index count

theorem step_unsized : Unsized small large step := by
  intro m m' h
  cases ha : m.ahead with
  | nil =>
    rw [step_of_ahead_nil ha, step_of_ahead_nil (h.ahead_eq.trans ha), h.cursor]
    exact .error rfl h
  | cons b rest =>
    cases hb : Opcode.ofCode? b with
    | none =>
      rw [step_of_invalid hb ha, step_of_invalid hb (h.ahead_eq.trans ha), h.cursor]
      exact .error rfl (h.leaving rest)
    | some op =>
      rw [step_eq_execute hb ha, step_eq_execute hb (h.ahead_eq.trans ha)]
      exact execute_unsized op _ _ ((h.recorded op).leaving rest)

end Actions

/-- Two machines that have done the same and hold the same, whatever their sizes. -/
structure Alike (m m' : Machine) : Prop where
  trace : m'.trace = m.trace
  cursor : m'.code.cursor = m.code.cursor
  locations : m'.locations = m.locations
  registers : ∀ index v, m'.registers.get index = .ok v ↔ m.registers.get index = .ok v
  memory : ∀ address, m'.memory.byteAt address = m.memory.byteAt address
  output : m'.output = m.output
  status : m'.status = m.status

/-- Two runs, finished or not, that have come to the same point in the same way. -/
def SameRun (r r' : Outcome × Machine) : Prop := r'.1 = r.1 ∧ Alike r.2 r'.2

section Runs

variable {small large : Sizing} {program : List UInt8} {m m' : Machine}

theorem SameRun.symm {r r' : Outcome × Machine} (h : SameRun r r') : SameRun r' r :=
  ⟨h.1.symm, h.2.trace.symm, h.2.cursor.symm, h.2.locations.symm, fun index v => (h.2.registers index v).symm,
    fun address => (h.2.memory address).symm, h.2.output.symm, h.2.status.symm⟩

theorem Roomier.alike (h : Roomier small large m m') : Alike m m' := by
  refine ⟨h.trace, h.cursor, h.locations, fun _ _ => h.registers.get_eq_ok, ?_, h.output, h.status⟩
  intro address
  rw [Memory.byteAt, Memory.byteAt, h.bytes]

/-- What holds of a step holds of a run: a roomier machine does the same, unless the other one is too small. -/
theorem Roomier.drive (h : Roomier small large m m') (fuel : Nat) :
    (∃ cause n, Machine.drive fuel m = (.failed cause, n) ∧ Fault.TooSmall small large cause) ∨
      (SameRun (Machine.drive fuel m) (Machine.drive fuel m') ∧
        ∀ cause n, Machine.drive fuel m = (.failed cause, n) → cause.isAddress = false) := by
  induction fuel generalizing m m' with
  | zero => exact .inr ⟨⟨rfl, h.alike⟩, fun cause n hf => by cases hf⟩
  | succ fuel ih =>
    have hs := step_unsized m m' h
    generalize hr : step m = r at hs
    generalize hr' : step m' = r' at hs
    simp only [Machine.drive, hr, hr']
    cases hs with
    | @ok flow n n' hn =>
      cases flow with
      | next => exact ih hn
      | halt code =>
        have he : Roomier small large { n with status := n.status.halt code }
            { n' with status := n'.status.halt code } := { hn with status := by rw [hn.status] }
        exact .inr ⟨⟨rfl, he.alike⟩, fun cause n hf => by cases hf⟩
      | crash => exact .inr ⟨⟨rfl, hn.alike⟩, fun cause n hf => by cases hf⟩
    | @error cause n n' hc hn =>
      have he : Roomier small large { n with status := n.status.fault } { n' with status := n'.status.fault } :=
        { hn with status := by rw [hn.status] }
      exact .inr ⟨⟨rfl, he.alike⟩, fun cause n hf => by cases hf; exact hc⟩
    | @excused cause n r hc => exact .inl ⟨cause, _, rfl, hc⟩

theorem roomier_of_load (hs : load small program = .ok m) (hl : load large program = .ok m')
    (hmem : small.memorySize ≤ large.memorySize) (hreg : small.registerCount ≤ large.registerCount) (output : Sink)
    (onWorker : Bool) :
    Roomier small large { m with output, onWorker }.started { m' with output, onWorker }.started := by
  obtain ⟨-, capacity, hroom, rfl⟩ := load_eq_ok hs
  obtain ⟨-, capacity', hroom', rfl⟩ := load_eq_ok hl
  exact
    { data := rfl, cursor := rfl, inside := Nat.zero_le _, room := hroom, room' := hroom', locations := rfl
      known := fun id p hf => by cases hf
      registers := Registers.extends_empty hreg, bytes := rfl, memory := rfl, memory' := rfl, le := hmem
      standard := rfl, standard' := rfl, output := rfl, status := rfl, trace := rfl }

theorem run_of_load (h : load small program = .ok m) (output : Sink) (onWorker : Bool) (fuel : Nat) :
    run fuel { m with output, onWorker } = Machine.drive fuel { m with output, onWorker }.started := by
  obtain ⟨-, capacity, -, rfl⟩ := load_eq_ok h
  rfl

/-- With 512 bytes of memory on both sides and as many registers, no machine is too small for the other. -/
theorem not_tooSmall {cause : Fault} (hmem : 512 ≤ small.memorySize) (hreg : large.registerCount = small.registerCount) :
    ¬ Fault.TooSmall small large cause := by
  rintro (h | h) <;> omega

/-- Sizes never show in a run. Whatever the program, a machine with more memory, more registers and any room for
its code does, step by step, what a smaller one does, until the smaller one has a fault outside of its memory or
its registers. With 512 bytes no run has a fault outside of the memory, so that every further byte is without
effect. -/
theorem run_ignores_sizes (hs : load small program = .ok m) (hl : load large program = .ok m')
    (hmem : small.memorySize ≤ large.memorySize) (hreg : small.registerCount ≤ large.registerCount) (output : Sink)
    (onWorker : Bool) (fuel : Nat) :
    ((∀ cause n, run fuel { m with output, onWorker } = (.failed cause, n) → cause.isOutside = false) →
      SameRun (run fuel { m with output, onWorker }) (run fuel { m' with output, onWorker })) ∧
    (512 ≤ small.memorySize →
      (∀ address width capacity n,
        run fuel { m with output, onWorker } ≠ (.failed (.addressOutOfRange address width capacity), n)) ∧
      ∀ other m'', load other program = .ok m'' → 512 ≤ other.memorySize →
        other.registerCount = small.registerCount →
        SameRun (run fuel { m with output, onWorker }) (run fuel { m'' with output, onWorker })) := by
  rw [run_of_load hs, run_of_load hl]
  refine ⟨?_, fun h512 => ⟨?_, ?_⟩⟩
  · intro hin
    rcases (roomier_of_load hs hl hmem hreg output onWorker).drive fuel with ⟨cause, n, hf, hc⟩ | ⟨hsame, -⟩
    · have hout := hin cause n hf
      rw [hc.isOutside] at hout
      cases hout
    · exact hsame
  · intro address width capacity n hf
    have hself := roomier_of_load hs hs (Nat.le_refl _) (Nat.le_refl _) output onWorker
    rcases hself.drive fuel with ⟨cause, n', -, hc⟩ | ⟨-, haddress⟩
    · exact not_tooSmall h512 rfl hc
    · cases haddress _ _ hf
  · intro other m'' ho ho512 hcount
    rw [run_of_load ho]
    rcases Nat.le_total small.memorySize other.memorySize with hle | hle
    · have hup := roomier_of_load hs ho hle (Nat.le_of_eq hcount.symm) output onWorker
      rcases hup.drive fuel with ⟨cause, n, -, hc⟩ | ⟨hsame, -⟩
      · exact (not_tooSmall h512 hcount hc).elim
      · exact hsame
    · have hdown := roomier_of_load ho hs hle (Nat.le_of_eq hcount) output onWorker
      rcases hdown.drive fuel with ⟨cause, n, -, hc⟩ | ⟨hsame, -⟩
      · exact (not_tooSmall ho512 hcount.symm hc).elim
      · exact hsame.symm

/-- A program that stores a string, stores a number over its last bytes, reads what is left there and halts. -/
def overlapping : List UInt8 :=
  [0x0a, 0, 1, 5, 2, 0x61, 0x62, 0x0a, 2, 1, 1, 5, 0x0e, 3, 0, 0x05, 1, 1, 7]

/-- The end of the number is read as a string whose length is the last byte of the smaller memory. -/
theorem run_ignores_sizes_of_leftovers :
    ∃ m m', load ⟨none, 5, 1⟩ overlapping = .ok m ∧ load ⟨some 64, 600, 256⟩ overlapping = .ok m' ∧
      (run 4 m).1 = .halted 7 ∧ (run 4 m').1 = .halted 7 ∧
      m.memory.capacity = 5 ∧ (run 4 m).2.registers.get 0 = .ok (.string "") ∧
      (run 4 m').2.registers.get 0 = .ok (.string "") := by
  have hs : load ⟨none, 5, 1⟩ overlapping =
      .ok { code := ⟨overlapping, 19, 0⟩, registers := .empty 1, memory := .zeroed 5 } := rfl
  have hl : load ⟨some 64, 600, 256⟩ overlapping =
      .ok { code := ⟨overlapping, 64, 0⟩, registers := .empty 256, memory := .zeroed 600 } := rfl
  have ho : (run 4 { code := ⟨overlapping, 19, 0⟩, registers := .empty 1, memory := .zeroed 5 }).1 = .halted 7 := by
    decide +kernel
  have hr : (run 4 { code := ⟨overlapping, 19, 0⟩, registers := .empty 1, memory := .zeroed 5 }).2.registers.get 0 =
      .ok (.string "") := by
    rfl
  obtain ⟨hsame, -⟩ := run_ignores_sizes hs hl (show 5 ≤ 600 by omega) (show 1 ≤ 256 by omega) {} false 4
  have h : SameRun (run 4 { code := ⟨overlapping, 19, 0⟩, registers := .empty 1, memory := .zeroed 5 })
      (run 4 { code := ⟨overlapping, 64, 0⟩, registers := .empty 256, memory := .zeroed 600 }) :=
    hsame fun cause n hf => nomatch ho.symm.trans (congrArg Prod.fst hf)
  exact ⟨_, _, hs, hl, ho, h.1.trans ho, rfl, hr, (h.2.registers 0 (.string "")).mpr hr⟩

end Runs

end Machine

end RegisterMachine
