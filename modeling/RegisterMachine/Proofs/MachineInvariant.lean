import RegisterMachine.Proofs.ActionContracts
import RegisterMachine.Proofs.Runs
import RegisterMachine.Proofs.StandardStep

namespace RegisterMachine

/-- A position right behind a marker of a location. -/
structure EndsMark (program : List UInt8) (id : UInt8) (p : Nat) : Prop where
  two_le : 2 ≤ p
  le_length : p ≤ program.length
  opcode : program[p - 2]? = some 0x0d
  id : program[p - 1]? = some id

namespace Fault

/-- The faults that a machine in good order has no cause for, unless texts are joined. -/
def isDisorder : Fault → Bool
  | outOfRange .. => true
  | stringTooLong _ => true
  | _ => false

/-- Whether an instruction may fail like this on a machine in good order. A position is out of range only for
a handler that says so, and no text is too long for the memory. -/
def PossibleAt (op : Opcode) (cause : Fault) : Prop :=
  (∀ position capacity, cause = .outOfRange position capacity → op = .call) ∧
    ∀ length, cause = .stringTooLong length → op ≠ .store

theorem possibleAt_of_order {cause : Fault} (h : cause.isDisorder = false) (op : Opcode) : cause.PossibleAt op := by
  constructor
  · rintro position capacity rfl
    cases h
  · rintro length rfl
    cases h

theorem possibleAt_arithmetic {cause : Fault} (h : cause.isDecoding = false) (op : ArithmeticOp) :
    cause.PossibleAt (.arithmetic op) := by
  constructor
  · rintro position capacity rfl
    cases h
  · simp

theorem possibleAt_call (cause : Fault) : cause.PossibleAt .call := by
  constructor
  · simp
  · simp

end Fault

theorem Value.ofText_fits {s : String} {v : Value} (h : Value.ofText s = .ok v) : v.Fits := by
  unfold Value.ofText at h
  split at h
  next => cases h
  next ht =>
    cases h
    rw [Value.tooLong?, ite_eq_right_iff] at ht
    exact Nat.le_of_not_lt fun hl => by cases ht hl

theorem Value.tooLong?_of_fits {v : Value} (h : v.Fits) : v.tooLong? = none := by
  cases v with
  | string s => exact if_neg (Nat.not_lt.mpr h)
  | _ => rfl

/-- Only joining texts makes strings, and what is joined is checked. -/
theorem arithmetic_fits {op : ArithmeticOp} {a b v : Value} (h : op.apply a b = .ok v) : v.Fits := by
  cases op with
  | add =>
    simp only [ArithmeticOp.apply, Value.add] at h
    split at h
    next => exact Value.ofText_fits h
    next => split at h <;> cases h <;> trivial
  | sub =>
    simp only [ArithmeticOp.apply, Value.sub] at h
    split at h <;> cases h <;> trivial
  | mul =>
    simp only [ArithmeticOp.apply, Value.mul] at h
    split at h <;> cases h <;> trivial
  | div =>
    simp only [ArithmeticOp.apply, Value.div] at h
    split at h
    next => cases h
    next =>
      split at h
      next => cases h
      next =>
        split at h
        next => cases h; trivial
        next => cases h; trivial
        next => split at h <;> cases h; trivial
        next => split at h <;> cases h; trivial

theorem memory_load_fits {m : Memory} {address : Nat} {v : Value} (h : m.load address = .ok v) : v.Fits := by
  obtain ⟨rest, hd⟩ := Memory.load_eq_ok h
  exact (Codec.value_lawful.encode_of_decode _ _ _ hd).1

theorem memory_load_order {m : Memory} {address : Nat} {cause : Fault} (h : m.load address = .error cause) :
    cause.isDisorder = false := by
  rcases Memory.load_eq_error h with ⟨width, rfl, -⟩ | ⟨e, -, rfl⟩
  · rfl
  · cases e <;> rfl

theorem registers_get_order {r : Registers} {index : UInt8} {cause : Fault} (h : r.get index = .error cause) :
    cause.isDisorder = false := by
  rcases Registers.get_eq_error h with ⟨rfl, -⟩ | ⟨rfl, -⟩
  · rfl
  · rfl

theorem slot_of_get {r : Registers} {index : UInt8} {v : Value} (h : r.get index = .ok v) :
    r.slots[index.toNat]? = some (some v) := by
  unfold Registers.get at h
  split at h
  next => cases h
  next => cases h
  next w hw => cases h; exact hw

theorem memory_store_eq_ok {m m' : Memory} {address : Nat} {v : Value} (h : m.store address v = .ok m')
    (hw : m.written.length ≤ m.capacity) : m'.capacity = m.capacity ∧ m'.written.length ≤ m'.capacity := by
  obtain ⟨hb, rfl⟩ := Memory.store_eq_ok h
  refine ⟨rfl, ?_⟩
  have hl : (m.overwrite address (Codec.value.encode v)).written.length =
      max (address + (Codec.value.encode v).length) m.written.length := by
    simp only [Memory.overwrite, List.rightpad, List.length_append, List.length_take, List.length_drop,
      List.length_replicate]
    omega
  change (m.overwrite address (Codec.value.encode v)).written.length ≤ m.capacity
  omega

theorem memory_store_order {m : Memory} {address : Nat} {v : Value} {cause : Fault} (hv : v.Fits)
    (h : m.store address v = .error cause) : cause.isDisorder = false := by
  rcases Memory.store_eq_error h with ⟨length, hl, -⟩ | ⟨rfl, -⟩
  · rw [Value.tooLong?_of_fits hv] at hl
    cases hl
  · rfl

namespace Machine

/-- A machine in good order: its program is as it was loaded and it reads inside of it, its registers and its
memory have their sizes, its strings can be written without loss, and it knows only places behind markers. -/
structure Intact (sizing : Sizing) (program : List UInt8) (m : Machine) : Prop where
  data : m.code.data = program
  room : program.length ≤ m.code.capacity
  cursor : m.code.cursor ≤ program.length
  registers : m.registers.count = sizing.registerCount
  memory : m.memory.capacity = sizing.memorySize ∧ m.memory.written.length ≤ m.memory.capacity
  strings : ∀ (i : Nat) (s : String), m.registers.slots[i]? = some (some (.string s)) →
    s.toUTF8.IsValidUTF8 ∧ s.toUTF8.size ≤ 255
  locations : ∀ id p, (id, p) ∈ m.locations.entries → EndsMark program id p

/-- A machine in good order that is running. -/
structure Underway (sizing : Sizing) (program : List UInt8) (m : Machine) : Prop extends Intact sizing program m where
  running : m.status.phase = .running

section Parts

variable {sizing : Sizing} {program : List UInt8} {m : Machine}

theorem Intact.fits (h : Intact sizing program m) {i : Nat} {v : Value}
    (hv : m.registers.slots[i]? = some (some v)) : v.Fits := by
  cases v with
  | string s => exact (h.strings i s hv).2
  | _ => trivial

theorem Underway.movedTo (h : Underway sizing program m) {p : Nat} (hp : p ≤ program.length) :
    Underway sizing program (m.movedTo p) :=
  { h with data := h.data, room := h.room, cursor := hp }

theorem Underway.leaving (h : Underway sizing program m) (rest : List UInt8) :
    Underway sizing program (m.leaving rest) := by
  have hl : m.code.data.length - rest.length ≤ program.length := by
    rw [h.data]
    omega
  exact h.movedTo hl

theorem Underway.set (h : Underway sizing program m) {index : UInt8} {v : Value} {registers : Registers}
    (hv : v.Fits) (hs : m.registers.set index v = .ok registers) :
    Underway sizing program { m with registers } := by
  refine { h with registers := (Registers.count_set hs).trans h.registers, strings := ?_ }
  intro i s hi
  unfold Registers.set at hs
  split at hs
  next hb =>
    cases hs
    change (m.registers.slots.setIfInBounds index.toNat (some v))[i]? = _ at hi
    by_cases he : index.toNat = i
    · subst he
      unfold Registers.count at hb
      simp only [Array.getElem?_setIfInBounds_self_of_lt hb, Option.some.injEq] at hi
      subst hi
      exact ⟨s.isValidUTF8, hv⟩
    · rw [Array.getElem?_setIfInBounds_ne he] at hi
      exact h.strings i s hi
  next => cases hs

end Parts

section Actions

variable {sizing : Sizing} {program : List UInt8}

theorem readByte_secures :
    Secures (Underway sizing program) (fun _ => True) (·.isDisorder = false) readByte := by
  intro m hm
  cases ha : m.ahead with
  | nil =>
    rw [readByte_of_ahead_nil ha]
    exact .error hm rfl
  | cons b rest =>
    rw [readByte_of_ahead ha]
    exact .ok (hm.leaving rest) trivial

theorem readValue_secures :
    Secures (Underway sizing program) Value.Fits (·.isDisorder = false) (reading CodeReader.value) := by
  intro m hm
  have hc : m.code.cursor ≤ m.code.data.length := by
    rw [hm.data]
    exact hm.cursor
  cases hd : Codec.value.decode m.ahead with
  | ok v rest =>
    rw [readValue_of_decode hc hd]
    exact .ok (hm.leaving rest) (Codec.value_lawful.encode_of_decode _ _ _ hd).1
  | error e rest =>
    rw [readValue_of_misread hc hd]
    exact .error hm (by cases e <;> rfl)

/-- Whatever an operand stands for can be written without loss, whether it comes from the code or from a
register. -/
theorem readOperand_secures :
    Secures (Underway sizing program) Value.Fits (·.isDisorder = false) readOperand := by
  have hget : Secures (Underway sizing program) (fun _ => True) (·.isDisorder = false) get :=
    fun _ hm => .ok hm trivial
  apply hget.bind
  intro m _
  apply readByte_secures.bind
  intro kind _
  cases OperandKind.ofCode? kind with
  | none => exact secures_throw rfl
  | some k =>
    cases k with
    | value => exact readValue_secures
    | register =>
      apply readByte_secures.bind
      intro index _
      apply secures_asking
      · intro m v hm hv
        exact hm.fits (slot_of_get hv)
      · intro m cause _ hc
        exact registers_get_order hc

theorem setRegister_secures (index : UInt8) {v : Value} (hv : v.Fits) :
    Secures (Underway sizing program) (fun _ => True) (·.isDisorder = false) (setRegister index v) := by
  apply secures_changing
  · intro m registers hm hs
    exact hm.set hv hs
  · intro m cause _ hs
    obtain ⟨rfl, -⟩ := Registers.set_eq_error hs
    rfl

theorem storeValue_secures (address : UInt8) {v : Value} (hv : v.Fits) :
    Secures (Underway sizing program) (fun _ => True) (·.isDisorder = false) (storeValue address v) := by
  apply secures_changing
  · intro m memory hm hs
    obtain ⟨hcap, hlen⟩ := memory_store_eq_ok hs hm.memory.2
    exact { hm with memory := ⟨hcap.trans hm.memory.1, hlen⟩ }
  · intro m cause _ hs
    exact memory_store_order hv hs

theorem fetchValue_secures (address : UInt8) :
    Secures (Underway sizing program) Value.Fits (·.isDisorder = false) (fetchValue address) :=
  secures_asking (fun _ _ _ h => memory_load_fits h) (fun _ _ _ h => memory_load_order h)

theorem writeLine_secures (line : String) :
    Secures (Underway sizing program) (fun _ => True) (fun _ => True) (writeLine line) := by
  intro m hm
  unfold writeLine
  split
  next output _ => exact .ok { hm with } trivial
  next cause output _ => exact .error { hm with } trivial

theorem mem_of_find? {l : Locations} {id : UInt8} {p : Nat} (h : l.find? id = some p) : (id, p) ∈ l.entries := by
  obtain ⟨before, after, he, -⟩ := List.lookup_eq_some_iff.mp h
  rw [he]
  simp

/-- A known place lies inside of the program, so a jump there is never out of range. -/
theorem jumpTo_secures (id : UInt8) :
    Secures (Underway sizing program) (fun _ => True) (·.isDisorder = false) (jumpTo id) := by
  intro m hm
  cases hf : m.locations.find? id with
  | none =>
    rw [jumpTo_of_none hf]
    exact .error hm rfl
  | some p =>
    have hp := (hm.locations id p (mem_of_find? hf)).le_length
    have hroom := hm.room
    rw [jumpTo_of_some hf (by omega)]
    exact .ok (hm.movedTo hp) trivial

/-- Every instruction but a marker keeps the machine in good order, whatever stands behind its opcode. -/
theorem execute_secures {op : Opcode} (hop : op ≠ .mark) :
    Secures (Underway sizing program) (fun _ => True) (Fault.PossibleAt op) (execute op) := by
  have hbyte : Secures (Underway sizing program) (fun _ => True) (Fault.PossibleAt op) readByte :=
    readByte_secures.weaken fun _ h => Fault.possibleAt_of_order h op
  have hoperand : Secures (Underway sizing program) Value.Fits (Fault.PossibleAt op) readOperand :=
    readOperand_secures.weaken fun _ h => Fault.possibleAt_of_order h op
  have hset : ∀ index v, Value.Fits v →
      Secures (Underway sizing program) (fun _ => True) (Fault.PossibleAt op) (setRegister index v) :=
    fun index v hv => (setRegister_secures index hv).weaken fun _ h => Fault.possibleAt_of_order h op
  have hjump : ∀ id, Secures (Underway sizing program) (fun _ => True) (Fault.PossibleAt op) (jumpTo id) :=
    fun id => (jumpTo_secures id).weaken fun _ h => Fault.possibleAt_of_order h op
  have hnext : ∀ flow,
      Secures (Underway sizing program) (fun _ => True) (Fault.PossibleAt op) (pure flow : Action Flow) :=
    fun _ => secures_pure trivial
  cases op with
  | load =>
    exact hbyte.bind fun target _ => hoperand.bind fun v hv => (hset target v hv).bind fun _ _ => hnext _
  | store =>
    have hstore : ∀ address v, Value.Fits v →
        Secures (Underway sizing program) (fun _ => True) (Fault.PossibleAt .store) (storeValue address v) :=
      fun address v hv => (storeValue_secures address hv).weaken fun _ h => Fault.possibleAt_of_order h _
    exact hbyte.bind fun address _ => hoperand.bind fun v hv => (hstore address v hv).bind fun _ _ => hnext _
  | fetch =>
    have hfetch : ∀ address,
        Secures (Underway sizing program) Value.Fits (Fault.PossibleAt .fetch) (fetchValue address) :=
      fun address => (fetchValue_secures address).weaken fun _ h => Fault.possibleAt_of_order h _
    exact hbyte.bind fun address _ => hbyte.bind fun target _ => (hfetch address).bind fun v hv =>
      (hset target v hv).bind fun _ _ => hnext _
  | arithmetic op =>
    have happly : ∀ a b, Secures (Underway sizing program) Value.Fits (Fault.PossibleAt (.arithmetic op))
        (asking fun _ => op.apply a b) :=
      fun a b => secures_asking (fun _ _ _ h => arithmetic_fits h)
        (fun _ _ _ h => Fault.possibleAt_arithmetic (arithmetic_fault h).1 op)
    exact hoperand.bind fun a _ => hoperand.bind fun b _ => hbyte.bind fun target _ =>
      (happly a b).bind fun v hv => (hset target v hv).bind fun _ _ => hnext _
  | halt =>
    apply hoperand.bind
    intro v _
    split
    next => exact hnext _
    next => exact secures_throw (Fault.possibleAt_of_order rfl _)
  | branch test =>
    apply hoperand.bind
    intro v _
    apply hbyte.bind
    intro id _
    split
    next => exact (hjump id).bind fun _ _ => hnext _
    next => exact hnext _
    next => exact secures_throw (Fault.possibleAt_of_order rfl _)
  | jump => exact hbyte.bind fun id _ => (hjump id).bind fun _ _ => hnext _
  | mark => exact (hop rfl).elim
  | call =>
    have hentry : ∀ index, Secures (Underway sizing program) (fun _ => True) (Fault.PossibleAt .call)
        (asking fun m => m.syscalls.get index) :=
      fun index => secures_asking (fun _ _ _ _ => trivial) (fun _ cause _ _ => Fault.possibleAt_call cause)
    have hline : ∀ line, Secures (Underway sizing program) (fun _ => True) (Fault.PossibleAt .call) (writeLine line) :=
      fun line => (writeLine_secures line).weaken fun cause _ => Fault.possibleAt_call cause
    exact hbyte.bind fun index _ => hbyte.bind fun count _ => (hentry index).bind fun entry _ =>
      secures_perform hoperand hline Fault.possibleAt_call (entry.script count)

end Actions

section Steps

variable {sizing : Sizing} {program : List UInt8} {m m' : Machine}

theorem Underway.recorded (h : Underway sizing program m) (op : Opcode) :
    Underway sizing program (m.recorded op) :=
  { h with }

theorem endsMark_of_drop {id : UInt8} {offset : Nat} {rest : List UInt8}
    (h : program.drop offset = 0x0d :: id :: rest) : EndsMark program id (offset + 2) := by
  have hl : program.length - offset = rest.length + 2 := by
    rw [← List.length_drop, h]
    rfl
  have hfirst : program[offset]? = some 0x0d := by
    rw [← List.head?_drop, h]
    rfl
  have hsecond : program[offset + 1]? = some id := by
    rw [← List.head?_drop, ← List.drop_drop, h]
    rfl
  exact ⟨by omega, by omega, hfirst, hsecond⟩

theorem Underway.insert (h : Underway sizing program m) {id : UInt8} {p : Nat} (hp : EndsMark program id p) :
    Underway sizing program { m with locations := m.locations.insert id p } := by
  refine { h with locations := ?_ }
  intro id' p' hmem
  rcases List.mem_cons.mp hmem with he | hmem
  · cases he
    exact hp
  · exact h.locations id' p' ((List.mem_filter.mp hmem).1)

/-- A marker notes the place right behind itself. -/
theorem Underway.mark (h : Underway sizing program m) {rest : List UInt8}
    (ha : m.ahead = Opcode.code .mark :: rest) :
    Secured (Underway sizing program) (fun _ => True) (Fault.PossibleAt .mark)
      (execute .mark ((m.recorded .mark).leaving rest)) := by
  have hm : Underway sizing program ((m.recorded .mark).leaving rest) := (h.recorded .mark).leaving rest
  have hr : ((m.recorded .mark).leaving rest).ahead = rest :=
    ahead_leaving (show (m.recorded .mark).ahead = [Opcode.code .mark] ++ rest from ha)
  cases rest with
  | nil =>
    have he : execute .mark ((m.recorded .mark).leaving []) = _ := bind_of_error (readByte_of_ahead_nil hr)
    rw [he]
    exact .error hm (Fault.possibleAt_of_order rfl _)
  | cons id rest =>
    have he : execute .mark ((m.recorded .mark).leaving (id :: rest)) = _ := bind_of_ok (readByte_of_ahead hr)
    rw [he]
    have hd : program.drop m.code.cursor = 0x0d :: id :: rest := by
      rw [← h.data]
      exact ha
    have hc : program.length - rest.length = m.code.cursor + 2 := by
      have hl : program.length - m.code.cursor = rest.length + 2 := by
        rw [← List.length_drop, hd]
        rfl
      omega
    have hp : EndsMark program id (program.length - rest.length) := hc ▸ endsMark_of_drop hd
    rw [← h.data] at hp
    exact .ok ((hm.leaving rest).insert (h.data ▸ hp)) trivial

theorem Underway.step (h : Underway sizing program m) :
    Underway sizing program (finalOf (step m)) ∧
      ∀ op rest cause m', m.ahead = Opcode.code op :: rest → step m = .error cause m' → cause.PossibleAt op := by
  cases ha : m.ahead with
  | nil =>
    rw [step_of_ahead_nil ha]
    exact ⟨h, fun op rest cause m' hb => by cases hb⟩
  | cons b rest =>
    cases hb : Opcode.ofCode? b with
    | none =>
      rw [step_of_invalid hb ha]
      refine ⟨h.leaving rest, ?_⟩
      intro op rest' cause m' hc
      cases hc
      rw [Opcode.ofCode?_code] at hb
      cases hb
    | some op =>
      have hs : Secured (Underway sizing program) (fun _ => True) (Fault.PossibleAt op)
          (execute op ((m.recorded op).leaving rest)) := by
        by_cases hop : op = .mark
        · subst hop
          rw [← Opcode.code_eq_of_ofCode? hb] at ha
          exact h.mark ha
        · exact execute_secures hop _ ((h.recorded op).leaving rest)
      rw [step_eq_execute hb ha]
      refine ⟨hs.final, ?_⟩
      intro op' rest' cause m' hc he
      cases hc
      rw [Opcode.ofCode?_code] at hb
      cases hb
      rw [he] at hs
      cases hs with
      | error _ hcause => exact hcause

end Steps

end Machine

end RegisterMachine
