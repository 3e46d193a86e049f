import RegisterMachine.Proofs.AssemblySpecification
import RegisterMachine.Proofs.BackwardJumps
import RegisterMachine.Proofs.HandlerEnds

namespace RegisterMachine

namespace Instruction

variable {Location Syscall : Type} {i : Instruction Location Syscall} {registers : Registers} {location : Location}

/-- The location that an instruction goes to when the registers hold what they hold. -/
def destination? (registers : Registers) : Instruction Location Syscall → Option Location
  | jump location => some location
  | branch test condition location =>
    match condition.valueIn registers with
    | .ok v => if test.holds? v = some true then some location else none
    | .error _ => none
  | _ => none

theorem destination?_eq_some : i.destination? registers = some location ↔ i.Jumps registers location := by
  cases i with
  | jump l => simp [destination?, Jumps]
  | branch test condition l =>
    cases hv : condition.valueIn registers with
    | ok v => simp [destination?, Jumps, hv, and_comm]
    | error cause => simp [destination?, Jumps, hv]
  | _ => simp [destination?, Jumps]

end Instruction

namespace Machine

/-- Whether the instruction ahead is a jump that the machine takes. -/
def takesJump (m : Machine) : Bool :=
  match Instruction.decode m.ahead with
  | .ok i _ => ((i.destination? m.registers).bind m.locations.find?).isSome
  | .error _ _ => false

/-- The number of jumps that the machine takes in the next `fuel` instructions of its run. -/
def jumpsTaken : Nat → Machine → Nat
  | 0, _ => 0
  | fuel + 1, m =>
    (if m.takesJump then 1 else 0) +
      match step m with
      | .ok .next m' => jumpsTaken fuel m'
      | _ => 0

theorem takesJump_of_decode {m : Machine} {i : Instruction UInt8 UInt8} {rest : List UInt8} {id : UInt8} {p : Nat}
    (hd : Instruction.decode m.ahead = .ok i rest) (hj : i.Jumps m.registers id)
    (hp : m.locations.find? id = some p) : m.takesJump = true := by
  simp [takesJump, hd, Instruction.destination?_eq_some.mpr hj, hp]

/-- The reading position has not gone back. -/
def Onward (m m' : Machine) : Prop := m.code.cursor ≤ m'.code.cursor

theorem onward_lasting : Lasting Onward where
  refl _ := Nat.le_refl _
  trans := Nat.le_trans

theorem readByte_onward : Respects Onward readByte := by
  intro m
  cases ha : m.ahead with
  | nil =>
    rw [readByte_of_ahead_nil ha]
    exact onward_lasting.refl m
  | cons b rest =>
    rw [readByte_of_ahead ha]
    have hc := cursor_leaving (show m.ahead = [b] ++ rest from ha) (by simp)
    exact Nat.le.intro hc.symm

theorem readValue_onward : Respects Onward (reading CodeReader.value) := by
  intro m
  by_cases hc : m.code.cursor ≤ m.code.data.length
  · cases hd : Codec.value.decode m.ahead with
    | error e rest =>
      rw [readValue_of_misread hc hd]
      exact onward_lasting.refl m
    | ok v rest =>
      rw [readValue_of_decode hc hd]
      obtain ⟨-, ha⟩ := Codec.value_lawful.decode_eq_ok.mp hd
      have hl : m.ahead.length = (Codec.value.encode v).length + rest.length := by rw [ha, List.length_append]
      rw [ahead, List.length_drop] at hl
      change m.code.cursor ≤ m.code.data.length - rest.length
      omega
  · have hb : m.code.length < m.code.cursor := Nat.lt_of_not_le hc
    simp only [reading, CodeReader.value, CodeReader.decode, if_pos hb]
    exact onward_lasting.refl m

theorem readOperand_onward : Respects Onward readOperand := by
  have hget : Respects Onward get := onward_lasting.refl
  apply hget.bind onward_lasting
  intro m
  apply readByte_onward.bind onward_lasting
  intro kind
  cases OperandKind.ofCode? kind with
  | none => exact onward_lasting.refl
  | some k =>
    cases k with
    | register => exact readByte_onward.bind onward_lasting fun _ => respects_asking onward_lasting _
    | value => exact readValue_onward

theorem setRegister_onward (index : UInt8) (v : Value) : Respects Onward (setRegister index v) := by
  intro m
  simp only [setRegister, changing]
  cases m.registers.set index v <;> exact onward_lasting.refl m

theorem storeValue_onward (address : UInt8) (v : Value) : Respects Onward (storeValue address v) := by
  intro m
  simp only [storeValue, changing]
  cases m.memory.store address.toNat v <;> exact onward_lasting.refl m

theorem writeLine_onward (line : String) : Respects Onward (writeLine line) := by
  intro m
  simp only [writeLine]
  cases Sink.writeLine line m.output <;> exact onward_lasting.refl m

/-- An instruction without a destination reads on, and so does the handler of a system call. -/
theorem execute_onward {op : Opcode} (hj : op ≠ .jump) (hb : ∀ test, op ≠ .branch test) :
    Respects Onward (execute op) := by
  have hpure : ∀ flow, Respects Onward (pure flow : Action Flow) := fun _ => onward_lasting.refl
  have hthrow : ∀ cause, Respects Onward (throw cause : Action Flow) := fun _ => onward_lasting.refl
  have hmark : ∀ id, Respects Onward (markHere id) := fun _ _ => Nat.le_refl _
  cases op with
  | load =>
    exact readByte_onward.bind onward_lasting fun target => readOperand_onward.bind onward_lasting fun v =>
      (setRegister_onward target v).bind onward_lasting fun _ => hpure _
  | store =>
    exact readByte_onward.bind onward_lasting fun address => readOperand_onward.bind onward_lasting fun v =>
      (storeValue_onward address v).bind onward_lasting fun _ => hpure _
  | fetch =>
    exact readByte_onward.bind onward_lasting fun address => readByte_onward.bind onward_lasting fun target =>
      (respects_asking onward_lasting _).bind onward_lasting fun v =>
        (setRegister_onward target v).bind onward_lasting fun _ => hpure _
  | arithmetic op =>
    exact readOperand_onward.bind onward_lasting fun a => readOperand_onward.bind onward_lasting fun b =>
      readByte_onward.bind onward_lasting fun target => (respects_asking onward_lasting _).bind onward_lasting fun v =>
        (setRegister_onward target v).bind onward_lasting fun _ => hpure _
  | halt =>
    apply readOperand_onward.bind onward_lasting
    intro v
    split
    next => exact hpure _
    next => exact hthrow _
  | branch test => exact (hb test rfl).elim
  | jump => exact (hj rfl).elim
  | mark => exact readByte_onward.bind onward_lasting fun id => (hmark id).bind onward_lasting fun _ => hpure _
  | call =>
    exact readByte_onward.bind onward_lasting fun index => readByte_onward.bind onward_lasting fun count =>
      (respects_asking onward_lasting _).bind onward_lasting fun entry =>
        respects_perform onward_lasting readOperand_onward writeLine_onward _

section Step

variable {m m' : Machine} {op : Opcode} {rest : List UInt8}

theorem readOperand_eq_value {v : Value} (h : readOperand m = .ok v m') :
    ∃ o rest, Operand.decode m.ahead = .ok o rest ∧ o.valueIn m.registers = .ok v ∧ m' = m.leaving rest := by
  obtain ⟨o, rest, hd, rfl⟩ := readOperand_eq_ok h
  obtain ⟨hf, ha⟩ := Operand.decode_eq_ok.mp hd
  rw [readOperand_of_ahead hf ha] at h
  obtain ⟨hv, -⟩ := asking_eq_ok h
  exact ⟨o, rest, hd, hv, rfl⟩

/-- A jump to a location that the machine does not know goes nowhere. -/
theorem jump_onward {id : UInt8} (h : m.locations.find? id = none) :
    Onward m (finalOf ((jumpTo id >>= fun _ => pure Flow.next) m)) := by
  rw [bind_of_error (jumpTo_of_none h)]
  exact onward_lasting.refl m

theorem execute_jump_onward (h : ∀ i input id p, Instruction.decodeOperands .jump m.ahead = .ok i input →
    i.Jumps m.registers id → m.locations.find? id ≠ some p) : Onward m (finalOf (execute .jump m)) := by
  have hb := readByte_onward m
  simp only [execute]
  cases hr : readByte m with
  | error cause m₁ =>
    rw [hr] at hb
    rw [bind_of_error hr]
    exact hb
  | ok id m₁ =>
    rw [hr] at hb
    rw [bind_of_ok hr]
    obtain ⟨input, ha, rfl⟩ := readByte_eq_ok hr
    have hn : m.locations.find? id = none := by
      refine Option.eq_none_iff_forall_ne_some.mpr fun p => ?_
      exact h (.jump id) input id p (by rw [ha]; rfl) rfl
    exact onward_lasting.trans hb (jump_onward (m := m.leaving input) hn)

theorem execute_branch_onward {test : Test}
    (h : ∀ i input id p, Instruction.decodeOperands (.branch test) m.ahead = .ok i input →
      i.Jumps m.registers id → m.locations.find? id ≠ some p) : Onward m (finalOf (execute (.branch test) m)) := by
  have ho := readOperand_onward m
  simp only [execute]
  cases hr : readOperand m with
  | error cause m₁ =>
    rw [hr] at ho
    rw [bind_of_error hr]
    exact ho
  | ok v m₁ =>
    rw [hr] at ho
    rw [bind_of_ok hr]
    refine onward_lasting.trans ho ?_
    have hb := readByte_onward m₁
    cases hi : readByte m₁ with
    | error cause m₂ =>
      rw [hi] at hb
      rw [bind_of_error hi]
      exact hb
    | ok id m₂ =>
      rw [hi] at hb
      rw [bind_of_ok hi]
      refine onward_lasting.trans hb ?_
      cases ht : test.holds? v with
      | none => exact onward_lasting.refl m₂
      | some taken =>
        cases taken with
        | false => exact onward_lasting.refl m₂
        | true =>
          -- This would be a jump if the location were known.
          obtain ⟨o, input, hd, hv, rfl⟩ := readOperand_eq_value hr
          obtain ⟨after, ha, rfl⟩ := readByte_eq_ok hi
          obtain ⟨-, hm⟩ := Operand.decode_eq_ok.mp hd
          rw [ahead_leaving hm] at ha
          rw [ha] at hd
          have hn : m.locations.find? id = none := by
            refine Option.eq_none_iff_forall_ne_some.mpr fun p => ?_
            exact h (.branch test o id) after id p (bind_eq_ok.mpr ⟨o, _, hd, rfl⟩) ⟨rfl, v, hv, ht⟩
          exact jump_onward (m := (m.leaving input).leaving after) hn

/-- Only a jump that is taken goes back. Any other instruction leaves the machine behind its opcode at least,
whether it succeeds or not. -/
theorem step_onward (ha : m.ahead = op.code :: rest) (hj : m.takesJump = false) :
    m.code.cursor < (finalOf (step m)).code.cursor := by
  have hc : ((m.recorded op).leaving rest).code.cursor = m.code.cursor + 1 :=
    cursor_leaving (show (m.recorded op).ahead = [op.code] ++ rest from ha) (by simp)
  have hr : ((m.recorded op).leaving rest).ahead = rest :=
    ahead_leaving (show (m.recorded op).ahead = [op.code] ++ rest from ha)
  have hn : ∀ i input id p, Instruction.decodeOperands op ((m.recorded op).leaving rest).ahead = .ok i input →
      i.Jumps m.registers id → m.locations.find? id ≠ some p := by
    intro i input id p hd hjumps hp
    rw [hr] at hd
    have hi : Instruction.decode m.ahead = .ok i input := by
      rw [ha, Instruction.decode_cons, Opcode.ofCode?_code]
      exact hd
    rw [takesJump_of_decode hi hjumps hp] at hj
    cases hj
  have ho : Onward ((m.recorded op).leaving rest) (finalOf (step m)) := by
    rw [step_eq_execute (Opcode.ofCode?_code op) ha]
    by_cases hjump : op = .jump
    · subst hjump
      exact execute_jump_onward hn
    · by_cases hbranch : ∃ test, op = .branch test
      · obtain ⟨test, rfl⟩ := hbranch
        exact execute_branch_onward hn
      · exact execute_onward hjump (fun test he => hbranch ⟨test, he⟩) _
  rw [Onward, hc] at ho
  exact ho

/-- What a jump does when it is taken, with whatever system calls. -/
theorem step_of_taken_jump {i : Instruction UInt8 UInt8} {id : UInt8} {p : Nat}
    (hd : Instruction.decode m.ahead = .ok i rest) (hj : i.Jumps m.registers id)
    (hp : m.locations.find? id = some p) (hc : p ≤ m.code.capacity) :
    step m = .ok .next ((m.recorded i.opcode).movedTo p) := by
  obtain ⟨he, ha⟩ := Instruction.decode_eq_ok.mp hd
  have hcode : m.ahead = i.opcode.code :: (i.operandBytes ++ rest) := ha
  have hb : ((m.recorded i.opcode).leaving (i.operandBytes ++ rest)).ahead = i.operandBytes ++ rest :=
    ahead_leaving (show (m.recorded i.opcode).ahead = [i.opcode.code] ++ _ from hcode)
  have hg : Agree (step m) (carryOut i ((m.recorded i.opcode).leaving rest)) := by
    rw [step_eq_execute (Opcode.ofCode?_code _) hcode]
    cases i with
    | jump l =>
      change Agree ((readByte >>= fun id => jumpTo id >>= fun _ => pure Flow.next) _) _
      rw [bind_of_ok (readByte_of_ahead hb)]
      exact .refl _
    | branch test condition l =>
      simp only [Instruction.operandBytes, List.append_assoc] at hb ⊢
      exact execute_branch_agrees he hb
    | _ => exact hj.elim
  have ht := jumpTo_of_some (m := (m.recorded i.opcode).leaving rest) hp hc
  rw [carryOut_of_jump (m := (m.recorded i.opcode).leaving rest) hj, bind_of_ok ht] at hg
  exact hg.eq_of_ok_right (by simp)

end Step

/-- The instructions fetched so far and the bytes that are left for more of them. -/
def budget (m : Machine) : Nat := m.trace.length + m.ahead.length

section Budget

variable {table : SyscallTable} {sizing : Sizing} {program : List UInt8} {m m' : Machine}

theorem Intact.ahead_length (h : Intact sizing program m) : m.ahead.length + m.code.cursor = program.length := by
  have hc := h.cursor
  rw [ahead, List.length_drop, h.data]
  omega

theorem trace_of_step {op : Opcode} {rest : List UInt8} (ha : m.ahead = op.code :: rest) :
    (finalOf (step m)).trace = (m.code.cursor, op) :: m.trace := by
  have hk := execute_keeps op ((m.recorded op).leaving rest)
  rw [step_eq_execute (Opcode.ofCode?_code op) ha]
  exact hk.trace

theorem Underway.step_of_takesJump (h : Underway sizing program m) (hj : m.takesJump = true) :
    ∃ id p after, m.locations.find? id = some p ∧ Machine.step m = .ok .next after ∧ after.code.cursor = p := by
  unfold takesJump at hj
  split at hj
  next i rest hd =>
    obtain ⟨p, hp⟩ := Option.isSome_iff_exists.mp hj
    obtain ⟨id, hi, hp⟩ := Option.bind_eq_some_iff.mp hp
    have hc := Nat.le_trans (h.locations id p (mem_of_find? hp)).le_length h.room
    exact ⟨id, p, _, hp, step_of_taken_jump hd (Instruction.destination?_eq_some.mp hi) hp hc, rfl⟩
  next => cases hj

/-- An instruction takes a byte at least from the code ahead. A jump may bring all of the code back. -/
theorem Underway.step_budget (h : Underway sizing program m) :
    (finalOf (Machine.step m)).budget ≤ m.budget + if m.takesJump then program.length else 0 := by
  have hm := h.ahead_length
  have hm' := h.step.1.ahead_length
  unfold budget
  cases ha : m.ahead with
  | nil =>
    rw [step_of_ahead_nil ha, finalOf, ha]
    omega
  | cons b rest =>
    cases hb : Opcode.ofCode? b with
    | none =>
      have hl : (m.leaving rest).ahead = rest := ahead_leaving (show m.ahead = [b] ++ rest from ha)
      rw [step_of_invalid hb ha, finalOf, hl, List.length_cons]
      have ht : (m.leaving rest).trace = m.trace := rfl
      rw [ht]
      omega
    | some op =>
      rw [ha] at hm
      rw [← Opcode.code_eq_of_ofCode? hb] at ha
      rw [trace_of_step ha, List.length_cons]
      rw [List.length_cons] at hm ⊢
      cases hj : m.takesJump with
      | true =>
        rw [if_pos rfl]
        omega
      | false =>
        have hc := step_onward ha hj
        rw [if_neg Bool.false_ne_true]
        omega

/-- A run takes what it starts with and once the length of the program for every jump. -/
theorem Underway.drive_budget (h : Underway sizing program m) (fuel : Nat) :
    (drive fuel m).2.budget ≤ m.budget + jumpsTaken fuel m * program.length := by
  induction fuel generalizing m with
  | zero => exact Nat.le_add_right _ _
  | succ fuel ih =>
    have hs := h.step_budget
    have hk := h.step.1
    have hj : (if m.takesJump then 1 else 0) * program.length = if m.takesJump then program.length else 0 := by
      cases m.takesJump <;> simp
    unfold jumpsTaken
    rw [Nat.add_mul, hj]
    cases hr : Machine.step m with
    | ok flow m₁ =>
      rw [hr] at hs hk
      change m₁.budget ≤ _ at hs
      simp only [drive, hr]
      cases flow with
      | next =>
        have hn : (drive fuel m₁).2.budget ≤ m₁.budget + jumpsTaken fuel m₁ * program.length := ih hk
        change (drive fuel m₁).2.budget ≤ m.budget + (_ + jumpsTaken fuel m₁ * program.length)
        omega
      | halt code =>
        change m₁.budget ≤ _
        omega
      | crash =>
        change m₁.budget ≤ _
        omega
    | error cause m₁ =>
      rw [hr] at hs
      change m₁.budget ≤ _ at hs
      simp only [drive, hr]
      change m₁.budget ≤ _
      omega

theorem trace_of_next (hs : step m = .ok .next m') : m'.trace.length = m.trace.length + 1 := by
  cases ha : m.ahead with
  | nil =>
    rw [step_of_ahead_nil ha] at hs
    cases hs
  | cons b rest =>
    cases hb : Opcode.ofCode? b with
    | none =>
      rw [step_of_invalid hb ha] at hs
      cases hs
    | some op =>
      rw [← Opcode.code_eq_of_ofCode? hb] at ha
      have ht := trace_of_step ha
      rw [hs] at ht
      exact congrArg List.length ht

/-- As long as it goes on, a run fetches an instruction for every unit of fuel. -/
theorem trace_of_unfinished {fuel : Nat} (h : (drive fuel m).1 = .unfinished) :
    (drive fuel m).2.trace.length = m.trace.length + fuel := by
  induction fuel generalizing m with
  | zero => rfl
  | succ fuel ih =>
    cases hr : step m with
    | ok flow m₁ =>
      simp only [drive, hr] at h ⊢
      cases flow with
      | next =>
        have hl := ih h
        have ht := trace_of_next hr
        change (drive fuel m₁).2.trace.length = _
        omega
      | halt code => cases h
      | crash => cases h
    | error cause m₁ =>
      simp only [drive, hr] at h
      cases h

theorem Serving.step_ne_crash (h : Serving table sizing program m) (ht : table.Returning) :
    step m ≠ .ok .crash m' := by
  intro hc
  obtain ⟨script, entered, hcall⟩ := calls_of_crash hc
  exact h.returns ht hcall (hcall.step_eq ▸ hc)

/-- A run whose handlers return and that does not go on ends with an answer. -/
theorem Ready.answer_of_finished (h : Ready table program m) (ht : table.Returning) {fuel : Nat}
    (hf : (run fuel m).1 ≠ .unfinished) : ∃ answer, (run fuel m).1.answer? = some answer := by
  obtain ⟨sizing, hserving⟩ := h.serving
  rw [h.run_eq] at hf ⊢
  rcases drive_last fuel m.started with ⟨m', hu⟩ | ⟨fuel', -, before, hb, hc⟩
  · rw [hu] at hf
    exact (hf rfl).elim
  · have hs := hserving fuel' before ((h.run_eq fuel').trans hb)
    cases ha : (drive fuel m.started).1.answer? with
    | none => exact (hs.step_ne_crash ht (crash_of_conclude hc ha)).elim
    | some answer => exact ⟨answer, rfl⟩

theorem Ready.no_trace (h : Ready table program m) : m.started.trace = [] := by
  obtain ⟨sizing, capacity, -, hm⟩ := h.eq
  rw [hm]
  rfl

theorem Ready.trace_le (h : Ready table program m) (fuel : Nat) :
    (run fuel m).2.trace.length ≤ (jumpsTaken fuel m.started + 1) * program.length := by
  obtain ⟨sizing, hserving⟩ := h.serving
  have hu := hserving 0 _ (h.run_eq 0)
  have hb := hu.drive_budget fuel
  have hl := hu.ahead_length
  rw [budget, budget, h.no_trace, List.length_nil] at hb
  rw [h.run_eq, Nat.add_mul]
  omega

theorem Ready.answer_of_jumps (h : Ready table program m) (ht : table.Returning) {k : Nat}
    (hk : ∀ fuel, jumpsTaken fuel m.started ≤ k) :
    ∃ answer, (run ((k + 1) * program.length + 1) m).1.answer? = some answer := by
  apply h.answer_of_finished ht
  intro hu
  have hle := h.trace_le ((k + 1) * program.length + 1)
  have hbound := Nat.mul_le_mul_right program.length (Nat.add_le_add_right (hk ((k + 1) * program.length + 1)) 1)
  rw [h.run_eq] at hu hle
  rw [trace_of_unfinished hu, h.no_trace, List.length_nil] at hle
  omega

theorem jumpsTaken_eq_zero {fuel : Nat}
    (h : ∀ k before, drive k m = (.unfinished, before) → before.takesJump = false) : jumpsTaken fuel m = 0 := by
  induction fuel generalizing m with
  | zero => rfl
  | succ fuel ih =>
    unfold jumpsTaken
    rw [h 0 m rfl, if_neg Bool.false_ne_true, Nat.zero_add]
    split
    next m' hs =>
      apply ih
      intro k before hk
      apply h (k + 1)
      simp only [drive, hs]
      exact hk
    next => rfl

/-- All jumps of a run that ends have been counted by then. -/
theorem jumpsTaken_le_of_finished {k : Nat} (h : (drive k m).1 ≠ .unfinished) (fuel : Nat) :
    jumpsTaken fuel m ≤ jumpsTaken k m := by
  induction k generalizing fuel m with
  | zero => exact (h rfl).elim
  | succ k ih =>
    cases fuel with
    | zero => exact Nat.zero_le _
    | succ fuel =>
      unfold jumpsTaken
      apply Nat.add_le_add_left
      split
      next m' hs =>
        simp only [drive, hs] at h
        exact ih h fuel
      next => exact Nat.zero_le _

end Budget

end Machine

theorem Survey.Covers.isLabel_of_statement {lines rest : List (List Char)} {k : Nat} {statements : List Statement}
    (h : Covers lines k rest statements) {name : String} {id : UInt8} (hst : .label name id ∈ statements) :
    ∃ raw ∈ rest, Line.isLabel raw = true := by
  induction h with
  | nil k => cases hst
  | blank _ _ ih =>
    obtain ⟨raw, hm, hl⟩ := ih hst
    exact ⟨raw, List.mem_cons_of_mem _ hm, hl⟩
  | label hl _ _ _ => exact ⟨_, List.mem_cons_self, hl⟩
  | instruction _ _ _ _ _ ih =>
    rcases List.mem_cons.mp hst with he | hst
    · cases he
    · obtain ⟨raw, hm, hl⟩ := ih hst
      exact ⟨raw, List.mem_cons_of_mem _ hm, hl⟩

/-- The markers of a program come from its label lines. -/
theorem isLabel_of_mark {source name : String} {program : List (Instruction String String)} {k : Nat}
    (hp : programOf source = .ok program) (hk : program[k]? = some (.mark name)) :
    ∃ raw ∈ Text.lines source.toList, Line.isLabel raw = true := by
  obtain ⟨survey, hs, hw⟩ := except_bind_eq_ok.mp hp
  obtain ⟨st, hst, hm⟩ := forall₂_right (mapM_eq_ok.mp hw) hk
  have hmem := List.mem_of_getElem? hst
  cases st with
  | label other id =>
    obtain ⟨hcov, -⟩ := Survey.covers_of_follow collected_nil declaredOnce_nil hs
    exact hcov.isLabel_of_statement hmem
  | instruction line op head operands =>
    have hne := (Survey.grown_of_follow hs).op_ne_mark hmem
    simp only [Statement.written] at hm
    split at hm
    next i hi =>
      cases hm
      obtain ⟨written, hw, -, rfl, -⟩ := Instruction.parse_eq_ok hi
      rw [hi] at hw
      cases hw
      exact (hne rfl).elim
    next => cases hm

namespace Machine

theorem standard_returning : SyscallTable.standard.Returning := by
  intro entry he count m m' _
  obtain rfl := List.mem_singleton.mp he
  intro hp
  obtain ⟨-, v, m₁, -, hw⟩ := perform_printLine_eq_ok hp
  rw [perform_printing] at hw
  exact survives_bind (fun _ => survives_pure (by simp)) m₁ m' hw

/-- A program without labels has nowhere to jump to. -/
theorem takesJump_of_unlabelled {source : String} {code : List UInt8} {m before : Machine} {fuel : Nat}
    (ha : assemble .standard source = .ok code)
    (hu : ∀ raw ∈ Text.lines source.toList, Line.isLabel raw = false) (hm : Ready .standard code m)
    (hr : run fuel m = (.unfinished, before)) : before.takesJump = false := by
  obtain ⟨program, encoded, hp, hl, rfl⟩ := assemble_eq_ok ha
  have ht := tracked_of_assembled standard_disciplined hl.encodable hm hr
  obtain ⟨c, -, hcur, -⟩ := ht.at_line hl.encodable
  unfold takesJump
  cases hi : encoded[c]? with
  | none =>
    have hd : encoded.drop c = [] := List.drop_eq_nil_of_le (List.getElem?_eq_none_iff.mp hi)
    rw [ht.bytes_ahead hcur, hd]
    rfl
  | some i =>
    rw [ht.decode_ahead hl.encodable hcur hi]
    change ((i.destination? before.registers).bind before.locations.find?).isSome = false
    cases hj : i.destination? before.registers with
    | none => rfl
    | some id =>
      obtain ⟨written, -, hres⟩ := hl.right hi
      have hjumps := Instruction.destination?_eq_some.mp hj
      obtain ⟨name, -, hid⟩ := Instruction.target?_of_resolve hres (Instruction.target?_of_jumps hjumps)
      obtain ⟨k, hk, -⟩ := hl.mark_of_location hid
      obtain ⟨raw, hraw, hlabel⟩ := isLabel_of_mark hp (mark_of_declaration? hk)
      rw [hu raw hraw] at hlabel
      cases hlabel

/-- Execution makes progress between jumps. Every instruction leaves the machine behind its opcode and inside of the
program, unless it is a jump that is taken, which goes where it should. So no more instructions than the program has
bytes are fetched without a jump, and a run in which no more than `k` jumps are taken ends with an answer. A text
without labels gives such a program, with no jumps at all. -/
theorem run_progresses_between_jumps {table : SyscallTable} {program : List UInt8} {m : Machine}
    (h : Ready table program m) (ht : table.Returning) :
    (∀ fuel before, run fuel m = (.unfinished, before) →
      (∀ op rest, before.ahead = Opcode.code op :: rest →
        (finalOf (step before)).trace = (before.code.cursor, op) :: before.trace ∧
        (finalOf (step before)).code.cursor ≤ program.length ∧
        if before.takesJump then ∃ id p after, before.locations.find? id = some p ∧ step before = .ok .next after ∧
          after.code.cursor = p
        else before.code.cursor < (finalOf (step before)).code.cursor) ∧
      ∀ count, jumpsTaken count before = 0 →
        (drive count before).2.trace.length ≤ before.trace.length + program.length) ∧
    (∀ fuel, (run fuel m).2.trace.length ≤ (jumpsTaken fuel m.started + 1) * program.length) ∧
    (∀ k, (∀ fuel, jumpsTaken fuel m.started ≤ k) →
      ∃ answer, (run ((k + 1) * program.length + 1) m).1.answer? = some answer) ∧
    ∀ source code straight, assemble .standard source = .ok code →
      (∀ raw ∈ Text.lines source.toList, Line.isLabel raw = false) → Ready .standard code straight →
      ∃ answer, (run (code.length + 1) straight).1.answer? = some answer := by
  obtain ⟨sizing, hserving⟩ := h.serving
  refine ⟨?_, h.trace_le, fun k hk => h.answer_of_jumps ht hk, ?_⟩
  · intro fuel before hr
    have hu := (hserving fuel before hr).toUnderway
    constructor
    · intro op rest ha
      refine ⟨trace_of_step ha, hu.step.1.cursor, ?_⟩
      split
      next hj => exact hu.step_of_takesJump hj
      next hj => exact step_onward ha (Bool.eq_false_iff.mpr hj)
    · intro count hj
      have hb := hu.drive_budget count
      have hl := hu.ahead_length
      rw [hj, budget, budget] at hb
      omega
  · intro source code straight ha hu hm
    have hj : ∀ fuel, jumpsTaken fuel straight.started ≤ 0 := by
      intro fuel
      refine Nat.le_of_eq (jumpsTaken_eq_zero fun k before hk => ?_)
      exact takesJump_of_unlabelled ha hu hm ((hm.run_eq k).trans hk)
    have hans := hm.answer_of_jumps standard_returning hj
    rwa [Nat.zero_add, Nat.one_mul] at hans

/-- A loop of two rounds. The marker that it goes back to is the operand of a system call. -/
def twoRounds : List UInt8 :=
  [0x00, 0, 1, 1, 1, 0x0b, 0, 1, 0x0d, 7, 0x02, 0, 0, 1, 1, 1, 0, 0x06, 0, 0, 7, 0x05, 1, 1, 3]

theorem run_progresses_of_unread_marker :
    jumpsTaken 8 (restarting twoRounds).started = 1 ∧ (run 8 (restarting twoRounds)).1 = .halted 3 ∧
      (∀ fuel, (run fuel (restarting twoRounds)).2.trace.length ≤
        (jumpsTaken fuel (restarting twoRounds).started + 1) * 25) ∧
      ∃ answer, (run 51 (restarting twoRounds)).1.answer? = some answer := by
  have hm : Ready (restarting twoRounds).syscalls twoRounds (restarting twoRounds) := ⟨⟨none, 0, 1⟩, _, rfl, rfl⟩
  have ht : (restarting twoRounds).syscalls.Returning := by
    intro entry he count m m' hr
    obtain rfl := List.mem_singleton.mp he
    simp only [perform, Status.begin, hr]
    intro h
    cases h
  have hj : jumpsTaken 8 (restarting twoRounds).started = 1 := by decide +kernel
  have hu : (drive 8 (restarting twoRounds).started).1 ≠ .unfinished := by decide +kernel
  obtain ⟨-, hle, hk, -⟩ := run_progresses_between_jumps hm ht
  refine ⟨hj, by decide +kernel, hle, hk 1 fun fuel => ?_⟩
  rw [← hj]
  exact jumpsTaken_le_of_finished hu fuel

end Machine

end RegisterMachine
