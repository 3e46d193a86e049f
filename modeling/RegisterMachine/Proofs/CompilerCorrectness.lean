import RegisterMachine.Proofs.SourceSimulation

namespace RegisterMachine

/-- Faults that say the same. A program that ends without a halt ends at a line in its source form and at
an offset in its bytecode. -/
def Fault.SameKind (a b : Fault) : Prop :=
  a = b ∨ ∃ offset line, a = .missingHalt offset ∧ b = .missingHalt line

/-- Outcomes that say the same. -/
def Outcome.SameKind : Outcome → Outcome → Prop
  | failed a, failed b => a.SameKind b
  | a, b => a = b

/-- The machine and the program in its source form hold the same values and have printed the same. -/
structure SameData (m : Machine) (s : Interpreter) : Prop where
  registers : m.registers = s.registers
  memory : m.memory = s.memory
  output : m.output = s.output

/-- The machine and the program in its source form stand at the same line with the same past. -/
structure SideBySide (program : List (Instruction String String)) (encoded : List (Instruction UInt8 UInt8))
    (m : Machine) (s : Interpreter) : Prop where
  tracked : Machine.Tracked .standard (encoded.flatMap Instruction.encode) m
  shared : Shared program encoded m s
  settled : Interpreter.Settled program s

/-- How one step of each compares. -/
inductive StepsAlike (program : List (Instruction String String)) (encoded : List (Instruction UInt8 UInt8)) :
    EStateM.Result Fault Machine Flow → EStateM.Result Fault Interpreter Flow → Prop
  | next {m : Machine} {s : Interpreter} : SideBySide program encoded m s →
      StepsAlike program encoded (.ok .next m) (.ok .next s)
  | stop {flow : Flow} {m : Machine} {s : Interpreter} : flow ≠ .next → SameData m s →
      StepsAlike program encoded (.ok flow m) (.ok flow s)
  | error {cause cause' : Fault} {m : Machine} {s : Interpreter} : cause.SameKind cause' → SameData m s →
      StepsAlike program encoded (.error cause m) (.error cause' s)

theorem Shared.sameData {program : List (Instruction String String)} {encoded : List (Instruction UInt8 UInt8)}
    {m : Machine} {s : Interpreter} (h : Shared program encoded m s) : SameData m s :=
  ⟨h.registers, h.memory, h.output⟩

theorem offsetOf_le_length (encoded : List (Instruction UInt8 UInt8)) (k : Nat) :
    offsetOf encoded k ≤ (encoded.flatMap Instruction.encode).length := by
  have h := length_sub_drop encoded k
  omega

section Steps

variable {program : List (Instruction String String)} {encoded : List (Instruction UInt8 UInt8)} {m : Machine}
  {s : Interpreter}

theorem Machine.Agree.crash_of_right {r : EStateM.Result Fault Machine Flow} (h : Machine.Agree r (.ok .crash m)) :
    ∃ p, r = .ok .crash (m.movedTo p) := by
  cases h with
  | refl => exact ⟨m.code.cursor, rfl⟩
  | crash m p => exact ⟨p, rfl⟩

/-- One step of the machine is one step of the program in its source form. -/
theorem SideBySide.step (hl : Linked .standard program encoded) (h : SideBySide program encoded m s) :
    StepsAlike program encoded (Machine.step m) (Interpreter.step program s) := by
  cases hw : program[s.index]? with
  | none =>
    have hi : encoded[s.index]? = none := by
      rw [List.getElem?_eq_none_iff, ← hl.length_eq]
      exact List.getElem?_eq_none_iff.mp hw
    rw [h.tracked.step_at_end h.shared.position hi]
    simp only [Interpreter.step, hw]
    exact .error (.inr ⟨_, _, rfl, rfl⟩) h.shared.sameData
  | some written =>
    obtain ⟨i, hi, hr⟩ := hl.left hw
    have hg := h.tracked.carriesOut Machine.standard_disciplined hl.encodable h.shared.position hi
    have hstep : Interpreter.step program s =
        Interpreter.carryOut program s.index written { s with index := s.index + 1 } := by
      simp only [Interpreter.step, hw]
    have hroom : ∀ k, offsetOf encoded k ≤ m.code.capacity :=
      fun k => Nat.le_trans (offsetOf_le_length encoded k) h.tracked.room
    have hm : Matched (Shared program encoded)
        (Machine.carryOut i ((m.recorded i.opcode).movedTo (offsetOf encoded (s.index + 1))))
        (Interpreter.carryOut program s.index written { s with index := s.index + 1 }) :=
      carryOut_matched hl hw hr (hl.encodable i (List.mem_of_getElem? hi))
        ⟨h.shared.registers, h.shared.memory, h.shared.output, rfl, h.shared.locations⟩ h.tracked.syscalls rfl hroom
        (fun hn count k hk => h.settled.lineAfter_eq hw hn hk)
    rw [← hstep] at hm
    generalize Machine.carryOut i ((m.recorded i.opcode).movedTo (offsetOf encoded (s.index + 1))) = r at hg hm
    cases hx : Interpreter.step program s with
    | ok flow s' =>
      rw [hx] at hm
      cases hm with
      | @ok _ m' _ hs =>
        cases flow with
        | next =>
          have he := hg.eq_of_ok_right (by simp)
          rw [he]
          exact .next ⟨h.tracked.next_standard he, hs, h.settled.next hx⟩
        | halt code =>
          rw [hg.eq_of_ok_right (by simp)]
          exact .stop (by simp) hs.sameData
        | crash =>
          obtain ⟨p, he⟩ := hg.crash_of_right
          rw [he]
          exact .stop (by simp) ⟨hs.registers, hs.memory, hs.output⟩
    | error cause s' =>
      rw [hx] at hm
      cases hm with
      | @error _ m' _ hs =>
        obtain ⟨p, he⟩ := hg.error_of_right
        rw [he]
        exact .error (.inl rfl) ⟨hs.registers, hs.memory, hs.output⟩

/-- Both runs end alike, and as long as they go on they stay side by side. -/
theorem SideBySide.run (hl : Linked .standard program encoded) (h : SideBySide program encoded m s) (fuel : Nat) :
    (Machine.drive fuel m).1.SameKind (Interpreter.run program fuel s).1 ∧
      SameData (Machine.drive fuel m).2 (Interpreter.run program fuel s).2 ∧
      ((Machine.drive fuel m).1 = .unfinished →
        SideBySide program encoded (Machine.drive fuel m).2 (Interpreter.run program fuel s).2) := by
  induction fuel generalizing m s with
  | zero => exact ⟨rfl, h.shared.sameData, fun _ => h⟩
  | succ fuel ih =>
    have hs := h.step hl
    generalize hx : Machine.step m = r at hs
    generalize hy : Interpreter.step program s = r' at hs
    cases hs with
    | next hn =>
      simp only [Machine.drive, Interpreter.run, hx, hy]
      exact ih hn
    | @stop flow m' s' hf hd =>
      cases flow with
      | next => exact (hf rfl).elim
      | halt code =>
        simp only [Machine.drive, Interpreter.run, hx, hy]
        exact ⟨rfl, ⟨hd.registers, hd.memory, hd.output⟩, fun hu => by cases hu⟩
      | crash =>
        simp only [Machine.drive, Interpreter.run, hx, hy]
        exact ⟨rfl, hd, fun hu => by cases hu⟩
    | error hk hd =>
      simp only [Machine.drive, Interpreter.run, hx, hy]
      exact ⟨hk, ⟨hd.registers, hd.memory, hd.output⟩, fun hu => by cases hu⟩

theorem Machine.Ready.sideBySide (h : Machine.Ready .standard (encoded.flatMap Instruction.encode) m) :
    SideBySide program encoded m.started { registers := m.registers, memory := m.memory, output := m.output } := by
  refine ⟨h.tracked, ?_, ⟨by simp, by simp⟩⟩
  obtain ⟨sizing, capacity, -, hm⟩ := h.eq
  rw [hm]
  exact ⟨rfl, rfl, rfl, rfl, fun id => rfl⟩

/-- Where a byte tells the labels apart that have different counts, a jump goes to the label that it names. -/
theorem Interpreter.jumpTo_of_passed {name : String} {k : Nat} (hset : Interpreter.Settled program s)
    (hd : declaration? program name = some k) (hk : k ∈ s.passed)
    (hsmall : ∀ k name, program[k]? = some (.mark name) → instructionsBefore program k ≤ 255) (index : Nat) :
    Interpreter.jumpTo program name { s with index } = .ok () { s with index := lineAfter program k } := by
  have hc : labelCount program name = instructionsBefore program k := by
    rw [labelCount, hd]
    rfl
  have hs : (s.passed.find? fun k' => instructionsBefore program k' % 256 == labelCount program name % 256).isSome := by
    rw [List.find?_isSome]
    exact ⟨k, hk, by simp [hc]⟩
  obtain ⟨k', hk'⟩ := Option.isSome_iff_exists.mp hs
  obtain ⟨own, ho⟩ := hset.labels k' (List.mem_of_find?_eq_some hk')
  have hm := mark_of_declaration? hd
  have hcount : instructionsBefore program k' = instructionsBefore program k := by
    have he := List.find?_some hk'
    rw [beq_iff_eq, hc] at he
    have h₁ := hsmall k' own ho
    have h₂ := hsmall k name hm
    omega
  simp only [Interpreter.jumpTo, hk', lineAfter_eq hm ho hcount]

theorem Interpreter.carryOut_of_jump {i : Instruction String String} {name : String} {line : Nat}
    (hj : i.Jumps s.registers name) :
    Interpreter.carryOut program line i s = (Interpreter.jumpTo program name >>= fun _ => pure .next) s := by
  cases i with
  | branch test condition location =>
    obtain ⟨rfl, v, hv, ht⟩ := hj
    have hval : Interpreter.valueOf condition s = .ok v s := by simp only [Interpreter.valueOf, hv]
    simp only [Interpreter.carryOut]
    rw [bind_of_ok hval, ht]
  | jump location =>
    have he : location = name := hj
    rw [he]
    rfl
  | _ => exact hj.elim

theorem Interpreter.step_of_jump {i : Instruction String String} {name : String} {k : Nat}
    (hset : Interpreter.Settled program s) (hi : program[s.index]? = some i) (hj : i.Jumps s.registers name)
    (hd : declaration? program name = some k) (hk : k ∈ s.passed)
    (hsmall : ∀ k name, program[k]? = some (.mark name) → instructionsBefore program k ≤ 255) :
    Interpreter.step program s = .ok .next { s with index := lineAfter program k } := by
  simp only [Interpreter.step, hi]
  rw [Interpreter.carryOut_of_jump (s := { s with index := s.index + 1 }) hj,
    bind_of_ok (Interpreter.jumpTo_of_passed hset hd hk hsmall _)]
  rfl

end Steps

/-- The assembler is correct. The bytecode of an accepted source text, run by any machine that takes it,
and the program in its source form make the same steps: after any number of them they hold the same
values and have printed the same, they stand at the same line, and they end in the same way. Where no
label has more than 255 instructions before it, a jump that is taken to a label that has been passed goes
on with the first instruction behind that label. -/
theorem run_simulates_source {source : String} {code : List UInt8} (ha : assemble .standard source = .ok code) :
    ∃ program encoded, programOf source = .ok program ∧ Linked .standard program encoded ∧
      code = encoded.flatMap Instruction.encode ∧
      ∀ m, Machine.Ready .standard code m → ∀ fuel outcome m' outcome' s',
        Machine.run fuel m = (outcome, m') →
        Interpreter.run program fuel { registers := m.registers, memory := m.memory, output := m.output } =
          (outcome', s') →
        outcome.SameKind outcome' ∧ SameData m' s' ∧
        (outcome = .unfinished → m'.code.cursor = offsetOf encoded s'.index ∧
          ((∀ k name, program[k]? = some (.mark name) → instructionsBefore program k ≤ 255) →
            ∀ (i : Instruction String String) name k, program[s'.index]? = some i → i.Jumps s'.registers name →
              declaration? program name = some k → k ∈ s'.passed →
              ∃ m'' s'', Machine.step m' = .ok .next m'' ∧ Interpreter.step program s' = .ok .next s'' ∧
                s''.index = lineAfter program k ∧ m''.code.cursor = offsetOf encoded (lineAfter program k))) := by
  obtain ⟨program, encoded, hp, hl, rfl⟩ := assemble_eq_ok ha
  refine ⟨program, encoded, hp, hl, rfl, ?_⟩
  intro m hm fuel outcome m' outcome' s' hr hs
  have hside : SideBySide program encoded m.started _ := hm.sideBySide
  obtain ⟨hk, hd, hu⟩ := hside.run hl fuel
  rw [← hm.run_eq, hr, hs] at hk hd hu
  refine ⟨hk, hd, ?_⟩
  intro hun
  have hb := hu hun
  refine ⟨hb.shared.position, ?_⟩
  intro hsmall i name k hi hj hdecl hpassed
  have hstep := Interpreter.step_of_jump hb.settled hi hj hdecl hpassed hsmall
  have hstep' := hb.step hl
  rw [hstep] at hstep'
  generalize hx : Machine.step m' = r at hstep'
  cases hstep' with
  | @next m'' _ hn => exact ⟨m'', _, rfl, hstep, rfl, hn.shared.position⟩
  | stop hf _ => exact (hf rfl).elim

/-- A countdown that jumps back over two labels and prints on the way. -/
theorem run_simulates_countdown :
    ∃ source code program m, assemble .standard source = .ok code ∧ programOf source = .ok program ∧
      Machine.Ready .standard code m ∧ (Machine.run 10 m).1 = .halted 0 ∧
      (Machine.run 10 m).2.output.bytes = #[49, 10, 48, 10] ∧
      (Machine.run 10 m).1.SameKind (Interpreter.run program 10 ⟨0, [], m.registers, m.memory, m.output⟩).1 ∧
      SameData (Machine.run 10 m).2 (Interpreter.run program 10 ⟨0, [], m.registers, m.memory, m.output⟩).2 := by
  have ha : assemble .standard "load R0 2\ntop:\nagain:\nsub R0 1 R0\ncall PRINTLN R0\njnz R0 top\nhalt R0" =
      .ok [0, 0, 1, 1, 2, 13, 1, 13, 1, 2, 0, 0, 1, 1, 1, 0, 11, 0, 1, 0, 0, 9, 0, 0, 1, 5, 0, 0] := by decide +kernel
  have hm : Machine.Ready .standard
      [0, 0, 1, 1, 2, 13, 1, 13, 1, 2, 0, 0, 1, 1, 1, 0, 11, 0, 1, 0, 0, 9, 0, 0, 1, 5, 0, 0]
      { code := ⟨[0, 0, 1, 1, 2, 13, 1, 13, 1, 2, 0, 0, 1, 1, 1, 0, 11, 0, 1, 0, 0, 9, 0, 0, 1, 5, 0, 0], 28, 0⟩,
        registers := .empty 1, memory := .zeroed 0 } := ⟨⟨none, 0, 1⟩, _, rfl, rfl⟩
  obtain ⟨program, encoded, hp, -, -, hr⟩ := run_simulates_source ha
  obtain ⟨hk, hd, -⟩ := hr _ hm 10 _ _ _ _ rfl rfl
  exact ⟨_, _, program, _, ha, hp, hm, by decide +kernel, by decide +kernel, hk, hd⟩

end RegisterMachine
