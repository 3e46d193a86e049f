import RegisterMachine.Proofs.AssembledRun
import RegisterMachine.Proofs.HandlerFaults

namespace RegisterMachine

theorem get_of_indexOf? {t : SyscallTable} {name : String} {index : UInt8} (h : t.indexOf? name = some index) :
    ∃ entry, t.entries.find? (·.name == name) = some entry ∧ t.get index = .ok entry := by
  unfold SyscallTable.indexOf? at h
  split at h
  next j hj =>
    by_cases hb : j < 256
    · rw [if_pos hb] at h
      cases h
      obtain ⟨hlt, hp, hf⟩ := List.findIdx?_eq_some_iff_getElem.mp hj
      have hn : (UInt8.ofNat j).toNat = j := by
        rw [UInt8.toNat_ofNat']
        omega
      refine ⟨t.entries[j], List.find?_eq_some_iff_getElem.mpr ⟨hp, j, hlt, rfl, ?_⟩, ?_⟩
      · intro l hl
        simpa using hf l hl
      · simp only [SyscallTable.get, hn, List.getElem?_eq_getElem hlt]
    · rw [if_neg hb] at h
      cases h
  next => cases h

theorem Instruction.eq_call_of_resolve {scope : Scope UInt8 UInt8} {written : Instruction String String}
    {index : UInt8} {arguments : List Operand} (h : written.resolve scope = some (.call index arguments)) :
    ∃ name, written = .call name arguments ∧ scope.syscall? name = some index := by
  cases written with
  | call name as =>
    obtain ⟨s, hs, he⟩ := Option.map_eq_some_iff.mp h
    cases he
    exact ⟨name, rfl, hs⟩
  | branch test condition name =>
    obtain ⟨l, -, he⟩ := Option.map_eq_some_iff.mp h
    cases he
  | jump name =>
    obtain ⟨l, -, he⟩ := Option.map_eq_some_iff.mp h
    cases he
  | mark name =>
    obtain ⟨l, -, he⟩ := Option.map_eq_some_iff.mp h
    cases he
  | _ => cases h

namespace Machine

theorem leaving_eq_movedTo {m : Machine} {front rest : List UInt8} (h : m.ahead = front ++ rest) (hne : front ≠ []) :
    m.leaving rest = m.movedTo (m.code.cursor + front.length) := by
  have hc := cursor_leaving h hne
  change m.code.data.length - rest.length = _ at hc
  rw [leaving, hc]

/-- The machine that a handler gets on a call: the opcode, the number of the system call and the number of
its arguments have been read. -/
def atArguments (m : Machine) : Machine := (m.recorded .call).movedTo (m.code.cursor + 3)

/-- A line is a call, and the handler of that call is to blame for a fault that blames the code: it makes
the cause up, or it reads on behind its arguments. -/
def HandlerBlamed (table : SyscallTable) (line? : Option (Instruction String String)) (cause : Fault) (m : Machine) :
    Prop :=
  ∃ name arguments entry count, line? = some (.call name arguments) ∧
    table.entries.find? (·.name == name) = some entry ∧ count = UInt8.ofNat arguments.length ∧
    ((entry.script count).FailsWith cause ∨ arguments.length < operandsTaken (entry.script count) m.atArguments)

/-- How a machine stands to a line of a program: it is about to fetch the first byte of the line, and
its next step carries out what the line says. -/
structure InStep (table : SyscallTable) (program : List (Instruction String String))
    (encoded : List (Instruction UInt8 UInt8)) (k : Nat) (m : Machine) : Prop where
  position : m.code.cursor = offsetOf encoded k
  carriesOut : ∀ i, encoded[k]? = some i →
    Agree (step m) (carryOut i ((m.recorded i.opcode).movedTo (offsetOf encoded (k + 1))))
  consumes : ∀ i flow m', encoded[k]? = some i → (∀ id, ¬ i.Jumps m.registers id) → flow ≠ .crash →
    step m = .ok flow m' → m'.code.cursor = offsetOf encoded (k + 1)
  calls : ∀ name arguments, program[k]? = some (.call name arguments) →
    ∃ entry count, table.entries.find? (·.name == name) = some entry ∧ count.toNat = arguments.length ∧
      step m = perform (entry.script count) m.atArguments
  blameless : ∀ cause m', step m = .error cause m' → cause.isDecoding = true →
    HandlerBlamed table program[k]? cause m

section InStep

variable {table : SyscallTable} {program : List (Instruction String String)}
  {encoded : List (Instruction UInt8 UInt8)} {k : Nat} {m m' : Machine} {i : Instruction UInt8 UInt8}

theorem Tracked.leaving_line (h : Tracked table (encoded.flatMap Instruction.encode) m) (op : Opcode) (k : Nat) :
    (m.recorded op).leaving ((encoded.drop k).flatMap Instruction.encode) =
      (m.recorded op).movedTo (offsetOf encoded k) := by
  have hd : (m.recorded op).code.data = encoded.flatMap Instruction.encode := h.data
  rw [leaving, hd, length_sub_drop]

theorem Tracked.step_call {index : UInt8} {arguments : List Operand} {entry : Syscall}
    (h : Tracked table (encoded.flatMap Instruction.encode) m) (hk : m.code.cursor = offsetOf encoded k)
    (hi : encoded[k]? = some (.call index arguments)) (hg : table.get index = .ok entry) :
    step m = perform (entry.script (UInt8.ofNat arguments.length)) m.atArguments ∧
      m.atArguments.ahead =
        arguments.flatMap Operand.encode ++ (encoded.drop (k + 1)).flatMap Instruction.encode := by
  have ha : m.ahead = (Instruction.call index arguments).encode ++
      (encoded.drop (k + 1)).flatMap Instruction.encode := by
    rw [h.bytes_ahead hk, drop_eq_cons hi, List.flatMap_cons]
  have hr : (m.recorded .call).ahead = [Opcode.code .call, index, UInt8.ofNat arguments.length] ++
      (arguments.flatMap Operand.encode ++ (encoded.drop (k + 1)).flatMap Instruction.encode) := ha
  have hm : (m.recorded .call).leaving
      (arguments.flatMap Operand.encode ++ (encoded.drop (k + 1)).flatMap Instruction.encode) = m.atArguments :=
    leaving_eq_movedTo hr (by simp)
  rw [step_call_eq ha, h.syscalls, hg, hm]
  exact ⟨rfl, hm ▸ ahead_leaving hr⟩

theorem Tracked.carriesOut (hs : table.Disciplined) (he : ∀ i ∈ encoded, i.Encodable)
    (h : Tracked table (encoded.flatMap Instruction.encode) m) (hk : m.code.cursor = offsetOf encoded k)
    (hi : encoded[k]? = some i) :
    Agree (step m) (carryOut i ((m.recorded i.opcode).movedTo (offsetOf encoded (k + 1)))) := by
  have hg := step_agrees (h.syscalls ▸ hs) (h.decode_ahead he hk hi)
  rw [h.leaving_line] at hg
  exact hg

theorem Tracked.consumes {flow : Flow} (hs : table.Disciplined) (he : ∀ i ∈ encoded, i.Encodable)
    (h : Tracked table (encoded.flatMap Instruction.encode) m) (hk : m.code.cursor = offsetOf encoded k)
    (hi : encoded[k]? = some i) (hj : ∀ id, ¬ i.Jumps m.registers id) (hf : flow ≠ .crash)
    (hm : step m = .ok flow m') : m'.code.cursor = offsetOf encoded (k + 1) := by
  cases flow with
  | crash => exact (hf rfl).elim
  | halt code =>
    have hg := h.carriesOut hs he hk hi
    rw [hm] at hg
    have hc := carryOut_eq_halt (hg.eq_of_ok hf)
    rw [hc]
    rfl
  | next =>
    have hv := step_moves (h.syscalls ▸ hs) (h.decode_ahead he hk hi) hm
    have hb : (m.leaving ((encoded.drop (k + 1)).flatMap Instruction.encode)).code.cursor = offsetOf encoded (k + 1) :=
      congrArg (fun x => x.code.cursor) (h.leaving_line i.opcode (k + 1))
    cases hv with
    | onward _ hc _ => exact hc.trans hb
    | mark _ _ hc _ => exact hc.trans hb
    | jump id p hj' _ _ _ => exact (hj id hj').elim

theorem Tracked.jump_fault {id : UInt8} {cause : Fault} {moved after : Machine}
    (h : Tracked table (encoded.flatMap Instruction.encode) m) (hj : jumpTo id moved = .error cause after)
    (hl : moved.locations = m.locations) (hc : moved.code.capacity = m.code.capacity) :
    cause.isDecoding = false := by
  rcases jumpTo_error hj with ⟨-, rfl⟩ | ⟨p, hp, hlt, -⟩
  · rfl
  · rw [hl, h.marks, Option.map_eq_some_iff] at hp
    obtain ⟨offset, ho, rfl⟩ := hp
    obtain ⟨n, c, -, -, hn⟩ := h.swept
    obtain ⟨l, -, -, hs⟩ := h.swept_of_mark hn ho
    have hle := sweep_le_length hs
    have hroom := h.room
    omega

/-- Where the bytecode stands for the program, every step is in line with it. -/
theorem Tracked.inStep (hs : table.Disciplined) (hl : Linked table program encoded)
    (h : Tracked table (encoded.flatMap Instruction.encode) m) (hk : m.code.cursor = offsetOf encoded k) :
    InStep table program encoded k m where
  position := hk
  carriesOut := fun i hi => h.carriesOut hs hl.encodable hk hi
  consumes := fun i flow m' hi hj hf hm => h.consumes hs hl.encodable hk hi hj hf hm
  calls := by
    intro name arguments hp
    obtain ⟨i, hi, hr⟩ := hl.left hp
    obtain ⟨index, hx, rfl⟩ := Option.map_eq_some_iff.mp hr
    obtain ⟨entry, hf, hg⟩ := get_of_indexOf? hx
    have hn := (hl.encodable _ (List.mem_of_getElem? hi)).1
    refine ⟨entry, UInt8.ofNat arguments.length, hf, ?_, (h.step_call hk hi hg).1⟩
    rw [UInt8.toNat_ofNat']
    omega
  blameless := by
    intro cause m' hm hc
    cases hi : encoded[k]? with
    | none =>
      rw [h.step_at_end hk hi] at hm
      cases hm
      cases hc
    | some i =>
      by_cases hcall : ∃ index arguments, i = .call index arguments
      · obtain ⟨index, arguments, rfl⟩ := hcall
        obtain ⟨written, hp, hr⟩ := hl.right hi
        obtain ⟨name, rfl, hx⟩ := Instruction.eq_call_of_resolve hr
        obtain ⟨entry, hf, hg⟩ := get_of_indexOf? hx
        obtain ⟨hstep, ha⟩ := h.step_call hk hi hg
        rw [hstep] at hm
        refine ⟨name, arguments, entry, _, hp, hf, rfl, ?_⟩
        by_cases ht : operandsTaken (entry.script (UInt8.ofNat arguments.length)) m.atArguments ≤ arguments.length
        · exact .inl (failsWith_of_perform _ (hl.encodable _ (List.mem_of_getElem? hi)).2 ha ht hm)
        · exact .inr (by omega)
      · have hg := h.carriesOut hs hl.encodable hk hi
        rw [hm] at hg
        obtain ⟨after, p, hout, -⟩ := hg.error_of_left
        rcases carryOut_error (fun index arguments he => hcall ⟨index, arguments, he⟩) hout with hd | ⟨id, -, hj⟩
        · rw [hd.1] at hc
          cases hc
        · rw [h.jump_fault hj rfl rfl] at hc
          cases hc

theorem line_of_record {offset : Nat} {op : Opcode} {trace : List (Nat × Opcode)} {n : Nat}
    (he : ∀ i ∈ encoded, i.Encodable) (hn : Swept (encoded.flatMap Instruction.encode) trace n)
    (hm : (offset, op) ∈ trace) (hop : (encoded.flatMap Instruction.encode)[offset]? = some op.code) :
    ∃ k i, encoded[k]? = some i ∧ offset = offsetOf encoded k ∧ op = i.opcode := by
  obtain ⟨k, -, hs⟩ := (hn offset).mp ⟨op, hm⟩
  obtain ⟨hk, rfl⟩ := (sweep_eq_some he).mp hs
  cases hi : encoded[k]? with
  | none =>
    have hd : encoded.drop k = [] := List.drop_eq_nil_of_le (List.getElem?_eq_none_iff.mp hi)
    rw [← List.head?_drop, drop_offsetOf, hd] at hop
    cases hop
  | some i =>
    refine ⟨k, i, hi, rfl, ?_⟩
    rw [opcode_at_offset hi, Option.some.injEq] at hop
    exact (Opcode.code_inj hop).symm

end InStep

/-- The bytecode of an accepted source text and the machine never fall out of step, whatever the
handlers do as long as one that succeeds has taken its arguments. Every opcode is fetched from the first
byte of a line and is that of the line, every step carries out a line as it is written, and no fault
comes from the decoding of the code unless the handler of a call is to blame. -/
theorem assembled_run_in_step {table : SyscallTable} {source : String} {code : List UInt8}
    (hs : table.Disciplined) (ha : assemble table source = .ok code) :
    ∃ program encoded, programOf source = .ok program ∧ Linked table program encoded ∧
      code = encoded.flatMap Instruction.encode ∧
      ∀ m, Ready table code m → ∀ fuel,
        (∀ offset op, (offset, op) ∈ (run fuel m).2.trace →
          ∃ k i, encoded[k]? = some i ∧ offset = offsetOf encoded k ∧ op = i.opcode) ∧
        (∀ m', run fuel m = (.unfinished, m') → ∃ k ≤ encoded.length, InStep table program encoded k m') ∧
        (∀ cause, (run fuel m).1 = .failed cause → cause.isDecoding = true →
          ∃ fuel' < fuel, ∃ k before after, run fuel' m = (.unfinished, before) ∧ step before = .error cause after ∧
            InStep table program encoded k before ∧ HandlerBlamed table program[k]? cause before) := by
  obtain ⟨program, encoded, hp, hl, rfl⟩ := assemble_eq_ok ha
  refine ⟨program, encoded, hp, hl, rfl, ?_⟩
  intro m hm fuel
  refine ⟨?_, ?_, ?_⟩
  · intro offset op hmem
    obtain ⟨⟨n, hn⟩, hop⟩ := record_of_run (fun h => h.next_assembled hs hl.encodable) hm fuel
    exact line_of_record hl.encodable hn hmem (hop offset op hmem)
  · intro m' hr
    have ht := tracked_of_assembled hs hl.encodable hm hr
    obtain ⟨k, hk, hcur, -⟩ := ht.at_line hl.encodable
    exact ⟨k, hk, ht.inStep hs hl hcur⟩
  · intro cause hr hc
    obtain ⟨fuel', hlt, before, after, hb, ht, hf⟩ := tracked_of_failed hs hl.encodable hm hr
    obtain ⟨k, -, hcur, -⟩ := ht.at_line hl.encodable
    have hi := ht.inStep hs hl hcur
    exact ⟨fuel', hlt, k, before, after, hb, hf, hi, hi.blameless cause after hf hc⟩

theorem operandsTaken_withOperands (n : Nat) {next : List Value → Script} {m m' : Machine}
    (hn : ∀ vs m, operandsTaken (next vs) m = 0) (h : perform (Script.withOperands n next) m = .ok .next m') :
    operandsTaken (Script.withOperands n next) m = n := by
  induction n generalizing next m with
  | zero => exact hn [] m
  | succ n ih =>
    simp only [Script.withOperands, Script.withOperand, perform] at h
    simp only [Script.withOperands, Script.withOperand, operandsTaken]
    cases hr : readOperand m with
    | ok v m₁ =>
      simp only [hr] at h
      have ht := ih (show ∀ vs m, operandsTaken (next (v :: vs)) m = 0 from fun vs m => hn (v :: vs) m) h
      simp only [ht]
      omega
    | error cause m₁ =>
      simp only [hr] at h
      cases h

/-- A table with a repeated name, whose first handler takes any number of arguments and whose second only
fails. -/
theorem assembled_run_in_step_of_repeated_name :
    ∃ table code, SyscallTable.Disciplined table ∧ table.entries.map Syscall.name = ["LOG", "LOG"] ∧
      assemble table "call LOG 1 R2\nhalt" = .ok code ∧
      ∃ program encoded, programOf "call LOG 1 R2\nhalt" = .ok program ∧ Linked table program encoded ∧
        ∀ m, Ready table code m → ∀ fuel m', run fuel m = (.unfinished, m') →
          ∃ k ≤ encoded.length, InStep table program encoded k m' := by
  have hd : SyscallTable.Disciplined
      ⟨[⟨"LOG", fun count => Script.withOperands count.toNat fun _ => .done⟩,
        ⟨"LOG", fun count => .fail (.arityMismatch "LOG" 0 count.toNat)⟩]⟩ := by
    intro entry hm count m m' h
    rcases List.mem_cons.mp hm with rfl | hm
    · exact operandsTaken_withOperands count.toNat (fun _ _ => rfl) h
    · cases List.mem_singleton.mp hm
      cases h
  have ha : assemble
      ⟨[⟨"LOG", fun count => Script.withOperands count.toNat fun _ => .done⟩,
        ⟨"LOG", fun count => .fail (.arityMismatch "LOG" 0 count.toNat)⟩]⟩ "call LOG 1 R2\nhalt" =
      .ok [11, 0, 2, 1, 1, 1, 0, 2, 5, 1, 1, 0] := by decide +kernel
  obtain ⟨program, encoded, hp, hl, -, hr⟩ := assembled_run_in_step hd ha
  exact ⟨_, _, hd, rfl, ha, program, encoded, hp, hl, fun m hm fuel => (hr m hm fuel).2.1⟩

end Machine

end RegisterMachine
