import RegisterMachine.Proofs.Runs
import RegisterMachine.Proofs.StandardStep
import RegisterMachine.Proofs.Sweep

namespace RegisterMachine

theorem Instruction.opcode_eq_mark {Location Syscall : Type} {i : Instruction Location Syscall}
    (h : i.opcode = .mark) : ∃ location, i = .mark location := by
  cases i with
  | mark location => exact ⟨location, rfl⟩
  | _ => cases h

namespace Machine

/-- What a machine with the given system calls and code has to do with its past: it has fetched the
first instructions of the sweep, goes on at one of them or right behind, and knows for each location
where its latest marker ends. -/
structure Tracked (table : SyscallTable) (code : List UInt8) (m : Machine) : Prop where
  data : m.code.data = code
  room : code.length ≤ m.code.capacity
  syscalls : m.syscalls = table
  opcodes : ∀ offset op, (offset, op) ∈ m.trace → code[offset]? = some op.code
  swept : ∃ n c, c ≤ n ∧ sweep code c = some m.code.cursor ∧ Swept code m.trace n
  marks : ∀ id, m.locations.find? id = (latestMark code id m.trace).map (· + 2)

section Frame

variable {m : Machine}

/-- A step adds at most the fetch of the opcode ahead to the record. -/
theorem step_frame (m : Machine) :
    Kept m (finalOf (step m)) ∨
      ∃ op rest, m.ahead = Opcode.code op :: rest ∧ Kept (m.recorded op) (finalOf (step m)) := by
  cases ha : m.ahead with
  | nil =>
    left
    rw [step_of_ahead_nil ha]
    exact kept_lasting.refl m
  | cons b rest =>
    cases hb : Opcode.ofCode? b with
    | none =>
      left
      rw [step_of_invalid hb ha]
      exact ⟨rfl, rfl, rfl, rfl⟩
    | some op =>
      have hk := execute_keeps op ((m.recorded op).leaving rest)
      refine .inr ⟨op, rest, ?_, ?_⟩
      · rw [Opcode.code_eq_of_ofCode? hb]
      · rw [step_eq_execute hb ha]
        exact ⟨hk.data, hk.capacity, hk.syscalls, hk.trace⟩

theorem step_records {i : Instruction UInt8 UInt8} {rest : List UInt8}
    (hd : Instruction.decode m.ahead = .ok i rest) : Kept (m.recorded i.opcode) (finalOf (step m)) := by
  obtain ⟨-, ha⟩ := Instruction.decode_eq_ok.mp hd
  have hk := execute_keeps i.opcode ((m.recorded i.opcode).leaving (i.operandBytes ++ rest))
  rw [step_eq_execute (Opcode.ofCode?_code _) (show m.ahead = i.opcode.code :: (i.operandBytes ++ rest) from ha)]
  exact ⟨hk.data, hk.capacity, hk.syscalls, hk.trace⟩

end Frame

section Tracked

variable {table : SyscallTable} {code : List UInt8} {m m' : Machine}

theorem Ready.tracked (h : Ready table code m) : Tracked table code m.started := by
  obtain ⟨sizing, capacity, hc, hm⟩ := h.eq
  rw [hm]
  refine ⟨rfl, hc, rfl, by simp [started], ⟨0, 0, by omega, rfl, ?_⟩, fun id => rfl⟩
  intro offset
  simp [started]

theorem Tracked.ahead_eq (h : Tracked table code m) : m.ahead = code.drop m.code.cursor := by
  rw [ahead, h.data]

theorem Tracked.swept_of_mark {n offset : Nat} {id : UInt8} (h : Tracked table code m)
    (hn : Swept code m.trace n) (hl : latestMark code id m.trace = some offset) :
    ∃ k < n, sweep code k = some offset ∧ sweep code (k + 1) = some (offset + 2) := by
  obtain ⟨hm, hi⟩ := latestMark_eq_some hl
  obtain ⟨k, hk, hs⟩ := (hn offset).mp ⟨_, hm⟩
  have hd := decode_mark (h.opcodes _ _ hm) hi
  refine ⟨k, hk, hs, ?_⟩
  rw [sweep_succ hs, offsetAfter_of_decode hd]
  rfl

theorem Tracked.opcodes_cons {op : Opcode} {rest : List UInt8} (h : Tracked table code m)
    (ha : m.ahead = op.code :: rest) {offset : Nat} {op' : Opcode}
    (hmem : (offset, op') ∈ (m.code.cursor, op) :: m.trace) : code[offset]? = some op'.code := by
  rcases List.mem_cons.mp hmem with he | hmem
  · cases he
    rw [h.ahead_eq] at ha
    rw [← List.head?_drop, ha]
    rfl
  · exact h.opcodes offset op' hmem

theorem latestMark_of_ne {id : UInt8} {offset : Nat} {op : Opcode} (trace : List (Nat × Opcode)) (h : op ≠ .mark) :
    latestMark code id ((offset, op) :: trace) = latestMark code id trace := by
  rw [latestMark, if_neg (fun hc => h hc.1)]

/-- The known locations stay in line with the latest markers when an instruction is added to the record. -/
theorem Moves.find?_eq {i : Instruction UInt8 UInt8} {registers : Registers} {locations : Locations}
    {offset : Nat} {rest : List UInt8} {trace : List (Nat × Opcode)}
    (hv : Moves i registers locations (offset + i.encode.length) m') (ha : code.drop offset = i.encode ++ rest)
    (hl : ∀ id, locations.find? id = (latestMark code id trace).map (· + 2)) (id : UInt8) :
    m'.locations.find? id = (latestMark code id ((offset, i.opcode) :: trace)).map (· + 2) := by
  cases hv with
  | onward hi _ hloc =>
    have hne : i.opcode ≠ .mark := by
      intro he
      obtain ⟨id', rfl⟩ := Instruction.opcode_eq_mark he
      exact hi id' rfl
    rw [hloc, latestMark_of_ne _ hne, hl]
  | jump id' p hj _ _ hloc =>
    have hne : i.opcode ≠ .mark := by
      intro he
      obtain ⟨location, rfl⟩ := Instruction.opcode_eq_mark he
      exact hj
    rw [hloc, latestMark_of_ne _ hne, hl]
  | mark id' hi _ hloc =>
    subst hi
    have hid : code[offset + 1]? = some id' := by
      rw [← List.head?_drop, ← List.drop_drop, ha]
      rfl
    by_cases he : id = id'
    · subst he
      rw [hloc, latestMark, if_pos ⟨rfl, hid⟩, Locations.find?_insert_self]
      rfl
    · have hne : ¬ (Instruction.opcode (.mark id' : Instruction UInt8 UInt8) = .mark ∧
          code[offset + 1]? = some id) := by
        intro hc
        rw [hid] at hc
        exact he (Option.some.inj hc.2).symm
      rw [hloc, latestMark, if_neg hne, Locations.find?_insert_of_ne _ _ he, hl]

/-- A step that the run survives keeps the machine in line with its past. -/
theorem Tracked.next {i : Instruction UInt8 UInt8} {rest : List UInt8} (hs : table.Disciplined)
    (h : Tracked table code m) (hd : Instruction.decode m.ahead = .ok i rest) (hm : step m = .ok .next m') :
    Tracked table code m' := by
  have hk := step_records hd
  rw [hm] at hk
  have ht : m'.trace = (m.code.cursor, i.opcode) :: m.trace := hk.trace
  have hcap : m'.code.capacity = m.code.capacity := hk.capacity
  have hv := step_moves (h.syscalls ▸ hs) hd hm
  obtain ⟨-, ha⟩ := Instruction.decode_eq_ok.mp hd
  have hb : (m.leaving rest).code.cursor = m.code.cursor + i.encode.length :=
    cursor_leaving ha (by simp [Instruction.encode])
  rw [hb] at hv
  refine ⟨hk.data.trans h.data, by rw [hcap]; exact h.room, hk.syscalls.trans h.syscalls, ?_, ?_, ?_⟩
  · intro offset op hmem
    rw [ht] at hmem
    exact h.opcodes_cons (show m.ahead = i.opcode.code :: (i.operandBytes ++ rest) from ha) hmem
  · obtain ⟨n, c, hc, hcs, hn⟩ := h.swept
    rw [h.ahead_eq] at hd
    have hcs' : sweep code (c + 1) = some (m.code.cursor + i.encode.length) := by
      rw [sweep_succ hcs, offsetAfter_of_decode hd]
    have hn' := hn.cons hc hcs i.opcode
    rw [ht]
    cases hv with
    | onward _ hcur _ => exact ⟨_, c + 1, by omega, by rw [hcur, hcs'], hn'⟩
    | mark _ _ hcur _ => exact ⟨_, c + 1, by omega, by rw [hcur, hcs'], hn'⟩
    | jump id p _ hp hcur _ =>
      -- the target is the end of a marker, and the record shows that the sweep passes there
      rw [h.marks, Option.map_eq_some_iff] at hp
      obtain ⟨offset, hl, rfl⟩ := hp
      obtain ⟨k, hk, -, hks⟩ := h.swept_of_mark hn hl
      exact ⟨_, k + 1, by omega, by rw [hcur, hks], hn'⟩
  · intro id
    rw [ht]
    rw [h.ahead_eq] at ha
    exact hv.find?_eq ha h.marks id

/-- The record after a step, also after one that ends the run, is still the beginning of the sweep. -/
theorem Tracked.finally (h : Tracked table code m) :
    (∃ n, Swept code (finalOf (step m)).trace n) ∧
      ∀ offset op, (offset, op) ∈ (finalOf (step m)).trace → code[offset]? = some op.code := by
  obtain ⟨n, c, hc, hcs, hn⟩ := h.swept
  rcases step_frame m with hk | ⟨op, rest, ha, hk⟩
  · rw [hk.trace]
    exact ⟨⟨n, hn⟩, h.opcodes⟩
  · have ht : (finalOf (step m)).trace = (m.code.cursor, op) :: m.trace := hk.trace
    rw [ht]
    exact ⟨⟨_, hn.cons hc hcs op⟩, fun offset op' hmem => h.opcodes_cons ha hmem⟩

end Tracked

theorem trace_of_conclude {r : EStateM.Result Fault Machine Flow} {result : Outcome × Machine}
    (h : conclude r = some result) : result.2.trace = (finalOf r).trace := by
  cases r with
  | ok flow m =>
    cases flow with
    | next => cases h
    | halt code => cases h; rfl
    | crash => cases h; rfl
  | error cause m => cases h; rfl

/-- However a run ends, it has fetched the beginning of the sweep. -/
theorem record_of_run {table : SyscallTable} {code : List UInt8} {m : Machine}
    (hk : ∀ {m m'}, Tracked table code m → step m = .ok .next m' → Tracked table code m')
    (h : Ready table code m) (fuel : Nat) :
    (∃ n, Swept code (run fuel m).2.trace n) ∧
      ∀ offset op, (offset, op) ∈ (run fuel m).2.trace → code[offset]? = some op.code := by
  rw [h.run_eq]
  rcases drive_last fuel m.started with ⟨m', hd⟩ | ⟨fuel', -, before, hb, hc⟩
  · have ht := keeps_of_unfinished hk h.tracked hd
    obtain ⟨n, c, -, -, hn⟩ := ht.swept
    rw [hd]
    exact ⟨⟨n, hn⟩, ht.opcodes⟩
  · have ht := keeps_of_unfinished hk h.tracked hb
    rw [trace_of_conclude hc]
    exact ht.finally

section Standard

variable {code : List UInt8} {m m' : Machine}

theorem Tracked.next_standard (h : Tracked .standard code m) (hm : step m = .ok .next m') :
    Tracked .standard code m' := by
  obtain ⟨i, rest, hd⟩ := decodes_of_step h.syscalls hm
  exact h.next standard_disciplined hd hm

theorem tracked_of_unfinished {fuel : Nat} (h : Ready .standard code m) (hr : run fuel m = (.unfinished, m')) :
    Tracked .standard code m' := by
  rw [h.run_eq] at hr
  exact keeps_of_unfinished Tracked.next_standard h.tracked hr

/-- Control never leaves the sweep. Whatever the bytes are, the opcodes that a run has fetched are the
first ones of the sweep, so none stands inside another instruction of the sweep, and the next one
stands on the sweep with none left out before it. A jump that is taken goes right behind the latest
marker of its location, and it misses its location exactly when no such marker has been executed. -/
theorem run_stays_on_sweep (h : Ready .standard code m) (fuel : Nat) :
    (∃ n, Swept code (run fuel m).2.trace n) ∧
    (∀ offset op, (offset, op) ∈ (run fuel m).2.trace → code[offset]? = some op.code ∧
      ∀ k start behind, sweep code k = some start → offsetAfter code start = some behind →
        offset ≤ start ∨ behind ≤ offset) ∧
    ∀ m', run fuel m = (.unfinished, m') →
      (∃ n c, c ≤ n ∧ sweep code c = some m'.code.cursor ∧ Swept code m'.trace n) ∧
      ∀ id,
        (∀ i rest offset, Instruction.decode m'.ahead = .ok i rest → i.Jumps m'.registers id →
          latestMark code id m'.trace = some offset →
            ∃ m'', step m' = .ok .next m'' ∧ m''.code.cursor = offset + 2) ∧
        ((∃ m'', step m' = .error (.unresolvedLocation id) m'') ↔
          ∃ i rest, Instruction.decode m'.ahead = .ok i rest ∧ i.Jumps m'.registers id ∧
            latestMark code id m'.trace = none) := by
  obtain ⟨⟨n, hn⟩, hop⟩ := record_of_run Tracked.next_standard h fuel
  refine ⟨⟨n, hn⟩, ?_, ?_⟩
  · intro offset op hmem
    refine ⟨hop offset op hmem, ?_⟩
    intro k start behind hs hb
    obtain ⟨l, -, hl⟩ := (hn offset).mp ⟨op, hmem⟩
    exact sweep_apart hs hb hl
  · intro m' hr
    have ht := tracked_of_unfinished h hr
    refine ⟨ht.swept, ?_⟩
    intro id
    constructor
    · intro i rest offset hd hj hl
      obtain ⟨n', -, -, -, hn'⟩ := ht.swept
      obtain ⟨k, -, -, hk⟩ := ht.swept_of_mark hn' hl
      have hp : m'.locations.find? id = some (offset + 2) := by rw [ht.marks, hl]; rfl
      have hc : offset + 2 ≤ m'.code.capacity := Nat.le_trans (sweep_le_length hk) ht.room
      exact ⟨_, step_of_jump (ht.syscalls ▸ standard_disciplined) hd hj hp hc, rfl⟩
    · have hp : m'.locations.find? id = none ↔ latestMark code id m'.trace = none := by
        rw [ht.marks, Option.map_eq_none_iff]
      simp only [step_unresolved_iff ht.syscalls, hp]

/-- A marker and a jump back to it. -/
theorem run_stays_on_sweep_of_loop :
    ∃ m m', Ready .standard [0x0d, 7, 0x0c, 7] m ∧ run 3 m = (.unfinished, m') ∧
      (∃ n, Swept [0x0d, 7, 0x0c, 7] m'.trace n) ∧ ∃ m'', step m' = .ok .next m'' ∧ m''.code.cursor = 2 := by
  have hm : Ready .standard [0x0d, 7, 0x0c, 7]
      { code := ⟨[0x0d, 7, 0x0c, 7], 4, 0⟩, registers := .empty 1, memory := .zeroed 0 } :=
    ⟨⟨none, 0, 1⟩, _, rfl, rfl⟩
  obtain ⟨hn, -, hu⟩ := run_stays_on_sweep hm 3
  exact ⟨_, _, hm, rfl, hn, ((hu _ rfl).2 7).1 (.jump 7) [] 0 rfl rfl rfl⟩

end Standard

end Machine

end RegisterMachine
