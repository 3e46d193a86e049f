import RegisterMachine.Proofs.ControlFlow
import RegisterMachine.Proofs.ProgramLayout

namespace RegisterMachine

theorem Opcode.code_inj {a b : Opcode} (h : a.code = b.code) : a = b := by
  have ho := Opcode.ofCode?_code a
  rw [h, Opcode.ofCode?_code] at ho
  exact (Option.some.inj ho).symm

namespace Machine

section Assembled

variable {table : SyscallTable} {encoded : List (Instruction UInt8 UInt8)} {m m' : Machine} {k : Nat}
  {i : Instruction UInt8 UInt8}

/-- With bytecode that stands for lines, the machine is at the beginning of a line or at the end, and
has fetched every line before. -/
theorem Tracked.at_line (he : ∀ i ∈ encoded, i.Encodable)
    (h : Tracked table (encoded.flatMap Instruction.encode) m) :
    ∃ k ≤ encoded.length, m.code.cursor = offsetOf encoded k ∧ ∀ l < k, ∃ op, (offsetOf encoded l, op) ∈ m.trace := by
  obtain ⟨n, c, hc, hs, hn⟩ := h.swept
  obtain ⟨hl, ho⟩ := (sweep_eq_some he).mp hs
  refine ⟨c, hl, ho, ?_⟩
  intro l hlt
  exact (hn _).mpr ⟨l, by omega, (sweep_eq_some he).mpr ⟨by omega, rfl⟩⟩

theorem Tracked.bytes_ahead (h : Tracked table (encoded.flatMap Instruction.encode) m)
    (hk : m.code.cursor = offsetOf encoded k) : m.ahead = (encoded.drop k).flatMap Instruction.encode := by
  rw [h.ahead_eq, hk, drop_offsetOf]

theorem Tracked.decode_ahead (he : ∀ i ∈ encoded, i.Encodable)
    (h : Tracked table (encoded.flatMap Instruction.encode) m) (hk : m.code.cursor = offsetOf encoded k)
    (hi : encoded[k]? = some i) :
    Instruction.decode m.ahead = .ok i ((encoded.drop (k + 1)).flatMap Instruction.encode) := by
  rw [h.ahead_eq, hk]
  exact decode_at_offset he hi

theorem Tracked.step_at_end (h : Tracked table (encoded.flatMap Instruction.encode) m)
    (hk : m.code.cursor = offsetOf encoded k) (hi : encoded[k]? = none) :
    step m = .error (.missingHalt m.code.cursor) m := by
  have hd : encoded.drop k = [] := List.drop_eq_nil_of_le (List.getElem?_eq_none_iff.mp hi)
  have ha := h.bytes_ahead hk
  rw [hd] at ha
  exact step_of_ahead_nil ha

theorem Tracked.next_assembled (hs : table.Disciplined) (he : ∀ i ∈ encoded, i.Encodable)
    (h : Tracked table (encoded.flatMap Instruction.encode) m) (hm : step m = .ok .next m') :
    Tracked table (encoded.flatMap Instruction.encode) m' := by
  obtain ⟨k, -, hk, -⟩ := h.at_line he
  cases hi : encoded[k]? with
  | none =>
    rw [h.step_at_end hk hi] at hm
    cases hm
  | some i => exact h.next hs (h.decode_ahead he hk hi) hm

theorem tracked_of_assembled {fuel : Nat} (hs : table.Disciplined) (he : ∀ i ∈ encoded, i.Encodable)
    (hm : Ready table (encoded.flatMap Instruction.encode) m) (hr : run fuel m = (.unfinished, m')) :
    Tracked table (encoded.flatMap Instruction.encode) m' := by
  rw [hm.run_eq] at hr
  exact keeps_of_unfinished (fun h => h.next_assembled hs he) hm.tracked hr

/-- A run that fails was in order up to the step that failed. -/
theorem tracked_of_failed {fuel : Nat} {cause : Fault} (hs : table.Disciplined) (he : ∀ i ∈ encoded, i.Encodable)
    (hm : Ready table (encoded.flatMap Instruction.encode) m) (hr : (run fuel m).1 = .failed cause) :
    ∃ fuel' < fuel, ∃ before after, run fuel' m = (.unfinished, before) ∧
      Tracked table (encoded.flatMap Instruction.encode) before ∧ step before = .error cause after := by
  rw [hm.run_eq] at hr
  rcases drive_last fuel m.started with ⟨m', hd⟩ | ⟨fuel', hlt, before, hb, hc⟩
  · rw [hd] at hr
    cases hr
  · rw [← hm.run_eq] at hb
    have ht := tracked_of_assembled hs he hm hb
    cases hx : drive fuel m.started with
    | mk outcome last =>
      rw [hx] at hr hc
      cases hr
      obtain ⟨after, hf, -⟩ := error_of_conclude hc
      exact ⟨fuel', hlt, before, after, hb, ht, hf⟩

theorem opcode_at_offset (hi : encoded[k]? = some i) :
    (encoded.flatMap Instruction.encode)[offsetOf encoded k]? = some i.opcode.code := by
  rw [← List.head?_drop, bytes_at_offset hi]
  rfl

theorem Tracked.opcode_eq {op : Opcode} (h : Tracked table (encoded.flatMap Instruction.encode) m)
    (hi : encoded[k]? = some i) (hm : (offsetOf encoded k, op) ∈ m.trace) : op = i.opcode := by
  have hc := h.opcodes _ _ hm
  rw [opcode_at_offset hi, Option.some.injEq] at hc
  exact (Opcode.code_inj hc).symm

/-- The location of a marker on an earlier line is known. -/
theorem Tracked.passed_mark {l : Nat} {id : UInt8} (he : ∀ i ∈ encoded, i.Encodable)
    (h : Tracked table (encoded.flatMap Instruction.encode) m) (hk : m.code.cursor = offsetOf encoded k)
    (hkl : k ≤ encoded.length) (hl : l < k) (hi : encoded[l]? = some (.mark id)) : m.locations.find? id ≠ none := by
  obtain ⟨c, hc, hcur, hf⟩ := h.at_line he
  have hck : c = k := offsetOf_inj hc hkl (hcur.symm.trans hk)
  subst hck
  obtain ⟨op, hm⟩ := hf l hl
  have hop : op = .mark := h.opcode_eq hi hm
  subst hop
  have hid : (encoded.flatMap Instruction.encode)[offsetOf encoded l + 1]? = some id := by
    rw [← List.head?_drop, ← List.drop_drop, bytes_at_offset hi]
    rfl
  rw [h.marks, Option.map_eq_none_iff.ne]
  exact latestMark_ne_none hm hid

end Assembled

end Machine

end RegisterMachine
