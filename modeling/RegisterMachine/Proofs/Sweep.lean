import RegisterMachine.Proofs.InstructionDecoder

namespace RegisterMachine

/-- The offset of the byte after the instruction that stands at an offset. -/
def offsetAfter (code : List UInt8) (offset : Nat) : Option Nat :=
  match Instruction.decode (code.drop offset) with
  | .ok _ rest => some (code.length - rest.length)
  | .error _ _ => none

/-- The offsets on the way through the code from its start, from each instruction to the byte after
its last operand. -/
def sweep (code : List UInt8) : Nat → Option Nat
  | 0 => some 0
  | k + 1 => (sweep code k).bind (offsetAfter code)

section Sweep

variable {code : List UInt8}

theorem offsetAfter_of_decode {offset : Nat} {i : Instruction UInt8 UInt8} {rest : List UInt8}
    (h : Instruction.decode (code.drop offset) = .ok i rest) :
    offsetAfter code offset = some (offset + i.encode.length) := by
  obtain ⟨-, hb⟩ := Instruction.decode_eq_ok.mp h
  have hl : code.length - offset = i.encode.length + rest.length := by
    rw [← List.length_drop, hb, List.length_append]
  have hp : 0 < i.encode.length := by simp [Instruction.encode]
  have he : code.length - rest.length = offset + i.encode.length := by omega
  simp only [offsetAfter, h, he]

theorem offsetAfter_eq_some {offset behind : Nat} (h : offsetAfter code offset = some behind) :
    offset < behind ∧ behind ≤ code.length := by
  cases hd : Instruction.decode (code.drop offset) with
  | error e rest => simp [offsetAfter, hd] at h
  | ok i rest =>
    obtain ⟨-, hb⟩ := Instruction.decode_eq_ok.mp hd
    have hl : code.length - offset = i.encode.length + rest.length := by
      rw [← List.length_drop, hb, List.length_append]
    have hp : 0 < i.encode.length := by simp [Instruction.encode]
    rw [offsetAfter_of_decode hd] at h
    cases h
    omega

theorem sweep_succ {k offset : Nat} (h : sweep code k = some offset) :
    sweep code (k + 1) = offsetAfter code offset := by
  rw [sweep, h]
  rfl

theorem sweep_le_length {k offset : Nat} (h : sweep code k = some offset) : offset ≤ code.length := by
  cases k with
  | zero => cases h; omega
  | succ k =>
    obtain ⟨a, -, ha⟩ := Option.bind_eq_some_iff.mp h
    exact (offsetAfter_eq_some ha).2

theorem sweep_mono {k l a b : Nat} (hk : sweep code k = some a) (hl : sweep code l = some b) (h : k ≤ l) :
    a ≤ b := by
  induction l generalizing b with
  | zero =>
    have hz : k = 0 := by omega
    subst hz
    rw [hk] at hl
    cases hl
    omega
  | succ l ih =>
    by_cases he : k = l + 1
    · subst he
      rw [hk] at hl
      cases hl
      omega
    · obtain ⟨c, hc, hb⟩ := Option.bind_eq_some_iff.mp hl
      have hac := ih hc (by omega)
      have hcb := (offsetAfter_eq_some hb).1
      omega

/-- No place of the sweep lies inside an instruction of the sweep. -/
theorem sweep_apart {k l a b offset : Nat} (ha : sweep code k = some a) (hb : offsetAfter code a = some b)
    (hl : sweep code l = some offset) : offset ≤ a ∨ b ≤ offset := by
  by_cases h : l ≤ k
  · exact .inl (sweep_mono hl ha h)
  · rw [← sweep_succ ha] at hb
    exact .inr (sweep_mono hb hl (by omega))

/-- The offsets of a record of fetches are the first `n` places of the sweep. -/
def Swept (code : List UInt8) (trace : List (Nat × Opcode)) (n : Nat) : Prop :=
  ∀ offset, (∃ op, (offset, op) ∈ trace) ↔ ∃ k < n, sweep code k = some offset

theorem Swept.cons {trace : List (Nat × Opcode)} {n c offset : Nat} (h : Swept code trace n) (hc : c ≤ n)
    (ho : sweep code c = some offset) (op : Opcode) : Swept code ((offset, op) :: trace) (max n (c + 1)) := by
  intro o
  constructor
  · intro hm
    obtain ⟨op', hm⟩ := hm
    rcases List.mem_cons.mp hm with he | hm
    · cases he
      exact ⟨c, by omega, ho⟩
    · obtain ⟨k, hk, hs⟩ := (h o).mp ⟨op', hm⟩
      exact ⟨k, by omega, hs⟩
  · intro hk
    obtain ⟨k, hk, hs⟩ := hk
    by_cases hn : k < n
    · obtain ⟨op', hm⟩ := (h o).mpr ⟨k, hn, hs⟩
      exact ⟨op', List.mem_cons_of_mem _ hm⟩
    · have he : k = c := by omega
      subst he
      rw [ho] at hs
      cases hs
      exact ⟨op, List.mem_cons_self⟩

/-- Where the most recently fetched marker of a location stands. -/
def latestMark (code : List UInt8) (id : UInt8) : List (Nat × Opcode) → Option Nat
  | [] => none
  | (offset, op) :: earlier =>
    if op = .mark ∧ code[offset + 1]? = some id then some offset else latestMark code id earlier

theorem latestMark_eq_some {id : UInt8} {trace : List (Nat × Opcode)} {offset : Nat}
    (h : latestMark code id trace = some offset) :
    (offset, .mark) ∈ trace ∧ code[offset + 1]? = some id := by
  induction trace with
  | nil => cases h
  | cons entry earlier ih =>
    obtain ⟨o, op⟩ := entry
    rw [latestMark] at h
    by_cases hc : op = .mark ∧ code[o + 1]? = some id
    · rw [if_pos hc] at h
      cases h
      obtain ⟨rfl, hi⟩ := hc
      exact ⟨List.mem_cons_self, hi⟩
    · rw [if_neg hc] at h
      obtain ⟨hm, hi⟩ := ih h
      exact ⟨List.mem_cons_of_mem _ hm, hi⟩

theorem latestMark_ne_none {id : UInt8} {trace : List (Nat × Opcode)} {offset : Nat}
    (hm : (offset, .mark) ∈ trace) (hi : code[offset + 1]? = some id) : latestMark code id trace ≠ none := by
  induction trace with
  | nil => cases hm
  | cons entry earlier ih =>
    obtain ⟨o, op⟩ := entry
    rw [latestMark]
    by_cases hc : op = .mark ∧ code[o + 1]? = some id
    · rw [if_pos hc]
      simp
    · rw [if_neg hc]
      rcases List.mem_cons.mp hm with he | hm
      · cases he
        exact (hc ⟨rfl, hi⟩).elim
      · exact ih hm

theorem decode_mark {offset : Nat} {id : UInt8} (ho : code[offset]? = some (Opcode.code .mark))
    (hi : code[offset + 1]? = some id) :
    Instruction.decode (code.drop offset) = .ok (.mark id) (code.drop (offset + 2)) := by
  obtain ⟨hlt, hb⟩ := List.getElem?_eq_some_iff.mp ho
  obtain ⟨hlt', hb'⟩ := List.getElem?_eq_some_iff.mp hi
  refine Instruction.decode_eq_ok.mpr ⟨trivial, ?_⟩
  rw [List.drop_eq_getElem_cons hlt, List.drop_eq_getElem_cons hlt', hb, hb']
  rfl

end Sweep

end RegisterMachine
