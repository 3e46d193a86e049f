import RegisterMachine.Proofs.OperandWords

namespace RegisterMachine

/-- A source text that can be assembled. Every line is blank, or a label with a name that no other line
declares, or an instruction with operands that can stand where they do. -/
structure WellFormed (table : SyscallTable) (lines : List (List Char)) : Prop where
  named : ∀ raw ∈ lines, Line.isLabel raw = true → Line.labelName raw ≠ ""
  once : DeclaredOnce lines
  instructions : ∀ raw ∈ lines, Line.isInstruction raw = true →
    ∃ op operands, Line.Spells raw op operands ∧ op.Admits operands.length ∧ op.Reads table lines operands

/-- The bytes of a line. A label is the marker of the location in front of the line. -/
inductive LineBytes (table : SyscallTable) (lines : List (List Char)) : List Char × Nat → List UInt8 → Prop
  | blank {raw : List Char} {k : Nat} : Line.body raw = [] → LineBytes table lines (raw, k) []
  | label {raw : List Char} {k : Nat} : Line.isLabel raw = true →
      LineBytes table lines (raw, k) [0x0d, locationAt lines k]
  | instruction {raw : List Char} {k : Nat} {op : Opcode} {operands : List Token} {parts : List (List UInt8)} :
      Line.isInstruction raw = true → Line.Spells raw op operands →
      List.Forall₂ (op.Places table lines) operands.zipIdx parts →
      LineBytes table lines (raw, k) (op.code :: op.layout parts)

/-- The bytes of all lines in their order. -/
def Bytecode (table : SyscallTable) (lines : List (List Char)) (code : List UInt8) : Prop :=
  ∃ parts, List.Forall₂ (LineBytes table lines) lines.zipIdx parts ∧ code = parts.flatten

section Unique

variable {table : SyscallTable} {lines : List (List Char)}

theorem Line.Spells.unique {raw : List Char} {op op' : Opcode} {operands operands' : List Token}
    (h : Spells raw op operands) (h' : Spells raw op' operands') : op = op' ∧ operands = operands' := by
  obtain ⟨head, hs, ho⟩ := h
  obtain ⟨head', hs', ho'⟩ := h'
  rw [hs] at hs'
  cases hs'
  have he := Opcode.ofMnemonic?_eq_some.mpr ho
  rw [Opcode.ofMnemonic?_eq_some.mpr ho'] at he
  cases he
  exact ⟨rfl, rfl⟩

theorem Denotes.unique {name : String} {id id' : UInt8} (hd : DeclaredOnce lines) (h : Denotes lines name id)
    (h' : Denotes lines name id') : id = id' := by
  obtain ⟨j, hj, rfl⟩ := h
  obtain ⟨k, hk, rfl⟩ := h'
  rw [hd j k name hj hk]

theorem Slot.Writes.unique {slot : Slot} {word : String} {part part' : List UInt8} (hd : DeclaredOnce lines)
    (h : slot.Writes table lines word part) (h' : slot.Writes table lines word part') : part = part' := by
  cases slot with
  | location =>
    obtain ⟨id, hi, rfl⟩ := h
    obtain ⟨id', hi', rfl⟩ := h'
    rw [hi.unique hd hi']
  | _ =>
    obtain ⟨x, hx, rfl⟩ := h
    obtain ⟨y, hy, rfl⟩ := h'
    rw [hx] at hy
    cases hy
    rfl

theorem places_unique (hd : DeclaredOnce lines) (op : Opcode) : Relator.RightUnique (op.Places table lines) := by
  rintro operand part part' ⟨slot, hs, hw⟩ ⟨slot', hs', hw'⟩
  rw [hs] at hs'
  cases hs'
  exact hw.unique hd hw'

theorem lineBytes_unique (hd : DeclaredOnce lines) : Relator.RightUnique (LineBytes table lines) := by
  intro line part part' h h'
  cases h with
  | blank hb =>
    cases h' with
    | blank _ => rfl
    | label hl => simp [Line.isLabel_of_blank hb] at hl
    | instruction hi _ _ => simp [Line.isInstruction, hb] at hi
  | label hl =>
    cases h' with
    | blank hb => simp [Line.isLabel_of_blank hb] at hl
    | label _ => rfl
    | instruction hi _ _ => simp [Line.isLabel_of_isInstruction hi] at hl
  | instruction hi hs hp =>
    cases h' with
    | blank hb => simp [Line.isInstruction, hb] at hi
    | label hl => simp [Line.isLabel_of_isInstruction hi] at hl
    | instruction _ hs' hp' =>
      obtain ⟨rfl, rfl⟩ := hs.unique hs'
      rw [List.right_unique_forall₂' (places_unique hd _) hp hp']

end Unique

section Passes

variable {table : SyscallTable} {lines rest : List (List Char)} {survey : Survey} {statements : List Statement} {k : Nat}

theorem reads_of_places {op : Opcode} {operands : List Token} {parts : List (List UInt8)}
    (h : List.Forall₂ (op.Places table lines) operands.zipIdx parts) : op.Reads table lines operands := by
  intro k token hk
  have hz : operands.zipIdx[k]? = some (token, k) := by simp [List.getElem?_zipIdx, hk]
  obtain ⟨part, -, hp⟩ := forall₂_left h hz
  exact ⟨part, hp⟩

theorem instruction?_eq_ok {scope : Scope UInt8 UInt8} {number : Nat} {op : Opcode} {head : Token}
    {operands : List Token} {i : Instruction UInt8 UInt8} :
    Statement.instruction? scope (.instruction number op head operands) = .ok i ↔
      Instruction.parse scope op head operands = .ok i := by
  cases hp : Instruction.parse scope op head operands <;> simp [Statement.instruction?, hp]

namespace Survey

theorem Covers.named (h : Covers lines k rest statements) :
    ∀ raw ∈ rest, Line.isLabel raw = true → Line.labelName raw ≠ "" := by
  induction h with
  | nil k => simp
  | blank hb _ ih =>
    rintro raw (_ | ⟨_, hm⟩) hl
    · simp [Line.isLabel_of_blank hb] at hl
    · exact ih raw hm hl
  | label _ hn _ ih =>
    rintro raw (_ | ⟨_, hm⟩) hl
    · exact hn
    · exact ih raw hm hl
  | instruction _ _ hi _ _ ih =>
    rintro raw (_ | ⟨_, hm⟩) hl
    · simp [Line.isLabel_of_isInstruction hi] at hl
    · exact ih raw hm hl

theorem Covers.statement_of_instruction (h : Covers lines k rest statements) :
    ∀ raw ∈ rest, Line.isInstruction raw = true → ∃ number op head operands,
      Line.Spells raw op operands ∧ .instruction number op head operands ∈ statements := by
  induction h with
  | nil k => simp
  | blank hb _ ih =>
    rintro raw (_ | ⟨_, hm⟩) hi
    · simp [Line.isInstruction, hb] at hi
    · exact ih raw hm hi
  | label hl _ _ ih =>
    rintro raw (_ | ⟨_, hm⟩) hi
    · simp [Line.isLabel_of_isInstruction hi] at hl
    · obtain ⟨number, op, head, operands, hs, hst⟩ := ih raw hm hi
      exact ⟨number, op, head, operands, hs, List.mem_cons_of_mem _ hst⟩
  | instruction number head _ hs _ ih =>
    rintro raw (_ | ⟨_, hm⟩) hi
    · exact ⟨number, _, head, _, hs, List.mem_cons_self⟩
    · obtain ⟨number, op, head, operands, hs, hst⟩ := ih raw hm hi
      exact ⟨number, op, head, operands, hs, List.mem_cons_of_mem _ hst⟩

theorem Covers.instruction_of_statement (h : Covers lines k rest statements) {number : Nat} {op : Opcode}
    {head : Token} {operands : List Token} (hst : .instruction number op head operands ∈ statements) :
    ∃ raw ∈ rest, Line.isInstruction raw = true ∧ Line.Spells raw op operands := by
  induction h with
  | nil k => cases hst
  | blank _ _ ih =>
    obtain ⟨raw, hm, hr⟩ := ih hst
    exact ⟨raw, List.mem_cons_of_mem _ hm, hr⟩
  | label _ _ _ ih =>
    rcases List.mem_cons.mp hst with he | hst
    · cases he
    · obtain ⟨raw, hm, hr⟩ := ih hst
      exact ⟨raw, List.mem_cons_of_mem _ hm, hr⟩
  | instruction _ _ hi hs _ ih =>
    rcases List.mem_cons.mp hst with he | hst
    · cases he
      exact ⟨_, List.mem_cons_self, hi, hs⟩
    · obtain ⟨raw, hm, hr⟩ := ih hst
      exact ⟨raw, List.mem_cons_of_mem _ hm, hr⟩

/-- The second pass gives each line its bytes. -/
theorem Covers.lineBytes {encoded : List (Instruction UInt8 UInt8)} (h : Covers lines k rest statements)
    (hc : Collected lines survey.labels)
    (he : List.Forall₂ (fun st i => Statement.instruction? (survey.scope table) st = .ok i) statements encoded) :
    ∃ parts, List.Forall₂ (LineBytes table lines) (rest.zipIdx k) parts ∧
      encoded.flatMap Instruction.encode = parts.flatten := by
  induction h generalizing encoded with
  | nil k =>
    cases he
    exact ⟨[], .nil, rfl⟩
  | blank hb _ ih =>
    obtain ⟨parts, hp, hf⟩ := ih he
    exact ⟨[] :: parts, .cons (.blank hb) hp, hf⟩
  | @label k raw rest statements hl hn _ ih =>
    cases he with
    | cons hi hes =>
      cases hi
      obtain ⟨parts, hp, hf⟩ := ih hes
      refine ⟨[0x0d, locationAt lines k] :: parts, .cons (.label hl) hp, ?_⟩
      rw [List.flatMap_cons, hf]
      rfl
  | @instruction k raw rest statements op operands number head hi hs _ ih =>
    cases he with
    | @cons _ i _ encoded hst hes =>
      obtain ⟨-, hop, words, hw, hb⟩ := places_of_parse hc (instruction?_eq_ok.mp hst)
      obtain ⟨parts, hp, hf⟩ := ih hes
      refine ⟨(op.code :: op.layout words) :: parts, .cons (.instruction hi hs hw) hp, ?_⟩
      rw [List.flatMap_cons, hf, Instruction.encode, hop, hb]
      rfl

end Survey

theorem assembled_iff {source : String} {code : List UInt8} :
    assemble table source = .ok code ↔ ∃ survey encoded, Survey.ofSource source = .ok survey ∧
      survey.statements.mapM (Statement.instruction? (survey.scope table)) = .ok encoded ∧
      encoded.flatMap Instruction.encode = code := by
  constructor
  · intro h
    obtain ⟨encoded, hi, hc⟩ := except_bind_eq_ok.mp h
    cases hc
    obtain ⟨survey, hs, hm⟩ := except_bind_eq_ok.mp hi
    exact ⟨survey, encoded, hs, hm, rfl⟩
  · rintro ⟨survey, encoded, hs, hm, rfl⟩
    exact except_bind_eq_ok.mpr ⟨encoded, except_bind_eq_ok.mpr ⟨survey, hs, hm⟩, rfl⟩

theorem collected_nil : Collected [] [] := by
  intro name id
  constructor
  · intro h
    cases h
  · rintro ⟨k, hk, -⟩
    exact absurd (declares_lt hk) (by simp)

theorem declaredOnce_nil : DeclaredOnce [] := by
  intro j k name hj
  exact absurd (declares_lt hj) (by simp)

/-- Of an accepted text, both passes together show that it is well formed and what its bytes are. -/
theorem wellFormed_of_assemble {source : String} {code : List UInt8} (h : assemble table source = .ok code) :
    WellFormed table (Text.lines source.toList) ∧ Bytecode table (Text.lines source.toList) code := by
  obtain ⟨survey, encoded, hs, hm, rfl⟩ := assembled_iff.mp h
  obtain ⟨hcov, hc, hd⟩ := Survey.covers_of_follow collected_nil declaredOnce_nil hs
  rw [List.nil_append] at hcov hc hd
  have he := mapM_eq_ok.mp hm
  obtain ⟨parts, hp, hf⟩ := hcov.lineBytes hc he
  refine ⟨⟨hcov.named, hd, ?_⟩, parts, hp, hf⟩
  intro raw hraw hi
  obtain ⟨number, op, head, operands, hsp, hst⟩ := hcov.statement_of_instruction raw hraw hi
  obtain ⟨j, hj⟩ := List.mem_iff_getElem?.mp hst
  obtain ⟨i, -, hpi⟩ := forall₂_left he hj
  obtain ⟨ha, -, words, hw, -⟩ := places_of_parse hc (instruction?_eq_ok.mp hpi)
  exact ⟨op, operands, hsp, ha, reads_of_places hw⟩

theorem WellFormed.exists_assemble {source : String} (h : WellFormed table (Text.lines source.toList)) :
    ∃ code, assemble table source = .ok code := by
  obtain ⟨survey, hs⟩ : ∃ survey, Survey.ofSource source = .ok survey := by
    refine Survey.exists_follow collected_nil h.once h.named ?_
    intro raw hraw hi
    obtain ⟨op, operands, hsp, -⟩ := h.instructions raw hraw hi
    exact ⟨op, operands, hsp⟩
  obtain ⟨hcov, hc, -⟩ := Survey.covers_of_follow collected_nil declaredOnce_nil hs
  rw [List.nil_append] at hcov hc
  obtain ⟨encoded, he⟩ : ∃ encoded,
      survey.statements.mapM (Statement.instruction? (survey.scope table)) = .ok encoded := by
    apply exists_mapM
    intro st hst
    cases st with
    | label name id => exact ⟨_, rfl⟩
    | instruction number op head operands =>
      obtain ⟨raw, hraw, hi, hsp⟩ := hcov.instruction_of_statement hst
      obtain ⟨op', operands', hsp', ha, hr⟩ := h.instructions raw hraw hi
      obtain ⟨rfl, rfl⟩ := hsp.unique hsp'
      obtain ⟨i, hp⟩ := exists_parse hc ha hr head
      exact ⟨i, instruction?_eq_ok.mpr hp⟩
  exact ⟨_, assembled_iff.mpr ⟨survey, encoded, hs, he, rfl⟩⟩

end Passes

/-- A source text is accepted exactly when it is well formed, and its bytecode is then that of its lines. -/
theorem assemble_accepts_exactly (table : SyscallTable) (source : String) :
    ((∃ code, assemble table source = .ok code) ↔ WellFormed table (Text.lines source.toList)) ∧
      ∀ code, assemble table source = .ok code ↔
        WellFormed table (Text.lines source.toList) ∧ Bytecode table (Text.lines source.toList) code := by
  constructor
  · constructor
    · rintro ⟨code, h⟩
      exact (wellFormed_of_assemble h).1
    · exact fun h => h.exists_assemble
  · intro code
    constructor
    · exact wellFormed_of_assemble
    · rintro ⟨hw, parts, hp, rfl⟩
      -- The lines leave no choice, so the bytes of the accepted text are the given ones.
      obtain ⟨code, hc⟩ := hw.exists_assemble
      obtain ⟨-, parts', hp', rfl⟩ := wellFormed_of_assemble hc
      rw [List.right_unique_forall₂' (lineBytes_unique hw.once) hp hp']
      exact hc

-- A label may be used before its line, and the exit status is left out.
example : assemble .standard "jump end ; ahead\nend:\nhalt" = .ok [0x0c, 1, 0x0d, 1, 0x05, 1, 1, 0] := by
  decide +kernel

end RegisterMachine
