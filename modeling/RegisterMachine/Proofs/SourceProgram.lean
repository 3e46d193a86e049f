import RegisterMachine.Proofs.NamedInstruction

namespace RegisterMachine

/-- A line of the program with its names. A label is the marker of its name. -/
def Statement.written : Statement → Except AssemblyError (Instruction String String)
  | label name _ => .ok (.mark name)
  | instruction line op head operands =>
    match Instruction.parse .names op head operands with
    | .ok i => .ok i
    | .error blame => .error ⟨blame, line⟩

/-- The lines of a source text that take part in the program, with their names. -/
def programOf (source : String) : Except AssemblyError (List (Instruction String String)) := do
  let survey ← Survey.ofSource source
  survey.statements.mapM Statement.written

/-- The number of instructions before a line, where labels do not count. -/
def instructionsBefore (program : List (Instruction String String)) (k : Nat) : Nat :=
  ((program.map Instruction.label?).take k).count none

/-- The line that declares a label. -/
def declaration? (program : List (Instruction String String)) (name : String) : Option Nat :=
  (program.map Instruction.label?).idxOf? (some name)

/-- A label stands for the number of instructions before it, as far as a byte holds it, and a system
call for the first place of its name in the table. -/
def scopeOf (table : SyscallTable) (program : List (Instruction String String)) : Scope UInt8 UInt8 :=
  ⟨fun name => (declaration? program name).map fun k => UInt8.ofNat (instructionsBefore program k), table.indexOf?⟩

/-- A program in which every label is declared once, and its instructions with the names looked up. -/
structure Linked (table : SyscallTable) (program : List (Instruction String String))
    (encoded : List (Instruction UInt8 UInt8)) : Prop where
  resolved : List.Forall₂ (fun written i => written.resolve (scopeOf table program) = some i ∧ i.Encodable)
    program encoded
  declared : ∀ k name, program[k]? = some (.mark name) → declaration? program name = some k

theorem op_ne_mark_of_ofText {raw : List Char} {op : Opcode} {head : Token} {operands : List Token}
    (h : Line.ofText raw = .ok (.instruction op head operands)) : op ≠ .mark := by
  unfold Line.ofText at h
  simp only at h
  split at h
  next => cases h
  next =>
    split at h
    next => cases h
    next => cases h
  next =>
    unfold Line.instructionOf at h
    split at h
    next => cases h
    next => cases h
    next => cases h
    next =>
      split at h
      next op' ho =>
        cases h
        have hf := List.find?_some ho
        simp only [Bool.and_eq_true, bne_iff_ne] at hf
        exact hf.2
      next => cases h

/-- The label that a statement declares. -/
def Statement.label? : Statement → Option String
  | label name _ => some name
  | instruction .. => none

namespace Survey

/-- How a survey grows from the last line to the first. -/
inductive Grown : Labels → Nat → Survey → Prop
  | nil (labels : Labels) (count : Nat) : Grown labels count ⟨labels, []⟩
  | label {labels : Labels} {count : Nat} {s : Survey} {name : String} : labels.lookup name = none →
      Grown ((name, UInt8.ofNat count) :: labels) count s →
      Grown labels count (s.cons (.label name (UInt8.ofNat count)))
  | instruction {labels : Labels} {count : Nat} {s : Survey} (line : Nat) {op : Opcode} (head : Token)
      (operands : List Token) : op ≠ .mark → Grown labels (count + 1) s →
      Grown labels count (s.cons (.instruction line op head operands))

theorem grown_of_follow {labels : Labels} {count : Nat} {lines : List (List Char × Nat)} {s : Survey}
    (h : follow labels count lines = .ok s) : Grown labels count s := by
  induction lines generalizing labels count s with
  | nil =>
    cases h
    exact .nil labels count
  | cons line lines ih =>
    obtain ⟨raw, number⟩ := line
    unfold follow at h
    split at h
    next => cases h
    next => exact ih h
    next name column _ =>
      split at h
      next => cases h
      next hn =>
        cases hf : follow ((name, UInt8.ofNat count) :: labels) count lines with
        | error e => simp [hf, Except.map] at h
        | ok s' =>
          simp only [hf, Except.map] at h
          cases h
          exact .label hn (ih hf)
    next op head operands ho =>
      cases hf : follow labels (count + 1) lines with
      | error e => simp [hf, Except.map] at h
      | ok s' =>
        simp only [hf, Except.map] at h
        cases h
        exact .instruction number head operands (op_ne_mark_of_ofText ho) (ih hf)

section Grown

variable {labels : Labels} {count : Nat} {s : Survey}

theorem lookup_cons_of_ne {name other : String} {id : UInt8} (h : other ≠ name) :
    List.lookup other ((name, id) :: labels) = labels.lookup other := by
  have hb : (other == name) = false := by simpa using h
  rw [List.lookup_cons, hb]

theorem Grown.lookup_kept (h : Grown labels count s) {name : String} {id : UInt8}
    (hl : labels.lookup name = some id) : s.labels.lookup name = some id := by
  induction h with
  | nil => exact hl
  | @label labels count s other hn _ ih =>
    apply ih
    have hne : name ≠ other := by
      intro he
      subst he
      rw [hn] at hl
      cases hl
    rw [lookup_cons_of_ne hne]
    exact hl
  | instruction line head operands _ _ ih => exact ih hl

theorem Grown.lookup_of_label (h : Grown labels count s) {name : String} {id : UInt8}
    (hm : .label name id ∈ s.statements) : s.labels.lookup name = some id := by
  induction h with
  | nil => cases hm
  | label hn hg ih =>
    rcases List.mem_cons.mp hm with he | hm
    · cases he
      exact hg.lookup_kept (List.lookup_cons_self ..)
    · exact ih hm
  | instruction line head operands _ _ ih =>
    rcases List.mem_cons.mp hm with he | hm
    · cases he
    · exact ih hm

theorem Grown.op_ne_mark (h : Grown labels count s) {line : Nat} {op : Opcode} {head : Token}
    {operands : List Token} (hm : .instruction line op head operands ∈ s.statements) : op ≠ .mark := by
  induction h with
  | nil => cases hm
  | label hn hg ih =>
    rcases List.mem_cons.mp hm with he | hm
    · cases he
    · exact ih hm
  | instruction _ _ _ ho _ ih =>
    rcases List.mem_cons.mp hm with he | hm
    · cases he
      exact ho
    · exact ih hm

theorem Grown.lookup_of_mem (h : Grown labels count s) {name : String}
    (hm : some name ∈ s.statements.map Statement.label?) : labels.lookup name = none := by
  induction h with
  | nil => simp at hm
  | @label labels count s other hn _ ih =>
    rcases List.mem_cons.mp hm with he | hm
    · cases he
      exact hn
    · have hl := ih hm
      have hne : name ≠ other := by
        intro he
        subst he
        rw [List.lookup_cons_self] at hl
        cases hl
      rw [lookup_cons_of_ne hne] at hl
      exact hl
  | instruction line head operands _ _ ih =>
    rcases List.mem_cons.mp hm with he | hm
    · cases he
    · exact ih hm

theorem Grown.idxOf?_eq (h : Grown labels count s) {k : Nat} {name : String}
    (hk : (s.statements.map Statement.label?)[k]? = some (some name)) :
    (s.statements.map Statement.label?).idxOf? (some name) = some k := by
  induction h generalizing k with
  | nil => simp at hk
  | @label labels count s other hn hg ih =>
    cases k with
    | zero =>
      cases hk
      simp [cons, Statement.label?, List.idxOf?_cons]
    | succ k =>
      have hl := hg.lookup_of_mem (List.mem_of_getElem? hk)
      have hb : (some other == some name) = false := by
        by_contra he
        simp only [Bool.not_eq_false, beq_iff_eq] at he
        cases he
        rw [List.lookup_cons_self] at hl
        cases hl
      simp only [cons, List.map_cons, Statement.label?, List.idxOf?_cons, hb]
      rw [ih hk]
      rfl
  | instruction line head operands _ _ ih =>
    cases k with
    | zero => cases hk
    | succ k =>
      have hb : ((none : Option String) == some name) = false := rfl
      simp only [cons, List.map_cons, Statement.label?, List.idxOf?_cons, hb]
      rw [ih hk]
      rfl

/-- The number of a label is the count of the instructions before the first line that declares it. -/
theorem Grown.lookup_eq (h : Grown labels count s) (name : String) :
    s.labels.lookup name =
      match (s.statements.map Statement.label?).idxOf? (some name) with
      | some k => some (UInt8.ofNat (count + ((s.statements.map Statement.label?).take k).count none))
      | none => labels.lookup name := by
  induction h with
  | nil => rfl
  | @label labels count s other hn hg ih =>
    by_cases he : name = other
    · subst he
      have hl := hg.lookup_kept (List.lookup_cons_self ..)
      simp [cons, Statement.label?, List.idxOf?_cons, hl]
    · have hb : (some other == some name) = false := by simpa using fun h => he h.symm
      rw [lookup_cons_of_ne he] at ih
      simp only [cons, List.map_cons, Statement.label?, List.idxOf?_cons, hb]
      rw [ih]
      cases (s.statements.map Statement.label?).idxOf? (some name) with
      | none => rfl
      | some k => simp
  | @instruction labels count s line op head operands _ _ ih =>
    have hb : ((none : Option String) == some name) = false := rfl
    simp only [cons, List.map_cons, Statement.label?, List.idxOf?_cons, hb]
    rw [ih]
    cases (s.statements.map Statement.label?).idxOf? (some name) with
    | none => rfl
    | some k =>
      have hc : ∀ n, count + 1 + n = count + (n + 1) := by omega
      simp only [hc, Bool.false_eq_true, if_false, Option.map_some, List.take_succ_cons, List.count_cons_self]

end Grown

end Survey

namespace Statement

variable {scope : Scope UInt8 UInt8}

theorem written_of_instruction? {st : Statement} {i : Instruction UInt8 UInt8}
    (h : st.instruction? scope = .ok i) (hl : ∀ name id, st = label name id → scope.location? name = some id)
    (ho : ∀ line op head operands, st = instruction line op head operands → op ≠ .mark) :
    ∃ written, st.written = .ok written ∧ written.resolve scope = some i ∧ i.Encodable ∧
      written.label? = st.label? := by
  cases st with
  | label name id =>
    cases h
    refine ⟨.mark name, rfl, ?_, trivial, rfl⟩
    rw [Instruction.resolve, hl name id rfl]
    rfl
  | instruction line op head operands =>
    simp only [instruction?] at h
    cases hp : Instruction.parse scope op head operands with
    | error blame => simp [hp] at h
    | ok i' =>
      rw [hp] at h
      cases h
      obtain ⟨written, hw, hr, hop, he⟩ := Instruction.parse_eq_ok hp
      refine ⟨written, by simp only [Statement.written, hw], hr, he, ?_⟩
      have hne := ho line op head operands rfl
      rw [← hop] at hne
      cases written with
      | mark name => exact (hne rfl).elim
      | _ => rfl

theorem written_of_instructions {statements : List Statement} {encoded : List (Instruction UInt8 UInt8)}
    (h : List.Forall₂ (fun st i => instruction? scope st = .ok i) statements encoded)
    (hl : ∀ name id, label name id ∈ statements → scope.location? name = some id)
    (ho : ∀ line op head operands, instruction line op head operands ∈ statements → op ≠ .mark) :
    ∃ program, List.Forall₂ (fun st written => st.written = .ok written) statements program ∧
      List.Forall₂ (fun written i => written.resolve scope = some i ∧ i.Encodable) program encoded ∧
      program.map Instruction.label? = statements.map Statement.label? := by
  induction h with
  | nil => exact ⟨[], .nil, .nil, rfl⟩
  | @cons st i statements encoded hi _ ih =>
    obtain ⟨written, hw, hr, he, hn⟩ := written_of_instruction? hi
      (fun name id hs => hl name id (by simp [hs]))
      (fun line op head operands hs => ho line op head operands (by simp [hs]))
    obtain ⟨program, hws, hrs, hns⟩ := ih (fun name id hm => hl name id (List.mem_cons_of_mem _ hm))
      (fun line op head operands hm => ho line op head operands (List.mem_cons_of_mem _ hm))
    exact ⟨written :: program, .cons hw hws, .cons ⟨hr, he⟩ hrs, by simp [hn, hns]⟩

end Statement

/-- The bytecode of an accepted source text is that of its program with the names looked up. -/
theorem assemble_eq_ok {table : SyscallTable} {source : String} {code : List UInt8}
    (h : assemble table source = .ok code) :
    ∃ program encoded, programOf source = .ok program ∧ Linked table program encoded ∧
      code = encoded.flatMap Instruction.encode := by
  obtain ⟨encoded, hi, hc⟩ := except_bind_eq_ok.mp h
  cases hc
  obtain ⟨survey, hs, hm⟩ := except_bind_eq_ok.mp hi
  have hg := Survey.grown_of_follow hs
  obtain ⟨program, hw, hr, hn⟩ := Statement.written_of_instructions (mapM_eq_ok.mp hm)
    (fun name id hmem => hg.lookup_of_label hmem) (fun line op head operands hmem => hg.op_ne_mark hmem)
  have hscope : survey.scope table = scopeOf table program := by
    have hl : (fun name => survey.labels.lookup name) =
        fun name => (declaration? program name).map fun k => UInt8.ofNat (instructionsBefore program k) := by
      funext name
      rw [hg.lookup_eq name, declaration?]
      simp only [instructionsBefore, hn, Nat.zero_add]
      cases (survey.statements.map Statement.label?).idxOf? (some name) <;> rfl
    rw [Survey.scope, hl]
    rfl
  rw [hscope] at hr
  refine ⟨program, encoded, except_bind_eq_ok.mpr ⟨survey, hs, mapM_eq_ok.mpr hw⟩, ⟨hr, ?_⟩, rfl⟩
  intro k name hk
  rw [declaration?, hn]
  apply hg.idxOf?_eq
  rw [← hn, List.getElem?_map, hk]
  rfl

end RegisterMachine
