import RegisterMachine.Proofs.CheckedOffsets

namespace RegisterMachine

/-- An instruction may be written with this number of operands, as far as its operand positions say. -/
def Opcode.takes (op : Opcode) (actual : Nat) : Bool :=
  op.leastOperands ≤ actual ∧ ((op.slots.any fun slot => slot.most?.isNone) ∨ actual ≤ op.mostOperands)

theorem Opcode.length_of_takes {op : Opcode} {n : Nat} (h : op.takes n = true) (hh : op ≠ .halt) (hc : op ≠ .call) :
    n = op.slots.length := by
  cases op with
  | halt => exact (hh rfl).elim
  | call => exact (hc rfl).elim
  | _ =>
    simp [takes, leastOperands, mostOperands, slots, Slot.least, Slot.most?] at h
    simp only [slots, List.length_cons, List.length_nil]
    omega

theorem Opcode.le_one_of_takes {n : Nat} (h : Opcode.halt.takes n = true) : n ≤ 1 := by
  simpa [takes, leastOperands, mostOperands, slots, Slot.least, Slot.most?] using h

theorem Opcode.takes_call {n : Nat} : Opcode.call.takes n = true ↔ 1 ≤ n := by
  simp [takes, leastOperands, slots, Slot.least, Slot.most?]

namespace Instruction

variable {Location Syscall α β : Type}

/-- Takes the next word for an operand. There is no outcome if there is none left. -/
def withWord (read : String → Except Problem α) (words : List Token)
    (next : α → List Token → Option (Except Blame β)) : Option (Except Blame β) :=
  match words with
  | [] => none
  | token :: rest =>
    match operandAt read token with
    | .ok x => next x rest
    | .error blame => some (.error blame)

/-- Takes the operands of an instruction from the words, one after the other. -/
def takeOperands? (scope : Scope Location Syscall) (op : Opcode) (words : List Token) :
    Option (Except Blame (Instruction Location Syscall)) :=
  match op with
  | .load =>
    withWord Literal.register words fun target words =>
      withWord Literal.operand words fun source _ => some (.ok (.load target source))
  | .store =>
    withWord Literal.address words fun address words =>
      withWord Literal.operand words fun source _ => some (.ok (.store address source))
  | .fetch =>
    withWord Literal.address words fun address words =>
      withWord Literal.register words fun target _ => some (.ok (.fetch address target))
  | .arithmetic op =>
    withWord Literal.operand words fun left words =>
      withWord Literal.operand words fun right words =>
        withWord Literal.register words fun target _ => some (.ok (.arithmetic op left right target))
  | .halt =>
    if words.isEmpty then some (.ok (.halt (.value (.byte 0))))
    else withWord Literal.operand words fun status _ => some (.ok (.halt status))
  | .branch test =>
    withWord Literal.operand words fun condition words =>
      withWord (locationOf scope) words fun location _ => some (.ok (.branch test condition location))
  | .jump => withWord (locationOf scope) words fun location _ => some (.ok (.jump location))
  | .mark => withWord (locationOf scope) words fun location _ => some (.ok (.mark location))
  | .call => do
    let name ← words[0]?
    withWord (syscallOf scope) words fun syscall words =>
      some do
        let arguments ← words.mapM (operandAt Literal.operand)
        if 255 < arguments.length then
          throw ⟨name.column, .tooManyArguments arguments.length⟩
        return .call syscall arguments

/-- Reads an instruction from all of its words. The number of the operands is checked before they are taken. There is
no outcome if a word is missing after that. -/
def checked? (scope : Scope Location Syscall) (words : List Token) :
    Option (Except Blame (Instruction Location Syscall)) := do
  let head ← words[0]?
  match Opcode.ofMnemonic? head.text with
  | none => return .error ⟨head.column, .unknownInstruction head.text⟩
  | some op =>
    let actual ← Text.above? words.length 1
    if op.takes actual then takeOperands? scope op words.tail
    else return .error ⟨head.column, .arityMismatch head.text (op.expectedOperands actual) actual⟩

section Checked

variable {scope : Scope Location Syscall} {op : Opcode} {head token : Token} {operands rest : List Token}

theorem withWord_cons {read : String → Except Problem α} {next : α → List Token → Option (Except Blame β)}
    {f : α → Except Blame β} (h : ∀ x, next x rest = some (f x)) :
    withWord read (token :: rest) next = some (operandAt read token >>= f) := by
  rw [withWord]
  cases operandAt read token with
  | ok x => exact h x
  | error blame => rfl

/-- Once their number has been checked, there is a word for every operand. -/
theorem takeOperands?_eq (h : op.takes operands.length = true) :
    takeOperands? scope op operands = some (parse scope op head operands) := by
  cases op with
  | load =>
    obtain ⟨target, source, rfl⟩ := List.length_eq_two.mp (Opcode.length_of_takes h (by decide) (by decide))
    simp only [takeOperands?, parse]
    exact withWord_cons fun target => withWord_cons fun source => rfl
  | store =>
    obtain ⟨address, source, rfl⟩ := List.length_eq_two.mp (Opcode.length_of_takes h (by decide) (by decide))
    simp only [takeOperands?, parse]
    exact withWord_cons fun address => withWord_cons fun source => rfl
  | fetch =>
    obtain ⟨address, target, rfl⟩ := List.length_eq_two.mp (Opcode.length_of_takes h (by decide) (by decide))
    simp only [takeOperands?, parse]
    exact withWord_cons fun address => withWord_cons fun target => rfl
  | arithmetic op =>
    obtain ⟨left, right, target, rfl⟩ := List.length_eq_three.mp (Opcode.length_of_takes h nofun nofun)
    simp only [takeOperands?, parse]
    exact withWord_cons fun left => withWord_cons fun right => withWord_cons fun target => rfl
  | halt =>
    match operands, Opcode.le_one_of_takes h with
    | [], _ => rfl
    | [status], _ =>
      simp only [takeOperands?, parse, List.isEmpty_cons, Bool.false_eq_true, if_false]
      exact withWord_cons fun status => rfl
  | branch test =>
    obtain ⟨condition, location, rfl⟩ := List.length_eq_two.mp (Opcode.length_of_takes h nofun nofun)
    simp only [takeOperands?, parse]
    exact withWord_cons fun condition => withWord_cons fun location => rfl
  | jump =>
    obtain ⟨location, rfl⟩ := List.length_eq_one_iff.mp (Opcode.length_of_takes h nofun nofun)
    simp only [takeOperands?, parse]
    exact withWord_cons fun location => rfl
  | mark =>
    obtain ⟨location, rfl⟩ := List.length_eq_one_iff.mp (Opcode.length_of_takes h nofun nofun)
    simp only [takeOperands?, parse]
    exact withWord_cons fun location => rfl
  | call =>
    match operands, Opcode.takes_call.mp h with
    | name :: arguments, _ =>
      simp only [takeOperands?, parse, List.getElem?_cons_zero, Option.bind_eq_bind, Option.bind_some]
      exact withWord_cons fun syscall => rfl

theorem parse_of_not_takes (h : op.takes operands.length ≠ true) :
    parse scope op head operands =
      .error ⟨head.column, .arityMismatch head.text (op.expectedOperands operands.length) operands.length⟩ := by
  unfold parse
  split
  case h_10 => exact (h (Opcode.takes_call.mpr (by simp))).elim
  case h_11 => rfl
  -- In all other cases there are as many operands as there should be.
  all_goals exact (h rfl).elim

/-- No operand is missing when an instruction is read. -/
theorem checked?_eq (h : Opcode.ofMnemonic? head.text = some op) :
    checked? scope (head :: operands) = some (parse scope op head operands) := by
  have hn : Text.above? (head :: operands).length 1 = some operands.length := by
    rw [List.length_cons, Nat.add_comm]
    exact Text.above?_add 1 _
  simp only [checked?, List.getElem?_cons_zero, h, hn, List.tail_cons, Option.bind_eq_bind, Option.bind_some,
    Option.pure_def]
  by_cases ht : op.takes operands.length = true
  · rw [if_pos ht, takeOperands?_eq ht]
  · rw [if_neg ht, parse_of_not_takes ht]

end Checked

end Instruction

namespace Survey

/-- Surveys numbered lines, each of which is read with byte offsets. -/
def checked? (labels : Labels) (count : Nat) : List (List Char × Nat) → Option (Except AssemblyError Survey)
  | [] => some (.ok ⟨labels, []⟩)
  | (raw, number) :: rest => do
    match ← Line.checked? raw with
    | .error blame => return .error ⟨blame, number⟩
    | .ok .blank => checked? labels count rest
    | .ok (.label name column) =>
      match labels.lookup name with
      | some _ => return .error ⟨⟨column, .duplicateLabel name⟩, number⟩
      | none =>
        let id := UInt8.ofNat count
        (checked? ((name, id) :: labels) count rest).map (Except.map (cons (.label name id)))
    | .ok (.instruction op head operands) =>
      (checked? labels (count + 1) rest).map (Except.map (cons (.instruction number op head operands)))

theorem checked?_eq (labels : Labels) (count : Nat) (numbered : List (List Char × Nat)) :
    checked? labels count numbered = some (follow labels count numbered) := by
  induction numbered generalizing labels count with
  | nil => rfl
  | cons line rest ih =>
    obtain ⟨raw, number⟩ := line
    rw [checked?, follow, Line.checked?_eq]
    simp only [Option.bind_eq_bind, Option.bind_some, Option.pure_def, ih, Option.map_some]
    cases Line.ofText raw with
    | error blame => rfl
    | ok line =>
      cases line with
      | blank => rfl
      | label name column => cases hl : labels.lookup name <;> simp only [hl]
      | instruction op head operands => rfl

/-- Every instruction of a survey stands on the line that it is numbered with. -/
theorem line_of_statement {labels : Labels} {count number : Nat} {numbered : List (List Char × Nat)} {survey : Survey}
    {op : Opcode} {head : Token} {operands : List Token} (h : follow labels count numbered = .ok survey)
    (hst : .instruction number op head operands ∈ survey.statements) :
    ∃ raw, (raw, number) ∈ numbered ∧ Line.ofText raw = .ok (.instruction op head operands) := by
  induction numbered generalizing labels count survey with
  | nil =>
    cases h
    cases hst
  | cons line rest ih =>
    obtain ⟨raw, n⟩ := line
    have hlater : ∀ {labels count survey}, follow labels count rest = .ok survey →
        .instruction number op head operands ∈ survey.statements →
        ∃ raw', (raw', number) ∈ (raw, n) :: rest ∧ Line.ofText raw' = .ok (.instruction op head operands) := by
      intro labels count survey h hst
      obtain ⟨raw', hm, ht⟩ := ih h hst
      exact ⟨raw', List.mem_cons_of_mem _ hm, ht⟩
    rw [follow] at h
    cases ht : Line.ofText raw with
    | error blame => simp [ht] at h
    | ok line =>
      rw [ht] at h
      cases line with
      | blank => exact hlater h hst
      | label name column =>
        cases hl : labels.lookup name with
        | some id => simp [hl] at h
        | none =>
          simp only [hl] at h
          obtain ⟨s, hs, rfl⟩ := except_map_eq_ok.mp h
          rcases List.mem_cons.mp hst with he | hst
          · cases he
          · exact hlater hs hst
      | instruction op' head' operands' =>
        obtain ⟨s, hs, rfl⟩ := except_map_eq_ok.mp h
        rcases List.mem_cons.mp hst with he | hst
        · cases he
          exact ⟨raw, List.mem_cons_self, ht⟩
        · exact hlater hs hst

end Survey

namespace Statement

/-- The instruction of a statement, read from all of its words. -/
def checked? (scope : Scope UInt8 UInt8) : Statement → Option (Except AssemblyError (Instruction UInt8 UInt8))
  | label _ id => some (.ok (.mark id))
  | instruction line _ head operands =>
    (Instruction.checked? scope (head :: operands)).map fun
      | .ok i => .ok i
      | .error blame => .error ⟨blame, line⟩

/-- The instructions of statements up to the first that is wrong. -/
def checkedAll? (scope : Scope UInt8 UInt8) :
    List Statement → Option (Except AssemblyError (List (Instruction UInt8 UInt8)))
  | [] => some (.ok [])
  | statement :: rest => do
    match ← statement.checked? scope with
    | .error e => return .error e
    | .ok i => (checkedAll? scope rest).map (Except.map (i :: ·))

section Checked

variable {scope : Scope UInt8 UInt8} {statements : List Statement}

/-- The word in front of each instruction is the one that names it. -/
def Named (statements : List Statement) : Prop :=
  ∀ line op head operands, .instruction line op head operands ∈ statements → Opcode.ofMnemonic? head.text = some op

theorem checkedAll?_eq (h : Named statements) :
    checkedAll? scope statements = some (statements.mapM (instruction? scope)) := by
  induction statements with
  | nil => rfl
  | cons st rest ih =>
    have hst : st.checked? scope = some (st.instruction? scope) := by
      cases st with
      | label name id => rfl
      | instruction line op head operands =>
        have hn := h line op head operands List.mem_cons_self
        simp only [checked?, Instruction.checked?_eq hn, Option.map_some]
        rfl
    have hrest := ih fun line op head operands hm => h line op head operands (List.mem_cons_of_mem st hm)
    rw [checkedAll?, hst, hrest, List.mapM_cons]
    cases instruction? scope st with
    | error e => rfl
    | ok i => cases rest.mapM (instruction? scope) <;> rfl

end Checked

end Statement

/-- The bytecode of a source text, for which every offset, index and difference is checked. There is no outcome if any
of them is out of its range. -/
def assembleChecked? (table : SyscallTable) (source : String) : Option (Except AssemblyError (List UInt8)) := do
  match ← Survey.checked? [] 0 ((Text.lines source.toList).zipIdx 1) with
  | .error e => return .error e
  | .ok survey =>
    (Statement.checkedAll? (survey.scope table) survey.statements).map
      (Except.map fun instructions => instructions.flatMap Instruction.encode)

theorem Survey.named_statements {labels : Labels} {count : Nat} {numbered : List (List Char × Nat)} {survey : Survey}
    (h : follow labels count numbered = .ok survey) : Statement.Named survey.statements := by
  intro line op head operands hst
  obtain ⟨raw, -, ht⟩ := line_of_statement h hst
  exact (Line.scan_of_ofText ht).2

/-- No offset, index or difference is out of its range, whatever the source text is. -/
theorem assembleChecked?_eq (table : SyscallTable) (source : String) :
    assembleChecked? table source = some (assemble table source) := by
  rw [assembleChecked?, Survey.checked?_eq]
  simp only [assemble, instructionsOf, Survey.ofSource, Option.bind_eq_bind, Option.bind_some, Option.pure_def]
  cases hs : Survey.follow [] 0 ((Text.lines source.toList).zipIdx 1) with
  | error e => rfl
  | ok survey =>
    simp only [Statement.checkedAll?_eq (Survey.named_statements hs), Option.map_some]
    change some (Except.map _ _) = some (survey.statements.mapM (Statement.instruction? (survey.scope table)) >>= _)
    cases survey.statements.mapM (Statement.instruction? (survey.scope table)) <;> rfl

end RegisterMachine
