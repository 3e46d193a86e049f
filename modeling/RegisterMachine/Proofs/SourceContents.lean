import RegisterMachine.Proofs.AssemblySpecification
import RegisterMachine.Proofs.TokenWords

namespace RegisterMachine

section Options

variable {ε α β γ : Type}

theorem toOption_eq_some {x : Except ε α} {a : α} : x.toOption = some a ↔ x = .ok a := by
  cases x <;> simp [Except.toOption]

theorem toOption_bind (x : Except ε α) (f : α → Except ε β) :
    (x >>= f).toOption = x.toOption.bind fun a => (f a).toOption := by
  cases x <;> rfl

theorem toOption_map (x : Except ε α) (f : α → β) : (x.map f).toOption = x.toOption.map f := by
  cases x <;> rfl

theorem toOption_mapM {f : α → Except ε γ} {g : β → Except ε γ} {change : α → β}
    (h : ∀ x, (f x).toOption = (g (change x)).toOption) (xs : List α) :
    (xs.mapM f).toOption = ((xs.map change).mapM g).toOption := by
  induction xs with
  | nil => rfl
  | cons x xs ih => simp only [List.map_cons, List.mapM_cons, toOption_bind, h, ih]

end Options

/-- The word without its place. -/
def Token.unplaced (t : Token) : Token := ⟨t.text, 0⟩

/-- The statement without the places of its line and its words. -/
def Statement.unplaced : Statement → Statement
  | label name id => label name id
  | instruction _ op head operands => instruction 0 op head.unplaced (operands.map Token.unplaced)

/-- The survey without places. -/
def Survey.unplaced (s : Survey) : Survey := { s with statements := s.statements.map Statement.unplaced }

/-- Two words with the same text. -/
def Token.Alike (t t' : Token) : Prop := t.text = t'.text

namespace Instruction

variable {Location Syscall : Type} {scope : Scope Location Syscall}

theorem operandAt_of_alike {α : Type} {read : String → Except Problem α} {token token' : Token} {x : α}
    (ht : token.Alike token') (h : operandAt read token = .ok x) : operandAt read token' = .ok x := by
  have hx := operandAt_eq_ok h
  rw [ht] at hx
  exact operandAt_of_ok hx

theorem bind_of_alike {α β : Type} {read : String → Except Problem α} {f f' : α → Except Blame β}
    {token token' : Token} {y : β} (ht : token.Alike token') (h : (operandAt read token >>= f) = .ok y)
    (hf : ∀ x, f x = .ok y → f' x = .ok y) : (operandAt read token' >>= f') = .ok y := by
  obtain ⟨x, hx, hy⟩ := except_bind_eq_ok.mp h
  exact except_bind_eq_ok.mpr ⟨x, operandAt_of_alike ht hx, hf x hy⟩

theorem mapM_of_alike {α : Type} {read : String → Except Problem α} {tokens tokens' : List Token} {xs : List α}
    (ht : List.Forall₂ Token.Alike tokens tokens') (h : tokens.mapM (operandAt read) = .ok xs) :
    tokens'.mapM (operandAt read) = .ok xs := by
  rw [mapM_eq_ok] at h ⊢
  induction ht generalizing xs with
  | nil => exact h
  | cons ht _ ih =>
    cases h with
    | cons hx hxs => exact .cons (operandAt_of_alike ht hx) (ih hxs)

/-- The places of words are only for blame. -/
theorem parse_of_alike {op : Opcode} {head : Token} {operands operands' : List Token}
    {i : Instruction Location Syscall} (ht : List.Forall₂ Token.Alike operands operands')
    (h : parse scope op head operands = .ok i) (head' : Token) : parse scope op head' operands' = .ok i := by
  unfold parse at h
  split at h
  next target source =>
    obtain _ | ⟨ha, _ | ⟨hb, ⟨⟩⟩⟩ := ht
    exact bind_of_alike ha h fun _ h => bind_of_alike hb h fun _ h => h
  next address source =>
    obtain _ | ⟨ha, _ | ⟨hb, ⟨⟩⟩⟩ := ht
    exact bind_of_alike ha h fun _ h => bind_of_alike hb h fun _ h => h
  next address target =>
    obtain _ | ⟨ha, _ | ⟨hb, ⟨⟩⟩⟩ := ht
    exact bind_of_alike ha h fun _ h => bind_of_alike hb h fun _ h => h
  next op left right target =>
    obtain _ | ⟨ha, _ | ⟨hb, _ | ⟨hc, ⟨⟩⟩⟩⟩ := ht
    exact bind_of_alike ha h fun _ h => bind_of_alike hb h fun _ h => bind_of_alike hc h fun _ h => h
  next =>
    cases ht
    exact h
  next status =>
    obtain _ | ⟨ha, ⟨⟩⟩ := ht
    exact bind_of_alike ha h fun _ h => h
  next test condition location =>
    obtain _ | ⟨ha, _ | ⟨hb, ⟨⟩⟩⟩ := ht
    exact bind_of_alike ha h fun _ h => bind_of_alike hb h fun _ h => h
  next location =>
    obtain _ | ⟨ha, ⟨⟩⟩ := ht
    exact bind_of_alike ha h fun _ h => h
  next location =>
    obtain _ | ⟨ha, ⟨⟩⟩ := ht
    exact bind_of_alike ha h fun _ h => h
  next name arguments =>
    obtain _ | ⟨ha, hargs⟩ := ht
    refine bind_of_alike ha h fun s h => ?_
    obtain ⟨os, ho, h⟩ := except_bind_eq_ok.mp h
    refine except_bind_eq_ok.mpr ⟨os, mapM_of_alike hargs ho, ?_⟩
    by_cases hl : 255 < os.length
    · simp only [if_pos hl] at h
      cases h
    · simp only [if_neg hl] at h ⊢
      exact h
  next => cases h

theorem parse_unplaced_iff {op : Opcode} {head : Token} {operands : List Token} {i : Instruction Location Syscall} :
    parse scope op head.unplaced (operands.map Token.unplaced) = .ok i ↔ parse scope op head operands = .ok i := by
  have hto : List.Forall₂ Token.Alike operands (operands.map Token.unplaced) :=
    List.forall₂_map_right_iff.mpr (List.forall₂_same.mpr fun _ _ => rfl)
  have hfrom : List.Forall₂ Token.Alike (operands.map Token.unplaced) operands :=
    List.forall₂_map_left_iff.mpr (List.forall₂_same.mpr fun _ _ => rfl)
  exact ⟨fun h => parse_of_alike hfrom h head, fun h => parse_of_alike hto h head.unplaced⟩

end Instruction

/-- What a line adds to the program. The words of an instruction are missing if a quote is left open. -/
inductive Content
  | label (name : String)
  | instruction (words : Option (List String))
  deriving DecidableEq

namespace Line

/-- What is on a line, if it is not blank. -/
def content? (raw : List Char) : Option Content :=
  if (body raw).isEmpty then none
  else if isLabel raw then some (.label (labelName raw))
  else some (.instruction (Token.texts (Token.scan (withoutComment raw))))

variable {raw : List Char}

theorem content?_of_blank (h : body raw = []) : content? raw = none := by
  simp [content?, h]

theorem content?_of_label (h : isLabel raw = true) : content? raw = some (.label (labelName raw)) := by
  have hb : (body raw).isEmpty = false := by
    rw [body_of_isLabel h]
    simp
  simp [content?, hb, h]

theorem content?_of_instruction (h : isInstruction raw = true) :
    content? raw = some (.instruction (Token.texts (Token.scan (withoutComment raw)))) := by
  simp only [isInstruction, Bool.and_eq_true, Bool.not_eq_true'] at h
  simp [content?, h]

end Line

/-- The contents of the lines of a text. -/
def contents (text : List Char) : List Content := (Text.lines text).filterMap Line.content?

namespace Survey

/-- The survey of lines with these contents that follow the given labels and `count` instructions, without places. -/
def ofContents (labels : Labels) (count : Nat) : List Content → Option Survey
  | [] => some ⟨labels, []⟩
  | .label name :: rest =>
    if name = "" then none
    else
      match labels.lookup name with
      | some _ => none
      | none =>
        let id := UInt8.ofNat count
        (ofContents ((name, id) :: labels) count rest).map (cons (.label name id))
  | .instruction (some (head :: operands)) :: rest =>
    match Opcode.ofMnemonic? head with
    | some op =>
      (ofContents labels (count + 1) rest).map (cons (.instruction 0 op ⟨head, 0⟩ (operands.map (⟨·, 0⟩))))
    | none => none
  | .instruction _ :: _ => none

theorem unplaced_cons (st : Statement) (found : Except AssemblyError Survey) :
    (found.map (cons st)).toOption.map unplaced = (found.toOption.map unplaced).map (cons st.unplaced) := by
  cases found <;> rfl

/-- A survey without places depends on the contents of the lines alone. -/
theorem follow_eq_ofContents (labels : Labels) (count n : Nat) (lines : List (List Char)) :
    (follow labels count (lines.zipIdx n)).toOption.map unplaced =
      ofContents labels count (lines.filterMap Line.content?) := by
  induction lines generalizing labels count n with
  | nil => rfl
  | cons raw lines ih =>
    rw [List.zipIdx_cons]
    rcases Line.kind_cases raw with hb | hl | hi
    · rw [follow_blank hb, List.filterMap_cons_none (Line.content?_of_blank hb), ih]
    · rw [List.filterMap_cons_some (Line.content?_of_label hl), follow, ofContents]
      rcases Line.ofText_of_label hl with ⟨hn, blame, ht⟩ | ⟨hn, column, ht⟩
      · rw [ht, if_pos hn]
        rfl
      · rw [ht, if_neg hn]
        cases hlook : labels.lookup (Line.labelName raw) with
        | some id => simp only [hlook]; rfl
        | none =>
          simp only [hlook]
          rw [unplaced_cons, ih]
          rfl
    · rw [List.filterMap_cons_some (Line.content?_of_instruction hi), follow, Line.ofText_of_instruction hi,
        Line.instructionOf]
      cases hs : Token.scan (Line.withoutComment raw) with
      | error problem => cases problem <;> rfl
      | ok words =>
        cases words with
        | nil => rfl
        | cons head operands =>
          change _ = ofContents labels count (.instruction (some (head.text :: operands.map Token.text)) :: _)
          rw [ofContents]
          cases ho : Opcode.ofMnemonic? head.text with
          | none => simp only [ho]; rfl
          | some op =>
            simp only [ho]
            rw [unplaced_cons, ih, Statement.unplaced, List.map_map]
            rfl

theorem toOption_instruction? (scope : Scope UInt8 UInt8) (st : Statement) :
    (Statement.instruction? scope st).toOption = (Statement.instruction? scope st.unplaced).toOption := by
  cases st with
  | label name id => rfl
  | instruction line op head operands =>
    apply Option.ext
    intro i
    rw [toOption_eq_some, toOption_eq_some, Statement.unplaced, instruction?_eq_ok, instruction?_eq_ok,
      Instruction.parse_unplaced_iff]

/-- The bytecode of what has been surveyed. -/
def bytes? (table : SyscallTable) (s : Survey) : Option (List UInt8) :=
  (s.statements.mapM (Statement.instruction? (s.scope table))).toOption.map (List.flatMap Instruction.encode)

theorem bytes?_unplaced (table : SyscallTable) (s : Survey) : s.unplaced.bytes? table = s.bytes? table := by
  unfold bytes?
  rw [toOption_mapM (toOption_instruction? (s.scope table)) s.statements]
  rfl

end Survey

/-- The bytecode of a text is that of its contents. -/
theorem assemble_eq_contents (table : SyscallTable) (source : String) :
    (assemble table source).toOption =
      (Survey.ofContents [] 0 (contents source.toList)).bind (Survey.bytes? table) := by
  have hs := Survey.follow_eq_ofContents [] 0 1 (Text.lines source.toList)
  rw [contents, ← hs]
  unfold assemble instructionsOf Survey.ofSource
  cases Survey.follow [] 0 ((Text.lines source.toList).zipIdx 1) with
  | error e => rfl
  | ok survey =>
    change _ = survey.unplaced.bytes? table
    rw [Survey.bytes?_unplaced, Survey.bytes?, ← toOption_map]
    rfl

/-- Texts with the same contents are accepted or refused together, with the same bytecode. -/
theorem assemble_of_contents {source source' : String} (table : SyscallTable)
    (h : contents source.toList = contents source'.toList) (code : List UInt8) :
    assemble table source = .ok code ↔ assemble table source' = .ok code := by
  rw [← toOption_eq_some, ← toOption_eq_some, assemble_eq_contents, assemble_eq_contents, h]

end RegisterMachine
