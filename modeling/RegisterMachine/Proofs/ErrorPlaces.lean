import RegisterMachine.Proofs.CheckedAssembly
import RegisterMachine.Proofs.OperandGrammar

namespace RegisterMachine

section Failures

variable {ε α β : Type} {e : ε}

theorem except_map_eq_error {x : Except ε α} {f : α → β} : x.map f = .error e ↔ x = .error e := by
  cases x <;> simp [Except.map]

theorem except_bind_eq_error {x : Except ε α} {f : α → Except ε β} :
    (x >>= f) = .error e ↔ x = .error e ∨ ∃ a, x = .ok a ∧ f a = .error e := by
  cases x <;> simp [Bind.bind, Except.bind]

theorem mapM_eq_error {f : α → Except ε β} {xs : List α} (h : xs.mapM f = .error e) : ∃ x ∈ xs, f x = .error e := by
  induction xs with
  | nil => cases h
  | cons x xs ih =>
    rw [List.mapM_cons] at h
    rcases except_bind_eq_error.mp h with hx | ⟨y, -, h⟩
    · exact ⟨x, List.mem_cons_self, hx⟩
    · rcases except_bind_eq_error.mp h with hxs | ⟨ys, -, h⟩
      · obtain ⟨z, hz, he⟩ := ih hxs
        exact ⟨z, List.mem_cons_of_mem x hz, he⟩
      · cases h

end Failures

/-- A word stands in the code where its column says. -/
def Token.StandsIn (code : List Char) (token : Token) : Prop :=
  ∃ front word back, code = front ++ word ++ back ∧ word ≠ [] ∧
    token = ⟨String.ofList word, Text.byteLength front + 1⟩

namespace Line

/-- A column of the code where a character starts. -/
def StartsAt (code : List Char) (column : Nat) : Prop :=
  ∃ front c back, code = front ++ c :: back ∧ column = Text.byteLength front + 1

/-- The column of the first character that is not blank. -/
def FirstVisible (code : List Char) (column : Nat) : Prop :=
  ∃ front c back, code = front ++ c :: back ∧ column = Text.byteLength front + 1 ∧
    (∀ d ∈ front, Text.isBlank d = true) ∧ Text.isBlank c = false

/-- The column of the last quote. -/
def LastQuote (code : List Char) (column : Nat) : Prop :=
  ∃ front back, code = front ++ '"' :: back ∧ column = Text.byteLength front + 1 ∧ '"' ∉ back

/-- The column where one of the words starts. -/
def WordStart (code : List Char) (column : Nat) : Prop :=
  ∃ tokens, Token.scan code = .ok tokens ∧ ∃ token ∈ tokens, token.column = column ∧ token.StandsIn code

section Columns

variable {code : List Char} {column : Nat}

theorem StartsAt.within (h : StartsAt code column) : 1 ≤ column ∧ column ≤ Text.byteLength code := by
  obtain ⟨front, c, back, rfl, rfl⟩ := h
  have hpos := c.utf8Size_pos
  rw [Text.byteLength_append, Text.byteLength]
  omega

theorem FirstVisible.startsAt (h : FirstVisible code column) : StartsAt code column := by
  obtain ⟨front, c, back, hc, hcol, -⟩ := h
  exact ⟨front, c, back, hc, hcol⟩

theorem LastQuote.startsAt (h : LastQuote code column) : StartsAt code column := by
  obtain ⟨front, back, hc, hcol, -⟩ := h
  exact ⟨front, '"', back, hc, hcol⟩

theorem WordStart.startsAt (h : WordStart code column) : StartsAt code column := by
  obtain ⟨tokens, -, token, -, rfl, front, word, back, hc, hne, rfl⟩ := h
  obtain ⟨c, more, rfl⟩ := List.exists_cons_of_ne_nil hne
  exact ⟨front, c, more ++ back, by simpa using hc, rfl⟩

end Columns

end Line

namespace Problem

/-- A problem with a word of an instruction, not with a label or with the quotes of a line. -/
def isOfWord : Problem → Bool
  | emptyLabel => false
  | duplicateLabel _ => false
  | unterminatedString _ => false
  | _ => true

/-- Where a problem of a line of code is found. -/
def BlamedAt (code : List Char) (column : Nat) : Problem → Prop
  | emptyLabel => Line.FirstVisible code column
  | duplicateLabel _ => Line.FirstVisible code column
  | unterminatedString opened => opened = column ∧ Line.LastQuote code column
  | _ => Line.WordStart code column

section Places

variable {code : List Char} {column : Nat} {problem : Problem}

theorem blamedAt_of_isOfWord (h : problem.isOfWord = true) (hw : Line.WordStart code column) :
    problem.BlamedAt code column := by
  cases problem with
  | emptyLabel => cases h
  | duplicateLabel label => cases h
  | unterminatedString opened => cases h
  | _ => exact hw

theorem BlamedAt.startsAt (h : problem.BlamedAt code column) : Line.StartsAt code column := by
  cases problem with
  | emptyLabel => exact Line.FirstVisible.startsAt h
  | duplicateLabel label => exact Line.FirstVisible.startsAt h
  | unterminatedString opened => exact h.2.startsAt
  | _ => exact Line.WordStart.startsAt h

end Places

end Problem

namespace Token

/-- The words that a scan finds stand where they say, and a quote that it misses is missed at the last one. -/
def Placed (code : List Char) : Except Problem (List Token) → Prop
  | .ok tokens => ∀ token ∈ tokens, token.StandsIn code
  | .error problem => ∃ opened, problem = .unterminatedString opened ∧ Line.LastQuote code opened

section Scans

variable {done cs : List Char} {c : Char} {column : Nat} {current : Option Begun} {quote : Option Nat}

theorem lastQuote_of_none (done : List Char) : ∀ opened ∈ (none : Option Nat), Line.LastQuote done opened := nofun

theorem lastQuote_quoteAfter (h : ∀ opened ∈ quote, Line.LastQuote done opened) (c : Char) :
    ∀ opened ∈ quoteAfter c (Text.byteLength done + 1) quote, Line.LastQuote (done ++ [c]) opened := by
  intro opened ho
  unfold quoteAfter at ho
  by_cases hq : c = '"'
  · rw [if_pos hq] at ho
    cases quote with
    | some k => cases ho
    | none =>
      cases ho
      exact ⟨done, [], by rw [hq], rfl, by simp⟩
  · rw [if_neg hq] at ho
    obtain ⟨front, back, rfl, hcol, hb⟩ := h opened ho
    refine ⟨front, back ++ [c], by simp, hcol, ?_⟩
    intro hm
    rcases List.mem_append.mp hm with hm | hm
    · exact hb hm
    · exact hq (List.mem_singleton.mp hm).symm

theorem standsIn_of_finish (h : ∀ p ∈ current, p.Ends done) {later : List Token}
    (hl : ∀ token ∈ later, token.StandsIn (done ++ cs)) :
    ∀ token ∈ finish current later, token.StandsIn (done ++ cs) := by
  cases current with
  | none => exact hl
  | some p =>
    intro token hm
    rcases List.mem_cons.mp hm with rfl | hm
    · obtain ⟨front, rfl, hcol, hne⟩ := h p rfl
      exact ⟨front, p.chars.reverse, cs, rfl, by simpa using hne, by rw [hcol]⟩
    · exact hl token hm

/-- What has been read stays in place, and so does the quote that is open. -/
theorem placed_scanFrom (h : ∀ p ∈ current, p.Ends done) (hq : ∀ opened ∈ quote, Line.LastQuote done opened)
    (cs : List Char) : Placed (done ++ cs) (scanFrom (Text.byteLength done + 1) current quote cs) := by
  induction cs generalizing done current quote with
  | nil =>
    cases quote with
    | some opened => exact ⟨opened, rfl, by simpa using hq opened rfl⟩
    | none => exact standsIn_of_finish h nofun
  | cons c cs ih =>
    have hlen : Text.byteLength done + 1 + c.utf8Size = Text.byteLength (done ++ [c]) + 1 := by
      rw [Text.byteLength_append, Text.byteLength, Text.byteLength]
      omega
    rcases separates_or_extends c quote.isSome with ⟨hc, hn⟩ | hc
    · rw [Option.isSome_eq_false_iff, Option.isNone_iff_eq_none] at hn
      subst hn
      have hrest := ih (Begun.ends_of_none (done ++ [c])) (lastQuote_of_none (done ++ [c]))
      rw [scanFrom_separator hc, hlen]
      rw [← List.append_cons] at hrest
      cases hs : scanFrom (Text.byteLength (done ++ [c]) + 1) none none cs with
      | error problem =>
        rw [hs] at hrest
        exact hrest
      | ok later =>
        rw [hs] at hrest
        exact standsIn_of_finish h hrest
    · rw [scanFrom_extend hc, hlen, List.append_cons]
      exact ih (Begun.ends_extend h c) (lastQuote_quoteAfter hq c)

theorem placed_scan (code : List Char) : Placed code (scan code) :=
  placed_scanFrom (Begun.ends_of_none []) (lastQuote_of_none []) code

end Scans

end Token

namespace Line

variable {raw code : List Char} {blame : Blame}

theorem firstVisible_firstColumn (h : Text.trim code ≠ []) : FirstVisible code (firstColumn code) := by
  have hsplit : code.takeWhile Text.isBlank ++ Text.trimStart code = code := List.takeWhile_append_dropWhile
  cases hs : Text.trimStart code with
  | nil =>
    rw [Text.trim, hs] at h
    exact (h rfl).elim
  | cons c back =>
    have hc := Text.head?_dropWhile Text.isBlank code
    rw [← Text.trimStart, hs, List.head?_cons] at hc
    have hv := List.find?_some hc.symm
    rw [hs] at hsplit
    exact ⟨_, c, back, hsplit.symm, rfl, fun d hd => List.mem_takeWhile_imp hd, by simpa using hv⟩

theorem firstVisible_of_isLabel (h : isLabel raw = true) :
    FirstVisible (withoutComment raw) (firstColumn (withoutComment raw)) := by
  apply firstVisible_firstColumn
  intro hb
  rw [isLabel_of_blank hb] at h
  cases h

theorem wordStart_of_mem {tokens : List Token} {token : Token} (hs : Token.scan code = .ok tokens)
    (hm : token ∈ tokens) : WordStart code token.column := by
  have hp := Token.placed_scan code
  rw [hs] at hp
  exact ⟨tokens, hs, token, hm, rfl, hp token hm⟩

theorem blamedAt_of_instructionOf (hb : Text.trim code ≠ []) (h : instructionOf code = .error blame) :
    blame.problem.BlamedAt code blame.column := by
  unfold instructionOf at h
  cases hs : Token.scan code with
  | error problem =>
    have hp := Token.placed_scan code
    rw [hs] at hp h
    obtain ⟨opened, rfl, hq⟩ := hp
    cases h
    exact ⟨rfl, hq⟩
  | ok tokens =>
    cases tokens with
    | nil => exact (Token.scan_ne_nil hb hs).elim
    | cons head operands =>
      rw [hs] at h
      cases ho : Opcode.ofMnemonic? head.text with
      | some op => simp [ho] at h
      | none =>
        simp only [ho] at h
        cases h
        exact wordStart_of_mem hs List.mem_cons_self

/-- A line that cannot be read is blamed at one of its places. -/
theorem blamedAt_of_ofText (h : ofText raw = .error blame) :
    blame.problem.BlamedAt (withoutComment raw) blame.column := by
  rcases kind_cases raw with hb | hl | hi
  · rw [ofText_of_blank hb] at h
    cases h
  · rw [ofText_of_isLabel hl] at h
    split at h
    next =>
      cases h
      exact firstVisible_of_isLabel hl
    next => cases h
  · rw [ofText_of_instruction hi] at h
    have hb : Text.trim (withoutComment raw) ≠ [] := by
      intro hb
      simp [isInstruction, body, hb] at hi
    exact blamedAt_of_instructionOf hb h

theorem firstVisible_of_ofText {name : String} {column : Nat} (h : ofText raw = .ok (.label name column)) :
    FirstVisible (withoutComment raw) column := by
  rcases kind_cases raw with hb | hl | hi
  · rw [ofText_of_blank hb] at h
    cases h
  · rw [ofText_of_isLabel hl] at h
    split at h
    next => cases h
    next =>
      cases h
      exact firstVisible_of_isLabel hl
  · rw [ofText_of_instruction hi] at h
    obtain ⟨op, head, operands, he, -⟩ := spells_of_instructionOf h
    cases he

end Line

namespace Survey

/-- A survey fails at a line of the text, at one of its places. -/
theorem blamedAt_of_follow {labels : Labels} {count : Nat} {numbered : List (List Char × Nat)} {e : AssemblyError}
    (h : follow labels count numbered = .error e) :
    ∃ raw, (raw, e.line) ∈ numbered ∧ e.problem.BlamedAt (Line.withoutComment raw) e.column := by
  induction numbered generalizing labels count with
  | nil => cases h
  | cons line rest ih =>
    obtain ⟨raw, n⟩ := line
    have hlater : ∀ {labels count}, follow labels count rest = .error e → ∃ raw', (raw', e.line) ∈ (raw, n) :: rest ∧
        e.problem.BlamedAt (Line.withoutComment raw') e.column := by
      intro labels count h
      obtain ⟨raw', hm, hb⟩ := ih h
      exact ⟨raw', List.mem_cons_of_mem _ hm, hb⟩
    rw [follow] at h
    cases ht : Line.ofText raw with
    | error blame =>
      simp only [ht] at h
      cases h
      exact ⟨raw, List.mem_cons_self, Line.blamedAt_of_ofText ht⟩
    | ok line =>
      rw [ht] at h
      cases line with
      | blank => exact hlater h
      | label name column =>
        cases hl : labels.lookup name with
        | some id =>
          simp only [hl] at h
          cases h
          exact ⟨raw, List.mem_cons_self, Line.firstVisible_of_ofText ht⟩
        | none =>
          simp only [hl] at h
          exact hlater (except_map_eq_error.mp h)
      | instruction op head operands => exact hlater (except_map_eq_error.mp h)

end Survey

namespace Instruction

/-- Whatever a reader of words finds wrong is a problem with the word. -/
def FindsFault {α : Type} (read : String → Except Problem α) : Prop :=
  ∀ text problem, read text = .error problem → problem.isOfWord = true

/-- Whatever is wrong is a problem with one of these words, and blamed on it. -/
def BlamesWord {α : Type} (tokens : List Token) (x : Except Blame α) : Prop :=
  ∀ blame, x = .error blame → blame.problem.isOfWord = true ∧ ∃ token ∈ tokens, token.column = blame.column

section Readers

variable {Location Syscall : Type} (scope : Scope Location Syscall)

theorem register_findsFault : FindsFault Literal.register := by
  intro text problem h
  unfold Literal.register at h
  split at h <;> cases h
  rfl

theorem address_findsFault : FindsFault Literal.address := by
  intro text problem h
  simp only [Literal.address] at h
  split at h <;> cases h
  rfl

theorem operand_findsFault : FindsFault Literal.operand := by
  intro text problem h
  have hread := Literal.reading_operand text
  rw [h] at hread
  cases hread <;> rfl

theorem locationOf_findsFault : FindsFault (locationOf scope) := by
  intro text problem h
  unfold locationOf at h
  split at h <;> cases h
  rfl

theorem syscallOf_findsFault : FindsFault (syscallOf scope) := by
  intro text problem h
  unfold syscallOf at h
  split at h <;> cases h
  rfl

end Readers

section Blames

variable {α β Location Syscall : Type} {tokens operands : List Token} {head token : Token} {op : Opcode}
  {scope : Scope Location Syscall}

theorem blamesWord_ok (x : α) : BlamesWord tokens (.ok x) := nofun

theorem blamesWord_error {problem : Problem} (h : problem.isOfWord = true) (hm : token ∈ tokens) :
    BlamesWord tokens (.error ⟨token.column, problem⟩ : Except Blame α) := by
  intro blame he
  cases he
  exact ⟨h, token, hm, rfl⟩

theorem BlamesWord.bind {x : Except Blame α} {f : α → Except Blame β} (hx : BlamesWord tokens x)
    (hf : ∀ a, BlamesWord tokens (f a)) : BlamesWord tokens (x >>= f) := by
  intro blame h
  rcases except_bind_eq_error.mp h with h | ⟨a, -, h⟩
  · exact hx blame h
  · exact hf a blame h

theorem blamesWord_operandAt {read : String → Except Problem α} (h : FindsFault read) (hm : token ∈ tokens) :
    BlamesWord tokens (operandAt read token) := by
  unfold operandAt
  cases hr : read token.text with
  | ok x => exact blamesWord_ok x
  | error problem => exact blamesWord_error (h _ _ hr) hm

theorem blamesWord_arguments (h : ∀ token ∈ operands, token ∈ tokens) :
    BlamesWord tokens (operands.mapM (operandAt Literal.operand)) := by
  intro blame he
  obtain ⟨token, hm, ht⟩ := mapM_eq_error he
  exact blamesWord_operandAt operand_findsFault (h token hm) blame ht

/-- An instruction that cannot be read is blamed on its name or on one of its operands. -/
theorem parse_blamesWord : BlamesWord (head :: operands) (parse scope op head operands) := by
  have hloc := locationOf_findsFault scope
  have hsys := syscallOf_findsFault scope
  unfold parse
  split
  next target source =>
    exact (blamesWord_operandAt register_findsFault (by simp)).bind fun _ =>
      (blamesWord_operandAt operand_findsFault (by simp)).bind fun _ => blamesWord_ok _
  next address source =>
    exact (blamesWord_operandAt address_findsFault (by simp)).bind fun _ =>
      (blamesWord_operandAt operand_findsFault (by simp)).bind fun _ => blamesWord_ok _
  next address target =>
    exact (blamesWord_operandAt address_findsFault (by simp)).bind fun _ =>
      (blamesWord_operandAt register_findsFault (by simp)).bind fun _ => blamesWord_ok _
  next op left right target =>
    exact (blamesWord_operandAt operand_findsFault (by simp)).bind fun _ =>
      (blamesWord_operandAt operand_findsFault (by simp)).bind fun _ =>
        (blamesWord_operandAt register_findsFault (by simp)).bind fun _ => blamesWord_ok _
  next => exact blamesWord_ok _
  next status => exact (blamesWord_operandAt operand_findsFault (by simp)).bind fun _ => blamesWord_ok _
  next test condition location =>
    exact (blamesWord_operandAt operand_findsFault (by simp)).bind fun _ =>
      (blamesWord_operandAt hloc (by simp)).bind fun _ => blamesWord_ok _
  next location => exact (blamesWord_operandAt hloc (by simp)).bind fun _ => blamesWord_ok _
  next location => exact (blamesWord_operandAt hloc (by simp)).bind fun _ => blamesWord_ok _
  next name arguments =>
    refine (blamesWord_operandAt hsys (by simp)).bind fun _ =>
      (blamesWord_arguments fun token hm => by simp [hm]).bind fun os => ?_
    by_cases hl : 255 < os.length
    · simp only [if_pos hl]
      exact blamesWord_error rfl (by simp)
    · simp only [if_neg hl]
      exact blamesWord_ok _
  next => exact blamesWord_error rfl List.mem_cons_self

end Blames

end Instruction

section Places

variable {table : SyscallTable} {source : String} {e : AssemblyError}

/-- A statement that cannot be read is blamed at one of the words of its line. -/
theorem blamedAt_of_statement {labels : Labels} {count : Nat} {numbered : List (List Char × Nat)} {survey : Survey}
    {scope : Scope UInt8 UInt8} {st : Statement} (h : Survey.follow labels count numbered = .ok survey)
    (hm : st ∈ survey.statements) (he : st.instruction? scope = .error e) :
    ∃ raw, (raw, e.line) ∈ numbered ∧ e.problem.BlamedAt (Line.withoutComment raw) e.column := by
  cases st with
  | label name id => cases he
  | instruction line op head operands =>
    obtain ⟨raw, hraw, ht⟩ := Survey.line_of_statement h hm
    have hs := (Line.scan_of_ofText ht).1
    rw [Statement.instruction?] at he
    cases hp : Instruction.parse scope op head operands with
    | ok i => simp [hp] at he
    | error blame =>
      simp only [hp] at he
      cases he
      obtain ⟨hw, token, htok, hcol⟩ := Instruction.parse_blamesWord blame hp
      refine ⟨raw, hraw, Problem.blamedAt_of_isOfWord hw ?_⟩
      exact hcol ▸ Line.wordStart_of_mem hs htok

theorem blamedAt_of_assemble (h : assemble table source = .error e) :
    ∃ raw, (raw, e.line) ∈ (Text.lines source.toList).zipIdx 1 ∧
      e.problem.BlamedAt (Line.withoutComment raw) e.column := by
  rcases except_bind_eq_error.mp h with h | ⟨instructions, -, h⟩
  · rcases except_bind_eq_error.mp h with h | ⟨survey, hs, h⟩
    · exact Survey.blamedAt_of_follow h
    · obtain ⟨st, hm, he⟩ := mapM_eq_error h
      exact blamedAt_of_statement hs hm he
  · cases h

/-- Assembling has an outcome for every source text. No byte offset at which a text is cut stands inside of a
character, no index is out of range, and no operand that has been counted is missing. What fails is blamed on a line of
the text and a column of its code, at a word, at the first visible character of a label, or at the last quote of a line
with one too few. -/
theorem assembly_errors_placed (table : SyscallTable) (source : String) :
    assembleChecked? table source = some (assemble table source) ∧
    ∀ e, assemble table source = .error e →
      (1 ≤ e.line ∧ e.line ≤ (Text.lines source.toList).length) ∧
      ∃ raw, (Text.lines source.toList)[e.line - 1]? = some raw ∧
        (1 ≤ e.column ∧ e.column ≤ Text.byteLength (Line.withoutComment raw)) ∧
        e.problem.BlamedAt (Line.withoutComment raw) e.column := by
  refine ⟨assembleChecked?_eq table source, fun e h => ?_⟩
  obtain ⟨raw, hraw, hb⟩ := blamedAt_of_assemble h
  obtain ⟨hline, hget⟩ := List.mk_mem_zipIdx_iff_le_and_getElem?_sub.mp hraw
  have hlt := (List.getElem?_eq_some_iff.mp hget).1
  exact ⟨⟨hline, by omega⟩, raw, hget, hb.startsAt.within, hb⟩

/-- The accent takes two bytes, so the register without a number is the twentieth byte of its line. -/
theorem assembly_errors_placed_behind_accent :
    assemble .standard "loop:\n\tcall PRINTLN \"é\" R ; \"" = .error ⟨⟨20, .invalidLiteral "R"⟩, 2⟩ ∧
      Line.WordStart "\tcall PRINTLN \"é\" R ".toList 20 := by
  have he : assemble .standard "loop:\n\tcall PRINTLN \"é\" R ; \"" = .error ⟨⟨20, .invalidLiteral "R"⟩, 2⟩ := by
    decide +kernel
  obtain ⟨-, raw, hraw, -, hb⟩ := (assembly_errors_placed .standard _).2 _ he
  have hline : (Text.lines "loop:\n\tcall PRINTLN \"é\" R ; \"".toList)[1]? =
      some "\tcall PRINTLN \"é\" R ; \"".toList := by decide +kernel
  have hcode : Line.withoutComment "\tcall PRINTLN \"é\" R ; \"".toList = "\tcall PRINTLN \"é\" R ".toList := by
    decide +kernel
  cases hline.symm.trans hraw
  rw [hcode] at hb
  exact ⟨he, hb⟩

end Places

end RegisterMachine
