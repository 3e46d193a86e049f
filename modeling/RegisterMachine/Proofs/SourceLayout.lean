import Mathlib.Data.List.TakeWhile
import Mathlib.Logic.Relation
import RegisterMachine.Proofs.SourceContents

namespace RegisterMachine

namespace Text

variable {c : Char} {cs pad : List Char}

theorem isBlank_of_isSeparator (h : Token.isSeparator c = true) : isBlank c = true := by
  rcases Token.isSeparator_iff.mp h with rfl | rfl | rfl <;> decide

theorem trim_leading (h : ∀ c ∈ pad, isBlank c = true) : trim (pad ++ cs) = trim cs := by
  rw [trim, trimStart, List.dropWhile_append_of_pos h]
  rfl

theorem trimEnd_trailing (h : ∀ c ∈ pad, isBlank c = true) : trimEnd (cs ++ pad) = trimEnd cs := by
  rw [trimEnd, List.reverse_append, List.dropWhile_append_of_pos fun c hc => h c (List.mem_reverse.mp hc)]
  rfl

theorem trim_trailing (h : ∀ c ∈ pad, isBlank c = true) : trim (cs ++ pad) = trim cs := by
  simp only [trim, trimStart, List.dropWhile_append]
  split
  next he => rw [List.isEmpty_iff.mp he, List.dropWhile_eq_nil_iff.mpr h]
  next => exact trimEnd_trailing h

theorem head?_dropWhile {α : Type} (p : α → Bool) (xs : List α) :
    (xs.dropWhile p).head? = xs.find? fun x => !p x := by
  induction xs with
  | nil => rfl
  | cons x xs ih =>
    cases hp : p x with
    | true => simp [hp, ih]
    | false => simp [hp]

theorem filter_trimStart (cs : List Char) :
    (trimStart cs).filter (fun c => !isBlank c) = cs.filter fun c => !isBlank c := by
  have hb : (cs.takeWhile isBlank).filter (fun c => !isBlank c) = [] := by
    rw [List.filter_eq_nil_iff]
    intro c hc
    simp [List.mem_takeWhile_imp hc]
  have hs : cs.takeWhile isBlank ++ trimStart cs = cs := List.takeWhile_append_dropWhile
  calc (trimStart cs).filter (fun c => !isBlank c)
      = (cs.takeWhile isBlank ++ trimStart cs).filter fun c => !isBlank c := by rw [List.filter_append, hb]; rfl
    _ = cs.filter fun c => !isBlank c := by rw [hs]

/-- The last character that is not blank stays the last one. -/
theorem getLast?_trim (cs : List Char) : (trim cs).getLast? = (cs.filter fun c => !isBlank c).getLast? := by
  rw [trim, trimEnd, List.getLast?_reverse, head?_dropWhile, ← List.getLast?_filter, filter_trimStart]

end Text

namespace Line

section Contents

variable {raw raw' front gap gap' back pad line comment : List Char}

theorem content?_congr (hb : body raw = body raw')
    (hw : Token.texts (Token.scan (withoutComment raw)) = Token.texts (Token.scan (withoutComment raw'))) :
    content? raw = content? raw' := by
  unfold content? isLabel labelName
  rw [hb, hw]

theorem content?_of_withoutComment (h : withoutComment raw = withoutComment raw') : content? raw = content? raw' := by
  apply content?_congr
  · rw [body, h, body]
  · rw [h]

theorem withoutComment_cons {c : Char} (h : c ≠ ';') (rest : List Char) :
    withoutComment (c :: rest) = c :: withoutComment rest := by
  simp [withoutComment, h]

theorem withoutComment_of_mem (h : ';' ∈ front) : withoutComment (front ++ back) = withoutComment front := by
  induction front with
  | nil => cases h
  | cons c front ih =>
    by_cases hc : c = ';'
    · simp [withoutComment, hc]
    · have hm : ';' ∈ front := (List.mem_cons.mp h).resolve_left fun he => hc he.symm
      rw [List.cons_append, withoutComment_cons hc, withoutComment_cons hc, ih hm]

theorem takes_of_not_mem (h : ';' ∉ front) : ∀ c ∈ front, decide (c ≠ ';') = true := by
  intro c hc
  rw [decide_eq_true_eq]
  rintro rfl
  exact h hc

theorem withoutComment_of_not_mem (h : ';' ∉ front) :
    withoutComment (front ++ back) = front ++ withoutComment back :=
  List.takeWhile_append_of_pos (takes_of_not_mem h)

theorem withoutComment_eq_self (h : ';' ∉ line) : withoutComment line = line :=
  List.takeWhile_eq_self_iff.mpr (takes_of_not_mem h)

theorem content?_comment (line comment : List Char) : content? (line ++ ';' :: comment) = content? line := by
  apply content?_of_withoutComment
  by_cases h : ';' ∈ line
  · exact withoutComment_of_mem h
  · rw [withoutComment_of_not_mem h, withoutComment_eq_self h]
    exact List.append_nil line

section Separators

variable (hs : ∀ c ∈ pad, Token.isSeparator c = true)

include hs

theorem blank_of_separators : ∀ c ∈ pad, Text.isBlank c = true :=
  fun c hm => Text.isBlank_of_isSeparator (hs c hm)

theorem not_mem_of_separators {c : Char} (hc : Token.isSeparator c = false) : c ∉ pad := by
  intro hm
  rw [hs c hm] at hc
  cases hc

theorem content?_indent : content? (pad ++ line) = content? line := by
  have hc : withoutComment (pad ++ line) = pad ++ withoutComment line :=
    withoutComment_of_not_mem (not_mem_of_separators hs rfl)
  apply content?_congr
  · rw [body, hc]
    exact Text.trim_leading (blank_of_separators hs)
  · rw [hc, Token.texts_scan, Token.texts_scan]
    exact Token.wordsFrom_leading hs

theorem content?_trail : content? (line ++ pad) = content? line := by
  by_cases h : ';' ∈ line
  · exact content?_of_withoutComment (withoutComment_of_mem h)
  · have hp : withoutComment pad = pad := withoutComment_eq_self (not_mem_of_separators hs rfl)
    have hc : withoutComment (line ++ pad) = line ++ pad := by rw [withoutComment_of_not_mem h, hp]
    apply content?_congr
    · rw [body, body, hc, withoutComment_eq_self h]
      exact Text.trim_trailing (blank_of_separators hs)
    · rw [hc, withoutComment_eq_self h, Token.texts_scan, Token.texts_scan]
      exact Token.wordsFrom_trailing hs

end Separators

theorem isInstruction_iff : isInstruction raw = true ↔
    ((withoutComment raw).filter fun c => !Text.isBlank c).getLast? ≠ none ∧
      ((withoutComment raw).filter fun c => !Text.isBlank c).getLast? ≠ some ':' := by
  rw [← Text.getLast?_trim]
  simp [isInstruction, isLabel, body]

/-- The gaps of an instruction are of any width. -/
theorem content?_respace (hi : isInstruction (front ++ gap ++ back) = true) (hq : Even (front.count '"'))
    (hg : gap ≠ []) (hg' : gap' ≠ []) (hs : ∀ c ∈ gap, Token.isSeparator c = true)
    (hs' : ∀ c ∈ gap', Token.isSeparator c = true) :
    content? (front ++ gap ++ back) = content? (front ++ gap' ++ back) := by
  by_cases h : ';' ∈ front
  · apply content?_of_withoutComment
    rw [List.append_assoc, withoutComment_of_mem h, List.append_assoc, withoutComment_of_mem h]
  · have hc : ∀ {gap}, (∀ c ∈ gap, Token.isSeparator c = true) →
        withoutComment (front ++ gap ++ back) = front ++ gap ++ withoutComment back := by
      intro gap hs
      apply withoutComment_of_not_mem
      rw [List.mem_append, not_or]
      exact ⟨h, not_mem_of_separators hs rfl⟩
    have hf : ∀ {gap : List Char}, (∀ c ∈ gap, Token.isSeparator c = true) →
        gap.filter (fun c => !Text.isBlank c) = [] := by
      intro gap hs
      rw [List.filter_eq_nil_iff]
      intro c hm
      simp [blank_of_separators hs c hm]
    have hi' : isInstruction (front ++ gap' ++ back) = true := by
      rw [isInstruction_iff, hc hs, List.filter_append, List.filter_append, hf hs] at hi
      rw [isInstruction_iff, hc hs', List.filter_append, List.filter_append, hf hs']
      exact hi
    have hopen : Token.wordsFrom none false front ≠ none := by simp [Token.wordsFrom_eq_none, hq]
    rw [content?_of_instruction hi, content?_of_instruction hi', hc hs, hc hs', Token.texts_scan, Token.texts_scan,
      Token.wordsFrom_replace hopen hg hg' hs hs']

end Contents

end Line

namespace Text

theorem linesFrom_newline (current rest : List Char) :
    linesFrom current ('\n' :: rest) = endedLine current :: linesFrom [] rest := rfl

theorem linesFrom_other {c : Char} (h : c ≠ '\n') (current rest : List Char) :
    linesFrom current (c :: rest) = linesFrom (c :: current) rest := by
  rw [linesFrom]
  exact fun he => h he

theorem content?_endedLine (current : List Char) :
    Line.content? (endedLine current) = Line.content? current.reverse := by
  unfold endedLine
  split
  next cs =>
    rw [List.reverse_cons]
    exact (Line.content?_trail (by simp [Token.isSeparator])).symm
  next => rfl

theorem filterMap_eq_toList {α β : Type} (f : α → Option β) (x : α) (xs : List α) :
    (x :: xs).filterMap f = (f x).toList ++ xs.filterMap f := by
  cases h : f x with
  | none => rw [List.filterMap_cons_none h]; rfl
  | some y => rw [List.filterMap_cons_some h]; rfl

theorem filterMap_linesFrom_nil (current : List Char) :
    (linesFrom current []).filterMap Line.content? = (Line.content? current.reverse).toList := by
  cases current with
  | nil => rfl
  | cons c current =>
    change [(c :: current).reverse].filterMap Line.content? = _
    rw [filterMap_eq_toList, List.filterMap_nil, List.append_nil]

/-- A line feed parts the contents of a text, wherever it stands. -/
theorem filterMap_linesFrom_append (current text rest : List Char) :
    (linesFrom current (text ++ '\n' :: rest)).filterMap Line.content? =
      (linesFrom current text).filterMap Line.content? ++ (linesFrom [] rest).filterMap Line.content? := by
  induction text generalizing current with
  | nil =>
    rw [List.nil_append, linesFrom_newline, filterMap_linesFrom_nil, ← content?_endedLine, filterMap_eq_toList]
  | cons c text ih =>
    by_cases hc : c = '\n'
    · subst hc
      rw [List.cons_append, linesFrom_newline, linesFrom_newline, filterMap_eq_toList, filterMap_eq_toList, ih,
        List.append_assoc]
    · rw [List.cons_append, linesFrom_other hc, linesFrom_other hc, ih]

theorem filterMap_linesFrom_return (current text : List Char) :
    (linesFrom current (text ++ ['\r'])).filterMap Line.content? =
      (linesFrom current text).filterMap Line.content? := by
  induction text generalizing current with
  | nil =>
    rw [List.nil_append, linesFrom_other (by decide), filterMap_linesFrom_nil, filterMap_linesFrom_nil,
      List.reverse_cons, Line.content?_trail (by simp [Token.isSeparator])]
  | cons c text ih =>
    by_cases hc : c = '\n'
    · subst hc
      rw [List.cons_append, linesFrom_newline, linesFrom_newline, filterMap_eq_toList,
        filterMap_eq_toList, ih]
    · rw [List.cons_append, linesFrom_other hc, linesFrom_other hc, ih]

theorem linesFrom_of_line {line : List Char} (current : List Char) (h : '\n' ∉ line) :
    linesFrom current line = linesFrom (line.reverse ++ current) [] := by
  induction line generalizing current with
  | nil => rfl
  | cons c line ih =>
    rw [List.mem_cons, not_or] at h
    rw [linesFrom_other (fun he => h.1 he.symm), ih _ h.2, List.reverse_cons, List.append_assoc]
    rfl

end Text

section Contents

variable {line : List Char}

theorem contents_append (text rest : List Char) : contents (text ++ '\n' :: rest) = contents text ++ contents rest :=
  Text.filterMap_linesFrom_append [] text rest

theorem contents_concat_return (text : List Char) : contents (text ++ ['\r']) = contents text :=
  Text.filterMap_linesFrom_return [] text

theorem contents_line (h : '\n' ∉ line) : contents line = (Line.content? line).toList := by
  rw [contents, Text.lines, Text.linesFrom_of_line [] h, Text.filterMap_linesFrom_nil, List.append_nil,
    List.reverse_reverse]

end Contents

/-- Where a line begins. -/
def AtLineStart (above : List Char) : Prop := above = [] ∨ ∃ text, above = text ++ ['\n']

/-- Where a line ends. -/
def AtLineEnd (below : List Char) : Prop :=
  below = [] ∨ ∃ rest, below = '\n' :: rest ∨ below = '\r' :: '\n' :: rest

section Places

variable {above below line : List Char}

theorem AtLineStart.contents_append (h : AtLineStart above) (below : List Char) :
    contents (above ++ below) = contents above ++ contents below := by
  rcases h with rfl | ⟨text, rfl⟩
  · rfl
  · rw [List.append_assoc]
    change contents (text ++ '\n' :: below) = contents (text ++ '\n' :: []) ++ contents below
    rw [RegisterMachine.contents_append, RegisterMachine.contents_append, List.append_assoc]
    rfl

theorem AtLineEnd.contents_append (h : AtLineEnd below) (hl : '\n' ∉ line) :
    contents (line ++ below) = (Line.content? line).toList ++ contents below := by
  rcases h with rfl | ⟨rest, rfl | rfl⟩
  · rw [List.append_nil, contents_line hl]
    exact (List.append_nil _).symm
  · have hr : contents ('\n' :: rest) = contents rest := RegisterMachine.contents_append [] rest
    rw [RegisterMachine.contents_append, contents_line hl, hr]
  · have hr : contents ('\r' :: '\n' :: rest) = contents rest := RegisterMachine.contents_append ['\r'] rest
    rw [List.append_cons, RegisterMachine.contents_append, contents_concat_return, contents_line hl, hr]

end Places

/-- Changes of a line that its content does not show: a comment, blanks around it, and other blanks between the words
of an instruction, where no quote is open. -/
inductive LineEdit : List Char → List Char → Prop
  | comment (line comment : List Char) : LineEdit line (line ++ ';' :: comment)
  | indent (line : List Char) {pad : List Char} : (∀ c ∈ pad, c = ' ' ∨ c = '\t') → LineEdit line (pad ++ line)
  | trail (line : List Char) {pad : List Char} : (∀ c ∈ pad, c = ' ' ∨ c = '\t') → LineEdit line (line ++ pad)
  | respace {front gap gap' back : List Char} : Line.isInstruction (front ++ gap ++ back) = true →
      Even (front.count '"') → gap ≠ [] → gap' ≠ [] → (∀ c ∈ gap, c = ' ' ∨ c = '\t') →
      (∀ c ∈ gap', c = ' ' ∨ c = '\t') → LineEdit (front ++ gap ++ back) (front ++ gap' ++ back)

/-- Changes of a text that leave its program alone: changes of one line, one more line without anything but a comment,
and a carriage return before a line feed. -/
inductive SourceEdit : List Char → List Char → Prop
  | line {above line line' below : List Char} : AtLineStart above → AtLineEnd below → '\n' ∉ line → '\n' ∉ line' →
      LineEdit line line' → SourceEdit (above ++ line ++ below) (above ++ line' ++ below)
  | insert {above line : List Char} (below : List Char) : AtLineStart above → '\n' ∉ line → Line.body line = [] →
      SourceEdit (above ++ below) (above ++ line ++ '\n' :: below)
  | append (text : List Char) {line : List Char} : '\n' ∉ line → Line.body line = [] →
      SourceEdit text (text ++ '\n' :: line)
  | ending (above below : List Char) : SourceEdit (above ++ '\n' :: below) (above ++ '\r' :: '\n' :: below)

theorem LineEdit.content?_eq {line line' : List Char} (h : LineEdit line line') :
    Line.content? line = Line.content? line' := by
  have hsep : ∀ {pad : List Char}, (∀ c ∈ pad, c = ' ' ∨ c = '\t') → ∀ c ∈ pad, Token.isSeparator c = true := by
    intro pad hp c hc
    exact Token.isSeparator_iff.mpr ((hp c hc).imp_right .inl)
  cases h with
  | comment _ comment => exact (Line.content?_comment line comment).symm
  | indent _ hp => exact (Line.content?_indent (hsep hp)).symm
  | trail _ hp => exact (Line.content?_trail (hsep hp)).symm
  | respace hi hq hg hg' hs hs' => exact Line.content?_respace hi hq hg hg' (hsep hs) (hsep hs')

theorem SourceEdit.contents_eq {text text' : List Char} (h : SourceEdit text text') :
    contents text = contents text' := by
  cases h with
  | @line above line line' below ha hb hl hl' he =>
    rw [List.append_assoc, List.append_assoc, ha.contents_append, ha.contents_append, hb.contents_append hl,
      hb.contents_append hl', he.content?_eq]
  | @insert above line below ha hl hb =>
    rw [List.append_assoc, ha.contents_append, ha.contents_append, contents_append, contents_line hl,
      Line.content?_of_blank hb]
    rfl
  | @append text line hl hb =>
    rw [contents_append, contents_line hl, Line.content?_of_blank hb]
    exact (List.append_nil _).symm
  | ending above below =>
    rw [contents_append, List.append_cons, contents_append, contents_concat_return]

/-- The bytecode does not depend on the layout of the source. Texts that differ by a sequence of edits, in either
direction, are accepted or refused together, and their bytecode is the same. -/
theorem assembly_ignores_layout (table : SyscallTable) {source source' : String}
    (h : Relation.EqvGen SourceEdit source.toList source'.toList) (code : List UInt8) :
    assemble table source = .ok code ↔ assemble table source' = .ok code := by
  apply assemble_of_contents
  generalize source.toList = text at h
  generalize source'.toList = text' at h
  induction h with
  | rel _ _ he => exact he.contents_eq
  | refl _ => rfl
  | symm _ _ _ ih => exact ih.symm
  | trans _ _ _ _ _ ih ih' => exact ih.trans ih'

/-- Four edits, the last of which takes a blank away. The blank between the quotes stays. -/
theorem assembly_ignores_layout_of_spaced_text :
    Relation.EqvGen SourceEdit "load R0 \" \"\nhalt ".toList "load\tR0 \" \"\r\n;\nhalt".toList ∧
      assemble .standard "load\tR0 \" \"\r\n;\nhalt" = .ok [0x00, 0, 1, 5, 1, 32, 0x05, 1, 1, 0] := by
  have hspace : SourceEdit "load R0 \" \"\nhalt ".toList "load\tR0 \" \"\nhalt ".toList := by
    have he : LineEdit ("load".toList ++ [' '] ++ "R0 \" \"".toList) ("load".toList ++ ['\t'] ++ "R0 \" \"".toList) :=
      .respace (by decide +kernel) (by decide +kernel) (by simp) (by simp) (by simp) (by simp)
    exact @SourceEdit.line [] _ _ "\nhalt ".toList (.inl rfl) (.inr ⟨"halt ".toList, .inl rfl⟩)
      (by decide +kernel) (by decide +kernel) he
  have hending : SourceEdit "load\tR0 \" \"\nhalt ".toList "load\tR0 \" \"\r\nhalt ".toList :=
    .ending "load\tR0 \" \"".toList "halt ".toList
  have hinsert : SourceEdit "load\tR0 \" \"\r\nhalt ".toList "load\tR0 \" \"\r\n;\nhalt ".toList :=
    @SourceEdit.insert "load\tR0 \" \"\r\n".toList [';'] "halt ".toList
      (.inr ⟨"load\tR0 \" \"\r".toList, rfl⟩) (by decide) (by decide +kernel)
  have htrail : SourceEdit "load\tR0 \" \"\r\n;\nhalt".toList "load\tR0 \" \"\r\n;\nhalt ".toList :=
    @SourceEdit.line "load\tR0 \" \"\r\n;\n".toList _ _ [] (.inr ⟨"load\tR0 \" \"\r\n;".toList, rfl⟩) (.inl rfl)
      (by decide +kernel) (by decide +kernel) (@LineEdit.trail "halt".toList [' '] (by simp))
  have hall := (((Relation.EqvGen.rel _ _ hspace).trans _ _ _ (.rel _ _ hending)).trans _ _ _
    (.rel _ _ hinsert)).trans _ _ _ ((Relation.EqvGen.rel _ _ htrail).symm _ _)
  exact ⟨hall, (assembly_ignores_layout .standard hall _).mp (by decide +kernel)⟩

end RegisterMachine
