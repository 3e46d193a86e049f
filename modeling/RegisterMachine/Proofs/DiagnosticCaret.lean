import RegisterMachine.Assembly.Diagnostic
import RegisterMachine.Proofs.ErrorPlaces

namespace RegisterMachine

namespace Text

section Lines

variable {c : Char} {cs line : List Char}

theorem withoutReturns_append (h : c ≠ '\r') (front back : List Char) :
    withoutReturns (front ++ c :: back) = front ++ c :: withoutReturns back := by
  have hkept : (c :: front.reverse).dropWhile (fun d => decide (d = '\r')) = c :: front.reverse := by
    rw [List.dropWhile_cons_of_neg (by simpa using h)]
  have hdrop : (back.reverse ++ c :: front.reverse).dropWhile (fun d => decide (d = '\r')) =
      back.reverse.dropWhile (fun d => decide (d = '\r')) ++ c :: front.reverse := by
    rw [List.dropWhile_append, hkept]
    split
    next he => rw [List.isEmpty_iff.mp he, List.nil_append]
    next => rfl
  have hrev : (front ++ c :: back).reverse = back.reverse ++ c :: front.reverse := by simp
  rw [withoutReturns, hrev, hdrop, List.reverse_append, List.reverse_cons, List.reverse_reverse, withoutReturns,
    List.append_assoc]
  rfl

theorem exists_returns (line : List Char) : ∃ n, line = withoutReturns line ++ List.replicate n '\r' := by
  refine ⟨(line.reverse.takeWhile (· = '\r')).length, ?_⟩
  have hall : line.reverse.takeWhile (· = '\r') =
      List.replicate (line.reverse.takeWhile (· = '\r')).length '\r' := by
    rw [List.eq_replicate_iff]
    exact ⟨rfl, fun d hd => by simpa using List.mem_takeWhile_imp hd⟩
  rw [withoutReturns, ← List.reverse_replicate, ← hall, ← List.reverse_append, List.takeWhile_append_dropWhile,
    List.reverse_reverse]

theorem getLast?_withoutReturns (line : List Char) : (withoutReturns line).getLast? ≠ some '\r' := by
  intro h
  rw [withoutReturns, List.getLast?_reverse, head?_dropWhile] at h
  simpa using List.find?_some h

theorem mem_of_mem_withoutReturns (h : c ∈ withoutReturns line) : c ∈ line := by
  rw [withoutReturns, List.mem_reverse] at h
  exact List.mem_reverse.mp ((List.dropWhile_sublist _).subset h)

theorem endedLine_reverse (h : line.getLast? ≠ some '\r') : endedLine line.reverse = line := by
  rw [← List.head?_reverse] at h
  unfold endedLine
  split
  next cs hcs =>
    rw [hcs] at h
    exact (h rfl).elim
  next => exact List.reverse_reverse line

theorem mem_of_mem_endedLine {current : List Char} (h : c ∈ endedLine current) : c ∈ current := by
  unfold endedLine at h
  split at h
  next cs => exact List.mem_cons_of_mem _ (List.mem_reverse.mp h)
  next => exact List.mem_reverse.mp h

theorem not_mem_of_mem_linesFrom {current : List Char} (hc : '\n' ∉ current) (h : line ∈ linesFrom current cs) :
    '\n' ∉ line := by
  induction cs generalizing current with
  | nil =>
    unfold linesFrom at h
    split at h
    next => cases h
    next =>
      rw [List.mem_singleton] at h
      subst h
      exact fun hm => hc (List.mem_reverse.mp hm)
  | cons c cs ih =>
    by_cases hn : c = '\n'
    · subst hn
      rw [linesFrom_newline] at h
      rcases List.mem_cons.mp h with rfl | h
      · exact fun hm => hc (mem_of_mem_endedLine hm)
      · exact ih List.not_mem_nil h
    · rw [linesFrom_other hn] at h
      exact ih (fun hm => (List.mem_cons.mp hm).elim (fun he => hn he.symm) hc) h

theorem not_mem_of_mem_lines (h : line ∈ lines cs) : '\n' ∉ line := not_mem_of_mem_linesFrom List.not_mem_nil h

/-- A line feed parts the lines of a text, whatever stands before it. -/
theorem linesFrom_append (current text rest : List Char) :
    linesFrom current (text ++ '\n' :: rest) = linesFrom current (text ++ ['\n']) ++ lines rest := by
  induction text generalizing current with
  | nil => rfl
  | cons c text ih =>
    by_cases hn : c = '\n'
    · subst hn
      rw [List.cons_append, List.cons_append, linesFrom_newline, linesFrom_newline, ih]
      rfl
    · rw [List.cons_append, List.cons_append, linesFrom_other hn, linesFrom_other hn, ih]

theorem lines_append (text rest : List Char) : lines (text ++ '\n' :: rest) = lines (text ++ ['\n']) ++ lines rest :=
  linesFrom_append [] text rest

theorem linesFrom_line_append (current : List Char) (h : '\n' ∉ line) (rest : List Char) :
    linesFrom current (line ++ '\n' :: rest) = endedLine (line.reverse ++ current) :: lines rest := by
  induction line generalizing current with
  | nil => rfl
  | cons c line ih =>
    rw [List.mem_cons, not_or] at h
    rw [List.cons_append, linesFrom_other (fun he => h.1 he.symm), ih _ h.2, List.reverse_cons, List.append_assoc]
    rfl

theorem lines_cons (h : '\n' ∉ line) (hr : line.getLast? ≠ some '\r') (rest : List Char) :
    lines (line ++ '\n' :: rest) = line :: lines rest := by
  rw [lines, linesFrom_line_append [] h, List.append_nil, endedLine_reverse hr]

theorem length_le_byteLength (cs : List Char) : cs.length ≤ byteLength cs := by
  induction cs with
  | nil => exact Nat.le_refl 0
  | cons c cs ih =>
    have hpos := c.utf8Size_pos
    rw [List.length_cons, byteLength]
    omega

/-- There are as many bytes as characters exactly if all characters have one byte. -/
theorem byteLength_eq_length : byteLength cs = cs.length ↔ ∀ c ∈ cs, c.utf8Size = 1 := by
  induction cs with
  | nil => simp [byteLength]
  | cons c cs ih =>
    have hpos := c.utf8Size_pos
    have hle := length_le_byteLength cs
    rw [List.forall_mem_cons, ← ih, byteLength, List.length_cons]
    omega

end Lines

end Text

namespace Token

/-- A word begins with a character that is no separator. -/
def WellBegun (word : List Char) : Prop := ∃ c more, word = c :: more ∧ isSeparator c = false

theorem wellBegun_closed {current : Option (List Char)} {later : List String}
    (hc : ∀ chars ∈ current, WellBegun chars.reverse) (hl : ∀ w ∈ later, WellBegun w.toList) :
    ∀ w ∈ closed current later, WellBegun w.toList := by
  cases current with
  | none => exact hl
  | some chars =>
    refine List.forall_mem_cons.mpr ⟨?_, hl⟩
    rw [String.toList_ofList]
    exact hc chars rfl

/-- Inside of quotes a word has been begun, so that a separator never begins one. -/
theorem wellBegun_of_wordsFrom {current : Option (List Char)} {quoted : Bool} {cs : List Char} {words : List String}
    (hc : ∀ chars ∈ current, WellBegun chars.reverse) (hq : quoted = true → current ≠ none)
    (h : wordsFrom current quoted cs = some words) : ∀ w ∈ words, WellBegun w.toList := by
  induction cs generalizing current quoted words with
  | nil =>
    cases quoted with
    | true => cases h
    | false =>
      cases h
      exact wellBegun_closed hc nofun
  | cons d cs ih =>
    rcases separates_or_extends d quoted with ⟨hd, rfl⟩ | hd
    · rw [wordsFrom_separator hd] at h
      obtain ⟨later, hl, rfl⟩ := Option.map_eq_some_iff.mp h
      exact wellBegun_closed hc (ih (by simp) (by simp) hl)
    · rw [wordsFrom_extend hd] at h
      refine ih ?_ (fun _ => Option.some_ne_none _) h
      intro chars hm
      cases hm
      cases current with
      | none =>
        refine ⟨d, [], rfl, ?_⟩
        rw [Bool.eq_false_iff]
        exact fun hsep => hq (hd hsep) rfl
      | some chars =>
        obtain ⟨c, more, hw, hsep⟩ := hc chars rfl
        exact ⟨c, more ++ [d], by simp [hw], hsep⟩

end Token

namespace Line

variable {code : List Char} {column : Nat}

theorem WordStart.ne_return (h : WordStart code column) :
    ∃ front c back, code = front ++ c :: back ∧ column = Text.byteLength front + 1 ∧ c ≠ '\r' := by
  obtain ⟨tokens, hs, token, hm, rfl, front, word, back, hc, hne, rfl⟩ := h
  have hw : Token.wordsFrom none false code = some (tokens.map Token.text) := by
    rw [← Token.texts_scan, hs]
    rfl
  obtain ⟨c, more, hword, hsep⟩ :=
    Token.wellBegun_of_wordsFrom (by simp) (by simp) hw (String.ofList word) (List.mem_map.mpr ⟨_, hm, rfl⟩)
  rw [String.toList_ofList] at hword
  subst hword
  refine ⟨front, c, more ++ back, by simpa using hc, rfl, ?_⟩
  rintro rfl
  cases hsep

end Line

theorem Problem.BlamedAt.ne_return {code : List Char} {column : Nat} {problem : Problem}
    (h : problem.BlamedAt code column) :
    ∃ front c back, code = front ++ c :: back ∧ column = Text.byteLength front + 1 ∧ c ≠ '\r' := by
  have hfirst : Line.FirstVisible code column →
      ∃ front c back, code = front ++ c :: back ∧ column = Text.byteLength front + 1 ∧ c ≠ '\r' := by
    rintro ⟨front, c, back, hc, hcol, -, hv⟩
    refine ⟨front, c, back, hc, hcol, ?_⟩
    rintro rfl
    cases hv
  cases problem with
  | emptyLabel => exact hfirst h
  | duplicateLabel label => exact hfirst h
  | unterminatedString opened =>
    obtain ⟨-, front, back, hc, hcol, -⟩ := h
    exact ⟨front, '"', back, hc, hcol, by decide⟩
  | _ => exact Line.WordStart.ne_return h

namespace AssemblyError

/-- The number of characters that stand before the source line: its number, in at least four places, and a bar. -/
def gutter (e : AssemblyError) : Nat := max 4 (Nat.toDigits 10 e.line).length + 3

/-- The caret stands below the character of the source line that the given ones stand before. -/
def CaretBelow (e : AssemblyError) (front : List Char) : Prop :=
  e.caretLine.toList[e.gutter + front.length]? = some '^'

instance (e : AssemblyError) (front : List Char) : Decidable (e.CaretBelow front) :=
  inferInstanceAs (Decidable (_ = _))

section Report

variable {e : AssemblyError} {line front back : List Char} {c : Char} {source : String}

theorem toList_excerptLine (e : AssemblyError) (line : List Char) : (e.excerptLine line).toList =
    List.leftpad 4 ' ' (Nat.toDigits 10 e.line) ++ [' ', '|', ' '] ++ line := by
  have hbar : " | ".toList = [' ', '|', ' '] := by decide +kernel
  simp only [excerptLine, Numeral.padLeft, Nat.toString_eq_ofList_toDigits, String.toList_append, String.toList_ofList,
    hbar]

theorem toList_caretLine (e : AssemblyError) : e.caretLine.toList =
    [' ', ' ', ' ', ' ', ' ', '|', ' '] ++ List.replicate (e.column - 1) ' ' ++ ['^'] := by
  have hbar : "     | ".toList = [' ', ' ', ' ', ' ', ' ', '|', ' '] := by decide +kernel
  have hcaret : "^".toList = ['^'] := by decide +kernel
  simp only [caretLine, String.toList_append, String.toList_ofList, hbar, hcaret]

theorem getElem?_excerptLine (e : AssemblyError) (front back : List Char) (c : Char) :
    (e.excerptLine (front ++ c :: back)).toList[e.gutter + front.length]? = some c := by
  have hlen : (List.leftpad 4 ' ' (Nat.toDigits 10 e.line) ++ [' ', '|', ' ']).length = e.gutter := by
    rw [List.length_append, List.length_leftpad]
    rfl
  rw [toList_excerptLine, ← hlen, List.getElem?_append_right (Nat.le_add_right _ _), Nat.add_sub_cancel_left,
    List.getElem?_append_right (Nat.le_refl _), Nat.sub_self]
  rfl

theorem getElem?_caretLine {k : Nat} : e.caretLine.toList[k]? = some '^' ↔ k = 7 + (e.column - 1) := by
  have hlen : ([' ', ' ', ' ', ' ', ' ', '|', ' '] ++ List.replicate (e.column - 1) ' ').length =
      7 + (e.column - 1) := by
    rw [List.length_append, List.length_replicate]
    rfl
  have hother : '^' ∉ [' ', ' ', ' ', ' ', ' ', '|', ' '] ++ List.replicate (e.column - 1) ' ' := by simp
  rw [toList_caretLine, ← hlen]
  generalize [' ', ' ', ' ', ' ', ' ', '|', ' '] ++ List.replicate (e.column - 1) ' ' = pad at hother
  constructor
  · intro h
    rw [List.getElem?_append] at h
    split at h
    next => exact (hother (List.mem_of_getElem? h)).elim
    next hge =>
      have hlt := (List.getElem?_eq_some_iff.mp h).1
      rw [List.length_singleton] at hlt
      omega
  · rintro rfl
    exact List.getElem?_concat_length

/-- The caret is in its place exactly if the line number has as many digits beyond four as the characters before the
blamed one have bytes beyond their number. -/
theorem caretBelow_iff (h : e.column = Text.byteLength front + 1) :
    e.CaretBelow front ↔ (Nat.toDigits 10 e.line).length - 4 = Text.byteLength front - front.length := by
  have hle := Text.length_le_byteLength front
  rw [CaretBelow, getElem?_caretLine, h, gutter]
  omega

theorem length_toDigits_le : (Nat.toDigits 10 e.line).length ≤ 4 ↔ e.line ≤ 9999 := by
  rw [Nat.length_toDigits_le_iff (by decide) (by decide)]
  omega

theorem not_mem_excerptLine (h : '\n' ∉ line) : '\n' ∉ (e.excerptLine line).toList := by
  rw [toList_excerptLine]
  intro hm
  rcases List.mem_append.mp hm with hm | hm
  · rcases List.mem_append.mp hm with hm | hm
    · rcases List.mem_append.mp hm with hm | hm
      · cases List.eq_of_mem_replicate hm
      · cases Nat.isDigit_of_mem_toDigits (by decide) (by decide) hm
    · simp at hm
  · exact h hm

theorem toList_report (file : String) (hx : e.excerpt? source = some line) :
    ∃ heading, (e.report file source).toList = heading ++ '\n' :: ("     |".toList ++ '\n' ::
      ((e.excerptLine line).toList ++ '\n' :: (e.caretLine.toList ++ ['\n']))) := by
  have hbreak : "\n".toList = ['\n'] := by decide +kernel
  have hbar : "     |\n".toList = "     |".toList ++ ['\n'] := by decide +kernel
  refine ⟨(s!"error: {e.problem.message}\n --> {file}:{e.line}:{e.column}").toList, ?_⟩
  simp only [report, hx, excerptLine, toString, String.toList_append, hbreak, hbar, List.append_assoc,
    List.cons_append, List.nil_append]

theorem getLast?_excerptLine (h : line.getLast? ≠ some '\r') : (e.excerptLine line).toList.getLast? ≠ some '\r' := by
  rw [toList_excerptLine, List.getLast?_append]
  cases hl : line.getLast? with
  | none =>
    rw [Option.none_or, List.getLast?_append]
    exact nofun
  | some d =>
    rw [Option.some_or, ← hl]
    exact h

/-- The last three lines of a report are a bar, the excerpt and the caret. -/
theorem diagnostic_eq (file : String) (hx : e.excerpt? source = some line) (hn : '\n' ∉ line)
    (hr : line.getLast? ≠ some '\r') :
    ∃ headings, e.diagnostic file source = headings ++ ["     |", e.excerptLine line, e.caretLine] := by
  obtain ⟨heading, hreport⟩ := toList_report file hx
  have hbar : '\n' ∉ "     |".toList ∧ "     |".toList.getLast? ≠ some '\r' := by decide +kernel
  have hcaret : '\n' ∉ e.caretLine.toList ∧ e.caretLine.toList.getLast? ≠ some '\r' := by
    rw [toList_caretLine]
    refine ⟨by simp, ?_⟩
    rw [List.getLast?_concat]
    exact nofun
  refine ⟨(Text.lines (heading ++ ['\n'])).map String.ofList, ?_⟩
  rw [diagnostic, hreport, Text.lines_append, Text.lines_cons hbar.1 hbar.2,
    Text.lines_cons (not_mem_excerptLine hn) (getLast?_excerptLine hr), Text.lines_cons hcaret.1 hcaret.2,
    List.map_append]
  simp only [List.map_cons, String.ofList_toList]
  rfl

end Report

end AssemblyError

section Carets

variable {table : SyscallTable} {source : String} {e : AssemblyError}

/-- The report of an error shows the blamed source line, without carriage returns at its end, and a line with one caret
below it. The caret stands as many characters behind the bar as bytes stand before the blamed character. So it stands
below that character exactly if the line number has as many digits beyond four as the characters before have bytes
beyond their number; in the first 9999 lines, exactly if they all have one byte. -/
theorem caret_counts_bytes (h : assemble table source = .error e) (file : String) :
    ∃ raw front c back, (Text.lines source.toList)[e.line - 1]? = some raw ∧
      (∃ n, raw = front ++ c :: back ++ List.replicate n '\r') ∧
      e.column = Text.byteLength front + 1 ∧
      e.problem.BlamedAt (Line.withoutComment raw) e.column ∧
      (∃ headings, e.diagnostic file source =
        headings ++ ["     |", e.excerptLine (front ++ c :: back), e.caretLine]) ∧
      (e.excerptLine (front ++ c :: back)).toList[e.gutter + front.length]? = some c ∧
      (∀ k, e.caretLine.toList[k]? = some '^' ↔ k = 7 + Text.byteLength front) ∧
      (e.CaretBelow front ↔ (Nat.toDigits 10 e.line).length - 4 = Text.byteLength front - front.length) ∧
      (e.line ≤ 9999 → (e.CaretBelow front ↔ ∀ d ∈ front, d.utf8Size = 1)) := by
  obtain ⟨raw, hraw, hb⟩ := blamedAt_of_assemble h
  obtain ⟨-, hget⟩ := List.mk_mem_zipIdx_iff_le_and_getElem?_sub.mp hraw
  obtain ⟨front, c, back, hcode, hcol, hc⟩ := hb.ne_return
  have hsplit : raw = front ++ c :: (back ++ raw.dropWhile (· ≠ ';')) := by
    have hraw' : Line.withoutComment raw ++ raw.dropWhile (· ≠ ';') = raw := List.takeWhile_append_dropWhile
    rw [hcode, List.append_assoc, List.cons_append] at hraw'
    exact hraw'.symm
  -- The blamed character is no carriage return, so it is still there when those at the end are taken off.
  have hshown := Text.withoutReturns_append hc front (back ++ raw.dropWhile (· ≠ ';'))
  rw [← hsplit] at hshown
  have hx : e.excerpt? source = some (Text.withoutReturns raw) := by
    rw [AssemblyError.excerpt?, hget]
    rfl
  have hn : '\n' ∉ Text.withoutReturns raw := fun hm =>
    Text.not_mem_of_mem_lines (List.mem_of_getElem? hget) (Text.mem_of_mem_withoutReturns hm)
  have hlines := AssemblyError.diagnostic_eq file hx hn (Text.getLast?_withoutReturns raw)
  have hreturns := Text.exists_returns raw
  have hbelow := AssemblyError.caretBelow_iff hcol
  rw [hshown] at hlines hreturns
  refine ⟨raw, front, c, _, hget, hreturns, hcol, hb, hlines, AssemblyError.getElem?_excerptLine e front _ c,
    fun k => ?_, hbelow, fun hline => ?_⟩
  · rw [AssemblyError.getElem?_caretLine, hcol, Nat.add_sub_cancel]
  · have hdigits := AssemblyError.length_toDigits_le.mpr hline
    have hle := Text.length_le_byteLength front
    rw [hbelow, ← Text.byteLength_eq_length]
    omega

/-- Only blanks of one byte stand before the unknown instruction, and the caret is below its first letter. -/
theorem caret_counts_bytes_of_indented :
    assemble .standard "halt\n  jmp R0\n" = .error ⟨⟨3, .unknownInstruction "jmp"⟩, 2⟩ ∧
      AssemblyError.diagnostic ⟨⟨3, .unknownInstruction "jmp"⟩, 2⟩ "prog.masm" "halt\n  jmp R0\n" =
        ["error: unknown instruction `jmp`", " --> prog.masm:2:3", "     |", "   2 |   jmp R0", "     |   ^"] ∧
      AssemblyError.CaretBelow ⟨⟨3, .unknownInstruction "jmp"⟩, 2⟩ [' ', ' '] := by
  have he : assemble .standard "halt\n  jmp R0\n" = .error ⟨⟨3, .unknownInstruction "jmp"⟩, 2⟩ := by decide +kernel
  obtain ⟨raw, front, c, back, hget, ⟨n, hraw⟩, hcol, -, -, -, -, -, hbelow⟩ := caret_counts_bytes he "prog.masm"
  have hline : (Text.lines "halt\n  jmp R0\n".toList)[1]? = some "  jmp R0".toList := by decide +kernel
  have hfront : front = [' ', ' '] := by
    have hs := Text.splitAt?_append front (c :: back ++ List.replicate n '\r')
    have hcut : Text.splitAt? 2 "  jmp R0".toList = some ([' ', ' '], "jmp R0".toList) := by decide +kernel
    rw [← List.append_assoc, ← hraw, ← Option.some.inj (hline.symm.trans hget), ← Nat.succ.inj hcol, hcut] at hs
    exact (Prod.mk.inj (Option.some.inj hs)).1.symm
  subst hfront
  have hone : ∀ d ∈ [' ', ' '], d.utf8Size = 1 := List.forall_mem_cons.mpr ⟨rfl, List.forall_mem_singleton.mpr rfl⟩
  exact ⟨he, by decide +kernel, (hbelow (by decide)).mpr hone⟩

theorem lines_replicate_append (n : Nat) (cs : List Char) :
    Text.lines (List.replicate n '\n' ++ cs) = List.replicate n [] ++ Text.lines cs := by
  induction n with
  | zero => rfl
  | succ n ih => exact congrArg (List.cons []) ih

theorem assemble_below_empty_lines (n : Nat) : assemble .standard (String.ofList (List.replicate n '\n' ++ ['x'])) =
    .error ⟨⟨1, .unknownInstruction "x"⟩, n + 1⟩ := by
  have hfollow : ∀ k, Survey.follow [] 0 ((List.replicate n [] ++ [['x']]).zipIdx k) =
      .error ⟨⟨1, .unknownInstruction "x"⟩, n + k⟩ := by
    induction n with
    | zero =>
      intro k
      have ht : Line.ofText ['x'] = .error ⟨1, .unknownInstruction "x"⟩ := by decide +kernel
      rw [List.replicate_zero, List.nil_append, List.zipIdx_singleton, Survey.follow]
      simp only [ht, Nat.zero_add]
    | succ n ih =>
      intro k
      rw [List.replicate_succ, List.cons_append, List.zipIdx_cons, Survey.follow_blank (by decide), ih,
        Nat.add_right_comm, Nat.add_assoc]
  have hsurvey : Survey.ofSource (String.ofList (List.replicate n '\n' ++ ['x'])) =
      .error ⟨⟨1, .unknownInstruction "x"⟩, n + 1⟩ := by
    rw [Survey.ofSource, String.toList_ofList, lines_replicate_append]
    exact hfollow 1
  exact except_bind_eq_error.mpr (.inl (except_bind_eq_error.mpr (.inl hsurvey)))

/-- An accent before the blamed word pushes the caret to the right of it, and a line number of five digits pushes the
word to the right of the caret. -/
theorem caret_beside_blamed_word :
    (assemble .standard "call PRINTLN \"é\" R" = .error ⟨⟨19, .invalidLiteral "R"⟩, 1⟩ ∧
      AssemblyError.diagnostic ⟨⟨19, .invalidLiteral "R"⟩, 1⟩ "p.masm" "call PRINTLN \"é\" R" =
        ["error: invalid literal `R`", " --> p.masm:1:19", "     |",
          "   1 | call PRINTLN \"é\" R",
          "     |                   ^"] ∧
      ¬ AssemblyError.CaretBelow ⟨⟨19, .invalidLiteral "R"⟩, 1⟩ "call PRINTLN \"é\" ".toList) ∧
    assemble .standard (String.ofList (List.replicate 9999 '\n' ++ ['x'])) =
      .error ⟨⟨1, .unknownInstruction "x"⟩, 10000⟩ ∧
      AssemblyError.excerptLine ⟨⟨1, .unknownInstruction "x"⟩, 10000⟩ ['x'] = "10000 | x" ∧
      AssemblyError.caretLine ⟨⟨1, .unknownInstruction "x"⟩, 10000⟩ = "     | ^" ∧
      ¬ AssemblyError.CaretBelow ⟨⟨1, .unknownInstruction "x"⟩, 10000⟩ [] := by
  refine ⟨⟨?_, ?_, ?_⟩, assemble_below_empty_lines 9999, ?_, ?_, ?_⟩ <;>
    decide +kernel

end Carets

end RegisterMachine
