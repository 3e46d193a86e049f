import RegisterMachine.Proofs.SourceLayout

namespace RegisterMachine

namespace Text

/-- The blanks in front that trimming takes away. -/
def leading (cs : List Char) : List Char := cs.takeWhile isBlank

/-- The blanks at the end that trimming takes away. -/
def trailing (cs : List Char) : List Char := ((trimStart cs).reverse.takeWhile isBlank).reverse

variable {c : Char} {cs : List Char}

theorem leading_trim_trailing (cs : List Char) : leading cs ++ trim cs ++ trailing cs = cs := by
  have hend : trim cs ++ trailing cs = trimStart cs := by
    rw [trim, trimEnd, trailing, ← List.reverse_append, List.takeWhile_append_dropWhile, List.reverse_reverse]
  rw [List.append_assoc, hend]
  exact List.takeWhile_append_dropWhile

theorem isBlank_of_leading (h : c ∈ leading cs) : isBlank c = true := List.mem_takeWhile_imp h

theorem isBlank_of_trailing (h : c ∈ trailing cs) : isBlank c = true :=
  List.mem_takeWhile_imp (List.mem_reverse.mp h)

theorem trim_trim (cs : List Char) : trim (trim cs) = trim cs := by
  have h := congrArg trim (leading_trim_trailing cs)
  rw [trim_trailing fun _ => isBlank_of_trailing, trim_leading fun _ => isBlank_of_leading] at h
  exact h

theorem mem_of_mem_trim (h : c ∈ trim cs) : c ∈ cs := by
  rw [← leading_trim_trailing cs]
  simp [h]

theorem count_trim (c : Char) (cs : List Char) :
    cs.count c = (trim cs).count c + (leading cs ++ trailing cs).count c := by
  conv => lhs; rw [← leading_trim_trailing cs]
  simp only [List.count_append]
  omega

theorem count_trim_of_not_blank (h : isBlank c = false) : (trim cs).count c = cs.count c := by
  have hn : c ∉ leading cs ++ trailing cs := by
    intro hm
    have hb := (List.mem_append.mp hm).elim isBlank_of_leading isBlank_of_trailing
    rw [h] at hb
    cases hb
  rw [count_trim c cs, List.count_eq_zero_of_not_mem hn, Nat.add_zero]

end Text

/-- The names of instructions do not begin with a blank. -/
theorem Opcode.isBlank_mnemonic {op : Opcode} {c : Char} (h : op.mnemonic.toList.head? = some c) :
    Text.isBlank c = false := by
  have hall : (Opcode.all.all fun op => op.mnemonic.toList.head?.all fun c => !Text.isBlank c) = true := by
    decide +kernel
  have hop := List.all_eq_true.mp hall op (Opcode.mem_all op)
  rw [h] at hop
  simpa using hop

namespace Token

variable {cs : List Char} {words : List String}

/-- Trimming takes no quotes away, so a text has words if it has some without its margins. -/
theorem wordsFrom_trim_eq_none : wordsFrom none false (Text.trim cs) = none ↔ wordsFrom none false cs = none := by
  rw [wordsFrom_eq_none, wordsFrom_eq_none, Text.count_trim_of_not_blank (by decide)]

/-- The words of a text are those without its margins exactly if the margins are made of separators. -/
theorem wordsFrom_trim_iff : wordsFrom none false cs = wordsFrom none false (Text.trim cs) ↔
    wordsFrom none false cs = none ∨ ∀ c ∈ Text.leading cs ++ Text.trailing cs, isSeparator c = true := by
  constructor
  · intro h
    cases hw : wordsFrom none false cs with
    | none => exact .inl rfl
    | some words =>
      refine .inr fun c hm => ?_
      by_contra hs
      rw [Bool.not_eq_true] at hs
      -- the words would have lost a character
      have hcs := count_wordsFrom hs hw
      have htrim := count_wordsFrom hs (h.symm.trans hw)
      have hpos := List.count_pos_iff.mpr hm
      rw [Text.count_trim c cs] at hcs
      omega
  · rintro (h | h)
    · rw [h, wordsFrom_trim_eq_none.mpr h]
    · conv => lhs; rw [← Text.leading_trim_trailing cs]
      rw [wordsFrom_trailing fun c hc => h c (List.mem_append_right _ hc),
        wordsFrom_leading fun c hc => h c (List.mem_append_left _ hc)]

/-- Blanks that are no separators begin the first word. -/
theorem head_of_blanks {pad : List Char} (hb : ∀ c ∈ pad, Text.isBlank c = true)
    (hs : ∃ c ∈ pad, isSeparator c = false) (h : wordsFrom none false (pad ++ cs) = some words) :
    ∃ c more later, Text.isBlank c = true ∧ words = String.ofList (c :: more) :: later := by
  induction pad with
  | nil =>
    obtain ⟨c, hm, -⟩ := hs
    cases hm
  | cons d pad ih =>
    rw [List.cons_append] at h
    by_cases hd : isSeparator d = true
    · obtain ⟨c, hm, hc⟩ := hs
      have hne : c ≠ d := by
        rintro rfl
        rw [hd] at hc
        cases hc
      rw [wordsFrom_separator hd] at h
      obtain ⟨later, hl, rfl⟩ := Option.map_eq_some_iff.mp h
      exact ih (fun x hx => hb x (List.mem_cons_of_mem d hx)) ⟨c, (List.mem_cons.mp hm).resolve_left hne, hc⟩ hl
    · rw [wordsFrom_extend fun hc => (hd hc).elim] at h
      obtain ⟨more, later, rfl⟩ := head_of_wordsFrom h
      exact ⟨d, more, later, hb d List.mem_cons_self, rfl⟩

end Token

namespace Line

variable {raw : List Char}

theorem content?_trim (hc : ';' ∉ raw) (hw : Token.texts (Token.scan (withoutComment raw)) =
    Token.texts (Token.scan (Text.trim raw))) : content? raw = content? (Text.trim raw) := by
  have ht : withoutComment (Text.trim raw) = Text.trim raw :=
    withoutComment_eq_self fun h => hc (Text.mem_of_mem_trim h)
  apply content?_congr
  · rw [body, body, ht, withoutComment_eq_self hc, Text.trim_trim]
  · rw [ht, hw]

/-- No instruction is spelled with a blank in front that is no separator. -/
theorem not_spells_of_leading (hc : ';' ∉ raw) (hs : ∃ c ∈ Text.leading raw, Token.isSeparator c = false)
    (op : Opcode) (operands : List Token) : ¬ Spells raw op operands := by
  rintro ⟨head, hscan, hname, -⟩
  have hw : Token.texts (Token.scan raw) = some (head.text :: operands.map Token.text) := by
    rw [withoutComment_eq_self hc] at hscan
    rw [hscan]
    rfl
  rw [Token.texts_scan, ← Text.leading_trim_trailing raw, List.append_assoc] at hw
  obtain ⟨c, more, later, hblank, he⟩ := Token.head_of_blanks (fun _ => Text.isBlank_of_leading) hs hw
  obtain ⟨htext, -⟩ := List.cons.inj he
  have hfirst : op.mnemonic.toList.head? = some c := by
    rw [hname, htext, String.toList_ofList]
    rfl
  rw [Opcode.isBlank_mnemonic hfirst] at hblank
  cases hblank

end Line

/-- Trimming a line without a comment leaves its words alone exactly if it takes only separators away, or if the line
has no words for want of a quote. Then the trimmed line may stand in its place. Other blanks in front of an
instruction, which trimming takes away as well, become a part of its name, and no text with such a line is accepted. -/
theorem trimmed_line_agrees_exactly (table : SyscallTable) {raw : List Char} (hc : ';' ∉ raw) :
    (Token.texts (Token.scan (Line.withoutComment raw)) = Token.texts (Token.scan (Text.trim raw)) ↔
      Token.texts (Token.scan (Line.withoutComment raw)) = none ∨
        ∀ c ∈ Text.leading raw ++ Text.trailing raw, Token.isSeparator c = true) ∧
    (Token.texts (Token.scan (Text.trim raw)) = none ↔ Token.texts (Token.scan (Line.withoutComment raw)) = none) ∧
    (Token.texts (Token.scan (Line.withoutComment raw)) = Token.texts (Token.scan (Text.trim raw)) →
      ∀ above below (source source' : String), AtLineStart above → AtLineEnd below → '\n' ∉ raw →
        source.toList = above ++ raw ++ below → source'.toList = above ++ Text.trim raw ++ below →
        ∀ code, assemble table source = .ok code ↔ assemble table source' = .ok code) ∧
    (Line.isInstruction raw = true → (∃ c ∈ Text.leading raw, Token.isSeparator c = false) →
      ∀ source code, raw ∈ Text.lines (String.toList source) → assemble table source ≠ .ok code) := by
  have hraw := Line.withoutComment_eq_self hc
  refine ⟨?_, ?_, ?_, ?_⟩
  · rw [hraw, Token.texts_scan, Token.texts_scan]
    exact Token.wordsFrom_trim_iff
  · rw [hraw, Token.texts_scan, Token.texts_scan]
    exact Token.wordsFrom_trim_eq_none
  · intro hw above below source source' ha hb hn hs hs'
    apply assemble_of_contents
    have hn' : '\n' ∉ Text.trim raw := fun h => hn (Text.mem_of_mem_trim h)
    rw [hs, hs', List.append_assoc, List.append_assoc, ha.contents_append, ha.contents_append,
      hb.contents_append hn, hb.contents_append hn', Line.content?_trim hc hw]
  · intro hi hlead source code hmem ha
    obtain ⟨op, operands, hsp, -⟩ := (wellFormed_of_assemble ha).1.instructions raw hmem hi
    exact Line.not_spells_of_leading hc hlead op operands hsp

/-- A tab in front and a space behind may go. -/
theorem trimmed_line_agrees_of_tab :
    Token.texts (Token.scan (Line.withoutComment "\thalt ".toList)) =
        Token.texts (Token.scan (Text.trim "\thalt ".toList)) ∧
      assemble .standard "\thalt " = .ok [0x05, 1, 1, 0] := by
  obtain ⟨hiff, -, hsame, -⟩ := trimmed_line_agrees_exactly .standard (show ';' ∉ "\thalt ".toList by decide +kernel)
  have hm : Text.leading "\thalt ".toList ++ Text.trailing "\thalt ".toList = ['\t', ' '] := by decide +kernel
  have hw := hiff.mpr (.inr (by rw [hm]; simp [Token.isSeparator]))
  exact ⟨hw, (hsame hw [] [] "\thalt " "halt" (.inl rfl) (.inl rfl) (by decide +kernel) (by decide +kernel)
    (by decide +kernel) _).mpr (by decide +kernel)⟩

/-- A form feed is a blank, but no separator. -/
theorem form_feed_spoils_instruction :
    ';' ∉ "\x0chalt".toList ∧ Line.isLabel "\x0chalt".toList = false ∧
      Text.trim "\x0chalt".toList = "halt".toList ∧
      Token.texts (Token.scan (Line.withoutComment "\x0chalt".toList)) = some ["\x0chalt"] ∧
      Token.texts (Token.scan (Text.trim "\x0chalt".toList)) = some ["halt"] ∧
      assemble .standard "\x0chalt" = .error ⟨⟨1, .unknownInstruction "\x0chalt"⟩, 1⟩ ∧
      assemble .standard "halt" = .ok [0x05, 1, 1, 0] := by
  decide +kernel

end RegisterMachine
