import RegisterMachine.Proofs.TrimmedLines

namespace RegisterMachine

namespace Text

/-- Parts a text at a byte offset, which must not stand inside of a character or behind the text. -/
def splitAt? : Nat → List Char → Option (List Char × List Char)
  | offset, [] => if offset = 0 then some ([], []) else none
  | offset, c :: cs =>
    if offset = 0 then some ([], c :: cs)
    else if c.utf8Size ≤ offset then
      (splitAt? (offset - c.utf8Size) cs).map fun (front, back) => (c :: front, back)
    else none

/-- The text between two byte offsets. -/
def slice? (cs : List Char) (start stop : Nat) : Option (List Char) :=
  (splitAt? stop cs).bind fun (front, _) => (splitAt? start front).map Prod.snd

/-- The byte offset of the first place where a character stands. -/
def find? (c : Char) : List Char → Option Nat
  | [] => none
  | d :: cs => if d = c then some 0 else (find? c cs).map (d.utf8Size + ·)

/-- How far one number is above another, which must not be larger. -/
def above? (stop start : Nat) : Option Nat := if start ≤ stop then some (stop - start) else none

/-- The bytes of a text in UTF-8. -/
def bytes (cs : List Char) : List UInt8 := cs.flatMap String.utf8EncodeChar

section Offsets

variable {c : Char} {cs : List Char}

theorem byteLength_append (cs ds : List Char) : byteLength (cs ++ ds) = byteLength cs + byteLength ds := by
  induction cs with
  | nil => exact (Nat.zero_add _).symm
  | cons c cs ih => rw [List.cons_append, byteLength, byteLength, ih, Nat.add_assoc]

theorem splitAt?_zero (cs : List Char) : splitAt? 0 cs = some ([], cs) := by
  cases cs <;> rfl

/-- An offset that counts the bytes of whole characters stands behind them. -/
theorem splitAt?_append (front back : List Char) :
    splitAt? (byteLength front) (front ++ back) = some (front, back) := by
  induction front with
  | nil => exact splitAt?_zero back
  | cons c front ih =>
    have hpos := c.utf8Size_pos
    have hrest : byteLength (c :: front) - c.utf8Size = byteLength front := by
      rw [byteLength]
      omega
    rw [List.cons_append, splitAt?, if_neg (by rw [byteLength]; omega), if_pos (by rw [byteLength]; omega), hrest, ih]
    rfl

theorem slice?_middle (front part back : List Char) :
    slice? (front ++ part ++ back) (byteLength front) (byteLength (front ++ part)) = some part := by
  rw [slice?, splitAt?_append]
  exact congrArg (Option.map Prod.snd) (splitAt?_append front part)

theorem slice?_front (front back : List Char) : slice? (front ++ back) 0 (byteLength front) = some front :=
  slice?_middle [] front back

theorem find?_of_not_mem (h : c ∉ cs) : find? c cs = none := by
  induction cs with
  | nil => rfl
  | cons d cs ih =>
    rw [List.mem_cons, not_or] at h
    rw [find?, if_neg fun he => h.1 he.symm, ih h.2]
    rfl

theorem find?_append (h : c ∉ cs) (back : List Char) : find? c (cs ++ c :: back) = some (byteLength cs) := by
  induction cs with
  | nil => exact if_pos rfl
  | cons d cs ih =>
    rw [List.mem_cons, not_or] at h
    rw [List.cons_append, find?, if_neg fun he => h.1 he.symm, ih h.2]
    rfl

theorem above?_add (start n : Nat) : above? (start + n) start = some n := by
  rw [above?, if_pos (Nat.le_add_right start n), Nat.add_sub_cancel_left]

theorem bytes_cons (c : Char) (cs : List Char) : bytes (c :: cs) = String.utf8EncodeChar c ++ bytes cs :=
  List.flatMap_cons

/-- A byte below 128 is the whole of a character. -/
theorem toNat_of_mem_utf8EncodeChar {b : UInt8} (h : b ∈ String.utf8EncodeChar c) (hb : b.toNat < 128) :
    c.toNat = b.toNat := by
  have hc : c.toNat = c.val.toNat := rfl
  revert h
  -- Longer codes are made of bytes from 128 on.
  fun_cases String.utf8EncodeChar c
  all_goals
    intro h
    simp only [List.mem_cons, List.not_mem_nil, or_false] at h
  case case1 =>
    rw [h, UInt8.toNat_ofNat']
    omega
  case case2 => rcases h with rfl | rfl <;> rw [UInt8.toNat_ofNat'] at hb <;> omega
  case case3 => rcases h with rfl | rfl | rfl <;> rw [UInt8.toNat_ofNat'] at hb <;> omega
  case case4 => rcases h with rfl | rfl | rfl | rfl <;> rw [UInt8.toNat_ofNat'] at hb <;> omega

end Offsets

end Text

namespace Token

/-- The bytes that part words. -/
def separates (b : UInt8) : Bool := b = 0x20 ∨ b = 0x09 ∨ b = 0x0d

/-- Cuts the word that began at an offset out of a line. -/
def cut? (line : List Char) (start : Option Nat) (stop : Nat) : Option (List Token) :=
  match start with
  | some s => (Text.slice? line s stop).map fun text => [⟨String.ofList text, s + 1⟩]
  | none => some []

/-- Reads the words of a line from its bytes. The bytes are those from the offset `i` on, `start` is the offset of the
word begun before them, and `quote` the column of a quote that is still open. There is no outcome if a word is to be cut
inside of a character. -/
def cutFrom? (line : List Char) (i : Nat) (start quote : Option Nat) :
    List UInt8 → Option (Except Problem (List Token))
  | [] =>
    match quote with
    | some opened => some (.error (.unterminatedString opened))
    | none => (cut? line start i).map .ok
  | b :: bs =>
    if b = 0x22 then
      cutFrom? line (i + 1) (some (start.getD i)) (if quote.isSome then none else some (i + 1)) bs
    else if separates b ∧ quote.isNone then
      (cut? line start i).bind fun word => (cutFrom? line (i + 1) none none bs).map (Except.map (word ++ ·))
    else cutFrom? line (i + 1) (some (start.getD i)) quote bs

/-- The quote that is open behind a character, which may be a quote itself. -/
def quoteAfter (c : Char) (column : Nat) (quote : Option Nat) : Option Nat :=
  if c = '"' then (if quote.isSome then none else some column) else quote

/-- The word that is being read stands at the end of what has been read, and its column says where. -/
def Begun.Ends (done : List Char) (p : Begun) : Prop :=
  ∃ front, done = front ++ p.chars.reverse ∧ p.column = Text.byteLength front + 1 ∧ p.chars ≠ []

section Scans

variable {cs : List Char} {c : Char} {column : Nat} {current : Option Begun} {quote : Option Nat}

theorem utf8Size_of_isSeparator (h : isSeparator c = true) : c.utf8Size = 1 := by
  rcases isSeparator_iff.mp h with rfl | rfl | rfl <;> rfl

theorem not_separates {b : Bool} (h : b = true → quote.isSome = true) : ¬ (b = true ∧ quote.isNone = true) := by
  rintro ⟨hb, hn⟩
  have hsome := h hb
  rw [Option.isNone_iff_eq_none.mp hn] at hsome
  cases hsome

theorem scanFrom_separator (h : isSeparator c = true) :
    scanFrom column current none (c :: cs) = (scanFrom (column + c.utf8Size) none none cs).map (finish current) := by
  rw [scanFrom, if_neg (ne_quote_of_isSeparator h), if_pos ⟨h, rfl⟩, utf8Size_of_isSeparator h]
  cases scanFrom (column + 1) none none cs <;> rfl

theorem scanFrom_extend (h : isSeparator c = true → quote.isSome = true) :
    scanFrom column current quote (c :: cs) =
      scanFrom (column + c.utf8Size) (some (Begun.extend c column current)) (quoteAfter c column quote) cs := by
  by_cases hq : c = '"'
  · subst hq
    rw [scanFrom, if_pos rfl, quoteAfter, if_pos rfl]
    rfl
  · rw [scanFrom, if_neg hq, if_neg (not_separates h), quoteAfter, if_neg hq]

end Scans

section Cuts

variable {line done cs : List Char} {c : Char} {current : Option Begun} {start quote : Option Nat} {i : Nat}
  {bs : List UInt8}

theorem Begun.ends_of_none (done : List Char) : ∀ p ∈ (none : Option Begun), p.Ends done := nofun

theorem Begun.ends_extend (h : ∀ p ∈ current, p.Ends done) (c : Char) :
    ∀ p ∈ some (Begun.extend c (Text.byteLength done + 1) current), p.Ends (done ++ [c]) := by
  intro p hp
  cases hp
  cases current with
  | none => exact ⟨done, rfl, rfl, List.cons_ne_nil _ _⟩
  | some p =>
    obtain ⟨front, hd, hcol, -⟩ := h p rfl
    exact ⟨front, by simp [extend, hd], hcol, List.cons_ne_nil _ _⟩

/-- The offset where the word began that is being read. -/
def offset (current : Option Begun) : Option Nat := current.map fun p => p.column - 1

theorem offset_extend (current : Option Begun) (c : Char) (i : Nat) :
    offset (some (Begun.extend c (i + 1) current)) = some ((offset current).getD i) := by
  cases current <;> rfl

/-- Cutting the word out gives the characters that have been gathered. -/
theorem cut?_offset (h : ∀ p ∈ current, p.Ends done) (cs : List Char) :
    cut? (done ++ cs) (offset current) (Text.byteLength done) = some (finish current []) := by
  cases current with
  | none => rfl
  | some p =>
    obtain ⟨front, rfl, hcol, -⟩ := h p rfl
    have hs : Text.slice? (front ++ p.chars.reverse ++ cs) (p.column - 1) (Text.byteLength (front ++ p.chars.reverse)) =
        some p.chars.reverse := by
      rw [hcol]
      exact Text.slice?_middle front p.chars.reverse cs
    have hp : p.column - 1 + 1 = p.column := by omega
    simp only [offset, cut?, finish, Option.map_some, hs, hp]

theorem ne_quote_of_mem (hc : c ≠ '"') : ∀ b ∈ String.utf8EncodeChar c, b ≠ 0x22 := by
  rintro b hb rfl
  exact hc (Char.toNat_inj.mp (Text.toNat_of_mem_utf8EncodeChar hb (by decide)))

theorem isSeparator_of_mem {b : UInt8} (hb : b ∈ String.utf8EncodeChar c) (h : separates b = true) :
    isSeparator c = true := by
  rw [isSeparator_iff]
  simp only [separates, decide_eq_true_eq] at h
  rcases h with rfl | rfl | rfl
  · exact .inl (Char.toNat_inj.mp (Text.toNat_of_mem_utf8EncodeChar hb (by decide)))
  · exact .inr (.inl (Char.toNat_inj.mp (Text.toNat_of_mem_utf8EncodeChar hb (by decide))))
  · exact .inr (.inr (Char.toNat_inj.mp (Text.toNat_of_mem_utf8EncodeChar hb (by decide))))

theorem utf8EncodeChar_of_isSeparator (h : isSeparator c = true) :
    ∃ b, String.utf8EncodeChar c = [b] ∧ b ≠ 0x22 ∧ separates b = true := by
  rcases isSeparator_iff.mp h with rfl | rfl | rfl
  · exact ⟨0x20, by decide⟩
  · exact ⟨0x09, by decide⟩
  · exact ⟨0x0d, by decide⟩

/-- Bytes that neither part words nor open or close quotes go to the word before them. -/
theorem cutFrom?_run {run : List UInt8} (hr : run ≠ []) (hq : ∀ b ∈ run, b ≠ 0x22)
    (hs : ∀ b ∈ run, separates b = true → quote.isSome = true) :
    cutFrom? line i start quote (run ++ bs) = cutFrom? line (i + run.length) (some (start.getD i)) quote bs := by
  induction run generalizing i start with
  | nil => exact (hr rfl).elim
  | cons b run ih =>
    rw [List.forall_mem_cons] at hq hs
    rw [List.cons_append, cutFrom?, if_neg hq.1, if_neg (not_separates hs.1), List.length_cons]
    cases run with
    | nil => rfl
    | cons b' run =>
      rw [ih (List.cons_ne_nil _ _) hq.2 hs.2, Nat.add_assoc, Nat.add_comm 1]
      rfl

theorem cutFrom?_separator (h : isSeparator c = true) :
    cutFrom? line i start none (String.utf8EncodeChar c ++ bs) = (cut? line start i).bind fun word =>
      (cutFrom? line (i + c.utf8Size) none none bs).map (Except.map (word ++ ·)) := by
  obtain ⟨b, hb, hne, hsep⟩ := utf8EncodeChar_of_isSeparator h
  rw [hb, List.singleton_append, cutFrom?, if_neg hne, if_pos ⟨hsep, rfl⟩, utf8Size_of_isSeparator h]

theorem cutFrom?_extend (h : isSeparator c = true → quote.isSome = true) :
    cutFrom? line i start quote (String.utf8EncodeChar c ++ bs) =
      cutFrom? line (i + c.utf8Size) (some (start.getD i)) (quoteAfter c (i + 1) quote) bs := by
  by_cases hq : c = '"'
  · subst hq
    have hb : String.utf8EncodeChar '"' = [0x22] := by decide
    rw [hb, List.singleton_append, cutFrom?, if_pos rfl, quoteAfter, if_pos rfl]
    rfl
  · have hs : ∀ b ∈ String.utf8EncodeChar c, separates b = true → quote.isSome = true :=
      fun b hb hsep => h (isSeparator_of_mem hb hsep)
    rw [cutFrom?_run String.utf8EncodeChar_ne_nil (ne_quote_of_mem hq) hs, String.length_utf8EncodeChar, quoteAfter,
      if_neg hq]

/-- Reading the bytes and cutting at offsets finds the words that reading the characters gathers. -/
theorem cutFrom?_eq (h : ∀ p ∈ current, p.Ends done) (quote : Option Nat) (cs : List Char) :
    cutFrom? (done ++ cs) (Text.byteLength done) (offset current) quote (Text.bytes cs) =
      some (scanFrom (Text.byteLength done + 1) current quote cs) := by
  induction cs generalizing done current quote with
  | nil =>
    cases quote with
    | some opened => rfl
    | none =>
      have hc := cut?_offset h []
      simp only [Text.bytes, List.flatMap_nil, cutFrom?, hc]
      rfl
  | cons c cs ih =>
    have hlen : Text.byteLength done + c.utf8Size = Text.byteLength (done ++ [c]) :=
      (Text.byteLength_append done [c]).symm
    rw [Text.bytes_cons, List.append_cons]
    rcases separates_or_extends c quote.isSome with ⟨hc, hn⟩ | hc
    · rw [Option.isSome_eq_false_iff, Option.isNone_iff_eq_none] at hn
      subst hn
      have hrest := ih (Begun.ends_of_none (done ++ [c])) none
      rw [offset, Option.map_none] at hrest
      rw [cutFrom?_separator hc, scanFrom_separator hc, Nat.add_right_comm, hlen, List.append_assoc, cut?_offset h,
        Option.bind_some, ← List.append_assoc, hrest]
      cases scanFrom (Text.byteLength (done ++ [c]) + 1) none none cs with
      | error problem => rfl
      | ok later => cases current <;> rfl
    · rw [cutFrom?_extend hc, scanFrom_extend hc, Nat.add_right_comm, hlen, ← offset_extend current c]
      exact ih (Begun.ends_extend h c) _

/-- The words of a line, cut out of it at byte offsets. -/
def ofBytes? (line : List Char) : Option (Except Problem (List Token)) := cutFrom? line 0 none none (Text.bytes line)

theorem ofBytes?_eq (line : List Char) : ofBytes? line = some (scan line) :=
  cutFrom?_eq (Begun.ends_of_none []) none line

end Cuts

/-- A text with anything but blanks on it has words, unless it lacks a quote. -/
theorem scan_ne_nil {code : List Char} (h : Text.trim code ≠ []) : scan code ≠ .ok [] := by
  intro hs
  have hlast := List.getLast?_eq_some_getLast h
  rw [Text.getLast?_trim] at hlast
  obtain ⟨hcode, hvisible⟩ := List.mem_filter.mp (List.mem_of_getLast? hlast)
  generalize (Text.trim code).getLast h = c at hcode hvisible
  have hsep : isSeparator c = false := by
    rw [Bool.eq_false_iff]
    intro hsep
    rw [Text.isBlank_of_isSeparator hsep] at hvisible
    cases hvisible
  have hw : wordsFrom none false code = some [] := by
    rw [← texts_scan, hs]
    rfl
  -- The visible character would have to stand in one of the words.
  have hcount := count_wordsFrom hsep hw
  have hpos := List.count_pos_iff.mpr hcode
  simp only [List.flatMap_nil, List.count_nil, Option.getD_none, Nat.zero_add] at hcount
  omega

end Token

namespace Line

/-- The line without its comment, cut at the offset of the semicolon. -/
def code? (raw : List Char) : Option (List Char) :=
  match Text.find? ';' raw with
  | some offset => Text.slice? raw 0 offset
  | none => some raw

/-- Reads a line with byte offsets. There is no outcome if one of them stands inside of a character, if the line is
shorter than its margin or than its colon, or if it is not blank and has no first word. -/
def checked? (raw : List Char) : Option (Except Blame Line) := do
  let code ← code? raw
  let trimmed := Text.trim code
  if trimmed.isEmpty then return .ok .blank
  let margin ← Text.above? (Text.byteLength code) (Text.byteLength (Text.trimStart code))
  let column := margin + 1
  if trimmed.getLast? = some ':' then
    let stop ← Text.above? (Text.byteLength trimmed) 1
    let name := Text.trim (← Text.slice? trimmed 0 stop)
    if name.isEmpty then return .error ⟨column, .emptyLabel⟩
    return .ok (.label (String.ofList name) column)
  match ← Token.ofBytes? code with
  | .error (.unterminatedString opened) => return .error ⟨opened, .unterminatedString opened⟩
  | .error problem => return .error ⟨column, problem⟩
  | .ok tokens =>
    let head ← tokens[0]?
    match Opcode.ofMnemonic? head.text with
    | some op => return .ok (.instruction op head tokens.tail)
    | none => return .error ⟨head.column, .unknownInstruction head.text⟩

section Checked

variable {raw : List Char}

theorem code?_eq (raw : List Char) : code? raw = some (withoutComment raw) := by
  by_cases h : ';' ∈ raw
  · obtain ⟨front, back, rfl, hf⟩ := List.eq_append_cons_of_mem h
    have hw : withoutComment (front ++ ';' :: back) = front := by
      rw [withoutComment_of_not_mem hf]
      exact List.append_nil front
    simp only [code?, Text.find?_append hf, Text.slice?_front, hw]
  · simp only [code?, Text.find?_of_not_mem h, withoutComment_eq_self h]

theorem above?_trimStart (code : List Char) :
    Text.above? (Text.byteLength code) (Text.byteLength (Text.trimStart code)) =
      some (Text.byteLength (code.takeWhile Text.isBlank)) := by
  have hs : code.takeWhile Text.isBlank ++ Text.trimStart code = code := List.takeWhile_append_dropWhile
  have hl := Text.byteLength_append (code.takeWhile Text.isBlank) (Text.trimStart code)
  rw [hs, Nat.add_comm] at hl
  rw [hl, Text.above?_add]

/-- What a label says of itself stands at its first visible character. -/
theorem ofText_of_isLabel (h : isLabel raw = true) :
    ofText raw =
      if (Text.trim (body raw).dropLast).isEmpty then .error ⟨firstColumn (withoutComment raw), .emptyLabel⟩
      else .ok (.label (labelName raw) (firstColumn (withoutComment raw))) := by
  have hr : (Text.trim (withoutComment raw)).reverse = ':' :: (body raw).dropLast.reverse := by
    have hb := congrArg List.reverse (body_of_isLabel h)
    rw [List.reverse_append] at hb
    exact hb
  simp only [ofText, hr, List.reverse_reverse, labelName]

theorem checked?_of_isLabel (h : isLabel raw = true) : checked? raw = some (ofText raw) := by
  have hb : Text.trim (withoutComment raw) = (body raw).dropLast ++ [':'] := body_of_isLabel h
  have hne : ((body raw).dropLast ++ [':']).isEmpty = false := by simp
  have hstop : Text.above? (Text.byteLength ((body raw).dropLast ++ [':'])) 1 =
      some (Text.byteLength (body raw).dropLast) := by
    rw [Text.byteLength_append, Nat.add_comm]
    exact Text.above?_add 1 _
  rw [ofText_of_isLabel h]
  simp only [checked?, code?_eq, above?_trimStart, hb, hne, hstop, Text.slice?_front, List.getLast?_concat,
    Option.bind_eq_bind, Option.bind_some, Option.pure_def, Bool.false_eq_true, if_false, if_true]
  by_cases hn : (Text.trim (body raw).dropLast).isEmpty = true
  · rw [if_pos hn, if_pos hn]
    rfl
  · rw [if_neg hn, if_neg hn]
    rfl

theorem checked?_of_isInstruction (h : isInstruction raw = true) : checked? raw = some (ofText raw) := by
  obtain ⟨hb, hl⟩ : body raw ≠ [] ∧ (body raw).getLast? ≠ some ':' := by simpa [isInstruction, isLabel] using h
  unfold body at hb hl
  have hne : (Text.trim (withoutComment raw)).isEmpty = false := by simpa using hb
  rw [ofText_of_instruction h]
  simp only [checked?, code?_eq, above?_trimStart, Token.ofBytes?_eq, hne, hl, instructionOf,
    Option.bind_eq_bind, Option.bind_some, Option.pure_def, Bool.false_eq_true, if_false]
  cases hs : Token.scan (withoutComment raw) with
  | error problem => cases problem <;> rfl
  | ok tokens =>
    cases tokens with
    | nil => exact (Token.scan_ne_nil hb hs).elim
    | cons head operands =>
      simp only [List.getElem?_cons_zero, Option.bind_some, List.tail_cons]
      cases Opcode.ofMnemonic? head.text <;> rfl

/-- No offset and no index that reading a line takes is out of its range. -/
theorem checked?_eq (raw : List Char) : checked? raw = some (ofText raw) := by
  rcases kind_cases raw with hb | hl | hi
  · rw [ofText_of_blank hb]
    unfold body at hb
    simp [checked?, code?_eq, hb]
  · exact checked?_of_isLabel hl
  · exact checked?_of_isInstruction hi

/-- The words of a line that is an instruction are those that its text has, and the first of them names it. -/
theorem scan_of_ofText {op : Opcode} {head : Token} {operands : List Token}
    (h : ofText raw = .ok (.instruction op head operands)) :
    Token.scan (withoutComment raw) = .ok (head :: operands) ∧ Opcode.ofMnemonic? head.text = some op := by
  rcases kind_cases raw with hb | hl | hi
  · rw [ofText_of_blank hb] at h
    cases h
  · rw [ofText_of_isLabel hl] at h
    split at h <;> cases h
  · rw [ofText_of_instruction hi] at h
    obtain ⟨op, head, operands, he, hs, hw⟩ := spells_of_instructionOf h
    cases he
    exact ⟨hs, Opcode.ofMnemonic?_eq_some.mpr hw⟩

end Checked

end Line

end RegisterMachine
