import RegisterMachine.Proofs.NamedInstruction

namespace RegisterMachine

theorem except_map_eq_ok {ε α β : Type} {x : Except ε α} {f : α → β} {b : β} :
    x.map f = .ok b ↔ ∃ a, x = .ok a ∧ f a = b := by
  cases x <;> simp [Except.map]

theorem Opcode.ofMnemonic?_eq_some {name : String} {op : Opcode} :
    ofMnemonic? name = some op ↔ op.mnemonic = name ∧ op ≠ .mark := by
  constructor
  · intro h
    have hf := List.find?_some h
    simpa using hf
  · rintro ⟨rfl, ho⟩
    cases op with
    | arithmetic op => cases op <;> decide +kernel
    | branch test => cases test <;> decide +kernel
    | mark => exact (ho rfl).elim
    | _ => decide +kernel

namespace Line

/-- What counts of a line: its text without the comment and the blanks around it. -/
def body (raw : List Char) : List Char := Text.trim (withoutComment raw)

/-- A line that ends in a colon declares a label. -/
def isLabel (raw : List Char) : Bool := (body raw).getLast? == some ':'

/-- The name in front of the colon. -/
def labelName (raw : List Char) : String := String.ofList (Text.trim (body raw).dropLast)

/-- Every other line is an instruction, if there is anything on it. -/
def isInstruction (raw : List Char) : Bool := !(body raw).isEmpty && !isLabel raw

/-- The first word of the line is that of an instruction, and the others are its operands. Markers have no word. -/
def Spells (raw : List Char) (op : Opcode) (operands : List Token) : Prop :=
  ∃ head, Token.scan (withoutComment raw) = .ok (head :: operands) ∧ op.mnemonic = head.text ∧ op ≠ .mark

section Kinds

variable {raw : List Char}

theorem kind_cases (raw : List Char) : body raw = [] ∨ isLabel raw = true ∨ isInstruction raw = true := by
  by_cases hb : body raw = []
  · exact .inl hb
  · by_cases hl : isLabel raw = true
    · exact .inr (.inl hl)
    · refine .inr (.inr ?_)
      simp [isInstruction, hb, hl]

theorem isLabel_of_blank (h : body raw = []) : isLabel raw = false := by
  simp [isLabel, h]

theorem isLabel_of_isInstruction (h : isInstruction raw = true) : isLabel raw = false := by
  simp only [isInstruction, Bool.and_eq_true, Bool.not_eq_true'] at h
  exact h.2

/-- Blank lines and labels are not counted. -/
theorem countP_concat_of_blank (front : List (List Char)) (h : body raw = []) :
    (front ++ [raw]).countP isInstruction = front.countP isInstruction := by
  simp [isInstruction, h]

theorem countP_concat_of_isLabel (front : List (List Char)) (h : isLabel raw = true) :
    (front ++ [raw]).countP isInstruction = front.countP isInstruction := by
  simp [isInstruction, h]

theorem countP_concat_of_isInstruction (front : List (List Char)) (h : isInstruction raw = true) :
    (front ++ [raw]).countP isInstruction = front.countP isInstruction + 1 := by
  simp [h]

theorem body_of_isLabel (h : isLabel raw = true) : body raw = (body raw).dropLast ++ [':'] := by
  have hl : (body raw).getLast? = some ':' := by simpa [isLabel] using h
  exact (List.dropLast_append_getLast? ':' hl).symm

theorem ofText_of_blank (h : body raw = []) : ofText raw = .ok .blank := by
  unfold body at h
  simp only [ofText, h, List.reverse_nil]

theorem ofText_of_label (h : isLabel raw = true) :
    (labelName raw = "" ∧ ∃ blame, ofText raw = .error blame) ∨
      labelName raw ≠ "" ∧ ∃ column, ofText raw = .ok (.label (labelName raw) column) := by
  have hr : (Text.trim (withoutComment raw)).reverse = ':' :: (body raw).dropLast.reverse := by
    have hb := congrArg List.reverse (body_of_isLabel h)
    rw [List.reverse_append] at hb
    exact hb
  simp only [ofText, hr, List.reverse_reverse, labelName]
  cases hn : Text.trim (body raw).dropLast with
  | nil => exact .inl ⟨rfl, _, rfl⟩
  | cons c cs =>
    refine .inr ⟨?_, _, rfl⟩
    intro he
    have hl := congrArg String.toList he
    simp at hl

theorem ofText_of_instruction (h : isInstruction raw = true) : ofText raw = instructionOf (withoutComment raw) := by
  obtain ⟨hb, hl⟩ : body raw ≠ [] ∧ (body raw).getLast? ≠ some ':' := by simpa [isInstruction, isLabel] using h
  simp only [ofText]
  split
  next hr => exact (hb (List.reverse_eq_nil_iff.mp hr)).elim
  next rest hr =>
    refine (hl ?_).elim
    rw [← List.head?_reverse]
    exact congrArg List.head? hr
  next => rfl

theorem spells_of_instructionOf {code : List Char} {line : Line} (h : instructionOf code = .ok line) :
    ∃ op head operands, line = .instruction op head operands ∧ Token.scan code = .ok (head :: operands) ∧
      op.mnemonic = head.text ∧ op ≠ .mark := by
  unfold instructionOf at h
  split at h
  next => cases h
  next => cases h
  next => cases h
  next head operands hs =>
    split at h
    next op ho =>
      cases h
      exact ⟨op, head, operands, rfl, hs, Opcode.ofMnemonic?_eq_some.mp ho⟩
    next => cases h

theorem Spells.ofText_eq {op : Opcode} {operands : List Token} (hs : Spells raw op operands)
    (h : isInstruction raw = true) : ∃ head, ofText raw = .ok (.instruction op head operands) := by
  obtain ⟨head, ht, ho⟩ := hs
  refine ⟨head, ?_⟩
  rw [ofText_of_instruction h]
  simp only [instructionOf, ht, Opcode.ofMnemonic?_eq_some.mpr ho]

end Kinds

end Line

/-- The number of the location in front of a line: that of the instructions before it, as far as a byte holds it. -/
def locationAt (lines : List (List Char)) (k : Nat) : UInt8 :=
  UInt8.ofNat ((lines.take k).countP Line.isInstruction)

/-- A line declares a label of this name. -/
def Declares (lines : List (List Char)) (k : Nat) (name : String) : Prop :=
  ∃ raw, lines[k]? = some raw ∧ Line.isLabel raw = true ∧ Line.labelName raw = name

/-- No name is declared on two lines. -/
def DeclaredOnce (lines : List (List Char)) : Prop :=
  ∀ j k name, Declares lines j name → Declares lines k name → j = k

/-- The label of this name marks the location of this number. -/
def Denotes (lines : List (List Char)) (name : String) (id : UInt8) : Prop :=
  ∃ k, Declares lines k name ∧ id = locationAt lines k

/-- The labels of the lines, as a survey keeps them. -/
def Collected (lines : List (List Char)) (labels : Labels) : Prop :=
  ∀ name id, labels.lookup name = some id ↔ Denotes lines name id

section Labels

variable {front rest : List (List Char)} {raw : List Char} {labels : Labels} {name : String}

theorem declares_lt {lines : List (List Char)} {k : Nat} (h : Declares lines k name) : k < lines.length := by
  obtain ⟨raw, hk, -⟩ := h
  exact (List.getElem?_eq_some_iff.mp hk).1

theorem declares_append_left {k : Nat} (hk : k < front.length) :
    Declares (front ++ rest) k name ↔ Declares front k name := by
  unfold Declares
  rw [List.getElem?_append_left hk]

theorem declares_append_singleton {k : Nat} :
    Declares (front ++ [raw]) k name ↔
      Declares front k name ∨ k = front.length ∧ Line.isLabel raw = true ∧ Line.labelName raw = name := by
  constructor
  · intro h
    have hk := declares_lt h
    rw [List.length_append, List.length_singleton] at hk
    by_cases he : k = front.length
    · subst he
      obtain ⟨other, ho, hl⟩ := h
      rw [List.getElem?_concat_length] at ho
      cases ho
      exact .inr ⟨rfl, hl⟩
    · exact .inl ((declares_append_left (by omega)).mp h)
  · rintro (h | ⟨rfl, hl⟩)
    · exact (declares_append_left (declares_lt h)).mpr h
    · exact ⟨raw, List.getElem?_concat_length, hl⟩

theorem locationAt_append {k : Nat} (hk : k ≤ front.length) : locationAt (front ++ rest) k = locationAt front k := by
  rw [locationAt, List.take_append_of_le_length hk]
  rfl

theorem locationAt_length (front rest : List (List Char)) :
    locationAt (front ++ rest) front.length = UInt8.ofNat (front.countP Line.isInstruction) := by
  rw [locationAt, List.take_left]

theorem denotes_append_singleton {id : UInt8} :
    Denotes (front ++ [raw]) name id ↔
      Denotes front name id ∨ Line.isLabel raw = true ∧ Line.labelName raw = name ∧
        id = UInt8.ofNat (front.countP Line.isInstruction) := by
  constructor
  · rintro ⟨k, hd, rfl⟩
    rcases declares_append_singleton.mp hd with hd | ⟨rfl, hl, hn⟩
    · exact .inl ⟨k, hd, locationAt_append (Nat.le_of_lt (declares_lt hd))⟩
    · exact .inr ⟨hl, hn, locationAt_length front [raw]⟩
  · rintro (⟨k, hd, rfl⟩ | ⟨hl, hn, rfl⟩)
    · exact ⟨k, declares_append_singleton.mpr (.inl hd), (locationAt_append (Nat.le_of_lt (declares_lt hd))).symm⟩
    · exact ⟨front.length, declares_append_singleton.mpr (.inr ⟨rfl, hl, hn⟩), (locationAt_length front [raw]).symm⟩

theorem Collected.of_other (h : Collected front labels) (hl : Line.isLabel raw = false) :
    Collected (front ++ [raw]) labels := by
  intro name id
  rw [h name id, denotes_append_singleton]
  simp [hl]

theorem Collected.of_label (h : Collected front labels) (hl : Line.isLabel raw = true)
    (hn : labels.lookup (Line.labelName raw) = none) :
    Collected (front ++ [raw])
      ((Line.labelName raw, UInt8.ofNat (front.countP Line.isInstruction)) :: labels) := by
  intro name id
  rw [denotes_append_singleton, ← h name id, List.lookup_cons]
  by_cases he : name = Line.labelName raw
  · subst he
    simp [hl, hn, eq_comm]
  · have hb : (name == Line.labelName raw) = false := by simpa using he
    have hne : Line.labelName raw ≠ name := fun h => he h.symm
    simp [hb, hne]

theorem Collected.not_declared (h : Collected front labels) (hn : labels.lookup name = none) (k : Nat) :
    ¬ Declares front k name := by
  intro hd
  have hs := (h name _).mpr ⟨k, hd, rfl⟩
  rw [hn] at hs
  cases hs

/-- What is declared here for the first time has not been collected. -/
theorem Collected.lookup_eq_none (h : Collected front labels) (hd : DeclaredOnce (front ++ [raw] ++ rest))
    (hl : Line.isLabel raw = true) : labels.lookup (Line.labelName raw) = none := by
  by_contra hne
  obtain ⟨id, hid⟩ := Option.ne_none_iff_exists'.mp hne
  obtain ⟨k, hk, -⟩ := (h _ id).mp hid
  have hlt := declares_lt hk
  have hlen : (front ++ [raw]).length = front.length + 1 := by simp
  have hfirst : Declares (front ++ [raw] ++ rest) k (Line.labelName raw) :=
    (declares_append_left (by omega)).mpr (declares_append_singleton.mpr (.inl hk))
  have hsecond : Declares (front ++ [raw] ++ rest) front.length (Line.labelName raw) :=
    (declares_append_left (by omega)).mpr (declares_append_singleton.mpr (.inr ⟨rfl, hl, rfl⟩))
  have he := hd _ _ _ hfirst hsecond
  omega

theorem DeclaredOnce.of_other (h : DeclaredOnce front) (hl : Line.isLabel raw = false) :
    DeclaredOnce (front ++ [raw]) := by
  intro j k name hj hk
  have hj' : Declares front j name := by simpa [declares_append_singleton, hl] using hj
  have hk' : Declares front k name := by simpa [declares_append_singleton, hl] using hk
  exact h j k name hj' hk'

theorem DeclaredOnce.of_label (h : DeclaredOnce front) (hn : ∀ k, ¬ Declares front k (Line.labelName raw)) :
    DeclaredOnce (front ++ [raw]) := by
  intro j k name hj hk
  rcases declares_append_singleton.mp hj with hj | ⟨rfl, -, hnj⟩
  · rcases declares_append_singleton.mp hk with hk | ⟨rfl, -, hnk⟩
    · exact h j k name hj hk
    · subst hnk
      exact (hn j hj).elim
  · rcases declares_append_singleton.mp hk with hk | ⟨rfl, -, -⟩
    · subst hnj
      exact (hn k hk).elim
    · rfl

end Labels

namespace Survey

/-- The statements of lines from the `k`-th on. -/
inductive Covers (lines : List (List Char)) : Nat → List (List Char) → List Statement → Prop
  | nil (k : Nat) : Covers lines k [] []
  | blank {k : Nat} {raw : List Char} {rest : List (List Char)} {statements : List Statement} :
      Line.body raw = [] → Covers lines (k + 1) rest statements → Covers lines k (raw :: rest) statements
  | label {k : Nat} {raw : List Char} {rest : List (List Char)} {statements : List Statement} :
      Line.isLabel raw = true → Line.labelName raw ≠ "" → Covers lines (k + 1) rest statements →
      Covers lines k (raw :: rest) (.label (Line.labelName raw) (locationAt lines k) :: statements)
  | instruction {k : Nat} {raw : List Char} {rest : List (List Char)} {statements : List Statement} {op : Opcode}
      {operands : List Token} (number : Nat) (head : Token) :
      Line.isInstruction raw = true → Line.Spells raw op operands → Covers lines (k + 1) rest statements →
      Covers lines k (raw :: rest) (.instruction number op head operands :: statements)

section Follow

variable {front rest : List (List Char)} {raw : List Char} {labels : Labels} {count n : Nat} {survey : Survey}

theorem follow_blank (h : Line.body raw = []) (numbered : List (List Char × Nat)) :
    follow labels count ((raw, n) :: numbered) = follow labels count numbered := by
  rw [follow, Line.ofText_of_blank h]

theorem follow_label (h : Line.isLabel raw = true) (numbered : List (List Char × Nat)) :
    follow labels count ((raw, n) :: numbered) = .ok survey ↔
      Line.labelName raw ≠ "" ∧ labels.lookup (Line.labelName raw) = none ∧
        ∃ s, follow ((Line.labelName raw, UInt8.ofNat count) :: labels) count numbered = .ok s ∧
          s.cons (.label (Line.labelName raw) (UInt8.ofNat count)) = survey := by
  rw [follow]
  rcases Line.ofText_of_label h with ⟨hn, blame, ht⟩ | ⟨hn, column, ht⟩
  · simp [ht, hn]
  · rw [ht]
    cases hl : labels.lookup (Line.labelName raw) with
    | some id => simp [hl]
    | none => simp [hl, hn, except_map_eq_ok]

theorem follow_instruction (h : Line.isInstruction raw = true) (numbered : List (List Char × Nat)) :
    follow labels count ((raw, n) :: numbered) = .ok survey ↔
      ∃ op head operands s, Line.ofText raw = .ok (.instruction op head operands) ∧ Line.Spells raw op operands ∧
        follow labels (count + 1) numbered = .ok s ∧ s.cons (.instruction n op head operands) = survey := by
  rw [follow]
  cases ht : Line.ofText raw with
  | error blame => simp
  | ok line =>
    have ho : Line.instructionOf (Line.withoutComment raw) = .ok line := by rw [← ht, Line.ofText_of_instruction h]
    obtain ⟨op, head, operands, rfl, hs, hw⟩ := Line.spells_of_instructionOf ho
    rw [except_map_eq_ok]
    constructor
    · rintro ⟨s, hf, he⟩
      exact ⟨op, head, operands, s, rfl, ⟨head, hs, hw⟩, hf, he⟩
    · rintro ⟨op', head', operands', s, he, -, hf, hc⟩
      cases he
      exact ⟨s, hf, hc⟩

/-- A survey that succeeds has seen every line. The labels that it starts from are those of the lines before. -/
theorem covers_of_follow (hc : Collected front labels) (hd : DeclaredOnce front)
    (h : follow labels (front.countP Line.isInstruction) (rest.zipIdx n) = .ok survey) :
    Covers (front ++ rest) front.length rest survey.statements ∧ Collected (front ++ rest) survey.labels ∧
      DeclaredOnce (front ++ rest) := by
  -- One line after the other moves from `rest` to the end of `front`, and the labels keep pace with it.
  induction rest generalizing front labels n survey with
  | nil =>
    cases h
    rw [List.append_nil]
    exact ⟨.nil _, hc, hd⟩
  | cons raw rest ih =>
    have hnext : ∀ {labels n survey}, Collected (front ++ [raw]) labels → DeclaredOnce (front ++ [raw]) →
        follow labels ((front ++ [raw]).countP Line.isInstruction) (rest.zipIdx n) = .ok survey →
        Covers (front ++ raw :: rest) (front.length + 1) rest survey.statements ∧
          Collected (front ++ raw :: rest) survey.labels ∧ DeclaredOnce (front ++ raw :: rest) := by
      intro labels n survey hc hd h
      have hk := ih hc hd h
      rw [← List.append_cons, List.length_append] at hk
      exact hk
    rw [List.zipIdx_cons] at h
    rcases Line.kind_cases raw with hb | hl | hi
    · have hl := Line.isLabel_of_blank hb
      rw [follow_blank hb, ← Line.countP_concat_of_blank front hb] at h
      obtain ⟨hk, hrest⟩ := hnext (hc.of_other hl) (hd.of_other hl) h
      exact ⟨.blank hb hk, hrest⟩
    · obtain ⟨hn, hnone, s, hf, rfl⟩ := (follow_label hl _).mp h
      have hc' := hc.of_label hl hnone
      rw [← Line.countP_concat_of_isLabel front hl] at hc' hf
      obtain ⟨hk, hrest⟩ := hnext hc' (hd.of_label (hc.not_declared hnone)) hf
      refine ⟨?_, hrest⟩
      rw [← locationAt_length front (raw :: rest)]
      exact .label hl hn hk
    · have hl := Line.isLabel_of_isInstruction hi
      obtain ⟨op, head, operands, s, -, hs, hf, rfl⟩ := (follow_instruction hi _).mp h
      rw [← Line.countP_concat_of_isInstruction front hi] at hf
      obtain ⟨hk, hrest⟩ := hnext (hc.of_other hl) (hd.of_other hl) hf
      exact ⟨.instruction n head hi hs hk, hrest⟩

theorem exists_follow (hc : Collected front labels) (hd : DeclaredOnce (front ++ rest))
    (hn : ∀ raw ∈ rest, Line.isLabel raw = true → Line.labelName raw ≠ "")
    (hs : ∀ raw ∈ rest, Line.isInstruction raw = true → ∃ op operands, Line.Spells raw op operands) :
    ∃ survey, follow labels (front.countP Line.isInstruction) (rest.zipIdx n) = .ok survey := by
  induction rest generalizing front labels n with
  | nil => exact ⟨_, rfl⟩
  | cons raw rest ih =>
    rw [List.append_cons] at hd
    have hn' : ∀ other ∈ rest, Line.isLabel other = true → Line.labelName other ≠ "" :=
      fun other hm => hn other (List.mem_cons_of_mem _ hm)
    have hs' : ∀ other ∈ rest, Line.isInstruction other = true → ∃ op operands, Line.Spells other op operands :=
      fun other hm => hs other (List.mem_cons_of_mem _ hm)
    rw [List.zipIdx_cons]
    rcases Line.kind_cases raw with hb | hl | hi
    · have hl := Line.isLabel_of_blank hb
      have hcount := Line.countP_concat_of_blank front hb
      rw [follow_blank hb, ← hcount]
      exact ih (hc.of_other hl) hd hn' hs'
    · have hcount := Line.countP_concat_of_isLabel front hl
      have hnone := hc.lookup_eq_none hd hl
      have hc' := hc.of_label hl hnone
      rw [← hcount] at hc'
      obtain ⟨s, hf⟩ := ih hc' hd hn' hs'
      rw [hcount] at hf
      exact ⟨_, (follow_label hl _).mpr ⟨hn raw List.mem_cons_self hl, hnone, s, hf, rfl⟩⟩
    · have hl := Line.isLabel_of_isInstruction hi
      have hcount := Line.countP_concat_of_isInstruction front hi
      obtain ⟨op, operands, hsp⟩ := hs raw List.mem_cons_self hi
      obtain ⟨head, ht⟩ := hsp.ofText_eq hi
      obtain ⟨s, hf⟩ := ih (hc.of_other hl) hd hn' hs'
      rw [hcount] at hf
      exact ⟨_, (follow_instruction hi _).mpr ⟨op, head, operands, s, ht, hsp, hf, rfl⟩⟩

end Follow

end Survey

end RegisterMachine
