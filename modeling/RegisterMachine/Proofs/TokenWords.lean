import Mathlib.Algebra.Group.Nat.Even
import RegisterMachine.Assembly.Token

namespace RegisterMachine

namespace Token

/-- Puts a word that is over, given from its end, in front of the later ones. -/
def closed (current : Option (List Char)) (later : List String) : List String :=
  match current with
  | some chars => String.ofList chars.reverse :: later
  | none => later

/-- The words of a text, as far as no quote is left open, when `current` has been begun before it. Where the words
stand does not matter. -/
def wordsFrom (current : Option (List Char)) (quoted : Bool) : List Char → Option (List String)
  | [] => if quoted then none else some (closed current [])
  | c :: cs =>
    if c = '"' then wordsFrom (some (c :: current.getD [])) (!quoted) cs
    else if isSeparator c ∧ quoted = false then (wordsFrom none false cs).map (closed current)
    else wordsFrom (some (c :: current.getD [])) quoted cs

section Words

variable {current : Option (List Char)} {quoted : Bool} {c : Char} {cs : List Char}

theorem isSeparator_iff : isSeparator c = true ↔ c = ' ' ∨ c = '\t' ∨ c = '\r' := by
  simp [isSeparator]

theorem ne_quote_of_isSeparator (h : isSeparator c = true) : c ≠ '"' := by
  rcases isSeparator_iff.mp h with rfl | rfl | rfl <;> decide

theorem wordsFrom_separator (h : isSeparator c = true) :
    wordsFrom current false (c :: cs) = (wordsFrom none false cs).map (closed current) := by
  rw [wordsFrom, if_neg (ne_quote_of_isSeparator h), if_pos ⟨h, rfl⟩]

/-- What does not end a word goes to the end of it, and a quote opens or closes. -/
theorem wordsFrom_extend (h : isSeparator c = true → quoted = true) :
    wordsFrom current quoted (c :: cs) = wordsFrom (some (c :: current.getD [])) (quoted ^^ (c == '"')) cs := by
  by_cases hq : c = '"'
  · subst hq
    rw [wordsFrom, if_pos rfl, beq_self_eq_true, Bool.xor_true]
  · have hs : ¬ (isSeparator c = true ∧ quoted = false) := by
      rintro ⟨hc, rfl⟩
      cases h hc
    rw [wordsFrom, if_neg hq, if_neg hs, beq_false_of_ne hq, Bool.xor_false]

/-- A character ends the word before it, unless a quote is open, or goes to the end of it. -/
theorem separates_or_extends (c : Char) (quoted : Bool) :
    (isSeparator c = true ∧ quoted = false) ∨ (isSeparator c = true → quoted = true) := by
  cases quoted with
  | true => exact .inr fun _ => rfl
  | false =>
    by_cases h : isSeparator c = true
    · exact .inl ⟨h, rfl⟩
    · exact .inr fun hc => (h hc).elim

/-- The texts of the words that a scan finds, if it does not fail. -/
def texts (found : Except Problem (List Token)) : Option (List String) := found.toOption.map (List.map Token.text)

theorem texts_scanFrom (column : Nat) (current : Option Begun) (quote : Option Nat) (cs : List Char) :
    texts (scanFrom column current quote cs) = wordsFrom (current.map Begun.chars) quote.isSome cs := by
  induction cs generalizing column current quote with
  | nil =>
    unfold scanFrom wordsFrom
    cases quote <;> cases current <;> rfl
  | cons c cs ih =>
    have hextend : (some (Begun.extend c column current)).map Begun.chars =
        some (c :: (current.map Begun.chars).getD []) := by
      cases current <;> rfl
    unfold scanFrom wordsFrom
    by_cases hq : c = '"'
    · rw [if_pos hq, if_pos hq, ih, hextend]
      cases quote <;> rfl
    · rw [if_neg hq, if_neg hq]
      by_cases hs : isSeparator c = true ∧ quote.isNone = true
      · obtain ⟨hc, hn⟩ := hs
        cases quote with
        | some opened => cases hn
        | none =>
          have hrest : texts (scanFrom (column + 1) none none cs) = wordsFrom none false cs := ih (column + 1) none none
          rw [if_pos ⟨hc, rfl⟩, if_pos ⟨hc, rfl⟩, ← hrest]
          cases scanFrom (column + 1) none none cs with
          | ok later => cases current <;> rfl
          | error problem => rfl
      · have hs' : ¬ (isSeparator c = true ∧ quote.isSome = false) := by
          rintro ⟨hc, hn⟩
          exact hs ⟨hc, by simpa using hn⟩
        rw [if_neg hs, if_neg hs', ih, hextend]

/-- Columns do not matter to the words of a line. -/
theorem texts_scan (line : List Char) : texts (scan line) = wordsFrom none false line :=
  texts_scanFrom 1 none none line

end Words

section Gaps

variable {current : Option (List Char)} {quoted : Bool} {front gap pad back cs : List Char}

/-- Separators end the word before them, however many they are. -/
theorem wordsFrom_gap (hg : gap ≠ []) (hs : ∀ c ∈ gap, isSeparator c = true) :
    wordsFrom current false (gap ++ back) = (wordsFrom none false back).map (closed current) := by
  induction gap generalizing current with
  | nil => exact (hg rfl).elim
  | cons c gap ih =>
    rw [List.cons_append, wordsFrom_separator (hs c List.mem_cons_self)]
    cases gap with
    | nil => rfl
    | cons d gap =>
      rw [ih (by simp) fun x hx => hs x (List.mem_cons_of_mem c hx), Option.map_map]
      rfl

theorem wordsFrom_leading (hs : ∀ c ∈ pad, isSeparator c = true) :
    wordsFrom none false (pad ++ cs) = wordsFrom none false cs := by
  cases pad with
  | nil => rfl
  | cons c pad =>
    rw [wordsFrom_gap (by simp) hs]
    exact Option.map_id'

theorem wordsFrom_of_open_quote (h : '"' ∉ cs) : wordsFrom current true cs = none := by
  induction cs generalizing current with
  | nil => rfl
  | cons c cs ih =>
    rw [List.mem_cons, not_or] at h
    rw [wordsFrom_extend fun _ => rfl, beq_false_of_ne fun he => h.1 he.symm, Bool.xor_false]
    exact ih h.2

/-- Separators at the end change nothing, not even an open quote. -/
theorem wordsFrom_trailing (hs : ∀ c ∈ pad, isSeparator c = true) :
    wordsFrom current quoted (cs ++ pad) = wordsFrom current quoted cs := by
  induction cs generalizing current quoted with
  | nil =>
    cases quoted with
    | true => exact wordsFrom_of_open_quote fun h => ne_quote_of_isSeparator (hs _ h) rfl
    | false =>
      cases pad with
      | nil => rfl
      | cons c pad =>
        have hg : wordsFrom current false (c :: pad ++ []) = (wordsFrom none false []).map (closed current) :=
          wordsFrom_gap (by simp) hs
        rw [List.append_nil] at hg
        exact hg
  | cons c cs ih => simp only [List.cons_append, wordsFrom, ih]

/-- A gap that no open quote stands before may be any other. -/
theorem wordsFrom_replace {gap' : List Char} (hf : wordsFrom current quoted front ≠ none) (hg : gap ≠ [])
    (hg' : gap' ≠ []) (hs : ∀ c ∈ gap, isSeparator c = true) (hs' : ∀ c ∈ gap', isSeparator c = true) :
    wordsFrom current quoted (front ++ gap ++ back) = wordsFrom current quoted (front ++ gap' ++ back) := by
  induction front generalizing current quoted with
  | nil =>
    cases quoted with
    | true => exact (hf rfl).elim
    | false => rw [List.nil_append, List.nil_append, wordsFrom_gap hg hs, wordsFrom_gap hg' hs']
  | cons c front ih =>
    simp only [List.cons_append]
    rcases separates_or_extends c quoted with ⟨hc, rfl⟩ | hc
    · rw [wordsFrom_separator hc, Ne, Option.map_eq_none_iff] at hf
      rw [wordsFrom_separator hc, wordsFrom_separator hc, ih hf]
    · rw [wordsFrom_extend hc] at hf
      rw [wordsFrom_extend hc, wordsFrom_extend hc, ih hf]

end Gaps

section Letters

variable {current : Option (List Char)} {quoted : Bool} {c : Char} {chars cs : List Char} {words : List String}

/-- Only the number of the quotes decides whether a text has words. -/
theorem wordsFrom_eq_none : wordsFrom current quoted cs = none ↔ (quoted = true ↔ Even (cs.count '"')) := by
  induction cs generalizing current quoted with
  | nil => cases quoted <;> simp [wordsFrom]
  | cons d cs ih =>
    rcases separates_or_extends d quoted with ⟨hd, rfl⟩ | hd
    · rw [wordsFrom_separator hd, Option.map_eq_none_iff, ih, List.count_cons_of_ne (ne_quote_of_isSeparator hd)]
    · rw [wordsFrom_extend hd, ih]
      by_cases hq : d = '"'
      · rw [hq, List.count_cons_self, Nat.even_add_one]
        cases quoted <;> simp
      · rw [List.count_cons_of_ne hq, beq_false_of_ne hq, Bool.xor_false]

/-- Words keep every character that is no separator. -/
theorem count_wordsFrom (hc : isSeparator c = false) (h : wordsFrom current quoted cs = some words) :
    (words.flatMap String.toList).count c = (current.getD []).count c + cs.count c := by
  have hclosed : ∀ (current : Option (List Char)) (later : List String),
      ((closed current later).flatMap String.toList).count c =
        (current.getD []).count c + (later.flatMap String.toList).count c := by
    intro current later
    cases current with
    | none => exact (Nat.zero_add _).symm
    | some chars => simp [closed]
  induction cs generalizing current quoted words with
  | nil =>
    cases quoted with
    | true => cases h
    | false =>
      cases h
      rw [hclosed]
      rfl
  | cons d cs ih =>
    rcases separates_or_extends d quoted with ⟨hd, rfl⟩ | hd
    · rw [wordsFrom_separator hd] at h
      obtain ⟨later, hl, rfl⟩ := Option.map_eq_some_iff.mp h
      have hne : d ≠ c := by
        rintro rfl
        rw [hd] at hc
        cases hc
      rw [hclosed, ih hl, List.count_cons_of_ne hne, Option.getD_none, List.count_nil, Nat.zero_add]
    · rw [wordsFrom_extend hd] at h
      rw [ih h, Option.getD_some, List.count_cons, List.count_cons]
      omega

/-- The word that has been begun is the first one. -/
theorem head_of_wordsFrom (h : wordsFrom (some chars) quoted cs = some words) :
    ∃ more later, words = String.ofList (chars.reverse ++ more) :: later := by
  induction cs generalizing chars quoted words with
  | nil =>
    cases quoted with
    | true => cases h
    | false =>
      cases h
      exact ⟨[], [], by rw [List.append_nil]; rfl⟩
  | cons d cs ih =>
    rcases separates_or_extends d quoted with ⟨hd, rfl⟩ | hd
    · rw [wordsFrom_separator hd] at h
      obtain ⟨later, -, rfl⟩ := Option.map_eq_some_iff.mp h
      exact ⟨[], later, by rw [List.append_nil]; rfl⟩
    · rw [wordsFrom_extend hd] at h
      obtain ⟨more, later, rfl⟩ := ih h
      exact ⟨d :: more, later, by simp⟩

end Letters

end Token

end RegisterMachine
