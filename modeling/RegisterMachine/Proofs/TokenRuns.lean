import Mathlib.Algebra.Ring.Parity
import RegisterMachine.Proofs.CheckedOffsets

namespace RegisterMachine

namespace Text

section Slices

variable {cs front back text : List Char} {offset start stop : Nat}

theorem bytes_append (cs ds : List Char) : bytes (cs ++ ds) = bytes cs ++ bytes ds := List.flatMap_append

theorem length_bytes (cs : List Char) : (bytes cs).length = byteLength cs := by
  induction cs with
  | nil => rfl
  | cons c cs ih => rw [bytes_cons, List.length_append, String.length_utf8EncodeChar, ih, byteLength]

theorem append_of_splitAt? (h : splitAt? offset cs = some (front, back)) :
    cs = front ++ back ∧ offset = byteLength front := by
  induction cs generalizing offset front with
  | nil =>
    rw [splitAt?] at h
    split at h
    next h0 =>
      cases h
      exact ⟨rfl, h0⟩
    next => cases h
  | cons c cs ih =>
    rw [splitAt?] at h
    split at h
    next h0 =>
      cases h
      exact ⟨rfl, h0⟩
    next =>
      split at h
      next hc =>
        obtain ⟨⟨front', back'⟩, hs, he⟩ := Option.map_eq_some_iff.mp h
        cases he
        obtain ⟨rfl, hoff⟩ := ih hs
        refine ⟨rfl, ?_⟩
        rw [byteLength]
        omega
      next => cases h

theorem bytes_of_slice? (h : slice? cs start stop = some text) :
    bytes text = ((bytes cs).drop start).take (stop - start) := by
  obtain ⟨⟨front, back⟩, hstop, h⟩ := Option.bind_eq_some_iff.mp h
  obtain ⟨⟨before, text'⟩, hstart, rfl⟩ := Option.map_eq_some_iff.mp h
  obtain ⟨rfl, rfl⟩ := append_of_splitAt? hstop
  obtain ⟨rfl, rfl⟩ := append_of_splitAt? hstart
  have hlen : byteLength (before ++ text') - byteLength before = (bytes text').length := by
    rw [byteLength_append, length_bytes]
    omega
  rw [bytes_append, bytes_append, hlen, ← length_bytes before, List.append_assoc, List.drop_left, List.take_left]

end Slices

end Text

/-- The offsets from one on and up to another. -/
structure Span where
  start : Nat
  stop : Nat
  deriving DecidableEq, Repr

namespace Token

/-- A byte is quoted if an odd number of quotes stands before it. -/
def Quoted (bs : List UInt8) (i : Nat) : Prop := Odd ((bs.take i).count 0x22)

/-- A separator parts words unless it is quoted. -/
def Parts (bs : List UInt8) (i : Nat) : Prop := ∃ b, bs[i]? = some b ∧ separates b = true ∧ ¬ Quoted bs i

/-- The offset of the last quote. -/
def LastQuoteAt (bs : List UInt8) (i : Nat) : Prop := bs[i]? = some 0x22 ∧ ∀ j, i < j → bs[j]? ≠ some 0x22

/-- A run of bytes that nothing parts and that cannot be made longer at either end. -/
structure MaximalRun (bs : List UInt8) (run : Span) : Prop where
  nonempty : run.start < run.stop
  within : run.stop ≤ bs.length
  unparted : ∀ i, run.start ≤ i → i < run.stop → ¬ Parts bs i
  opens : run.start = 0 ∨ Parts bs (run.start - 1)
  closes : run.stop = bs.length ∨ Parts bs run.stop

/-- A word is made of the bytes of a run, and its column tells where the run starts. -/
def Fills (bs : List UInt8) (token : Token) (run : Span) : Prop :=
  token.column = run.start + 1 ∧
    Text.bytes token.text.toList = (bs.drop run.start).take (run.stop - run.start)

/-- The words fill exactly the maximal runs from an offset on, in their order, and leave out only bytes that part. -/
structure FillRuns (bs : List UInt8) (low : Nat) (tokens : List Token) (runs : List Span) : Prop where
  fills : List.Forall₂ (Fills bs) tokens runs
  ordered : runs.Pairwise fun a b => a.stop < b.start
  maximal : ∀ run, run ∈ runs ↔ MaximalRun bs run ∧ low ≤ run.start
  covers : ∀ i, low ≤ i → i < bs.length → ¬ Parts bs i → ∃ run ∈ runs, run.start ≤ i ∧ i < run.stop

/-- The run that has been begun: nothing parts it so far, and it could not have started earlier. -/
structure Pending (bs : List UInt8) (i : Nat) (start : Option Nat) : Prop where
  begun : ∀ s ∈ start, s < i
  unparted : ∀ j, start.getD i ≤ j → j < i → ¬ Parts bs j
  opens : start.getD i = 0 ∨ Parts bs (start.getD i - 1)

section Runs

variable {bs : List UInt8} {i : Nat} {b : UInt8} {start : Option Nat} {run : Span} {line : List Char}

theorem Parts.lt_length (h : Parts bs i) : i < bs.length := by
  obtain ⟨b, hb, -⟩ := h
  exact (List.getElem?_eq_some_iff.mp hb).1

theorem parts_append_cons (done rest : List UInt8) (b : UInt8) :
    Parts (done ++ b :: rest) done.length ↔ separates b = true ∧ Even (done.count 0x22) := by
  simp [Parts, Quoted]

theorem Pending.extend (hp : Pending bs i start) (hi : ¬ Parts bs i) : Pending bs (i + 1) (some (start.getD i)) := by
  have hle : start.getD i ≤ i := by
    cases start with
    | none => exact Nat.le_refl i
    | some s => exact Nat.le_of_lt (hp.begun s rfl)
  refine ⟨?_, ?_, hp.opens⟩
  · intro s hs
    cases hs
    omega
  · intro j hj hlt
    rcases Nat.lt_succ_iff_lt_or_eq.mp hlt with hlt | rfl
    · exact hp.unparted j hj hlt
    · exact hi

theorem pending_after (hi : Parts bs i) : Pending bs (i + 1) none := by
  refine ⟨nofun, ?_, .inr hi⟩
  intro j hj hlt
  rw [Option.getD_none] at hj
  omega

/-- A maximal run that has been begun before the end of a word is that word, and any other lies behind it. -/
theorem run_of_ended (hp : Pending bs i start) (hi : i = bs.length ∨ Parts bs i) (hm : MaximalRun bs run)
    (hlow : start.getD i ≤ run.start) : (start = some run.start ∧ run.stop = i) ∨ i < run.start := by
  have hlen : i ≤ bs.length := by
    rcases hi with rfl | hi
    · exact Nat.le_refl _
    · exact Nat.le_of_lt hi.lt_length
  have hne := hm.nonempty
  have hin := hm.within
  by_cases hbehind : i < run.start
  · exact .inr hbehind
  -- The run does not go beyond the end of the word,
  have hstop : run.stop ≤ i := by
    by_contra hlt
    rcases hi with hi | hi
    · omega
    · exact hm.unparted i (by omega) (by omega) hi
  -- it does not end before it,
  have hreach : ¬ run.stop < i := by
    intro hlt
    rcases hm.closes with hc | hc
    · omega
    · exact hp.unparted run.stop (by omega) hlt hc
  -- and it starts where the word does.
  have hstart : ¬ start.getD i < run.start := by
    intro hlt
    rcases hm.opens with ho | ho
    · omega
    · exact hp.unparted (run.start - 1) (by omega) (by omega) ho
  refine .inl ⟨?_, by omega⟩
  cases start with
  | none =>
    rw [Option.getD_none] at hlow
    omega
  | some s =>
    rw [Option.getD_some] at hlow hstart
    have hs : s = run.start := by omega
    rw [hs]

theorem Pending.maximal {s : Nat} (hp : Pending bs i (some s)) (hi : i = bs.length ∨ Parts bs i) :
    MaximalRun bs ⟨s, i⟩ where
  nonempty := hp.begun s rfl
  within := by
    rcases hi with rfl | hi
    · exact Nat.le_refl _
    · exact Nat.le_of_lt hi.lt_length
  unparted := hp.unparted
  opens := hp.opens
  closes := hi

theorem fills_of_cut? {s : Nat} {word : List Token} (h : cut? line (some s) i = some word) :
    List.Forall₂ (Fills (Text.bytes line)) word [⟨s, i⟩] := by
  obtain ⟨text, ht, rfl⟩ := Option.map_eq_some_iff.mp h
  refine .cons ⟨rfl, ?_⟩ .nil
  rw [String.toList_ofList]
  exact Text.bytes_of_slice? ht

/-- A word that has come to its end goes in front of those that fill the later runs. -/
theorem FillRuns.ended {word tokens : List Token} {runs : List Span} (hp : Pending (Text.bytes line) i start)
    (hi : i = (Text.bytes line).length ∨ Parts (Text.bytes line) i) (hc : cut? line start i = some word)
    (hl : FillRuns (Text.bytes line) (i + 1) tokens runs) :
    ∃ runs', FillRuns (Text.bytes line) (start.getD i) (word ++ tokens) runs' := by
  cases start with
  | none =>
    cases hc
    refine ⟨runs, hl.fills, hl.ordered, ?_, ?_⟩
    · intro run
      rw [hl.maximal, Option.getD_none]
      constructor
      · rintro ⟨hm, hlow⟩
        exact ⟨hm, by omega⟩
      · rintro ⟨hm, hlow⟩
        rcases run_of_ended hp hi hm hlow with ⟨hs, -⟩ | hlt
        · cases hs
        · exact ⟨hm, hlt⟩
    · intro j hj hlt hn
      rw [Option.getD_none] at hj
      rcases hi with hi | hi
      · omega
      · have hne : j ≠ i := by
          rintro rfl
          exact hn hi
        exact hl.covers j (by omega) hlt hn
  | some s =>
    have hw := fills_of_cut? hc
    have hs := hp.begun s rfl
    refine ⟨⟨s, i⟩ :: runs, List.rel_append hw hl.fills, ?_, ?_, ?_⟩
    · rw [List.pairwise_cons]
      exact ⟨fun run hrun => ((hl.maximal run).mp hrun).2, hl.ordered⟩
    · intro run
      rw [List.mem_cons, hl.maximal, Option.getD_some]
      constructor
      · rintro (rfl | ⟨hm, hlow⟩)
        · exact ⟨hp.maximal hi, Nat.le_refl s⟩
        · exact ⟨hm, by omega⟩
      · rintro ⟨hm, hlow⟩
        rcases run_of_ended hp hi hm hlow with ⟨hstart, hstop⟩ | hlt
        · cases hstart
          exact .inl (by rw [← hstop])
        · exact .inr ⟨hm, hlt⟩
    · intro j hj hlt hn
      rw [Option.getD_some] at hj
      by_cases hji : j < i
      · exact ⟨⟨s, i⟩, List.mem_cons_self, hj, hji⟩
      · rcases hi with hi | hi
        · omega
        · have hne : j ≠ i := by
            rintro rfl
            exact hn hi
          obtain ⟨run, hrun, hr⟩ := hl.covers j (by omega) hlt hn
          exact ⟨run, List.mem_cons_of_mem _ hrun, hr⟩

theorem fillRuns_nil (bs : List UInt8) : FillRuns bs (bs.length + 1) [] [] where
  fills := .nil
  ordered := .nil
  maximal run := by
    constructor
    · intro h
      cases h
    · rintro ⟨hm, hlow⟩
      have hne := hm.nonempty
      have hin := hm.within
      omega
  covers j hj hlt := by omega

end Runs

/-- What the quotes that have been read leave open: nothing after an even number of them, else the last one. -/
def LeavesOpen (done : List UInt8) : Option Nat → Prop
  | none => Even (done.count 0x22)
  | some opened => Odd (done.count 0x22) ∧ ∃ i, opened = i + 1 ∧ LastQuoteAt done i

/-- What reading a line from an offset on should give: words that fill the runs, or the last quote of an odd number. -/
def Finds (bs : List UInt8) (low : Nat) : Except Problem (List Token) → Prop
  | .ok tokens => Even (bs.count 0x22) ∧ ∃ runs, FillRuns bs low tokens runs
  | .error problem => Odd (bs.count 0x22) ∧ ∃ i, problem = .unterminatedString (i + 1) ∧ LastQuoteAt bs i

section Loop

variable {line : List Char} {done rest : List UInt8} {b : UInt8} {start quote : Option Nat}
  {found : Except Problem (List Token)}

theorem LeavesOpen.even_iff (h : LeavesOpen done quote) : Even (done.count 0x22) ↔ quote.isNone = true := by
  cases quote with
  | none => simpa [LeavesOpen] using h
  | some opened => simpa using h.1

theorem lastQuoteAt_concat (done : List UInt8) : LastQuoteAt (done ++ [0x22]) done.length := by
  refine ⟨List.getElem?_concat_length, fun j hj => ?_⟩
  rw [List.getElem?_eq_none (by rw [List.length_append, List.length_singleton]; omega)]
  exact nofun

theorem LastQuoteAt.concat {i : Nat} (h : LastQuoteAt done i) (hb : b ≠ 0x22) : LastQuoteAt (done ++ [b]) i := by
  obtain ⟨hi, hlast⟩ := h
  refine ⟨List.getElem?_append_left (List.getElem?_eq_some_iff.mp hi).1 ▸ hi, fun j hj => ?_⟩
  rw [List.getElem?_append]
  split
  next => exact hlast j hj
  next =>
    intro hget
    have hm := List.mem_of_getElem? hget
    exact hb (List.mem_singleton.mp hm).symm

theorem LeavesOpen.afterQuote (h : LeavesOpen done quote) :
    LeavesOpen (done ++ [0x22]) (if quote.isSome then none else some (done.length + 1)) := by
  have hcount : (done ++ [0x22]).count 0x22 = done.count 0x22 + 1 := by simp
  cases quote with
  | none => exact ⟨by rw [hcount]; exact h.add_one, done.length, rfl, lastQuoteAt_concat done⟩
  | some opened =>
    change Even _
    rw [hcount]
    exact h.1.add_one

theorem LeavesOpen.afterOther (h : LeavesOpen done quote) (hb : b ≠ 0x22) : LeavesOpen (done ++ [b]) quote := by
  have hcount : (done ++ [b]).count 0x22 = done.count 0x22 := by simp [hb]
  cases quote with
  | none =>
    change Even _
    rw [hcount]
    exact h
  | some opened =>
    obtain ⟨hodd, i, ho, hi⟩ := h
    exact ⟨by rw [hcount]; exact hodd, i, ho, hi.concat hb⟩

/-- The loop over the bytes finds what it should. Its three pieces of state are tied to the bytes that have been read:
the run that has been begun, and by parity the quote that is open. -/
theorem finds_of_cutFrom? (hl : Text.bytes line = done ++ rest) (hp : Pending (Text.bytes line) done.length start)
    (hq : LeavesOpen done quote) (h : cutFrom? line done.length start quote rest = some found) :
    Finds (Text.bytes line) (start.getD done.length) found := by
  induction rest generalizing done start quote found with
  | nil =>
    rw [List.append_nil] at hl
    cases quote with
    | some opened =>
      cases h
      obtain ⟨hodd, i, rfl, hlast⟩ := hq
      rw [hl]
      exact ⟨hodd, i, rfl, hlast⟩
    | none =>
      obtain ⟨word, hw, rfl⟩ := Option.map_eq_some_iff.mp h
      have hend : done.length = (Text.bytes line).length := by rw [hl]
      have hnil := fillRuns_nil (Text.bytes line)
      rw [← hend] at hnil
      obtain ⟨runs, hr⟩ := FillRuns.ended hp (.inl hend) hw hnil
      rw [List.append_nil] at hr
      exact ⟨by rw [hl]; exact hq, runs, hr⟩
  | cons b rest ih =>
    have hnext : Text.bytes line = (done ++ [b]) ++ rest := by rw [hl, List.append_assoc]; rfl
    have hlen : (done ++ [b]).length = done.length + 1 := List.length_append
    have hparts : Parts (Text.bytes line) done.length ↔ separates b = true ∧ quote.isNone = true := by
      rw [hl, parts_append_cons, hq.even_iff]
    rw [cutFrom?] at h
    by_cases hb : b = 0x22
    · -- A quote never parts; it is in the run, and the parity changes.
      subst hb
      rw [if_pos rfl] at h
      have hpend := hp.extend fun hpart => by cases (hparts.mp hpart).1
      rw [← hlen] at h hpend
      have hf := ih hnext hpend (by rw [hlen]; exact hq.afterQuote) h
      rwa [Option.getD_some] at hf
    · rw [if_neg hb] at h
      by_cases hs : separates b = true ∧ quote.isNone = true
      · -- Here a word ends, if one was begun, and no run is left pending.
        rw [if_pos hs] at h
        obtain ⟨word, hw, h⟩ := Option.bind_eq_some_iff.mp h
        obtain ⟨later, hlater, rfl⟩ := Option.map_eq_some_iff.mp h
        have hpart := hparts.mpr hs
        have hpend := pending_after hpart
        have hopen : LeavesOpen (done ++ [b]) none := by
          rw [Option.isNone_iff_eq_none] at hs
          exact hs.2 ▸ hq.afterOther hb
        rw [← hlen] at hlater hpend
        have hf := ih hnext hpend hopen hlater
        cases later with
        | error problem => exact hf
        | ok tokens =>
          obtain ⟨heven, runs, hr⟩ := hf
          rw [Option.getD_none, hlen] at hr
          exact ⟨heven, FillRuns.ended hp (.inr hpart) hw hr⟩
      · rw [if_neg hs] at h
        have hpend := hp.extend fun hpart => hs (hparts.mp hpart)
        rw [← hlen] at h hpend
        have hf := ih hnext hpend (hq.afterOther hb) h
        rwa [Option.getD_some] at hf

theorem finds_scan (line : List Char) : Finds (Text.bytes line) 0 (scan line) := by
  have hp : Pending (Text.bytes line) ([] : List UInt8).length none := ⟨nofun, nofun, .inl rfl⟩
  have hq : LeavesOpen [] none := Even.zero
  exact finds_of_cutFrom? rfl hp hq (ofBytes?_eq line)

end Loop

/-- The words of a line are exactly the maximal runs of its bytes that no unquoted separator parts, in their order and
each with the place where it starts. A byte stands in none of them exactly if it is such a separator. There are no
words exactly if the number of the quotes is odd, and then the last quote is the one that is missed. Cutting the words
out of the bytes never cuts a character. -/
theorem words_fill_maximal_runs (line : List Char) :
    ofBytes? line = some (scan line) ∧
    (Odd ((Text.bytes line).count 0x22) ↔
      ∃ i, LastQuoteAt (Text.bytes line) i ∧ scan line = .error (.unterminatedString (i + 1))) ∧
    (Even ((Text.bytes line).count 0x22) ↔ ∃ tokens runs, scan line = .ok tokens ∧
      List.Forall₂ (Fills (Text.bytes line)) tokens runs ∧
      (runs.Pairwise fun a b => a.stop < b.start) ∧
      (∀ run, run ∈ runs ↔ MaximalRun (Text.bytes line) run) ∧
      ∀ i, (∃ run ∈ runs, run.start ≤ i ∧ i < run.stop) ↔
        i < (Text.bytes line).length ∧ ¬ Parts (Text.bytes line) i) := by
  have hf := finds_scan line
  refine ⟨ofBytes?_eq line, ?_, ?_⟩
  · constructor
    · intro hodd
      cases hs : scan line with
      | ok tokens =>
        rw [hs] at hf
        exact (Nat.not_even_iff_odd.mpr hodd hf.1).elim
      | error problem =>
        rw [hs] at hf
        obtain ⟨-, i, rfl, hlast⟩ := hf
        exact ⟨i, hlast, rfl⟩
    · rintro ⟨i, -, hs⟩
      rw [hs] at hf
      exact hf.1
  · constructor
    · intro heven
      cases hs : scan line with
      | error problem =>
        rw [hs] at hf
        exact (Nat.not_odd_iff_even.mpr heven hf.1).elim
      | ok tokens =>
        rw [hs] at hf
        obtain ⟨-, runs, hr⟩ := hf
        refine ⟨tokens, runs, rfl, hr.fills, hr.ordered, fun run => by simp [hr.maximal], fun i => ?_⟩
        constructor
        · rintro ⟨run, hrun, hle, hlt⟩
          have hm := ((hr.maximal run).mp hrun).1
          exact ⟨Nat.lt_of_lt_of_le hlt hm.within, hm.unparted i hle hlt⟩
        · rintro ⟨hlt, hn⟩
          exact hr.covers i (Nat.zero_le i) hlt hn
    · rintro ⟨tokens, -, hs, -⟩
      rw [hs] at hf
      exact hf.1

/-- A quote may open and close inside of a word, and what it quotes parts nothing. -/
example : scan " é\"b  c\"d\tR1".toList = .ok [⟨"é\"b  c\"d", 2⟩, ⟨"R1", 12⟩] := by
  decide +kernel

end Token

end RegisterMachine
