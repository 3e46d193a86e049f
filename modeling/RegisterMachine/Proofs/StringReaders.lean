import RegisterMachine.CodeReader
import RegisterMachine.Proofs.ValueCodecLaws

namespace RegisterMachine

/-- The same complaint about one string from two readers, where the second stands one byte behind the first. -/
inductive Fault.OneBehind (p : Nat) : Fault → Fault → Prop
  | endOfStream : OneBehind p (.endOfStream p) (.endOfStream (p + 1))
  | truncatedStream (expected remaining : Nat) :
      OneBehind p (.truncatedStream p expected remaining) (.truncatedStream (p + 1) expected remaining)
  | malformedValue (cause : DecodeError) : OneBehind p (.malformedValue p cause) (.malformedValue (p + 1) cause)

namespace CodeReader

section Ahead

variable {r : CodeReader}

theorem string_of_ahead_nil (h : r.data.drop r.cursor = []) : string r = .error (.endOfStream r.cursor) r := by
  simp only [string, byte_of_ahead_nil h]

variable {length : UInt8} {content : List UInt8}

theorem drop_of_ahead (h : r.data.drop r.cursor = length :: content) : r.data.drop (r.cursor + 1) = content := by
  rw [← List.drop_drop, h]
  rfl

theorem length_of_ahead (h : r.data.drop r.cursor = length :: content) :
    r.data.length - (r.cursor + 1) = content.length := by
  rw [← List.length_drop, drop_of_ahead h]

theorem string_of_short (h : r.data.drop r.cursor = length :: content) (hs : content.length < length.toNat) :
    string r = .error (.truncatedStream r.cursor length.toNat content.length) r := by
  simp only [string, byte_of_ahead h, movedTo, CodeReader.length, length_of_ahead h, if_pos hs]

theorem string_of_text {s : String} (h : r.data.drop r.cursor = length :: content)
    (hl : length.toNat ≤ content.length) (hs : Codec.ofUtf8? (content.take length.toNat) = some s) :
    string r = .ok s (r.movedTo (r.cursor + 1 + length.toNat)) := by
  simp only [string, byte_of_ahead h, movedTo, CodeReader.length, length_of_ahead h, if_neg (Nat.not_lt.mpr hl),
    drop_of_ahead h, hs]

/-- A string that is no text has been passed over when that is found out. -/
theorem string_of_no_text (h : r.data.drop r.cursor = length :: content) (hl : length.toNat ≤ content.length)
    (hs : Codec.ofUtf8? (content.take length.toNat) = none) :
    string r = .error (.malformedValue r.cursor .invalidUtf8) (r.movedTo (r.cursor + 1 + length.toNat)) := by
  simp only [string, byte_of_ahead h, movedTo, CodeReader.length, length_of_ahead h, if_neg (Nat.not_lt.mpr hl),
    drop_of_ahead h, hs]

end Ahead

/-- What reading a string with its tag and reading it from behind the tag have in common. -/
inductive Concord (p : Nat) : EStateM.Result Fault CodeReader Value → EStateM.Result Fault CodeReader String → Prop
  | ok (s : String) (r : CodeReader) : Concord p (.ok (.string s) r) (.ok s r)
  | error {cause cause' : Fault} (r r' : CodeReader) : cause.OneBehind p cause' →
      Concord p (.error cause r) (.error cause' r')

section Tag

variable {r : CodeReader} {p : Nat}

theorem decode_of_tag (h : r.data[p]? = some Kind.string.tag) :
    Codec.value.decode (r.data.drop p) = (Value.string <$> Codec.string.decode) (r.data.drop (p + 1)) := by
  obtain ⟨hlt, he⟩ := List.getElem?_eq_some_iff.mp h
  rw [List.drop_eq_getElem_cons hlt, he, Codec.value_decode_cons, Kind.ofTag?_tag]
  rfl

theorem le_length_of_tag (h : r.data[p]? = some Kind.string.tag) : p ≤ r.data.length :=
  Nat.le_of_lt (List.getElem?_eq_some_iff.mp h).1

theorem value_of_string {s : String} {rest : List UInt8} (h : r.data[p]? = some Kind.string.tag)
    (hs : Codec.string.decode (r.data.drop (p + 1)) = .ok s rest) :
    value (r.movedTo p) = .ok (.string s) (r.movedTo (r.data.length - rest.length)) :=
  decode_of_ok (r := r.movedTo p) (le_length_of_tag h)
    ((decode_of_tag h).trans (map_eq_ok.mpr ⟨s, hs, rfl⟩))

theorem value_of_no_string {e : DecodeError} {rest : List UInt8} (h : r.data[p]? = some Kind.string.tag)
    (hs : Codec.string.decode (r.data.drop (p + 1)) = .error e rest) :
    value (r.movedTo p) = .error (Fault.ofDecodeError p e) (r.movedTo p) :=
  decode_of_error (r := r.movedTo p) (le_length_of_tag h) ((decode_of_tag h).trans (map_eq_error.mpr hs))

theorem concord_of_tag (h : r.data[p]? = some Kind.string.tag) :
    Concord p (value (r.movedTo p)) (string (r.movedTo (p + 1))) := by
  cases hr : r.data.drop (p + 1) with
  | nil =>
    have hd : Codec.string.decode (r.data.drop (p + 1)) = .error .unexpectedEnd [] := by
      rw [hr]
      rfl
    rw [value_of_no_string h hd, string_of_ahead_nil hr]
    exact .error _ _ .endOfStream
  | cons length content =>
    have hd := Codec.string_decode_cons length content
    rw [← hr] at hd
    rcases Nat.lt_or_ge content.length length.toNat with hlt | hge
    · rw [if_pos hlt] at hd
      rw [value_of_no_string h hd, string_of_short hr hlt]
      exact .error _ _ (.truncatedStream _ _)
    · rw [if_neg (Nat.not_lt.mpr hge)] at hd
      cases ht : Codec.ofUtf8? (content.take length.toNat) with
      | some s =>
        rw [ht] at hd
        have hl : r.data.length - (p + 1) = content.length + 1 := by
          rw [← List.length_drop, hr, List.length_cons]
        have hend : r.data.length - (content.drop length.toNat).length = p + 1 + 1 + length.toNat := by
          rw [List.length_drop]
          omega
        rw [value_of_string h hd, string_of_text hr hge ht, hend]
        exact .ok s _
      | none =>
        rw [ht] at hd
        rw [value_of_no_string h hd, string_of_no_text hr hge ht]
        exact .error _ _ (.malformedValue _)

end Tag

/-- The two readers of strings agree. Where the tag of a string stands, reading a value there and reading a string
from the next byte on give the same text and leave the same reader, or both fail with the same complaint, each at
its own position. -/
theorem string_readers_agree {r : CodeReader} {p : Nat} (h : r.data[p]? = some Kind.string.tag) :
    (∀ s r', value (r.movedTo p) = .ok (.string s) r' ↔ string (r.movedTo (p + 1)) = .ok s r') ∧
    (∀ v r', value (r.movedTo p) = .ok v r' → ∃ s, v = .string s) ∧
    ((∃ cause r', value (r.movedTo p) = .error cause r') ↔
      ∃ cause r', string (r.movedTo (p + 1)) = .error cause r') ∧
    ∀ cause r' cause' r'', value (r.movedTo p) = .error cause r' →
      string (r.movedTo (p + 1)) = .error cause' r'' → cause.OneBehind p cause' := by
  have hc := concord_of_tag h
  generalize value (r.movedTo p) = tagged at hc
  generalize string (r.movedTo (p + 1)) = plain at hc
  cases hc with
  | ok s r' =>
    refine ⟨by simp, ?_, by simp, ?_⟩
    · rintro v q he
      cases he
      exact ⟨s, rfl⟩
    · rintro cause q cause' q' he
      cases he
  | error r' r'' ho =>
    refine ⟨by simp, ?_, by simp, ?_⟩
    · rintro v q he
      cases he
    · rintro cause q cause' q' he he'
      cases he
      cases he'
      exact ho

/-- Both readers read the first string, and both find the second one cut short. -/
theorem string_readers_agree_on_greeting :
    let r : CodeReader := ⟨[5, 2, 0x68, 0x69, 5, 9, 0x61], 16, 0⟩
    (value (r.movedTo 0) = .ok (.string "hi") (r.movedTo 4) ∧ string (r.movedTo 1) = .ok "hi" (r.movedTo 4)) ∧
      value (r.movedTo 4) = .error (.truncatedStream 4 9 1) (r.movedTo 4) ∧
        ∃ cause r', string (r.movedTo 5) = .error cause r' ∧ Fault.OneBehind 4 (.truncatedStream 4 9 1) cause := by
  intro r
  obtain ⟨hread, -, -, -⟩ := string_readers_agree (r := r) (p := 0) rfl
  obtain ⟨-, -, hfail, hsame⟩ := string_readers_agree (r := r) (p := 4) rfl
  have ht : Codec.ofUtf8? [0x68, 0x69] = some "hi" := Codec.ofUtf8?_eq_some.mpr (by decide +kernel)
  have ha : (r.movedTo 1).data.drop (r.movedTo 1).cursor = 2 :: [0x68, 0x69, 5, 9, 0x61] := rfl
  have hs : string (r.movedTo 1) = .ok "hi" (r.movedTo 4) := string_of_text ha (by decide) ht
  have hv : value (r.movedTo 4) = .error (.truncatedStream 4 9 1) (r.movedTo 4) := rfl
  obtain ⟨cause, r', hc⟩ := hfail.mp ⟨_, _, hv⟩
  exact ⟨⟨(hread "hi" (r.movedTo 4)).mpr hs, hs⟩, hv, cause, r', hc, hsame _ _ _ _ hv hc⟩

end CodeReader

end RegisterMachine
