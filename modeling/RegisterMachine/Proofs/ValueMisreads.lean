import RegisterMachine.Memory
import RegisterMachine.Proofs.ValueFormat

namespace RegisterMachine

/-- The number of bytes that follow the tag in every value of a kind: its content, or of a string its length. -/
def Kind.fixedWidth : Kind → Nat
  | byte => 1
  | int => 4
  | long => 8
  | double => 8
  | string => 1
  | boolean => 1

/-- The errors of a decoder that ran out of bytes. -/
def DecodeError.isShortage : DecodeError → Bool
  | unexpectedEnd => true
  | truncated .. => true
  | _ => false

namespace Codec

/-- How bytes fail to be read as a value: they end before it, in its fixed part or in the text of a string,
or what is there is wrong. -/
inductive Misread : List UInt8 → DecodeError → Prop
  | empty : Misread [] .unexpectedEnd
  | short {kind : Kind} {content : List UInt8} : content.length < kind.fixedWidth →
      Misread (kind.tag :: content) .unexpectedEnd
  | cut {length : UInt8} {text : List UInt8} : text.length < length.toNat →
      Misread (Kind.string.tag :: length :: text) (.truncated length.toNat text.length)
  | wrong {b : List UInt8} {e : DecodeError} : e.isShortage = false → Misread b e

theorem word_decode_eq_error {α : Type} {width : Nat} {toNat : α → Nat} {ofNat : Nat → α} {b rest : List UInt8}
    {e : DecodeError} (h : (word width toNat ofNat).decode b = .error e rest) :
    e = .unexpectedEnd ∧ b.length < width := by
  by_cases hb : b.length < width
  · rw [word_decode_of_short hb] at h
    cases h
    exact ⟨rfl, hb⟩
  · change EStateM.bind (Decoder.take width) _ b = _ at h
    simp only [EStateM.bind, Decoder.take, splitExactly_eq, if_pos (Nat.le_of_not_lt hb)] at h
    cases h

theorem bool_decode_cons (b : UInt8) (content : List UInt8) :
    bool.decode (b :: content) =
      if b = 0 then .ok false content else if b = 1 then .ok true content else .error .invalidValue content := by
  by_cases h0 : b = 0
  · subst h0
    rfl
  · by_cases h1 : b = 1
    · subst h1
      rfl
    · rw [if_neg h0, if_neg h1]
      unfold bool
      refine bind_eq_error.mpr (.inr ⟨b, content, rfl, ?_⟩)
      split
      next => exact (h0 rfl).elim
      next => exact (h1 rfl).elim
      next => rfl

/-- The bytes of a value that are all there, and what is wrong with them. -/
inductive Spoiled : List UInt8 → DecodeError → Prop
  | tag {tag : UInt8} {content : List UInt8} : Kind.ofTag? tag = none → Spoiled (tag :: content) (.unknownTag tag)
  | boolean {b : UInt8} {content : List UInt8} : b ≠ 0 → b ≠ 1 →
      Spoiled (Kind.boolean.tag :: b :: content) .invalidValue
  | text {length : UInt8} {content : List UInt8} : length.toNat ≤ content.length →
      ofUtf8? (content.take length.toNat) = none → Spoiled (Kind.string.tag :: length :: content) .invalidUtf8

theorem Spoiled.isShortage_eq {b : List UInt8} {e : DecodeError} (h : Spoiled b e) : e.isShortage = false := by
  cases h <;> rfl

theorem payload_eq_error {kind : Kind} {content rest : List UInt8} {e : DecodeError}
    (h : payload kind content = .error e rest) :
    (e.isShortage = true ∧ Misread (kind.tag :: content) e) ∨ Spoiled (kind.tag :: content) e := by
  cases kind with
  | byte =>
    obtain ⟨rfl, hl⟩ := word_decode_eq_error (map_eq_error.mp h)
    exact .inl ⟨rfl, .short hl⟩
  | int =>
    obtain ⟨rfl, hl⟩ := word_decode_eq_error (map_eq_error.mp h)
    exact .inl ⟨rfl, .short hl⟩
  | long =>
    obtain ⟨rfl, hl⟩ := word_decode_eq_error (map_eq_error.mp h)
    exact .inl ⟨rfl, .short hl⟩
  | double =>
    obtain ⟨rfl, hl⟩ := word_decode_eq_error (map_eq_error.mp (map_eq_error.mp h))
    exact .inl ⟨rfl, .short hl⟩
  | string =>
    have hs := map_eq_error.mp h
    cases content with
    | nil =>
      cases hs
      exact .inl ⟨rfl, .short (by decide)⟩
    | cons length text =>
      rw [string_decode_cons] at hs
      split at hs
      next hl => cases hs; exact .inl ⟨rfl, .cut hl⟩
      next hl =>
        split at hs <;> cases hs
        next hn => exact .inr (.text (Nat.le_of_not_lt hl) hn)
  | boolean =>
    have hb := map_eq_error.mp h
    cases content with
    | nil =>
      cases hb
      exact .inl ⟨rfl, .short (by decide)⟩
    | cons b text =>
      rw [bool_decode_cons] at hb
      split at hb
      next => cases hb
      next h0 =>
        split at hb <;> cases hb
        next h1 => exact .inr (.boolean h0 h1)

/-- A value is not read because there are too few bytes for it, or because those that are there are wrong. -/
theorem value_decode_eq_error {b rest : List UInt8} {e : DecodeError} (h : value.decode b = .error e rest) :
    (e.isShortage = true ∧ Misread b e) ∨ Spoiled b e := by
  cases b with
  | nil =>
    cases h
    exact .inl ⟨rfl, .empty⟩
  | cons tag content =>
    rw [value_decode_cons] at h
    cases hk : Kind.ofTag? tag with
    | none =>
      rw [hk] at h
      cases h
      exact .inr (.tag hk)
    | some kind =>
      rw [hk] at h
      rw [Kind.eq_tag_of_ofTag? hk]
      exact payload_eq_error h

theorem misread_of_decode {b rest : List UInt8} {e : DecodeError} (h : value.decode b = .error e rest) :
    Misread b e := by
  rcases value_decode_eq_error h with ⟨-, hm⟩ | hs
  · exact hm
  · exact .wrong hs.isShortage_eq

theorem spoiled_of_decode {b rest : List UInt8} {e : DecodeError} (h : value.decode b = .error e rest)
    (he : e.isShortage = false) : Spoiled b e := by
  rcases value_decode_eq_error h with ⟨ht, -⟩ | hs
  · rw [he] at ht
    cases ht
  · exact hs

theorem Spoiled.append {b : List UInt8} {e : DecodeError} (h : Spoiled b e) (more : List UInt8) :
    Spoiled (b ++ more) e := by
  cases h with
  | tag hk => exact .tag hk
  | boolean h0 h1 => exact .boolean h0 h1
  | @text length content hl hn =>
    have hl' : length.toNat ≤ (content ++ more).length := by
      rw [List.length_append]
      omega
    have hn' : ofUtf8? ((content ++ more).take length.toNat) = none := by
      rw [List.take_append_of_le_length hl, hn]
    exact .text hl' hn'

theorem Spoiled.decode_eq {b : List UInt8} {e : DecodeError} (h : Spoiled b e) :
    ∃ rest, value.decode b = .error e rest := by
  cases h with
  | @tag tag content hk =>
    rw [value_decode_cons, hk]
    exact ⟨content, rfl⟩
  | @boolean b content h0 h1 =>
    have hb : bool.decode (b :: content) = .error .invalidValue content := by
      rw [bool_decode_cons, if_neg h0, if_neg h1]
    rw [value_decode_cons]
    exact ⟨content, map_eq_error.mpr hb⟩
  | @text length content hl hn =>
    have hs : string.decode (length :: content) = .error .invalidUtf8 (content.drop length.toNat) := by
      rw [string_decode_cons, if_neg (Nat.not_lt.mpr hl), hn]
    rw [value_decode_cons]
    exact ⟨_, map_eq_error.mpr hs⟩

/-- What is wrong with the bytes of a value is wrong whatever follows them. -/
theorem decode_append_of_wrong {b rest : List UInt8} {e : DecodeError} (h : value.decode b = .error e rest)
    (he : e.isShortage = false) (more : List UInt8) : ∃ rest', value.decode (b ++ more) = .error e rest' :=
  ((spoiled_of_decode h he).append more).decode_eq

end Codec

namespace Memory

theorem length_window (m : Memory) (address count : Nat) :
    (m.window address count).length = min count (m.capacity - address) := by
  simp only [window, List.rightpad, List.length_append, List.length_take, List.length_drop, List.length_replicate]
  omega

/-- How many bytes a value claims to take: one by an unknown tag, else its tag and its content. A string of which
only the tag is there claims its length and no text. -/
inductive Claims : List UInt8 → Nat → Prop
  | unknown {tag : UInt8} {content : List UInt8} : Kind.ofTag? tag = none → Claims (tag :: content) 1
  | fixed {kind : Kind} {content : List UInt8} : kind ≠ .string → Claims (kind.tag :: content) (1 + kind.fixedWidth)
  | lone : Claims [Kind.string.tag] 2
  | text {length : UInt8} {content : List UInt8} :
      Claims (Kind.string.tag :: length :: content) (2 + length.toNat)

section Widths

variable {tag : UInt8} {content stored : List UInt8} {width : Nat} {e : DecodeError}

theorem claimedWidth_of_unknown (h : Kind.ofTag? tag = none) : claimedWidth tag content = 1 := by
  simp only [claimedWidth, h]

theorem claimedWidth_of_fixed {kind : Kind} (h : kind ≠ .string) :
    claimedWidth kind.tag content = 1 + kind.fixedWidth := by
  cases kind with
  | string => exact (h rfl).elim
  | _ => rfl

theorem claimedWidth_of_text {length : UInt8} :
    claimedWidth Kind.string.tag (length :: content) = 2 + length.toNat := by
  change 1 + (1 + length.toNat) = _
  omega

theorem claims_claimedWidth (tag : UInt8) (content : List UInt8) :
    Claims (tag :: content) (claimedWidth tag content) := by
  cases hk : Kind.ofTag? tag with
  | none =>
    rw [claimedWidth_of_unknown hk]
    exact .unknown hk
  | some kind =>
    obtain rfl := Kind.eq_tag_of_ofTag? hk
    by_cases hs : kind = .string
    · subst hs
      cases content with
      | nil => exact .lone
      | cons length content =>
        rw [claimedWidth_of_text]
        exact .text
    · rw [claimedWidth_of_fixed hs]
      exact .fixed hs

theorem Claims.eq_claimedWidth (h : Claims (tag :: content) width) : width = claimedWidth tag content := by
  cases h with
  | unknown hk => exact (claimedWidth_of_unknown hk).symm
  | fixed hs => exact (claimedWidth_of_fixed hs).symm
  | lone => rfl
  | text => exact claimedWidth_of_text.symm

theorem Claims.unique {other : Nat} (h : Claims stored width) (h' : Claims stored other) : width = other := by
  cases stored with
  | nil => cases h
  | cons tag content => exact h.eq_claimedWidth.trans h'.eq_claimedWidth.symm

theorem Claims.le_widest (h : Claims stored width) : width ≤ widest := by
  cases h with
  | unknown hk => decide
  | @fixed kind content hs => cases kind <;> decide
  | lone => decide
  | @text length content =>
    have hl := length.toNat_lt
    change 2 + length.toNat ≤ 257
    omega

/-- Bytes that end too early for a value end before the bytes that it claims. -/
theorem Claims.length_lt (h : Claims stored width) (hm : Codec.Misread stored e) (he : e.isShortage = true) :
    stored.length < width := by
  cases hm with
  | empty => cases h
  | @short kind content hc =>
    have hw : kind.fixedWidth < claimedWidth kind.tag content := by
      by_cases hs : kind = .string
      · subst hs
        change 1 < 1 + (1 + (content.getD 0 0).toNat)
        omega
      · rw [claimedWidth_of_fixed hs]
        omega
    rw [h.eq_claimedWidth, List.length_cons]
    omega
  | @cut length text ht =>
    rw [h.eq_claimedWidth, claimedWidth_of_text, List.length_cons, List.length_cons]
    omega
  | wrong hw =>
    rw [hw] at he
    cases he

end Widths

section Load

variable {m : Memory} {address : Nat} {rest : List UInt8}

theorem exists_window (ha : address < m.capacity) : ∃ tag content, m.window address widest = tag :: content := by
  have hl := m.length_window address widest
  have hwide : widest = 257 := rfl
  exact List.exists_cons_of_length_pos (by omega)

theorem load_of_outside (ha : m.capacity ≤ address) :
    m.load address = .error (.addressOutOfRange address 1 m.capacity) := by
  have hl := m.length_window address widest
  have hw : m.window address widest = [] := List.eq_nil_of_length_eq_zero (by omega)
  unfold load
  rw [hw]

theorem load_of_decode {v : Value} (ha : address < m.capacity)
    (hd : Codec.value.decode (m.window address widest) = .ok v rest) : m.load address = .ok v := by
  obtain ⟨tag, content, hw⟩ := exists_window ha
  rw [hw] at hd
  unfold load
  rw [hw]
  simp only [hd]

/-- A value that the end of the memory cuts short claims bytes behind that end. -/
theorem load_of_shortage {e : DecodeError} (ha : address < m.capacity)
    (hd : Codec.value.decode (m.window address widest) = .error e rest) (he : e.isShortage = true) :
    ∃ width, Claims (m.window address widest) width ∧ m.capacity < address + width ∧
      m.load address = .error (.addressOutOfRange address width m.capacity) := by
  obtain ⟨tag, content, hw⟩ := exists_window ha
  have hl := m.length_window address widest
  rw [hw] at hd hl
  have hc := claims_claimedWidth tag content
  have hle := hc.le_widest
  have hlt := hc.length_lt (Codec.misread_of_decode hd) he
  rw [hw]
  -- the window is wide enough for what is claimed, so it ends where the memory does
  refine ⟨claimedWidth tag content, hc, by omega, ?_⟩
  unfold load
  rw [hw]
  simp only [hd]
  cases e with
  | unexpectedEnd => rfl
  | truncated expected remaining => rfl
  | _ => cases he

theorem load_of_wrong {e : DecodeError} (ha : address < m.capacity)
    (hd : Codec.value.decode (m.window address widest) = .error e rest) (he : e.isShortage = false) :
    m.load address = .error (Fault.ofDecodeError address e) := by
  obtain ⟨tag, content, hw⟩ := exists_window ha
  rw [hw] at hd
  unfold load
  rw [hw]
  simp only [hd]
  cases e with
  | unexpectedEnd => cases he
  | truncated expected remaining => cases he
  | _ => rfl

/-- What reading comes to, by what the decoder makes of the bytes from the address on. -/
theorem load_cases (ha : address < m.capacity) :
    (∃ v rest, Codec.value.decode (m.window address widest) = .ok v rest ∧ m.load address = .ok v) ∨
    (∃ e rest width, Codec.value.decode (m.window address widest) = .error e rest ∧ e.isShortage = true ∧
      Claims (m.window address widest) width ∧ m.capacity < address + width ∧
      m.load address = .error (.addressOutOfRange address width m.capacity)) ∨
    ∃ e rest, Codec.value.decode (m.window address widest) = .error e rest ∧ e.isShortage = false ∧
      m.load address = .error (Fault.ofDecodeError address e) := by
  cases hd : Codec.value.decode (m.window address widest) with
  | ok v rest => exact .inl ⟨v, rest, rfl, load_of_decode ha hd⟩
  | error e rest =>
    cases he : e.isShortage with
    | true =>
      obtain ⟨width, hc, hlt, hload⟩ := load_of_shortage ha hd he
      exact .inr (.inl ⟨e, rest, width, rfl, he, hc, hlt, hload⟩)
    | false => exact .inr (.inr ⟨e, rest, rfl, he, load_of_wrong ha hd he⟩)

/-- Reading memory fails at an address whose value does not fit, or over what is stored there. -/
theorem load_eq_error {cause : Fault} (h : m.load address = .error cause) :
    (∃ width, cause = .addressOutOfRange address width m.capacity ∧ m.capacity < address + width) ∨
      ∃ e, e.isShortage = false ∧ cause = Fault.ofDecodeError address e := by
  rcases Nat.lt_or_ge address m.capacity with ha | ha
  · rcases load_cases ha with ⟨v, rest, -, hload⟩ | ⟨e, rest, width, -, -, -, hlt, hload⟩ | ⟨e, rest, -, he, hload⟩
    · cases hload.symm.trans h
    · cases hload.symm.trans h
      exact .inl ⟨width, rfl, hlt⟩
    · cases hload.symm.trans h
      exact .inr ⟨e, he, rfl⟩
  · cases (load_of_outside ha).symm.trans h
    exact .inl ⟨1, rfl, by omega⟩

theorem load_eq_ok {v : Value} (h : m.load address = .ok v) :
    ∃ rest, Codec.value.decode (m.window address widest) = .ok v rest := by
  rcases Nat.lt_or_ge address m.capacity with ha | ha
  · rcases load_cases ha with ⟨v, rest, hd, hload⟩ | ⟨e, rest, width, -, -, -, -, hload⟩ | ⟨e, rest, -, -, hload⟩
    · cases hload.symm.trans h
      exact ⟨rest, hd⟩
    · cases hload.symm.trans h
    · cases hload.symm.trans h
  · cases (load_of_outside ha).symm.trans h

end Load

end Memory

end RegisterMachine
