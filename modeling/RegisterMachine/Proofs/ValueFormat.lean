import RegisterMachine.Proofs.ValueCodecLaws

namespace RegisterMachine

theorem take_of_short {n : Nat} {input : List UInt8} (h : input.length < n) :
    Decoder.take n input = .error .unexpectedEnd input := by
  have hn : ¬ n ≤ input.length := by omega
  simp only [Decoder.take, splitExactly_eq, hn, if_false]

theorem length_lt_of_strict_prefix {α : Type} {front whole : List α} (h : front <+: whole) (hne : front ≠ whole) :
    front.length < whole.length := by
  have hle := h.length_le
  have hl : front.length ≠ whole.length := fun he => hne (h.eq_of_length he)
  omega

namespace Codec

theorem word_decode_of_short {α : Type} {width : Nat} {toNat : α → Nat} {ofNat : Nat → α} {input : List UInt8}
    (h : input.length < width) : (word width toNat ofNat).decode input = .error .unexpectedEnd input := by
  have ht := take_of_short h
  change EStateM.bind (Decoder.take width) _ input = _
  simp only [EStateM.bind, ht]

/-- A string that is cut short lacks its length, or it has its length and lacks some of its text. -/
theorem string_decode_of_short {s : String} (hs : s.utf8ByteSize ≤ Value.maxStringLength) {front : List UInt8}
    (hp : front <+: string.encode s) (hl : front.length < (string.encode s).length) :
    (front = [] ∧ string.decode front = .error .unexpectedEnd []) ∨
      ∃ payload, front = UInt8.ofNat s.utf8ByteSize :: payload ∧ payload.length < s.utf8ByteSize ∧
        string.decode front = .error (.truncated s.utf8ByteSize payload.length) payload := by
  rw [string_encode_of_fits hs] at hp hl
  cases front with
  | nil => exact .inl ⟨rfl, rfl⟩
  | cons length payload =>
    right
    obtain ⟨rfl, -⟩ := List.cons_prefix_cons.mp hp
    have hb : (UInt8.ofNat s.utf8ByteSize).toNat = s.utf8ByteSize := by
      unfold Value.maxStringLength at hs
      rw [UInt8.toNat_ofNat']
      omega
    have hlt : payload.length < s.utf8ByteSize := by
      rw [List.length_cons, List.length_cons, length_utf8] at hl
      omega
    refine ⟨payload, rfl, hlt, ?_⟩
    rw [string_decode_cons, hb, if_pos hlt]

theorem size_string (s : String) : string.size s = (string.encode s).length := by
  have hl := length_utf8 (stored s)
  simp only [string, List.length_cons, hl]
  omega

theorem size_value (v : Value) : value.size v = (value.encode v).length := by
  cases v with
  | string s =>
    have hs := size_string s
    simp only [value, List.length_cons, hs]
    omega
  | _ => rfl

/-- How reading a value that has been cut short fails. -/
inductive CutShort (v : Value) (front : List UInt8) : Prop
  | unexpectedEnd (left : List UInt8) : value.decode front = .error .unexpectedEnd left →
      (∀ s, v = .string s → front.length < 2) → CutShort v front
  | truncated (s : String) (left : List UInt8) : v = .string s → 2 ≤ front.length →
      front.length - 2 < s.utf8ByteSize →
      value.decode front = .error (.truncated s.utf8ByteSize (front.length - 2)) left → CutShort v front

theorem cutShort_of_payload {v : Value} {content : List UInt8} {left : List UInt8}
    (hd : payload v.kind content = .error .unexpectedEnd left)
    (hs : ∀ s, v = .string s → content = []) : CutShort v (v.kind.tag :: content) := by
  refine .unexpectedEnd left ?_ ?_
  · rw [value_decode_cons, Kind.ofTag?_tag]
    exact hd
  · intro s he
    simp [hs s he]

theorem cutShort_of_prefix {v : Value} (hv : v.Fits) {front : List UInt8} (hp : front <+: value.encode v)
    (hne : front ≠ value.encode v) : CutShort v front := by
  have hl := length_lt_of_strict_prefix hp hne
  cases front with
  | nil => exact .unexpectedEnd [] rfl (by simp)
  | cons tag content =>
    obtain ⟨rfl, hc⟩ := List.cons_prefix_cons.mp hp
    have hlt := Nat.lt_of_succ_lt_succ hl
    cases v with
    | byte v =>
      have hd : int8.decode content = .error .unexpectedEnd content := word_decode_of_short hlt
      exact cutShort_of_payload (map_eq_error.mpr hd) (by simp)
    | int v =>
      have hd : int32.decode content = .error .unexpectedEnd content := word_decode_of_short hlt
      exact cutShort_of_payload (map_eq_error.mpr hd) (by simp)
    | long v =>
      have hd : int64.decode content = .error .unexpectedEnd content := word_decode_of_short hlt
      exact cutShort_of_payload (map_eq_error.mpr hd) (by simp)
    | double v =>
      have hd : uint64.decode content = .error .unexpectedEnd content := word_decode_of_short hlt
      exact cutShort_of_payload (map_eq_error.mpr (map_eq_error.mpr hd)) (by simp)
    | bool b =>
      have he : content = [] := List.length_eq_zero_iff.mp (Nat.lt_one_iff.mp hlt)
      subst he
      exact cutShort_of_payload (v := .bool b) rfl (by simp)
    | string s =>
      rcases string_decode_of_short hv hc hlt with ⟨rfl, hd⟩ | ⟨payload, rfl, hb, hd⟩
      · exact cutShort_of_payload (v := .string s) (map_eq_error.mpr hd) (by simp)
      · refine .truncated s payload rfl (by simp) hb ?_
        rw [value_decode_cons, Kind.ofTag?_tag]
        exact map_eq_error.mpr hd

/-- A value is read back from what was written of it, whatever follows, and nothing else is read as a value.
What has been cut short is never taken for a value. -/
theorem value_format_unambiguous :
    (∀ v : Value, v.Fits → ∀ rest, value.decode (value.encode v ++ rest) = .ok v rest) ∧
    (∀ b v rest, value.decode b = .ok v rest → v.Fits ∧ b = value.encode v ++ rest) ∧
    (∀ v : Value, v.Fits → ∀ front, front <+: value.encode v → front ≠ value.encode v → CutShort v front) ∧
    (∀ v, value.size v = (value.encode v).length) :=
  ⟨value_lawful.decode_encode, value_lawful.encode_of_decode, fun _ hv _ hp hne => cutShort_of_prefix hv hp hne,
    size_value⟩

/-- Cut in the middle of its second character, a string is reported with the bytes that are left of it. -/
theorem value_format_unambiguous_of_accent :
    Value.Fits (.string "né") ∧ value.encode (.string "né") = [5, 3, 0x6e, 0xc3, 0xa9] ∧
      value.decode [5, 3, 0x6e, 0xc3, 0xa9, 7] = .ok (.string "né") [7] ∧
      ∃ left, value.decode [5, 3, 0x6e, 0xc3] = .error (.truncated 3 2) left := by
  obtain ⟨hread, -, hcut, -⟩ := value_format_unambiguous
  have hf : Value.Fits (.string "né") := by decide
  have he : value.encode (.string "né") = [5, 3, 0x6e, 0xc3, 0xa9] := by decide +kernel
  have hr := hread _ hf [7]
  have hc := hcut _ hf [5, 3, 0x6e, 0xc3] (he ▸ ⟨[0xa9], rfl⟩) (he ▸ by decide)
  rw [he] at hr
  refine ⟨hf, he, hr, ?_⟩
  cases hc with
  | unexpectedEnd left _ hs =>
    have hlt := hs "né" rfl
    simp at hlt
  | truncated s left hs _ _ hd =>
    cases hs
    exact ⟨left, hd⟩

end Codec

end RegisterMachine
