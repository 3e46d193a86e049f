import RegisterMachine.Proofs.CodecLaws
import RegisterMachine.Text.Blank

namespace RegisterMachine

theorem utf8ByteSize_ofList (cs : List Char) : (String.ofList cs).utf8ByteSize = Text.byteLength cs := by
  rw [← String.size_toByteArray, String.toByteArray_ofList]
  induction cs with
  | nil => rfl
  | cons c cs ih =>
    rw [List.utf8Encode_cons, ByteArray.size_append, ih]
    simp [Text.byteLength, List.utf8Encode]

theorem byteLength_toList (s : String) : Text.byteLength s.toList = s.utf8ByteSize := by
  rw [← utf8ByteSize_ofList, String.ofList_toList]

theorem fittingChars_of_fits {room : Nat} {cs : List Char} (h : Text.byteLength cs ≤ room) :
    fittingChars room cs = cs := by
  induction cs generalizing room with
  | nil => rfl
  | cons c cs ih =>
    simp only [Text.byteLength] at h
    have hc : c.utf8Size ≤ room := by omega
    simp only [fittingChars, hc, if_true]
    rw [ih (by omega)]

namespace Codec

theorem length_utf8 (s : String) : (utf8 s).length = s.utf8ByteSize := rfl

/-- Bytes are read as exactly the text whose bytes they are. -/
theorem ofUtf8?_eq_some {bytes : List UInt8} {s : String} :
    ofUtf8? bytes = some s ↔ bytes = utf8 s := by
  unfold ofUtf8? String.fromUTF8? utf8
  constructor
  · intro h
    split at h
    next hv => cases h; rfl
    next => cases h
  · rintro rfl
    have hv : (ByteArray.mk s.toUTF8.data.toList.toArray).IsValidUTF8 := s.isValidUTF8
    rw [dif_pos hv]
    rfl

theorem stored_of_fits {s : String} (h : s.utf8ByteSize ≤ Value.maxStringLength) : stored s = s := by
  unfold stored
  rw [fittingChars_of_fits (by rwa [byteLength_toList]), String.ofList_toList]

theorem string_encode_of_fits {s : String} (h : s.utf8ByteSize ≤ Value.maxStringLength) :
    string.encode s = UInt8.ofNat s.utf8ByteSize :: utf8 s := by
  simp only [string, stored_of_fits h, length_utf8]

theorem string_decode_cons (length : UInt8) (input : List UInt8) :
    string.decode (length :: input) =
      if input.length < length.toNat then .error (.truncated length.toNat input.length) input
      else
        match ofUtf8? (input.take length.toNat) with
        | some s => .ok s (input.drop length.toNat)
        | none => .error .invalidUtf8 (input.drop length.toNat) := by
  by_cases h : input.length < length.toNat
  · change (if input.length < length.toNat then _ else _ : Decoder String) input = _
    rw [if_pos h, if_pos h]
    rfl
  · have ht : Decoder.take length.toNat input = .ok (input.take length.toNat) (input.drop length.toNat) :=
      take_eq_ok.mpr ⟨by simp only [List.length_take]; omega, by simp⟩
    change (if input.length < length.toNat then _ else _ : Decoder String) input = _
    rw [if_neg h, if_neg h]
    change EStateM.bind _ _ input = _
    simp only [EStateM.bind, ht]
    cases ofUtf8? (input.take length.toNat) <;> rfl

theorem string_lawful : string.Lawful fun s => s.utf8ByteSize ≤ Value.maxStringLength := by
  apply lawful_of_decode_eq_ok
  · intro b s rest
    cases b with
    | nil =>
      constructor
      · intro h
        cases h
      · rintro ⟨hs, h⟩
        cases h
    | cons length input =>
      rw [string_decode_cons]
      constructor
      · intro h
        split at h
        next => cases h
        next hl =>
          split at h
          next t ht =>
            cases h
            have hu := ofUtf8?_eq_some.mp ht
            have hb : s.utf8ByteSize = length.toNat := by
              rw [← length_utf8, ← hu, List.length_take]
              omega
            have hf : s.utf8ByteSize ≤ Value.maxStringLength := by
              have := length.toNat_lt
              rw [hb]
              unfold Value.maxStringLength
              omega
            refine ⟨hf, ?_⟩
            rw [string_encode_of_fits hf, hb, ← hu]
            simp
          next => cases h
      · rintro ⟨hs, h⟩
        rw [string_encode_of_fits hs, List.cons_append] at h
        obtain ⟨rfl, rfl⟩ := List.cons.inj h
        have hl : (UInt8.ofNat s.utf8ByteSize).toNat = (utf8 s).length := by
          unfold Value.maxStringLength at hs
          rw [length_utf8, UInt8.toNat_ofNat']
          omega
        rw [hl, if_neg (by simp), List.take_left, ofUtf8?_eq_some.mpr rfl, List.drop_left]
  · intro s hs
    rw [string_encode_of_fits hs, List.length_cons, length_utf8]
    simp only [string, stored_of_fits hs]
    omega

theorem bool_lawful : bool.Lawful fun _ => True := by
  apply lawful_of_decode_eq_ok
  · intro b x rest
    cases b with
    | nil =>
      constructor
      · intro h
        cases h
      · rintro ⟨-, h⟩
        cases h
    | cons c cs =>
      simp only [bool, bind_eq_ok, byte_eq_ok, List.cons.injEq]
      constructor
      · rintro ⟨a, u, ⟨rfl, rfl⟩, h⟩
        split at h <;> cases h <;> simp
      · rintro ⟨-, h⟩
        obtain ⟨rfl, rfl⟩ := List.cons.inj h
        cases x <;> exact ⟨_, _, ⟨rfl, rfl⟩, rfl⟩
  · intro x _
    rfl

theorem map_lawful {α β : Type} {codec : Codec α} {D : α → Prop} {wrap : α → β} {unwrap : β → α}
    (h : codec.Lawful D) (hw : ∀ x, wrap (unwrap x) = x) (hu : ∀ x, unwrap (wrap x) = x) :
    (codec.map wrap unwrap).Lawful fun x => D (unwrap x) := by
  apply lawful_of_decode_eq_ok
  · intro b x rest
    simp only [map, map_eq_ok, h.decode_eq_ok]
    constructor
    · rintro ⟨a, ⟨ha, rfl⟩, rfl⟩
      simp [hu, ha]
    · rintro ⟨hx, rfl⟩
      exact ⟨unwrap x, ⟨hx, rfl⟩, hw x⟩
  · intro x hx
    exact h.size_eq _ hx

theorem double_lawful : double.Lawful fun _ => True :=
  map_lawful uint64_lawful (fun _ => rfl) (fun _ => rfl)

/-- The content of a value is read back by the reader for its kind and by no other. -/
theorem payload_eq_ok {k : Kind} {input rest : List UInt8} {v : Value} :
    payload k input = .ok v rest ↔
      v.kind = k ∧ v.Fits ∧ k.tag :: input = value.encode v ++ rest := by
  cases k <;>
    simp only [payload, map_eq_ok, int8_lawful.decode_eq_ok, int32_lawful.decode_eq_ok,
      int64_lawful.decode_eq_ok, double_lawful.decode_eq_ok, string_lawful.decode_eq_ok,
      bool_lawful.decode_eq_ok, true_and] <;>
    cases v <;>
    simp [Value.kind, Value.Fits, value]

theorem value_decode_cons (tag : UInt8) (input : List UInt8) :
    value.decode (tag :: input) =
      match Kind.ofTag? tag with
      | some k => payload k input
      | none => .error (.unknownTag tag) input := by
  change (match Kind.ofTag? tag with | some k => payload k | none => throw _ : Decoder Value) input = _
  cases Kind.ofTag? tag <;> rfl

theorem value_lawful : value.Lawful Value.Fits := by
  apply lawful_of_decode_eq_ok
  · intro b v rest
    cases b with
    | nil =>
      constructor
      · intro h
        cases h
      · rintro ⟨hv, h⟩
        cases h
    | cons tag input =>
      rw [value_decode_cons]
      constructor
      · intro h
        cases hk : Kind.ofTag? tag with
        | none => simp [hk] at h
        | some k =>
          rw [hk] at h
          obtain ⟨-, hv, he⟩ := payload_eq_ok.mp h
          exact ⟨hv, by rw [Kind.eq_tag_of_ofTag? hk]; exact he⟩
      · rintro ⟨hv, h⟩
        have ht : tag = v.kind.tag := (List.cons.inj h).1
        rw [ht, Kind.ofTag?_tag]
        exact payload_eq_ok.mpr ⟨rfl, hv, ht ▸ h⟩
  · intro v hv
    cases v with
    | string s =>
      have hs := string_lawful.size_eq s hv
      simp only [value, List.length_cons]
      omega
    | _ => rfl

end Codec

end RegisterMachine
