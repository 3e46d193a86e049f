import RegisterMachine.Proofs.TokenRuns
import RegisterMachine.Proofs.ValueFormat

namespace RegisterMachine

namespace Text

/-- The longest part of a text, from its start and in whole characters, that has at most so many bytes. -/
structure LongestFront (room : Nat) (cs part : List Char) : Prop where
  front : part <+: cs
  fits : byteLength part ≤ room
  longest : ∀ other, other <+: cs → byteLength other ≤ room → other <+: part

/-- A byte that goes on with a character. -/
def continues (b : UInt8) : Bool := 128 ≤ b.toNat ∧ b.toNat < 192

/-- Whether an offset stands between characters, as the byte behind it tells. -/
def isBoundary (bs : List UInt8) (offset : Nat) : Bool :=
  match bs[offset]? with
  | some b => !continues b
  | none => offset = bs.length

/-- Goes back from an offset to the next boundary. There is no outcome if that would lead below zero. -/
def backToBoundary? (bs : List UInt8) : Nat → Option Nat
  | 0 => if isBoundary bs 0 then some 0 else none
  | offset + 1 => if isBoundary bs (offset + 1) then some (offset + 1) else backToBoundary? bs offset

section Fronts

variable {cs part other : List Char} {room : Nat}

theorem LongestFront.unique (h : LongestFront room cs part) (h' : LongestFront room cs other) : part = other :=
  (h'.longest part h.front h.fits).eq_of_length_le (h.longest other h'.front h'.fits).length_le

theorem longestFront_self (h : byteLength cs ≤ room) : LongestFront room cs cs :=
  ⟨List.prefix_rfl, h, fun _ hf _ => hf⟩

theorem longestFront_fittingChars (room : Nat) (cs : List Char) : LongestFront room cs (fittingChars room cs) := by
  induction cs generalizing room with
  | nil => exact longestFront_self (Nat.zero_le room)
  | cons c cs ih =>
    rw [fittingChars]
    split
    next hc =>
      obtain ⟨hfront, hfits, hlongest⟩ := ih (room - c.utf8Size)
      refine ⟨List.cons_prefix_cons.mpr ⟨rfl, hfront⟩, by rw [byteLength]; omega, ?_⟩
      intro other ho hb
      cases other with
      | nil => exact List.nil_prefix
      | cons d other =>
        obtain ⟨rfl, hother⟩ := List.cons_prefix_cons.mp ho
        rw [byteLength] at hb
        exact List.cons_prefix_cons.mpr ⟨rfl, hlongest other hother (by omega)⟩
    next hc =>
      refine ⟨List.nil_prefix, Nat.zero_le room, ?_⟩
      intro other ho hb
      cases other with
      | nil => exact List.nil_prefix
      | cons d other =>
        obtain ⟨rfl, -⟩ := List.cons_prefix_cons.mp ho
        rw [byteLength] at hb
        omega

/-- What is left out begins with a character that does not fit, and that has at most four bytes. -/
theorem LongestFront.nearly_full (h : LongestFront room cs part) (hc : room < byteLength cs) :
    room ≤ byteLength part + 3 := by
  obtain ⟨left, rfl⟩ := h.front
  cases left with
  | nil =>
    have hfits := h.fits
    rw [List.append_nil] at hc
    omega
  | cons c left =>
    by_contra hroom
    have hfour := c.utf8Size_le_four
    have hb : byteLength (part ++ [c]) ≤ room := by
      rw [byteLength_append, byteLength, byteLength]
      omega
    have hlonger := h.longest (part ++ [c]) ⟨left, by simp⟩ hb
    have hlen := hlonger.length_le
    rw [List.length_append, List.length_singleton] at hlen
    omega

end Fronts

section Boundaries

variable {c : Char} {cs : List Char} {offset : Nat}

/-- Of the bytes of a character only the first does not go on with it. -/
theorem exists_utf8EncodeChar (c : Char) :
    ∃ b more, String.utf8EncodeChar c = b :: more ∧ continues b = false ∧ ∀ x ∈ more, continues x = true := by
  fun_cases String.utf8EncodeChar c
  all_goals refine ⟨_, _, rfl, ?_, ?_⟩ <;> simp [continues] <;> omega

theorem isBoundary_append {xs ys : List UInt8} (h : xs.length ≤ offset) :
    isBoundary (xs ++ ys) offset = isBoundary ys (offset - xs.length) := by
  unfold isBoundary
  rw [List.getElem?_append_right h, List.length_append]
  cases ys[offset - xs.length]? with
  | some b => rfl
  | none =>
    simp only [decide_eq_decide]
    omega

theorem isBoundary_of_inside {b : UInt8} {more ys : List UInt8} (hm : ∀ x ∈ more, continues x = true)
    (h : offset < more.length) : isBoundary (b :: more ++ ys) (offset + 1) = false := by
  have hget : (b :: more ++ ys)[offset + 1]? = some more[offset] := by
    rw [List.cons_append, List.getElem?_cons_succ, List.getElem?_append_left h, List.getElem?_eq_getElem h]
  simp only [isBoundary, hget, hm _ (List.getElem_mem h), Bool.not_true]

/-- The boundaries are the offsets behind whole characters. -/
theorem isBoundary_iff : isBoundary (bytes cs) offset = true ↔ ∃ front, front <+: cs ∧ byteLength front = offset := by
  induction cs generalizing offset with
  | nil =>
    constructor
    · intro h
      have h0 : offset = 0 := by simpa [isBoundary, bytes] using h
      exact ⟨[], List.prefix_rfl, h0.symm⟩
    · rintro ⟨front, hf, rfl⟩
      rw [List.prefix_nil.mp hf]
      rfl
  | cons c cs ih =>
    obtain ⟨b, more, hc, hb, hmore⟩ := exists_utf8EncodeChar c
    have hsize : c.utf8Size = more.length + 1 := by
      rw [← String.length_utf8EncodeChar, hc, List.length_cons]
    -- Whatever is not empty takes the whole of the first character.
    have hfront : ∀ front, front <+: c :: cs → front = [] ∨ ∃ front', front = c :: front' ∧ front' <+: cs := by
      intro front hf
      cases front with
      | nil => exact .inl rfl
      | cons d front =>
        obtain ⟨rfl, hf'⟩ := List.cons_prefix_cons.mp hf
        exact .inr ⟨front, rfl, hf'⟩
    rw [bytes_cons, hc]
    rcases Nat.lt_or_ge offset (b :: more).length with hlt | hge
    · cases offset with
      | zero =>
        refine iff_of_true ?_ ⟨[], List.nil_prefix, rfl⟩
        simp [isBoundary, hb]
      | succ offset =>
        rw [isBoundary_of_inside hmore (by simpa using hlt)]
        refine iff_of_false Bool.false_ne_true ?_
        rintro ⟨front, hf, hlen⟩
        rcases hfront front hf with rfl | ⟨front', rfl, -⟩
        · cases hlen
        · rw [byteLength] at hlen
          rw [List.length_cons] at hlt
          omega
    · rw [isBoundary_append hge, ih, List.length_cons, ← hsize]
      rw [List.length_cons, ← hsize] at hge
      constructor
      · rintro ⟨front, hf, hlen⟩
        refine ⟨c :: front, List.cons_prefix_cons.mpr ⟨rfl, hf⟩, ?_⟩
        rw [byteLength]
        omega
      · rintro ⟨front, hf, rfl⟩
        rcases hfront front hf with rfl | ⟨front', rfl, hf'⟩
        · have hpos := c.utf8Size_pos
          rw [byteLength] at hge
          omega
        · refine ⟨front', hf', ?_⟩
          rw [byteLength]
          omega

/-- Going back stops behind the longest front that fits, and never below zero. -/
theorem backToBoundary?_eq (cs : List Char) (room : Nat) :
    backToBoundary? (bytes cs) room = some (byteLength (fittingChars room cs)) := by
  induction room with
  | zero =>
    have hfits := (longestFront_fittingChars 0 cs).fits
    have hb : isBoundary (bytes cs) 0 = true := isBoundary_iff.mpr ⟨[], List.nil_prefix, rfl⟩
    rw [backToBoundary?, if_pos hb, Nat.le_zero.mp hfits]
  | succ room ih =>
    obtain ⟨hfront, hfits, hlongest⟩ := longestFront_fittingChars (room + 1) cs
    rw [backToBoundary?]
    by_cases hb : isBoundary (bytes cs) (room + 1) = true
    · obtain ⟨front, hf, hlen⟩ := isBoundary_iff.mp hb
      obtain ⟨more, he⟩ := hlongest front hf (Nat.le_of_eq hlen)
      rw [← he, byteLength_append] at hfits
      rw [if_pos hb, ← he, byteLength_append]
      congr 1
      omega
    · -- No front ends here, so one byte less leaves the same longest front.
      have hne : byteLength (fittingChars (room + 1) cs) ≠ room + 1 := fun hlen =>
        hb (isBoundary_iff.mpr ⟨_, hfront, hlen⟩)
      have hsame : LongestFront room cs (fittingChars (room + 1) cs) :=
        ⟨hfront, by omega, fun other ho hl => hlongest other ho (Nat.le_succ_of_le hl)⟩
      rw [if_neg hb, ih, hsame.unique (longestFront_fittingChars room cs)]

end Boundaries

end Text

namespace Codec

/-- The bytes of a text up to the last boundary within the limit, which is searched for from there back. -/
def keptBytes? (s : String) : Option (List UInt8) :=
  (Text.backToBoundary? (utf8 s) (min (utf8 s).length Value.maxStringLength)).map fun stop => (utf8 s).take stop

section Stored

theorem utf8_ofList (cs : List Char) : utf8 (String.ofList cs) = Text.bytes cs := by
  rw [utf8, String.toUTF8, String.toByteArray_ofList, List.utf8Encode, Text.bytes]
  simp

theorem utf8_eq (s : String) : utf8 s = Text.bytes s.toList := by
  rw [← utf8_ofList, String.ofList_toList]

theorem longestFront_stored (s : String) :
    Text.LongestFront Value.maxStringLength s.toList (stored s).toList := by
  rw [stored, String.toList_ofList]
  exact Text.longestFront_fittingChars _ _

theorem stored_fits (s : String) : (stored s).utf8ByteSize ≤ Value.maxStringLength := by
  rw [← byteLength_toList]
  exact (longestFront_stored s).fits

theorem stored_stored (s : String) : stored (stored s) = stored s := stored_of_fits (stored_fits s)

theorem keptBytes?_eq (s : String) : keptBytes? s = some (utf8 (stored s)) := by
  have hroom : fittingChars (min (Text.byteLength s.toList) Value.maxStringLength) s.toList =
      fittingChars Value.maxStringLength s.toList := by
    rcases Nat.le_total (Text.byteLength s.toList) Value.maxStringLength with hle | hle
    · rw [Nat.min_eq_left hle, fittingChars_of_fits (Nat.le_refl _), fittingChars_of_fits hle]
    · rw [Nat.min_eq_right hle]
  obtain ⟨left, hsplit⟩ := (Text.longestFront_fittingChars Value.maxStringLength s.toList).front
  rw [keptBytes?, utf8_eq, Text.length_bytes, Text.backToBoundary?_eq, hroom, Option.map_some, stored, utf8_ofList]
  conv => lhs; rw [← hsplit]
  rw [Text.bytes_append, ← Text.length_bytes, hsplit, List.take_left]

theorem value_encode_string (s : String) : value.encode (.string s) =
    Kind.string.tag :: UInt8.ofNat (utf8 (stored s)).length :: utf8 (stored s) := rfl

theorem toNat_length_stored (s : String) :
    (UInt8.ofNat (utf8 (stored s)).length).toNat = (utf8 (stored s)).length := by
  have hfits := stored_fits s
  unfold Value.maxStringLength at hfits
  rw [length_utf8, UInt8.toNat_ofNat']
  omega

theorem decode_string (s : String) (rest : List UInt8) :
    value.decode (value.encode (.string s) ++ rest) = .ok (.string (stored s)) rest := by
  have hsame : value.encode (.string s) = value.encode (.string (stored s)) := by
    rw [value_encode_string, value_encode_string, stored_stored]
  rw [hsame]
  exact value_lawful.decode_encode (.string (stored s)) (stored_fits s) rest

end Stored

/-- Of a string of any length the longest part in whole characters is written that the limit leaves room for, behind a
byte that tells how many bytes it has, and it is read back as that part. All of a string that fits is kept, and of a
longer one at most the last three bytes of the room stay unused. The search backwards for a boundary finds the same
part, and it never leads below zero. -/
theorem longest_part_stored (s : String) : ∃ part : String,
    Text.LongestFront Value.maxStringLength s.toList part.toList ∧
    (s.utf8ByteSize ≤ 255 ∧ part = s ∨ 255 < s.utf8ByteSize ∧ 252 ≤ part.utf8ByteSize) ∧
    keptBytes? s = some (utf8 part) ∧
    (∃ length : UInt8, value.encode (.string s) = Kind.string.tag :: length :: utf8 part ∧
      length.toNat = (utf8 part).length) ∧
    (∀ rest, value.decode (value.encode (.string s) ++ rest) = .ok (.string part) rest) ∧
    value.size (.string s) = (value.encode (.string s)).length := by
  have hfront := longestFront_stored s
  refine ⟨stored s, hfront, ?_, keptBytes?_eq s, ⟨_, value_encode_string s, toNat_length_stored s⟩, decode_string s,
    size_value (.string s)⟩
  rcases Nat.lt_or_ge 255 s.utf8ByteSize with hlt | hle
  · have hnear := hfront.nearly_full (by rw [byteLength_toList]; exact hlt)
    rw [byteLength_toList, Value.maxStringLength] at hnear
    exact .inr ⟨hlt, by omega⟩
  · exact .inl ⟨hle, stored_of_fits hle⟩

/-- Sixty-four characters of four bytes are one too many. -/
example : fittingChars Value.maxStringLength (List.replicate 64 '😀') = List.replicate 63 '😀' := by
  decide +kernel

end Codec

end RegisterMachine
