import RegisterMachine.Proofs.ValueMisreads

namespace RegisterMachine

namespace Memory

/-- All bytes from an address on. -/
def bytesFrom (m : Memory) (address : Nat) : List UInt8 := m.window address (m.capacity - address)

theorem length_bytesFrom (m : Memory) (address : Nat) : (m.bytesFrom address).length = m.capacity - address := by
  rw [bytesFrom, length_window, Nat.min_self]

theorem bytesFrom_eq_nil {m : Memory} {address : Nat} : m.bytesFrom address = [] ↔ m.capacity ≤ address := by
  rw [← List.length_eq_zero_iff, length_bytesFrom]
  omega

theorem head?_bytesFrom {m : Memory} {address : Nat} (ha : address < m.capacity) :
    (m.bytesFrom address).head? = some (m.byteAt address) := by
  rw [List.head?_eq_getElem?, bytesFrom, getElem?_window, if_pos (by omega), Nat.add_zero]

theorem window_eq_take (m : Memory) (address count : Nat) :
    m.window address count = (m.bytesFrom address).take count := by
  apply List.ext_getElem?
  intro i
  rw [List.getElem?_take, bytesFrom, getElem?_window, getElem?_window]
  by_cases hi : i < count
  · rw [if_pos hi]
    congr 1
    rw [Nat.min_self, eq_iff_iff]
    omega
  · rw [if_neg hi, if_neg (by omega)]

theorem claims_encode_append {v : Value} (hv : v.Fits) (rest : List UInt8) :
    Claims (Codec.value.encode v ++ rest) (Codec.value.size v) := by
  cases v with
  | string s =>
    have hs : s.utf8ByteSize ≤ 255 := hv
    have he : Codec.value.encode (.string s) = Kind.string.tag :: UInt8.ofNat s.utf8ByteSize :: Codec.utf8 s :=
      congrArg (Kind.string.tag :: ·) (Codec.string_encode_of_fits hv)
    have hb : (UInt8.ofNat s.utf8ByteSize).toNat = s.utf8ByteSize := by
      rw [UInt8.toNat_ofNat']
      omega
    have hw : Codec.value.size (.string s) = 2 + (UInt8.ofNat s.utf8ByteSize).toNat := by
      rw [Codec.size_value, he, hb, List.length_cons, List.length_cons, Codec.length_utf8]
      omega
    rw [hw, he]
    exact .text
  | byte b => exact @Claims.fixed .byte _ nofun
  | int n => exact @Claims.fixed .int _ nofun
  | long n => exact @Claims.fixed .long _ nofun
  | double d => exact @Claims.fixed .double _ nofun
  | bool b => exact @Claims.fixed .boolean _ nofun

/-- A value that is read takes as many bytes as it claims. -/
theorem claims_of_decode {stored rest : List UInt8} {v : Value} (h : Codec.value.decode stored = .ok v rest) :
    ∃ width, Claims stored width ∧ stored.length = width + rest.length := by
  obtain ⟨hv, rfl⟩ := Codec.value_lawful.encode_of_decode _ _ _ h
  exact ⟨_, claims_encode_append hv rest, by rw [Codec.size_value, List.length_append]⟩

theorem head?_of_spoiled {stored : List UInt8} {tag : UInt8} (h : Codec.Spoiled stored (.unknownTag tag)) :
    stored.head? = some tag ∧ Kind.ofTag? tag = none := by
  cases h with
  | tag hk => exact ⟨rfl, hk⟩

theorem claims_of_spoiled {stored : List UInt8} {e : DecodeError} (h : Codec.Spoiled stored e) :
    ∃ width, Claims stored width ∧ width ≤ stored.length := by
  cases h with
  | @tag tag content hk => exact ⟨1, .unknown hk, by rw [List.length_cons]; omega⟩
  | @boolean b content h0 h1 =>
    refine ⟨2, @Claims.fixed .boolean _ nofun, ?_⟩
    rw [List.length_cons, List.length_cons]
    omega
  | @text length content hl hn =>
    refine ⟨2 + length.toNat, .text, ?_⟩
    rw [List.length_cons, List.length_cons]
    omega

/-- The width that stored bytes claim. There is none where there is no first byte to tell it. -/
def checkedWidth? : List UInt8 → Option Nat
  | [] => none
  | tag :: content => some (claimedWidth tag content)

/-- The bytes from an address on, unless it lies behind the end of the memory. -/
def bytesFrom? (m : Memory) (address : Nat) : Option (List UInt8) :=
  if address ≤ m.capacity then some (m.bytesFrom address) else none

/-- Reads the value at an address from all bytes that follow. There is no outcome where the width of no bytes at all
would be asked for. -/
def checkedLoad? (m : Memory) (address : Nat) : Option (Except Fault Value) :=
  match (m.bytesFrom? address).filter (· ≠ []) with
  | none => some (.error (.addressOutOfRange address 1 m.capacity))
  | some stored =>
    match Codec.value.decode stored with
    | .ok v _ => some (.ok v)
    | .error e _ =>
      if e.isShortage then
        (checkedWidth? stored).map fun width => .error (.addressOutOfRange address width m.capacity)
      else some (.error (Fault.ofDecodeError address e))

theorem checkedWidth?_eq_some {stored : List UInt8} {width : Nat} :
    checkedWidth? stored = some width ↔ Claims stored width := by
  cases stored with
  | nil => exact iff_of_false nofun nofun
  | cons tag content =>
    constructor
    · intro h
      cases h
      exact claims_claimedWidth tag content
    · intro h
      exact congrArg some h.eq_claimedWidth.symm

theorem exists_claims {m : Memory} {address : Nat} :
    (∃ width, Claims (m.bytesFrom address) width) ↔ address < m.capacity := by
  constructor
  · rintro ⟨width, h⟩
    by_contra ha
    rw [bytesFrom_eq_nil.mpr (Nat.le_of_not_lt ha)] at h
    cases h
  · intro ha
    obtain ⟨tag, content, hb⟩ := List.exists_cons_of_ne_nil (bytesFrom_eq_nil.not.mpr (Nat.not_le.mpr ha))
    rw [hb]
    exact ⟨_, claims_claimedWidth tag content⟩

/-- No value is wider than the window that is decoded, so reading one is reading it from all bytes that follow. -/
theorem load_cases_bytesFrom {m : Memory} {address : Nat} (ha : address < m.capacity) :
    (∃ v rest, Codec.value.decode (m.bytesFrom address) = .ok v rest ∧ m.load address = .ok v) ∨
    (∃ e rest width, Codec.value.decode (m.bytesFrom address) = .error e rest ∧ e.isShortage = true ∧
      Claims (m.bytesFrom address) width ∧ m.capacity < address + width ∧
      m.load address = .error (.addressOutOfRange address width m.capacity)) ∨
    ∃ e rest, Codec.value.decode (m.bytesFrom address) = .error e rest ∧ e.isShortage = false ∧
      m.load address = .error (Fault.ofDecodeError address e) := by
  have hw := m.window_eq_take address widest
  have hsplit := List.take_append_drop widest (m.bytesFrom address)
  rw [← hw] at hsplit
  rcases load_cases ha with ⟨v, rest, hd, hload⟩ | ⟨e, rest, width, hd, he, hc, hlt, hload⟩ | ⟨e, rest, hd, he, hload⟩
  · obtain ⟨hv, henc⟩ := Codec.value_lawful.encode_of_decode _ _ _ hd
    have hall := Codec.value_lawful.decode_encode v hv (rest ++ (m.bytesFrom address).drop widest)
    rw [← List.append_assoc, ← henc, hsplit] at hall
    exact .inl ⟨v, _, hall, hload⟩
  · -- What is claimed lies behind the end and is no wider than the window, so the window shows all bytes.
    have hle := hc.le_widest
    have hlen := m.length_bytesFrom address
    have hend : m.window address widest = m.bytesFrom address := by
      rw [hw]
      exact List.take_of_length_le (by omega)
    rw [hend] at hd hc
    exact .inr (.inl ⟨e, rest, width, hd, he, hc, hlt, hload⟩)
  · obtain ⟨rest', hall⟩ := Codec.decode_append_of_wrong hd he ((m.bytesFrom address).drop widest)
    rw [hsplit] at hall
    exact .inr (.inr ⟨e, rest', hall, he, hload⟩)

/-- Reading never asks for the width of no bytes, and the window that it looks at is wide enough. -/
theorem checkedLoad?_eq (m : Memory) (address : Nat) : m.checkedLoad? address = some (m.load address) := by
  rcases Nat.lt_or_ge address m.capacity with ha | ha
  · have hne : m.bytesFrom address ≠ [] := bytesFrom_eq_nil.not.mpr (Nat.not_le.mpr ha)
    have hfilter : (m.bytesFrom? address).filter (· ≠ []) = some (m.bytesFrom address) := by
      rw [bytesFrom?, if_pos (Nat.le_of_lt ha), Option.filter_some_pos (by simpa using hne)]
    unfold checkedLoad?
    rw [hfilter]
    rcases load_cases_bytesFrom ha with ⟨v, rest, hd, hload⟩ | ⟨e, rest, width, hd, he, hc, -, hload⟩ |
      ⟨e, rest, hd, he, hload⟩
    · simp only [hd, hload]
    · simp only [hd, he, if_true, checkedWidth?_eq_some.mpr hc, Option.map_some, hload]
    · simp only [hd, he, Bool.false_eq_true, if_false, hload]
  · have hfilter : (m.bytesFrom? address).filter (· ≠ []) = none := by
      rw [bytesFrom?, bytesFrom_eq_nil.mpr ha]
      split <;> rfl
    unfold checkedLoad?
    rw [hfilter, load_of_outside ha]

/-- What reading memory at an address comes to. -/
inductive Reads (m : Memory) (address : Nat) : Except Fault Value → Prop
  | outside : m.capacity ≤ address → Reads m address (.error (.addressOutOfRange address 1 m.capacity))
  | cut {width : Nat} : Claims (m.bytesFrom address) width → m.capacity < address + width →
      Reads m address (.error (.addressOutOfRange address width m.capacity))
  | unknown : Codec.Spoiled (m.bytesFrom address) (.unknownTag (m.byteAt address)) →
      Reads m address (.error (.unknownTag (m.byteAt address)))
  | malformed {e : DecodeError} : Codec.Spoiled (m.bytesFrom address) e →
      Reads m address (.error (.malformedValue address e))
  | value {v : Value} {rest : List UInt8} : Codec.value.decode (m.bytesFrom address) = .ok v rest →
      Reads m address (.ok v)

theorem load_reads (m : Memory) (address : Nat) : Reads m address (m.load address) := by
  rcases Nat.lt_or_ge address m.capacity with ha | ha
  · rcases load_cases_bytesFrom ha with ⟨v, rest, hd, h⟩ | ⟨e, rest, width, -, -, hc, hlt, h⟩ | ⟨e, rest, hd, he, h⟩
    · rw [h]
      exact .value hd
    · rw [h]
      exact .cut hc hlt
    · have hs := Codec.spoiled_of_decode hd he
      rw [h]
      cases e with
      | unexpectedEnd => cases he
      | truncated expected remaining => cases he
      | unknownTag tag =>
        have ht := head?_of_spoiled hs
        obtain rfl := Option.some.inj ((head?_bytesFrom ha).symm.trans ht.1)
        exact .unknown hs
      | _ => exact .malformed hs
  · rw [load_of_outside ha]
    exact .outside ha

section Widths

variable {m : Memory} {address width : Nat} {v : Value} {e : DecodeError} {rest : List UInt8}

/-- Where all bytes that are claimed are there, nothing lies outside. -/
theorem Claims.inside (hc : Claims (m.bytesFrom address) width) (hle : width ≤ (m.bytesFrom address).length) :
    ¬ (m.capacity ≤ address ∨ ∃ w, Claims (m.bytesFrom address) w ∧ m.capacity < address + w) := by
  have ha := exists_claims.mp ⟨width, hc⟩
  rw [length_bytesFrom] at hle
  rintro (hout | ⟨w, hc', hlt⟩)
  · omega
  · obtain rfl := hc.unique hc'
    omega

theorem decode_ne_ok_of_spoiled (h : Codec.Spoiled (m.bytesFrom address) e) :
    Codec.value.decode (m.bytesFrom address) ≠ .ok v rest := by
  obtain ⟨rest', hd⟩ := h.decode_eq
  rw [hd]
  simp

end Widths

/-- The width that is reported for a value agrees with what the decoder reads. Reading memory is refused for its
bounds exactly when the address, or the bytes that the value there claims, lie behind the end of the memory; a value
is read exactly when the decoder reads it, and takes the bytes that it claims; and all other failures are about the
bytes themselves. The width of no bytes at all is never asked for. -/
theorem load_bounds_agree (m : Memory) (address : Nat) :
    m.checkedLoad? address = some (m.load address) ∧
    (∀ w, checkedWidth? (m.bytesFrom address) = some w ↔ Claims (m.bytesFrom address) w) ∧
    ((∃ w, Claims (m.bytesFrom address) w) ↔ address < m.capacity) ∧
    ((∃ a w c, m.load address = .error (.addressOutOfRange a w c)) ↔
      m.capacity ≤ address ∨ ∃ w, Claims (m.bytesFrom address) w ∧ m.capacity < address + w) ∧
    (∀ a w c, m.load address = .error (.addressOutOfRange a w c) →
      a = address ∧ c = m.capacity ∧ m.capacity < a + w ∧
        (address < m.capacity → Claims (m.bytesFrom address) w)) ∧
    (∀ v, m.load address = .ok v ↔ ∃ rest w, Codec.value.decode (m.bytesFrom address) = .ok v rest ∧
      Claims (m.bytesFrom address) w ∧ (m.bytesFrom address).length = w + rest.length) ∧
    (∀ cause, m.load address = .error cause → (∃ w, cause = .addressOutOfRange address w m.capacity) ∨
      (cause = .unknownTag (m.byteAt address) ∧ Kind.ofTag? (m.byteAt address) = none) ∨
      ∃ e, cause = .malformedValue address e ∧ Codec.Spoiled (m.bytesFrom address) e) ∧
    (∀ offset, m.load address ≠ .error (.endOfStream offset)) ∧
    ∀ offset expected remaining, m.load address ≠ .error (.truncatedStream offset expected remaining) := by
  have h := m.load_reads address
  refine ⟨m.checkedLoad?_eq address, fun _ => checkedWidth?_eq_some, exists_claims, ?_⟩
  generalize m.load address = result at h
  refine ⟨?_, ?_, ?_, ?_, ?_, ?_⟩
  · cases h with
    | outside ha => exact iff_of_true ⟨_, _, _, rfl⟩ (.inl ha)
    | cut hc hlt => exact iff_of_true ⟨_, _, _, rfl⟩ (.inr ⟨_, hc, hlt⟩)
    | unknown hs =>
      obtain ⟨w, hc, hle⟩ := claims_of_spoiled hs
      exact iff_of_false (by simp) (hc.inside hle)
    | malformed hs =>
      obtain ⟨w, hc, hle⟩ := claims_of_spoiled hs
      exact iff_of_false (by simp) (hc.inside hle)
    | value hd =>
      obtain ⟨w, hc, hlen⟩ := claims_of_decode hd
      exact iff_of_false (by simp) (hc.inside (by omega))
  · rintro a w c rfl
    cases h with
    | outside ha => exact ⟨rfl, rfl, by omega, fun _ => by omega⟩
    | cut hc hlt => exact ⟨rfl, rfl, hlt, fun _ => hc⟩
  · intro v
    constructor
    · rintro rfl
      cases h with
      | value hd =>
        obtain ⟨w, hc, hlen⟩ := claims_of_decode hd
        exact ⟨_, w, hd, hc, hlen⟩
    · rintro ⟨rest, w, hd, hc, hlen⟩
      have hin := hc.inside (by omega)
      cases h with
      | outside ha => exact (hin (.inl ha)).elim
      | cut hc' hlt => exact (hin (.inr ⟨_, hc', hlt⟩)).elim
      | unknown hs => exact (decode_ne_ok_of_spoiled hs hd).elim
      | malformed hs => exact (decode_ne_ok_of_spoiled hs hd).elim
      | value hd' =>
        cases hd.symm.trans hd'
        rfl
  · rintro cause rfl
    cases h with
    | outside ha => exact .inl ⟨_, rfl⟩
    | cut hc hlt => exact .inl ⟨_, rfl⟩
    | unknown hs => exact .inr (.inl ⟨rfl, (head?_of_spoiled hs).2⟩)
    | malformed hs => exact .inr (.inr ⟨_, rfl, hs⟩)
  · rintro offset rfl
    cases h
  · rintro offset expected remaining rfl
    cases h

/-- A string of which only the tag is left claims two bytes, one of which only the length is left claims its text. -/
example : (⟨1, [5]⟩ : Memory).load 0 = .error (.addressOutOfRange 0 2 1) ∧
    (⟨2, [5, 9]⟩ : Memory).load 0 = .error (.addressOutOfRange 0 11 2) := by
  decide

end Memory

end RegisterMachine
