import RegisterMachine.Proofs.InstructionEffects
import RegisterMachine.Proofs.MemoryHistory
import RegisterMachine.Proofs.PairedActions

namespace RegisterMachine

namespace Fault

/-- The faults of an access outside of the memory. -/
def isAddress : Fault → Bool
  | addressOutOfRange .. => true
  | _ => false

/-- The faults of an access outside of the memory or of the registers. -/
def isOutside : Fault → Bool
  | addressOutOfRange .. => true
  | indexOutOfRange .. => true
  | _ => false

/-- The faults of a machine of one size that one of another size may not have. No instruction reaches as far
as 512 bytes into the memory. -/
inductive TooSmall (small large : Sizing) : Fault → Prop
  | index {index : UInt8} : small.registerCount < large.registerCount →
      TooSmall small large (.indexOutOfRange index small.registerCount)
  | address {address width : Nat} : small.memorySize < 512 →
      TooSmall small large (.addressOutOfRange address width small.memorySize)

theorem TooSmall.isOutside {small large : Sizing} {cause : Fault} (h : TooSmall small large cause) :
    cause.isOutside = true := by
  cases h <;> rfl

theorem isAddress_of_isArithmetic {cause : Fault} (h : cause.isArithmetic = true) : cause.isAddress = false := by
  cases cause with
  | addressOutOfRange address width capacity => cases h
  | _ => rfl

theorem isAddress_ofDecodeError (offset : Nat) (e : DecodeError) : (ofDecodeError offset e).isAddress = false := by
  cases e <;> rfl

end Fault

namespace Memory

variable {m m' : Memory} {small large : Sizing}

theorem window_append (hw : m'.written = m.written) (hc : m.capacity ≤ m'.capacity) (address count : Nat) :
    ∃ more, m'.window address count = m.window address count ++ more := by
  refine ⟨(m'.window address count).drop (m.window address count).length, ?_⟩
  have hl := m.length_window address count
  have hp : m.window address count = (m'.window address count).take (m.window address count).length := by
    apply List.ext_getElem?
    intro i
    by_cases hi : i < (m.window address count).length
    · rw [List.getElem?_take_of_lt hi, getElem?_window, getElem?_window, if_pos (by omega), if_pos (by omega), byteAt,
        byteAt, hw]
    · rw [List.getElem?_take_eq_none (by omega), List.getElem?_eq_none (by omega)]
  calc m'.window address count
      = (m'.window address count).take (m.window address count).length ++ _ := (List.take_append_drop _ _).symm
    _ = m.window address count ++ _ := by rw [← hp]

/-- A larger memory with the same bytes gives what a smaller one gives, unless the end of the smaller one stands
in the way. -/
theorem load_concur (hw : m'.written = m.written) (hs : m.capacity = small.memorySize)
    (hc : m.capacity ≤ m'.capacity) (address : UInt8) :
    Concur (Fault.TooSmall small large) (·.isAddress = false) (m.load address.toNat) (m'.load address.toNat) := by
  have hb := address.toNat_lt
  have hwide : widest = 257 := rfl
  obtain ⟨more, hmore⟩ := window_append hw hc address.toNat widest
  rcases Nat.lt_or_ge address.toNat m.capacity with hlt | hge
  · have hlt' : address.toNat < m'.capacity := by omega
    cases hd : Codec.value.decode (m.window address.toNat widest) with
    | ok v rest =>
      obtain ⟨hv, he⟩ := Codec.value_lawful.encode_of_decode _ _ _ hd
      have hd' := Codec.value_lawful.decode_encode v hv (rest ++ more)
      rw [← List.append_assoc, ← he, ← hmore] at hd'
      rw [load_of_decode hlt hd, load_of_decode hlt' hd']
      exact .ok v
    | error e rest =>
      cases he : e.isShortage with
      | true =>
        obtain ⟨width, hclaim, hcut, hload⟩ := load_of_shortage hlt hd he
        have hle := hclaim.le_widest
        rw [hload, hs]
        exact .excused (.address (by omega))
      | false =>
        obtain ⟨rest', hd'⟩ := Codec.decode_append_of_wrong hd he more
        rw [← hmore] at hd'
        rw [load_of_wrong hlt hd he, load_of_wrong hlt' hd' he]
        exact .error (Fault.isAddress_ofDecodeError _ _)
  · rw [load_of_outside hge, hs]
    exact .excused (.address (by omega))

/-- What a smaller memory takes, a larger one takes as well, and a text that is too long is refused by both. -/
theorem store_cases (large : Sizing) (hs : m.capacity = small.memorySize) (hc : m.capacity ≤ m'.capacity)
    (address : UInt8) (v : Value) :
    (∃ bytes, m.store address.toNat v = .ok (m.overwrite address.toNat bytes) ∧
      m'.store address.toNat v = .ok (m'.overwrite address.toNat bytes)) ∨
    (∃ cause, m.store address.toNat v = .error cause ∧ Fault.TooSmall small large cause) ∨
    ∃ length, m.store address.toNat v = .error (.stringTooLong length) ∧
      m'.store address.toNat v = .error (.stringTooLong length) := by
  have hb := address.toNat_lt
  by_cases hv : v.Fits
  · rcases Nat.lt_or_ge m.capacity (address.toNat + Codec.value.size v) with hlt | hge
    · have hle : Codec.value.size v ≤ 257 := size_le_widest hv
      rw [Codec.size_value] at hlt hle
      have he : m.store address.toNat v =
          .error (.addressOutOfRange address.toNat (Codec.value.encode v).length m.capacity) := by
        simp only [store, Value.tooLong?_of_fits hv, if_neg (Nat.not_le.mpr hlt)]
      rw [hs] at he
      exact .inr (.inl ⟨_, he, .address (by omega)⟩)
    · exact .inl ⟨_, store_of_fits hv hge, store_of_fits hv (by omega)⟩
  · obtain ⟨length, hl⟩ := Option.ne_none_iff_exists'.mp fun hn => hv (Value.tooLong?_eq_none.mp hn)
    exact .inr (.inr ⟨length, by simp only [store, hl], by simp only [store, hl]⟩)

end Memory

namespace Registers

variable {r r' n : Registers} {small large : Sizing} {index : UInt8} {v : Value}

/-- The same registers and further ones that were never written. -/
structure Extends (small large : Sizing) (r r' : Registers) : Prop where
  fewer : r.count = small.registerCount
  more : r'.count = large.registerCount
  le : small.registerCount ≤ large.registerCount
  same : ∀ i, i < r.count → r'.slots[i]? = r.slots[i]?
  fresh : ∀ i v, r.count ≤ i → r'.slots[i]? ≠ some (some v)

theorem extends_empty (h : small.registerCount ≤ large.registerCount) :
    Extends small large (.empty small.registerCount) (.empty large.registerCount) := by
  refine ⟨Array.size_replicate, Array.size_replicate, h, ?_, ?_⟩
  · intro i hi
    simp only [empty, count, Array.size_replicate] at hi
    simp only [empty, Array.getElem?_replicate, hi, Nat.lt_of_lt_of_le hi h]
  · intro i v _
    simp only [empty, Array.getElem?_replicate]
    split <;> simp

theorem Extends.get_concur (h : Extends small large r r') (index : UInt8) :
    Concur (Fault.TooSmall small large) (·.isAddress = false) (r.get index) (r'.get index) := by
  rcases Nat.lt_or_ge index.toNat r.count with hlt | hge
  · simp only [get, h.same _ hlt]
    cases hi : r.slots[index.toNat]? with
    | none => exact absurd (Array.getElem?_eq_none_iff.mp hi) (Nat.not_le.mpr hlt)
    | some slot =>
      cases slot with
      | none => exact .error rfl
      | some v => exact .ok v
  · have hn : r.get index = .error (.indexOutOfRange index small.registerCount) := by
      simp only [get, Array.getElem?_eq_none hge, h.fewer]
    rcases Nat.lt_or_ge small.registerCount large.registerCount with hmore | hsame
    · rw [hn]
      exact .excused (.index hmore)
    · have he : r'.count = small.registerCount := h.more.trans (Nat.le_antisymm hsame h.le)
      have hn' : r'.slots[index.toNat]? = none := Array.getElem?_eq_none (by rw [← count, he, ← h.fewer]; exact hge)
      rw [hn]
      simp only [get, hn', he]
      exact .error rfl

theorem Extends.set (h : Extends small large r r') (hs : r.set index v = .ok n) :
    ∃ n', r'.set index v = .ok n' ∧ Extends small large n n' := by
  have hlt : index.toNat < r.count := by
    unfold Registers.set at hs
    split at hs
    next hlt => exact hlt
    next => cases hs
  have hle : r.count ≤ r'.count := by
    rw [h.fewer, h.more]
    exact h.le
  have hs' : r'.set index v = .ok ⟨r'.slots.setIfInBounds index.toNat (some v)⟩ := by
    simp only [Registers.set, if_pos (Nat.lt_of_lt_of_le hlt hle)]
  refine ⟨_, hs', (count_set hs).trans h.fewer, (count_set hs').trans h.more, h.le, ?_, ?_⟩
  · intro i hi
    by_cases he : i = index.toNat
    · rw [he, slot_of_get (get_set_self hs), slot_of_get (get_set_self hs')]
    · rw [count_set hs] at hi
      rw [slots_set_of_ne hs he, slots_set_of_ne hs' he, h.same i hi]
  · intro i w hi
    rw [count_set hs] at hi
    rw [slots_set_of_ne hs' (by omega)]
    exact h.fresh i w hi

theorem Extends.set_error (h : Extends small large r r') {cause : Fault} (hs : r.set index v = .error cause) :
    Fault.TooSmall small large cause ∨ (cause.isAddress = false ∧ r'.set index v = .error cause) := by
  obtain ⟨rfl, hge⟩ := set_eq_error hs
  rw [h.fewer] at hge ⊢
  rcases Nat.lt_or_ge small.registerCount large.registerCount with hmore | hsame
  · exact .inl (.index hmore)
  · have he : r'.count = small.registerCount := h.more.trans (Nat.le_antisymm hsame h.le)
    refine .inr ⟨rfl, ?_⟩
    simp only [Registers.set, he, if_neg (Nat.not_lt.mpr hge)]

theorem Extends.get_eq_ok (h : Extends small large r r') : r'.get index = .ok v ↔ r.get index = .ok v := by
  have hslot : ∀ r : Registers, r.get index = .ok v ↔ r.slots[index.toNat]? = some (some v) :=
    fun r => ⟨slot_of_get, fun hs => by simp only [get, hs]⟩
  rw [hslot, hslot]
  rcases Nat.lt_or_ge index.toNat r.count with hlt | hge
  · rw [h.same _ hlt]
  · constructor
    · intro hs
      exact (h.fresh _ _ hge hs).elim
    · intro hs
      rw [Array.getElem?_eq_none hge] at hs
      cases hs

end Registers

end RegisterMachine
