import RegisterMachine.Proofs.MachineInvariant

namespace RegisterMachine

theorem Value.tooLong?_eq_none {v : Value} : v.tooLong? = none ↔ v.Fits := by
  constructor
  · intro h
    cases v with
    | string s =>
      rw [Value.tooLong?, ite_eq_right_iff] at h
      exact Nat.le_of_not_lt fun hl => by cases h hl
    | _ => trivial
  · exact Value.tooLong?_of_fits

namespace Memory

/-- The memory when a store has been tried. One that is refused leaves it as it was. -/
def tried (m : Memory) (store : Nat × Value) : Memory :=
  match m.store store.1 store.2 with
  | .ok m' => m'
  | .error _ => m

/-- The memory when several stores have been tried in turn. -/
def triedAll (m : Memory) (stores : List (Nat × Value)) : Memory := stores.foldl tried m

/-- A store that is not refused. -/
def Accepts (m : Memory) (address : Nat) (v : Value) : Prop := ∃ m', m.store address v = .ok m'

/-- A value lies at an address as a whole. -/
structure Holds (m : Memory) (address : Nat) (v : Value) : Prop where
  fits : v.Fits
  room : address + Codec.value.size v ≤ m.capacity
  bytes : ∀ i, i < Codec.value.size v → m.byteAt (address + i) = (Codec.value.encode v).getD i 0

theorem size_pos (v : Value) : 0 < Codec.value.size v := by
  rw [Codec.size_value]
  exact Nat.succ_pos _

theorem size_le_widest {v : Value} (h : v.Fits) : Codec.value.size v ≤ widest := by
  cases v with
  | string s =>
    have hs : s.utf8ByteSize ≤ 255 := h
    have hl : Codec.value.size (.string s) = 1 + (1 + s.utf8ByteSize) := by
      simp only [Codec.value, Codec.string, Codec.stored_of_fits h]
    unfold widest Value.maxStringLength
    omega
  | byte v => exact (by decide : 2 ≤ widest)
  | int v => exact (by decide : 5 ≤ widest)
  | long v => exact (by decide : 9 ≤ widest)
  | double v => exact (by decide : 9 ≤ widest)
  | bool b => exact (by decide : 2 ≤ widest)

section Stores

variable {m m' : Memory} {address other : Nat} {v w : Value}

theorem store_of_fits (hv : v.Fits) (hr : address + Codec.value.size v ≤ m.capacity) :
    m.store address v = .ok (m.overwrite address (Codec.value.encode v)) := by
  rw [Codec.size_value] at hr
  simp only [store, Value.tooLong?_eq_none.mpr hv, if_pos hr]

theorem fits_of_store (h : m.store address v = .ok m') : v.Fits := by
  unfold store at h
  split at h
  next => cases h
  next hn => exact Value.tooLong?_eq_none.mp hn

theorem accepts_iff : m.Accepts address v ↔ v.Fits ∧ address + Codec.value.size v ≤ m.capacity := by
  constructor
  · rintro ⟨m', h⟩
    rw [Codec.size_value]
    exact ⟨fits_of_store h, (store_eq_ok h).1⟩
  · rintro ⟨hv, hr⟩
    exact ⟨_, store_of_fits hv hr⟩

theorem tried_of_ok (h : m.store address v = .ok m') : m.tried (address, v) = m' := by
  simp only [tried, h]

theorem tried_of_error {cause : Fault} (h : m.store address v = .error cause) : m.tried (address, v) = m := by
  simp only [tried, h]

theorem capacity_tried (m : Memory) (s : Nat × Value) : (m.tried s).capacity = m.capacity := by
  obtain ⟨address, v⟩ := s
  cases h : m.store address v with
  | ok m' =>
    rw [tried_of_ok h, (store_eq_ok h).2]
    rfl
  | error cause => rw [tried_of_error h]

theorem capacity_triedAll (m : Memory) (stores : List (Nat × Value)) : (m.triedAll stores).capacity = m.capacity := by
  induction stores generalizing m with
  | nil => rfl
  | cons s stores ih => exact (ih (m.tried s)).trans (capacity_tried m s)

theorem triedAll_append (m : Memory) (front back : List (Nat × Value)) :
    m.triedAll (front ++ back) = (m.triedAll front).triedAll back :=
  List.foldl_append

theorem holds_of_store (h : m.store address v = .ok m') : m'.Holds address v := by
  obtain ⟨hr, rfl⟩ := store_eq_ok h
  rw [← Codec.size_value] at hr
  refine ⟨fits_of_store h, hr, ?_⟩
  intro i hi
  rw [Codec.size_value] at hi
  rw [byteAt_overwrite, if_pos (by omega), Nat.add_sub_cancel_left]

/-- What lies beside the bytes of a store is still there after it. -/
theorem Holds.store (h : m.Holds address v) (hs : m.store other w = .ok m')
    (hd : other + Codec.value.size w ≤ address ∨ address + Codec.value.size v ≤ other) : m'.Holds address v := by
  obtain ⟨-, rfl⟩ := store_eq_ok hs
  refine ⟨h.fits, h.room, ?_⟩
  intro i hi
  have hw := Codec.size_value w
  rw [byteAt_overwrite, if_neg (by omega)]
  exact h.bytes i hi

theorem Holds.tried (h : m.Holds address v)
    (hd : m.Accepts other w → other + Codec.value.size w ≤ address ∨ address + Codec.value.size v ≤ other) :
    (m.tried (other, w)).Holds address v := by
  cases hs : m.store other w with
  | ok m' =>
    rw [tried_of_ok hs]
    exact h.store hs (hd ⟨m', hs⟩)
  | error cause =>
    rw [tried_of_error hs]
    exact h

/-- A value outlasts every store that is refused or that lies beside it. -/
theorem Holds.triedAll {stores : List (Nat × Value)} (h : m.Holds address v)
    (hd : ∀ front other w back, stores = front ++ (other, w) :: back → (m.triedAll front).Accepts other w →
      other + Codec.value.size w ≤ address ∨ address + Codec.value.size v ≤ other) :
    (m.triedAll stores).Holds address v := by
  induction stores generalizing m with
  | nil => exact h
  | cons s stores ih =>
    apply ih (h.tried (hd [] s.1 s.2 stores rfl))
    intro front other w back hs
    exact hd (s :: front) other w back (by rw [hs]; rfl)

theorem Holds.window_eq (h : m.Holds address v) :
    m.window address widest = Codec.value.encode v ++ (m.window address widest).drop (Codec.value.size v) := by
  have hw := size_le_widest h.fits
  have hr := h.room
  have hl : (m.window address widest).take (Codec.value.size v) = Codec.value.encode v := by
    apply List.ext_getElem?
    intro i
    have hs := Codec.size_value v
    by_cases hi : i < Codec.value.size v
    · rw [List.getElem?_take_of_lt hi, getElem?_window, if_pos (by omega), h.bytes i hi, List.getD_eq_getElem?_getD,
        List.getElem?_eq_getElem (by omega)]
      rfl
    · rw [List.getElem?_take_eq_none (by omega), List.getElem?_eq_none (by omega)]
  calc m.window address widest
      = (m.window address widest).take (Codec.value.size v) ++ (m.window address widest).drop (Codec.value.size v) :=
        (List.take_append_drop _ _).symm
    _ = Codec.value.encode v ++ (m.window address widest).drop (Codec.value.size v) := by rw [hl]

theorem Holds.load (h : m.Holds address v) : m.load address = .ok v := by
  have hr := h.room
  have hp := size_pos v
  exact load_of_decode (by omega) (Codec.value_lawful.decode_eq_ok.mpr ⟨h.fits, h.window_eq⟩)

end Stores

/-- Memory keeps what was stored in it. Whatever was stored before, a store is refused exactly when its string is
too long or its bytes do not all lie within the memory, and then it changes nothing. A value that was stored is
read back as long as no later store has touched any of its bytes. -/
theorem stored_value_lasts (capacity : Nat) (stores : List (Nat × Value)) :
    ((zeroed capacity).triedAll stores).capacity = capacity ∧
    (∀ address v, ((zeroed capacity).triedAll stores).Accepts address v ↔
      v.Fits ∧ address + Codec.value.size v ≤ capacity) ∧
    (∀ address v, ¬ ((zeroed capacity).triedAll stores).Accepts address v →
      (zeroed capacity).triedAll (stores ++ [(address, v)]) = (zeroed capacity).triedAll stores) ∧
    ∀ before address v later, stores = before ++ (address, v) :: later →
      ((zeroed capacity).triedAll before).Accepts address v →
      (∀ front other w back, later = front ++ (other, w) :: back →
        ((zeroed capacity).triedAll (before ++ (address, v) :: front)).Accepts other w →
        other + Codec.value.size w ≤ address ∨ address + Codec.value.size v ≤ other) →
      ((zeroed capacity).triedAll stores).load address = .ok v := by
  have hc : ∀ stores, ((zeroed capacity).triedAll stores).capacity = capacity := capacity_triedAll (zeroed capacity)
  refine ⟨hc stores, ?_, ?_, ?_⟩
  · intro address v
    rw [accepts_iff, hc]
  · intro address v hn
    rw [triedAll_append]
    cases hs : ((zeroed capacity).triedAll stores).store address v with
    | ok m' => exact (hn ⟨m', hs⟩).elim
    | error cause => exact tried_of_error hs
  · rintro before address v later rfl ⟨m', hs⟩ hd
    have hat : (zeroed capacity).triedAll (before ++ [(address, v)]) = m' := by
      rw [triedAll_append]
      exact tried_of_ok hs
    have hsplit : ∀ front, (zeroed capacity).triedAll (before ++ (address, v) :: front) = m'.triedAll front := by
      intro front
      rw [List.append_cons, triedAll_append, hat]
    rw [hsplit]
    apply Holds.load
    apply (holds_of_store hs).triedAll
    intro front other w back hl ha
    exact hd front other w back hl (hsplit front ▸ ha)

/-- A number survives a store right in front of it, one right behind it and two that are refused. -/
theorem stored_value_lasts_of_neighbours :
    ((zeroed 10).triedAll [(4, .byte 9)]).Accepts 2 (.int 7) ∧
      ((zeroed 10).triedAll [(4, .byte 9), (2, .int 7), (0, .byte 5), (8, .long 3), (7, .bool true),
        (2 ^ 64 - 1, .byte 1)]).load 2 = .ok (.int 7) := by
  obtain ⟨-, ha, -, -⟩ := stored_value_lasts 10 [(4, .byte 9)]
  obtain ⟨-, -, -, hl⟩ := stored_value_lasts 10 [(4, .byte 9), (2, .int 7), (0, .byte 5), (8, .long 3),
    (7, .bool true), (2 ^ 64 - 1, .byte 1)]
  have hin : ((zeroed 10).triedAll [(4, .byte 9)]).Accepts 2 (.int 7) := (ha 2 (.int 7)).mpr ⟨trivial, by decide⟩
  refine ⟨hin, hl [(4, .byte 9)] 2 (.int 7) _ rfl hin ?_⟩
  intro front other w back he hw
  have hroom := (accepts_iff.mp hw).2
  rw [capacity_triedAll] at hroom
  have hmem : (other, w) ∈ [(0, .byte 5), (8, .long 3), (7, .bool true), (2 ^ 64 - 1, Value.byte 1)] := by
    rw [he]
    simp
  simp only [List.mem_cons, Prod.mk.injEq, List.not_mem_nil, or_false] at hmem
  rcases hmem with ⟨rfl, rfl⟩ | ⟨rfl, rfl⟩ | ⟨rfl, rfl⟩ | ⟨rfl, rfl⟩
  · exact .inl (by decide)
  · exact absurd hroom (by decide)
  · exact .inr (by decide)
  · exact absurd hroom (by decide)

end Memory

end RegisterMachine
