import RegisterMachine.LittleEndian.Lemmas
import RegisterMachine.Value.Codec

namespace RegisterMachine

theorem bind_eq_ok {ε σ α β : Type} {x : EStateM ε σ α} {f : α → EStateM ε σ β} {s t : σ} {b : β} :
    (x >>= f) s = .ok b t ↔ ∃ a u, x s = .ok a u ∧ f a u = .ok b t := by
  change EStateM.bind x f s = .ok b t ↔ _
  unfold EStateM.bind
  cases hx : x s with
  | ok a u =>
    constructor
    · intro h
      exact ⟨a, u, rfl, h⟩
    · rintro ⟨a', u', he, h⟩
      cases he
      exact h
  | error e u => simp

theorem bind_eq_error {ε σ α β : Type} {x : EStateM ε σ α} {f : α → EStateM ε σ β} {s t : σ} {e : ε} :
    (x >>= f) s = .error e t ↔ x s = .error e t ∨ ∃ a u, x s = .ok a u ∧ f a u = .error e t := by
  change EStateM.bind x f s = .error e t ↔ _
  unfold EStateM.bind
  cases hx : x s with
  | ok a u =>
    constructor
    · intro h
      exact .inr ⟨a, u, rfl, h⟩
    · rintro (h | ⟨a', u', he, h⟩)
      · cases h
      · cases he
        exact h
  | error e' u => simp

theorem map_eq_ok {ε σ α β : Type} {f : α → β} {x : EStateM ε σ α} {s t : σ} {b : β} :
    (f <$> x) s = .ok b t ↔ ∃ a, x s = .ok a t ∧ f a = b := by
  change EStateM.map f x s = .ok b t ↔ _
  unfold EStateM.map
  cases hx : x s with
  | ok a u =>
    constructor
    · intro h
      cases h
      exact ⟨a, rfl, rfl⟩
    · rintro ⟨a', he, rfl⟩
      cases he
      rfl
  | error e u => simp

theorem map_eq_error {ε σ α β : Type} {f : α → β} {x : EStateM ε σ α} {s t : σ} {e : ε} :
    (f <$> x) s = .error e t ↔ x s = .error e t := by
  change EStateM.map f x s = .error e t ↔ _
  unfold EStateM.map
  cases x s <;> simp

theorem take_eq_ok {n : Nat} {input bytes rest : List UInt8} :
    Decoder.take n input = .ok bytes rest ↔ bytes.length = n ∧ input = bytes ++ rest := by
  unfold Decoder.take
  rw [splitExactly_eq]
  by_cases h : n ≤ input.length
  · simp only [h, if_true, EStateM.Result.ok.injEq]
    constructor
    · rintro ⟨rfl, rfl⟩
      exact ⟨by simp [h], by simp⟩
    · rintro ⟨rfl, rfl⟩
      simp
  · simp only [h, if_false, reduceCtorEq, false_iff]
    rintro ⟨rfl, rfl⟩
    simp at h

theorem byte_eq_ok {input rest : List UInt8} {b : UInt8} :
    Decoder.byte input = .ok b rest ↔ input = b :: rest := by
  cases input with
  | nil => simp [Decoder.byte]
  | cons c cs => simp [Decoder.byte]

section Repetition

variable {α : Type} {entry : Decoder α} {encode : α → List UInt8} {D : α → Prop}

theorem timesFrom_eq_ok
    (he : ∀ b x rest, entry b = .ok x rest ↔ D x ∧ b = encode x ++ rest)
    {n : Nat} {taken ys : List α} {input rest : List UInt8} :
    Decoder.timesFrom entry n taken input = .ok ys rest ↔
      ∃ xs, ys = taken.reverse ++ xs ∧ xs.length = n ∧ (∀ x ∈ xs, D x) ∧
        input = xs.flatMap encode ++ rest := by
  induction n generalizing taken input with
  | zero =>
    simp only [Decoder.timesFrom, EStateM.Result.ok.injEq]
    constructor
    · rintro ⟨rfl, rfl⟩
      exact ⟨[], by simp⟩
    · rintro ⟨xs, rfl, hl, -, rfl⟩
      simp [List.length_eq_zero_iff.mp hl]
  | succ n ih =>
    constructor
    · intro h
      simp only [Decoder.timesFrom] at h
      split at h
      next x u hx =>
        obtain ⟨hd, rfl⟩ := (he _ _ _).mp hx
        obtain ⟨xs, rfl, rfl, hxs, rfl⟩ := ih.mp h
        exact ⟨x :: xs, by simp, by simp, by simpa using ⟨hd, hxs⟩, by simp⟩
      next => cases h
    · rintro ⟨xs, rfl, hl, hxs, rfl⟩
      obtain ⟨x, xs, rfl⟩ := List.exists_cons_of_length_eq_add_one hl
      have hx := (he _ x (xs.flatMap encode ++ rest)).mpr ⟨hxs x (by simp), rfl⟩
      simp only [Decoder.timesFrom, List.flatMap_cons, List.append_assoc, hx]
      exact ih.mpr ⟨xs, by simp, by simpa using hl, fun y hy => hxs y (by simp [hy]), rfl⟩

theorem times_eq_ok (he : ∀ b x rest, entry b = .ok x rest ↔ D x ∧ b = encode x ++ rest)
    {n : Nat} {xs : List α} {input rest : List UInt8} :
    Decoder.times entry n input = .ok xs rest ↔
      xs.length = n ∧ (∀ x ∈ xs, D x) ∧ input = xs.flatMap encode ++ rest := by
  unfold Decoder.times
  rw [timesFrom_eq_ok he]
  constructor
  · rintro ⟨ys, rfl, h⟩
    simpa using h
  · intro h
    exact ⟨xs, by simp, h⟩

end Repetition

namespace Codec

/-- Writing and reading are inverse on a set of values, whatever follows in the input, nothing
else is read, and `size` tells the number of bytes. -/
structure Lawful {α : Type} (codec : Codec α) (D : α → Prop) : Prop where
  decode_encode : ∀ x, D x → ∀ rest, codec.decode (codec.encode x ++ rest) = .ok x rest
  encode_of_decode : ∀ b x rest, codec.decode b = .ok x rest → D x ∧ b = codec.encode x ++ rest
  size_eq : ∀ x, D x → codec.size x = (codec.encode x).length

theorem Lawful.decode_eq_ok {α : Type} {codec : Codec α} {D : α → Prop} (h : codec.Lawful D)
    {b rest : List UInt8} {x : α} :
    codec.decode b = .ok x rest ↔ D x ∧ b = codec.encode x ++ rest := by
  constructor
  · exact h.encode_of_decode b x rest
  · rintro ⟨hx, rfl⟩
    exact h.decode_encode x hx rest

/-- The law of a format may be given as one equivalence. -/
theorem lawful_of_decode_eq_ok {α : Type} {codec : Codec α} {D : α → Prop}
    (hd : ∀ b x rest, codec.decode b = .ok x rest ↔ D x ∧ b = codec.encode x ++ rest)
    (hs : ∀ x, D x → codec.size x = (codec.encode x).length) : codec.Lawful D where
  decode_encode x hx rest := (hd _ x rest).mpr ⟨hx, rfl⟩
  encode_of_decode b x rest := (hd b x rest).mp
  size_eq := hs

theorem word_lawful {α : Type} {width : Nat} {toNat : α → Nat} {ofNat : Nat → α}
    (hb : ∀ x, toNat x < 256 ^ width) (hx : ∀ x, ofNat (toNat x) = x)
    (hn : ∀ n, n < 256 ^ width → toNat (ofNat n) = n) :
    (word width toNat ofNat).Lawful fun _ => True := by
  apply lawful_of_decode_eq_ok
  · intro b x rest
    simp only [word, bind_eq_ok, take_eq_ok, true_and]
    constructor
    · rintro ⟨bytes, u, ⟨hl, rfl⟩, h⟩
      cases h
      have hv := LittleEndian.value_lt bytes
      rw [hl] at hv
      rw [hn _ hv, ← hl, LittleEndian.bytes_value]
    · rintro rfl
      refine ⟨_, rest, ⟨LittleEndian.length_bytes _ _, rfl⟩, ?_⟩
      rw [LittleEndian.value_bytes, Nat.mod_eq_of_lt (hb x), hx]
      rfl
  · intro x _
    simp [word]

theorem uint8_lawful : uint8.Lawful fun _ => True :=
  word_lawful (fun x => x.toNat_lt) (fun x => by simp)
    (fun n hn => by rw [UInt8.toNat_ofNat']; omega)

theorem uint64_lawful : uint64.Lawful fun _ => True :=
  word_lawful (fun x => x.toNat_lt) (fun x => by simp)
    (fun n hn => by rw [UInt64.toNat_ofNat']; omega)

theorem int8_lawful : int8.Lawful fun _ => True :=
  word_lawful (fun x => x.toUInt8.toNat_lt) (fun x => by simp)
    (fun n hn => by simp [UInt8.toNat_ofNat']; omega)

theorem int32_lawful : int32.Lawful fun _ => True :=
  word_lawful (fun x => x.toUInt32.toNat_lt) (fun x => by simp)
    (fun n hn => by simp [UInt32.toNat_ofNat']; omega)

theorem int64_lawful : int64.Lawful fun _ => True :=
  word_lawful (fun x => x.toUInt64.toNat_lt) (fun x => by simp)
    (fun n hn => by simp [UInt64.toNat_ofNat']; omega)

end Codec

end RegisterMachine
