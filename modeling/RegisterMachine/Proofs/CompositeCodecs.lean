import RegisterMachine.Program
import RegisterMachine.Proofs.ValueCodecLaws

namespace RegisterMachine

namespace Codec

theorem uint16_lawful : uint16.Lawful fun _ => True :=
  word_lawful (fun x => x.toNat_lt) (fun x => by simp)
    (fun n hn => by rw [UInt16.toNat_ofNat']; omega)

theorem uint32_lawful : uint32.Lawful fun _ => True :=
  word_lawful (fun x => x.toNat_lt) (fun x => by simp)
    (fun n hn => by rw [UInt32.toNat_ofNat']; omega)

theorem int16_lawful : int16.Lawful fun _ => True :=
  word_lawful (fun x => x.toUInt16.toNat_lt) (fun x => by simp)
    (fun n hn => by simp [UInt16.toNat_ofNat']; omega)

theorem toUInt64_toUSize {n : UInt64} (h : n.toNat < USize.size) : n.toUSize.toUInt64 = n := by
  apply UInt64.toNat_inj.mp
  rw [USize.toNat_toUInt64, UInt64.toNat_toUSize]
  exact Nat.mod_eq_of_lt h

theorem usize_lawful : usize.Lawful fun _ => True := by
  apply lawful_of_decode_eq_ok
  · intro b x rest
    simp only [usize, bind_eq_ok, uint64_lawful.decode_eq_ok, true_and]
    constructor
    · intro h
      obtain ⟨n, u, rfl, h⟩ := h
      by_cases hn : n.toNat < USize.size
      · rw [if_pos hn] at h
        cases h
        rw [toUInt64_toUSize hn]
      · rw [if_neg hn] at h
        cases h
    · intro h
      refine ⟨x.toUInt64, rest, h, ?_⟩
      have hx : x.toUInt64.toNat < USize.size := by
        rw [USize.toNat_toUInt64]
        exact x.toNat_lt_size
      rw [if_pos hx, USize.toUSize_toUInt64]
      rfl
  · intro x _
    exact uint64_lawful.size_eq _ trivial

section Entries

variable {α : Type} {entry : Codec α} {D : α → Prop}

theorem Lawful.totalSize_eq (h : entry.Lawful D) {xs : List α} (hx : ∀ x ∈ xs, D x) :
    totalSize entry xs = (xs.flatMap entry.encode).length := by
  induction xs with
  | nil => rfl
  | cons x xs ih =>
    have hs := h.size_eq x (hx x (by simp))
    have ht := ih fun y hy => hx y (by simp [hy])
    rw [totalSize, hs, ht, List.flatMap_cons, List.length_append]

theorem array_lawful (h : entry.Lawful D) (n : Nat) :
    (array entry n).Lawful fun xs => xs.length = n ∧ ∀ x ∈ xs, D x := by
  apply lawful_of_decode_eq_ok
  · intro b xs rest
    have ht : Decoder.times entry.decode n b = .ok xs rest ↔
        xs.length = n ∧ (∀ x ∈ xs, D x) ∧ b = xs.flatMap entry.encode ++ rest :=
      times_eq_ok fun _ _ _ => h.decode_eq_ok
    simp only [array, ht, and_assoc]
  · intro xs hx
    exact h.totalSize_eq hx.2

/-- The entries are not looked at when there are too many of them. -/
theorem list_decode_of_long {length : UInt64} {b rest : List UInt8} (hd : uint64.decode b = .ok length rest)
    (hl : maxListLength < length.toNat) : (list entry).decode b = .error .lengthOverflow rest := by
  change EStateM.bind uint64.decode _ b = _
  simp only [EStateM.bind, hd, if_pos hl]
  rfl

theorem list_decode_of_short {length : UInt64} {b rest : List UInt8} (hd : uint64.decode b = .ok length rest)
    (hl : length.toNat ≤ maxListLength) : (list entry).decode b = Decoder.times entry.decode length.toNat rest := by
  change EStateM.bind uint64.decode _ b = _
  simp only [EStateM.bind, hd, if_neg (Nat.not_lt.mpr hl)]

theorem list_lawful (h : entry.Lawful D) :
    (list entry).Lawful fun xs => xs.length ≤ maxListLength ∧ ∀ x ∈ xs, D x := by
  apply lawful_of_decode_eq_ok
  · intro b xs rest
    constructor
    · intro hd
      obtain ⟨length, u, hu, -⟩ := bind_eq_ok.mp hd
      rcases Nat.lt_or_ge maxListLength length.toNat with hl | hl
      · rw [list_decode_of_long hu hl] at hd
        cases hd
      · rw [list_decode_of_short hu hl, times_eq_ok fun _ _ _ => h.decode_eq_ok] at hd
        obtain ⟨hn, hx, rfl⟩ := hd
        obtain ⟨-, rfl⟩ := uint64_lawful.decode_eq_ok.mp hu
        refine ⟨⟨by omega, hx⟩, ?_⟩
        simp only [list, hn, List.append_assoc]
        rfl
    · intro hx
      obtain ⟨⟨hl, hx⟩, rfl⟩ := hx
      have hn : (UInt64.ofNat xs.length).toNat = xs.length := by
        unfold maxListLength at hl
        rw [UInt64.toNat_ofNat']
        omega
      have hu : uint64.decode ((list entry).encode xs ++ rest) =
          .ok (UInt64.ofNat xs.length) (xs.flatMap entry.encode ++ rest) := by
        rw [uint64_lawful.decode_eq_ok]
        refine ⟨trivial, ?_⟩
        simp only [list, uint64, word, hn, List.append_assoc]
      rw [list_decode_of_short hu (by omega), times_eq_ok fun _ _ _ => h.decode_eq_ok]
      exact ⟨hn.symm, hx, rfl⟩
  · intro xs hx
    have ht := h.totalSize_eq hx.2
    simp only [list, List.length_append, LittleEndian.length_bytes, ht]

/-- A length that is too large is refused when its eight bytes have been read. -/
theorem list_decode_overflow (entry : Codec α) {front : List UInt8} (rest : List UInt8) (hf : front.length = 8)
    (hl : maxListLength < LittleEndian.value front) :
    (list entry).decode (front ++ rest) = .error .lengthOverflow rest := by
  have hv := LittleEndian.value_lt front
  have hn : (UInt64.ofNat (LittleEndian.value front)).toNat = LittleEndian.value front := by
    rw [hf] at hv
    rw [UInt64.toNat_ofNat']
    omega
  have hu : uint64.decode (front ++ rest) = .ok (UInt64.ofNat (LittleEndian.value front)) rest := by
    rw [uint64_lawful.decode_eq_ok]
    refine ⟨trivial, ?_⟩
    simp only [uint64, word, hn]
    rw [← hf, LittleEndian.bytes_value]
  exact list_decode_of_long hu (by omega)

theorem Lawful.parse_eq_ok (h : entry.Lawful D) {b : List UInt8} {x : α} :
    entry.parse b = .ok x ↔ D x ∧ b = entry.encode x := by
  have hd : entry.decode b = .ok x [] ↔ D x ∧ b = entry.encode x ++ [] := h.decode_eq_ok
  rw [List.append_nil] at hd
  rw [← hd, parse, Decoder.whole]
  cases entry.decode b with
  | error e rest => simp
  | ok y rest =>
    cases rest with
    | nil => simp
    | cons c cs => simp

end Entries

theorem version_lawful : version.Lawful fun _ => True := by
  apply lawful_of_decode_eq_ok
  · intro b v rest
    simp only [version, bind_eq_ok, byte_eq_ok, true_and]
    constructor
    · intro h
      obtain ⟨major, _, rfl, minor, _, rfl, patch, _, rfl, h⟩ := h
      cases h
      rfl
    · rintro rfl
      exact ⟨_, _, rfl, _, _, rfl, _, _, rfl, rfl⟩
  · intro v _
    rfl

theorem program_lawful : program.Lawful fun p => p.code.length ≤ maxListLength := by
  have hl : program.Lawful fun p => p.code.length ≤ maxListLength ∧ ∀ b ∈ p.code, True :=
    map_lawful (list_lawful uint8_lawful) (fun _ => rfl) (fun _ => rfl)
  simp only [implies_true, and_true] at hl
  exact hl

end Codec

/-- The types that are written in bytes. -/
inductive Format
  | uint8
  | int8
  | uint16
  | int16
  | uint32
  | int32
  | uint64
  | int64
  | usize
  | double
  | bool
  | array (entry : Format) (n : Nat)
  | list (entry : Format)
  | version
  | program
  deriving DecidableEq, Repr

namespace Format

def Carrier : Format → Type
  | uint8 => UInt8
  | int8 => Int8
  | uint16 => UInt16
  | int16 => Int16
  | uint32 => UInt32
  | int32 => Int32
  | uint64 => UInt64
  | int64 => Int64
  | usize => USize
  | double => Double
  | bool => Bool
  | array entry _ => List entry.Carrier
  | list entry => List entry.Carrier
  | version => Version
  | program => Program

def codec : (f : Format) → Codec f.Carrier
  | uint8 => Codec.uint8
  | int8 => Codec.int8
  | uint16 => Codec.uint16
  | int16 => Codec.int16
  | uint32 => Codec.uint32
  | int32 => Codec.int32
  | uint64 => Codec.uint64
  | int64 => Codec.int64
  | usize => Codec.usize
  | double => Codec.double
  | bool => Codec.bool
  | array entry n => Codec.array entry.codec n
  | list entry => Codec.list entry.codec
  | version => Codec.version
  | program => Codec.program

/-- Whether the arrays in a value have their length and its lists keep to the limit. -/
def Within : (f : Format) → f.Carrier → Prop
  | array entry n, (xs : List entry.Carrier) => xs.length = n ∧ ∀ x ∈ xs, entry.Within x
  | list entry, (xs : List entry.Carrier) => xs.length ≤ Codec.maxListLength ∧ ∀ x ∈ xs, entry.Within x
  | program, (p : Program) => p.code.length ≤ Codec.maxListLength
  | _, _ => True

theorem codec_lawful (f : Format) : f.codec.Lawful f.Within := by
  induction f with
  | uint8 => exact Codec.uint8_lawful
  | int8 => exact Codec.int8_lawful
  | uint16 => exact Codec.uint16_lawful
  | int16 => exact Codec.int16_lawful
  | uint32 => exact Codec.uint32_lawful
  | int32 => exact Codec.int32_lawful
  | uint64 => exact Codec.uint64_lawful
  | int64 => exact Codec.int64_lawful
  | usize => exact Codec.usize_lawful
  | double => exact Codec.double_lawful
  | bool => exact Codec.bool_lawful
  | array entry n ih => exact Codec.array_lawful ih n
  | list entry ih => exact Codec.list_lawful ih
  | version => exact Codec.version_lawful
  | program => exact Codec.program_lawful

end Format

namespace Codec

/-- Every format is lawful: words, Booleans and versions on all their values, arrays and lists of lawful
entries on those whose entries are, as far as lists keep to the limit, and programs likewise. So whatever is
built of these reads exactly what it writes of the values within the limit. -/
theorem formats_lawful :
    (uint8.Lawful fun _ => True) ∧ (int8.Lawful fun _ => True) ∧ (uint16.Lawful fun _ => True) ∧
    (int16.Lawful fun _ => True) ∧ (uint32.Lawful fun _ => True) ∧ (int32.Lawful fun _ => True) ∧
    (uint64.Lawful fun _ => True) ∧ (int64.Lawful fun _ => True) ∧ (usize.Lawful fun _ => True) ∧
    (double.Lawful fun _ => True) ∧ (bool.Lawful fun _ => True) ∧
    (∀ {α : Type} {entry : Codec α} {D : α → Prop}, entry.Lawful D →
      (∀ n, (array entry n).Lawful fun xs => xs.length = n ∧ ∀ x ∈ xs, D x) ∧
      (list entry).Lawful fun xs => xs.length ≤ 16 * 1024 * 1024 ∧ ∀ x ∈ xs, D x) ∧
    (∀ {α : Type} (entry : Codec α) {front : List UInt8} (rest : List UInt8), front.length = 8 →
      16 * 1024 * 1024 < LittleEndian.value front →
      (list entry).decode (front ++ rest) = .error .lengthOverflow rest) ∧
    (version.Lawful fun _ => True) ∧ (program.Lawful fun p => p.code.length ≤ 16 * 1024 * 1024) ∧
    ∀ (f : Format) (b : List UInt8) (x : f.Carrier), f.codec.parse b = .ok x ↔ f.Within x ∧ b = f.codec.encode x := by
  refine ⟨uint8_lawful, int8_lawful, uint16_lawful, int16_lawful, uint32_lawful, int32_lawful, uint64_lawful,
    int64_lawful, usize_lawful, double_lawful, bool_lawful, ?_, list_decode_overflow, version_lawful,
    program_lawful, ?_⟩
  · intro α entry D h
    exact ⟨array_lawful h, list_lawful h⟩
  · intro f b x
    exact f.codec_lawful.parse_eq_ok

/-- Three empty arrays in a list: the entries take no bytes, and the length alone tells how many there are. -/
theorem formats_lawful_of_empty_entries :
    (list (array uint8 0)).decode [3, 0, 0, 0, 0, 0, 0, 0, 9] = .ok [[], [], []] [9] ∧
      (list (array uint8 0)).decode [1, 0, 0, 1, 0, 0, 0, 0, 9] = .error .lengthOverflow [9] := by
  obtain ⟨hbyte, -, -, -, -, -, -, -, -, -, -, hentries, hlong, -, -, -⟩ := formats_lawful
  have hempty := (hentries hbyte).1 0
  have hlist := (hentries hempty).2
  refine ⟨hlist.decode_encode [[], [], []] ⟨by decide, by simp⟩ [9], ?_⟩
  exact @hlong _ (array uint8 0) [1, 0, 0, 1, 0, 0, 0, 0] [9] rfl (by decide)

end Codec

end RegisterMachine
