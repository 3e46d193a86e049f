import RegisterMachine.Proofs.SourceProgram
import RegisterMachine.Proofs.Sweep

namespace RegisterMachine

/-- The offset of a line in the bytecode. -/
def offsetOf (encoded : List (Instruction UInt8 UInt8)) (k : Nat) : Nat :=
  ((encoded.take k).flatMap Instruction.encode).length

section Layout

variable {encoded : List (Instruction UInt8 UInt8)} {k : Nat} {i : Instruction UInt8 UInt8}

theorem drop_offsetOf (encoded : List (Instruction UInt8 UInt8)) (k : Nat) :
    (encoded.flatMap Instruction.encode).drop (offsetOf encoded k) =
      (encoded.drop k).flatMap Instruction.encode := by
  conv => lhs; rw [← List.take_append_drop k encoded, List.flatMap_append]
  rw [List.take_append_drop]
  exact List.drop_left

theorem length_sub_drop (encoded : List (Instruction UInt8 UInt8)) (k : Nat) :
    (encoded.flatMap Instruction.encode).length - ((encoded.drop k).flatMap Instruction.encode).length =
      offsetOf encoded k := by
  have hl : (encoded.flatMap Instruction.encode).length =
      offsetOf encoded k + ((encoded.drop k).flatMap Instruction.encode).length := by
    conv => lhs; rw [← List.take_append_drop k encoded, List.flatMap_append, List.length_append]
    rfl
  omega

theorem drop_eq_cons (hk : encoded[k]? = some i) : encoded.drop k = i :: encoded.drop (k + 1) := by
  obtain ⟨hlt, he⟩ := List.getElem?_eq_some_iff.mp hk
  rw [List.drop_eq_getElem_cons hlt, he]

theorem bytes_at_offset (hk : encoded[k]? = some i) :
    (encoded.flatMap Instruction.encode).drop (offsetOf encoded k) =
      i.encode ++ (encoded.drop (k + 1)).flatMap Instruction.encode := by
  rw [drop_offsetOf, drop_eq_cons hk, List.flatMap_cons]

theorem offsetOf_succ (hk : encoded[k]? = some i) :
    offsetOf encoded (k + 1) = offsetOf encoded k + i.encode.length := by
  obtain ⟨hlt, he⟩ := List.getElem?_eq_some_iff.mp hk
  rw [offsetOf, List.take_succ_eq_append_getElem hlt, List.flatMap_append, List.length_append, he]
  simp [offsetOf]

theorem decode_at_offset (he : ∀ i ∈ encoded, i.Encodable) (hk : encoded[k]? = some i) :
    Instruction.decode ((encoded.flatMap Instruction.encode).drop (offsetOf encoded k)) =
      .ok i ((encoded.drop (k + 1)).flatMap Instruction.encode) :=
  Instruction.decode_eq_ok.mpr ⟨he i (List.mem_of_getElem? hk), bytes_at_offset hk⟩

/-- The sweep of the bytecode goes from line to line. -/
theorem sweep_eq_some (he : ∀ i ∈ encoded, i.Encodable) {offset : Nat} :
    sweep (encoded.flatMap Instruction.encode) k = some offset ↔ k ≤ encoded.length ∧ offset = offsetOf encoded k := by
  induction k generalizing offset with
  | zero =>
    simp only [sweep, offsetOf, Option.some.injEq, Nat.zero_le, true_and]
    exact eq_comm
  | succ k ih =>
    rw [sweep, Option.bind_eq_some_iff]
    constructor
    · intro h
      obtain ⟨a, ha, ho⟩ := h
      obtain ⟨hk, rfl⟩ := ih.mp ha
      cases hi : encoded[k]? with
      | none =>
        have hd : encoded.drop k = [] := List.drop_eq_nil_of_le (List.getElem?_eq_none_iff.mp hi)
        rw [offsetAfter, drop_offsetOf, hd] at ho
        cases ho
      | some i =>
        rw [offsetAfter_of_decode (decode_at_offset he hi), ← offsetOf_succ hi] at ho
        cases ho
        obtain ⟨hlt, -⟩ := List.getElem?_eq_some_iff.mp hi
        exact ⟨hlt, rfl⟩
    · intro h
      obtain ⟨hk, rfl⟩ := h
      obtain ⟨i, hi⟩ : ∃ i, encoded[k]? = some i := ⟨_, List.getElem?_eq_getElem hk⟩
      refine ⟨offsetOf encoded k, ih.mpr ⟨by omega, rfl⟩, ?_⟩
      rw [offsetAfter_of_decode (decode_at_offset he hi), offsetOf_succ hi]

theorem offsetOf_lt {l : Nat} (hl : l ≤ encoded.length) (h : k < l) : offsetOf encoded k < offsetOf encoded l := by
  induction l with
  | zero => omega
  | succ l ih =>
    have hi : encoded[l]? = some encoded[l] := List.getElem?_eq_getElem hl
    have hp : 0 < (encoded[l]).encode.length := by simp [Instruction.encode]
    rw [offsetOf_succ hi]
    by_cases he : k = l
    · subst he
      omega
    · have hlt := ih (by omega) (by omega)
      omega

theorem offsetOf_inj {l : Nat} (hk : k ≤ encoded.length) (hl : l ≤ encoded.length)
    (h : offsetOf encoded k = offsetOf encoded l) : k = l := by
  by_contra hne
  rcases Nat.lt_or_gt_of_ne hne with hlt | hgt
  · have := offsetOf_lt hl hlt
    omega
  · have := offsetOf_lt hk hgt
    omega

end Layout

theorem Instruction.eq_mark_of_label? {Location Syscall : Type} {i : Instruction Location Syscall} {location : Location}
    (h : i.label? = some location) : i = .mark location := by
  cases i with
  | mark l =>
    cases h
    rfl
  | _ => cases h

section Linked

variable {table : SyscallTable} {program : List (Instruction String String)}
  {encoded : List (Instruction UInt8 UInt8)} {k : Nat} {name : String}

theorem mark_of_declaration? (h : declaration? program name = some k) : program[k]? = some (.mark name) := by
  obtain ⟨hlt, hk, -⟩ := List.idxOf?_eq_some_iff.mp h
  rw [List.length_map] at hlt
  rw [List.getElem_map] at hk
  rw [List.getElem?_eq_getElem hlt, Instruction.eq_mark_of_label? hk]

theorem Linked.encodable (h : Linked table program encoded) : ∀ i ∈ encoded, i.Encodable := by
  intro i hm
  obtain ⟨k, hk⟩ := List.mem_iff_getElem?.mp hm
  obtain ⟨written, -, -, he⟩ := forall₂_right h.resolved hk
  exact he

theorem Linked.length_eq (h : Linked table program encoded) : program.length = encoded.length :=
  h.resolved.length_eq

theorem Linked.left {written : Instruction String String} (h : Linked table program encoded)
    (hk : program[k]? = some written) :
    ∃ i, encoded[k]? = some i ∧ written.resolve (scopeOf table program) = some i := by
  obtain ⟨i, hi, hr, -⟩ := forall₂_left h.resolved hk
  exact ⟨i, hi, hr⟩

theorem Linked.right {i : Instruction UInt8 UInt8} (h : Linked table program encoded) (hk : encoded[k]? = some i) :
    ∃ written, program[k]? = some written ∧ written.resolve (scopeOf table program) = some i := by
  obtain ⟨written, hw, hr, -⟩ := forall₂_right h.resolved hk
  exact ⟨written, hw, hr⟩

theorem Linked.mark_of_location {id : UInt8} (h : Linked table program encoded)
    (hl : (scopeOf table program).location? name = some id) :
    ∃ k, declaration? program name = some k ∧ id = UInt8.ofNat (instructionsBefore program k) ∧
      encoded[k]? = some (.mark id) := by
  obtain ⟨k, hk, he⟩ := Option.map_eq_some_iff.mp hl
  refine ⟨k, hk, he.symm, ?_⟩
  obtain ⟨i, hi, hr⟩ := h.left (mark_of_declaration? hk)
  rw [Instruction.resolve, hl] at hr
  cases hr
  exact hi

end Linked

end RegisterMachine
