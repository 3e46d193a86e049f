import RegisterMachine.Proofs.AssembledRun

namespace RegisterMachine

namespace Instruction

/-- The location that an instruction may jump to. -/
def target? {Location Syscall : Type} : Instruction Location Syscall → Option Location
  | branch _ _ location => some location
  | jump location => some location
  | _ => none

theorem target?_of_jumps {Location Syscall : Type} {i : Instruction Location Syscall} {registers : Registers}
    {location : Location} (h : i.Jumps registers location) : i.target? = some location := by
  cases i with
  | branch test condition l =>
    obtain ⟨rfl, -⟩ := h
    rfl
  | jump l =>
    have he : l = location := h
    rw [he]
    rfl
  | _ => exact h.elim

theorem target?_of_resolve {Location Syscall : Type} {scope : Scope Location Syscall}
    {written : Instruction String String} {i : Instruction Location Syscall} {location : Location}
    (hr : written.resolve scope = some i) (ht : i.target? = some location) :
    ∃ name, written.target? = some name ∧ scope.location? name = some location := by
  cases written with
  | branch test condition name =>
    obtain ⟨l, hl, rfl⟩ := Option.map_eq_some_iff.mp hr
    cases ht
    exact ⟨name, rfl, hl⟩
  | jump name =>
    obtain ⟨l, hl, rfl⟩ := Option.map_eq_some_iff.mp hr
    cases ht
    exact ⟨name, rfl, hl⟩
  | mark name =>
    obtain ⟨l, -, rfl⟩ := Option.map_eq_some_iff.mp hr
    cases ht
  | call name arguments =>
    obtain ⟨l, -, rfl⟩ := Option.map_eq_some_iff.mp hr
    cases ht
  | load target source => cases hr; cases ht
  | store address source => cases hr; cases ht
  | fetch address target => cases hr; cases ht
  | arithmetic op left right target => cases hr; cases ht
  | halt status => cases hr; cases ht

end Instruction

/-- Every label that a jump names is declared on an earlier line. -/
def JumpsBack (program : List (Instruction String String)) : Prop :=
  ∀ j < program.length, ∀ name ∈ program[j]?.bind Instruction.target?, ∃ k < j, program[k]? = some (.mark name)

instance : DecidablePred JumpsBack := fun program => by unfold JumpsBack; infer_instance

namespace Machine

/-- Jumps back never miss. If every label that a jump names is declared on an earlier line, no run of
the assembled program fails for want of a location, however long it is. -/
theorem run_resolves_backward_jumps {source : String} {code : List UInt8}
    {program : List (Instruction String String)} {m : Machine} (ha : assemble .standard source = .ok code)
    (hp : programOf source = .ok program) (hb : JumpsBack program) (hm : Ready .standard code m)
    (fuel : Nat) (id : UInt8) : (run fuel m).1 ≠ .failed (.unresolvedLocation id) := by
  obtain ⟨program', encoded, hp', hl, rfl⟩ := assemble_eq_ok ha
  rw [hp] at hp'
  cases hp'
  intro hr
  obtain ⟨fuel', -, before, after, -, ht, hs⟩ := tracked_of_failed standard_disciplined hl.encodable hm hr
  obtain ⟨i, rest, hd, hj, hn⟩ := (step_unresolved_iff ht.syscalls).mp ⟨after, hs⟩
  obtain ⟨c, hc, hcur, -⟩ := ht.at_line hl.encodable
  cases hi : encoded[c]? with
  | none =>
    rw [ht.step_at_end hcur hi] at hs
    cases hs
  | some i' =>
    rw [ht.decode_ahead hl.encodable hcur hi] at hd
    cases hd
    obtain ⟨written, hw, hres⟩ := hl.right hi
    obtain ⟨name, htn, hid⟩ := Instruction.target?_of_resolve hres (Instruction.target?_of_jumps hj)
    obtain ⟨k, hk, -, hmark⟩ := hl.mark_of_location hid
    obtain ⟨hlt, -⟩ := List.getElem?_eq_some_iff.mp hw
    obtain ⟨l, hlc, hdecl⟩ := hb c hlt name (by rw [hw]; exact htn)
    rw [hl.declared l name hdecl] at hk
    cases hk
    exact ht.passed_mark hl.encodable hcur hc hlc hmark hn

/-- Two labels on one place, and jumps back to both. -/
theorem run_resolves_jumps_to_adjacent_labels :
    ∃ code program m, assemble .standard "top:\nagain:\nsub 3 1 R0\njnz R0 top\njump again" = .ok code ∧
      programOf "top:\nagain:\nsub 3 1 R0\njnz R0 top\njump again" = .ok program ∧ JumpsBack program ∧
      Ready .standard code m ∧ ∀ fuel id, (run fuel m).1 ≠ .failed (.unresolvedLocation id) := by
  have ha : assemble .standard "top:\nagain:\nsub 3 1 R0\njnz R0 top\njump again" =
      .ok [13, 0, 13, 0, 2, 1, 1, 3, 1, 1, 1, 0, 9, 0, 0, 0, 12, 0] := by decide +kernel
  have hp : programOf "top:\nagain:\nsub 3 1 R0\njnz R0 top\njump again" =
      .ok [.mark "top", .mark "again", .arithmetic .sub (.value (.byte 3)) (.value (.byte 1)) 0,
        .branch .nonzero (.register 0) "top", .jump "again"] := by decide +kernel
  have hb : JumpsBack [.mark "top", .mark "again", .arithmetic .sub (.value (.byte 3)) (.value (.byte 1)) 0,
      .branch .nonzero (.register 0) "top", .jump "again"] := by decide
  have hm : Ready .standard [13, 0, 13, 0, 2, 1, 1, 3, 1, 1, 1, 0, 9, 0, 0, 0, 12, 0]
      { code := ⟨[13, 0, 13, 0, 2, 1, 1, 3, 1, 1, 1, 0, 9, 0, 0, 0, 12, 0], 18, 0⟩, registers := .empty 1,
        memory := .zeroed 0 } := ⟨⟨none, 0, 1⟩, _, rfl, rfl⟩
  exact ⟨_, _, _, ha, hp, hb, hm, fun fuel id => run_resolves_backward_jumps ha hp hb hm fuel id⟩

end Machine

end RegisterMachine
