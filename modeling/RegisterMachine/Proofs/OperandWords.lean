import RegisterMachine.Proofs.SourceLines

namespace RegisterMachine

/-- A word stands for these bytes where an operand of the given kind is expected. A label may be declared on any
line. -/
def Slot.Writes (table : SyscallTable) (lines : List (List Char)) : Slot → String → List UInt8 → Prop
  | register, word, part => ∃ index, Literal.register word = .ok index ∧ part = [index]
  | address, word, part => ∃ address, Literal.address word = .ok address ∧ part = [address]
  | location, word, part => ∃ id, Denotes lines word id ∧ part = [id]
  | source, word, part => ∃ operand, Literal.operand word = .ok operand ∧ part = operand.encode
  | status, word, part => ∃ operand, Literal.operand word = .ok operand ∧ part = operand.encode
  | syscall, word, part => ∃ index, table.indexOf? word = some index ∧ part = [index]

namespace Opcode

/-- The numbers of operands that an instruction may be written with. -/
def Admits : Opcode → Nat → Prop
  | halt, n => n ≤ 1
  | call, n => 1 ≤ n ∧ n ≤ 256
  | op, n => n = op.slots.length

/-- What stands at a position among the operands. The arguments of a call follow its name. -/
def slotAt? : Opcode → Nat → Option Slot
  | call, 0 => some .syscall
  | call, _ + 1 => some .source
  | op, k => op.slots[k]?

/-- The operand at a position stands for these bytes. -/
def Places (table : SyscallTable) (lines : List (List Char)) (op : Opcode) (operand : Token × Nat)
    (part : List UInt8) : Prop :=
  ∃ slot, op.slotAt? operand.2 = some slot ∧ slot.Writes table lines operand.1.text part

/-- The operand at a position is one that can stand there. -/
def Reads (table : SyscallTable) (lines : List (List Char)) (op : Opcode) (operands : List Token) : Prop :=
  ∀ k token, operands[k]? = some token → ∃ part, op.Places table lines (token, k) part

/-- How the bytes of the operands are put together. An exit status that is left out is zero, and the name of a
system call is followed by the number of the arguments. -/
def layout : Opcode → List (List UInt8) → List UInt8
  | halt, [] => (Operand.value (.byte 0)).encode
  | call, name :: arguments => name ++ UInt8.ofNat arguments.length :: arguments.flatten
  | _, parts => parts.flatten

end Opcode

section Words

variable {table : SyscallTable} {lines : List (List Char)} {survey : Survey}

theorem exists_mapM {ε α β : Type} {f : α → Except ε β} {xs : List α} (h : ∀ x ∈ xs, ∃ y, f x = .ok y) :
    ∃ ys, xs.mapM f = .ok ys := by
  induction xs with
  | nil => exact ⟨[], rfl⟩
  | cons x xs ih =>
    obtain ⟨y, hy⟩ := h x List.mem_cons_self
    obtain ⟨ys, hys⟩ := ih fun z hz => h z (List.mem_cons_of_mem x hz)
    exact ⟨y :: ys, mapM_eq_ok.mpr (.cons hy (mapM_eq_ok.mp hys))⟩

theorem operandAt_of_ok {α : Type} {read : String → Except Problem α} {token : Token} {x : α}
    (h : read token.text = .ok x) : Instruction.operandAt read token = .ok x := by
  simp only [Instruction.operandAt, h]

theorem writes_source {token : Token} {o : Operand} (h : Instruction.operandAt Literal.operand token = .ok o) :
    Slot.source.Writes table lines token.text o.encode :=
  ⟨o, Instruction.operandAt_eq_ok h, rfl⟩

theorem writes_location {token : Token} {id : UInt8} (hc : Collected lines survey.labels)
    (h : Instruction.operandAt (Instruction.locationOf (survey.scope table)) token = .ok id) :
    Slot.location.Writes table lines token.text [id] :=
  ⟨id, (hc _ _).mp (Instruction.locationOf_eq_ok h), rfl⟩

theorem operandAt_of_denotes {token : Token} {id : UInt8} (hc : Collected lines survey.labels)
    (h : Denotes lines token.text id) :
    Instruction.operandAt (Instruction.locationOf (survey.scope table)) token = .ok id := by
  have hl : (survey.scope table).location? token.text = some id := (hc _ _).mpr h
  exact operandAt_of_ok (by simp only [Instruction.locationOf, hl])

theorem operandAt_of_indexOf? {token : Token} {index : UInt8} (h : table.indexOf? token.text = some index) :
    Instruction.operandAt (Instruction.syscallOf (survey.scope table)) token = .ok index := by
  have hs : (survey.scope table).syscall? token.text = some index := h
  exact operandAt_of_ok (by simp only [Instruction.syscallOf, hs])

theorem places_arguments {arguments : List Token} {os : List Operand} (n : Nat)
    (h : List.Forall₂ (fun token o => Instruction.operandAt Literal.operand token = .ok o) arguments os) :
    List.Forall₂ (Opcode.Places table lines .call) (arguments.zipIdx (n + 1)) (os.map Operand.encode) := by
  induction h generalizing n with
  | nil => exact .nil
  | cons ho _ ih => exact .cons ⟨.source, rfl, writes_source ho⟩ (ih (n + 1))

/-- What an instruction is read as has the bytes of its operands, each for its position. -/
theorem places_of_parse {op : Opcode} {head : Token} {operands : List Token} {i : Instruction UInt8 UInt8}
    (hc : Collected lines survey.labels) (h : Instruction.parse (survey.scope table) op head operands = .ok i) :
    op.Admits operands.length ∧ i.opcode = op ∧
      ∃ parts, List.Forall₂ (op.Places table lines) operands.zipIdx parts ∧ i.operandBytes = op.layout parts := by
  unfold Instruction.parse at h
  split at h
  next target source =>
    obtain ⟨t, ht, h⟩ := except_bind_eq_ok.mp h
    obtain ⟨s, hs, h⟩ := except_bind_eq_ok.mp h
    cases h
    have ht' := Instruction.operandAt_eq_ok ht
    refine ⟨rfl, rfl, [[t], s.encode], ?_, by simp [Instruction.operandBytes, Opcode.layout]⟩
    exact .cons ⟨_, rfl, _, ht', rfl⟩ (.cons ⟨_, rfl, writes_source hs⟩ .nil)
  next address source =>
    obtain ⟨a, ha, h⟩ := except_bind_eq_ok.mp h
    obtain ⟨s, hs, h⟩ := except_bind_eq_ok.mp h
    cases h
    have ha' := Instruction.operandAt_eq_ok ha
    refine ⟨rfl, rfl, [[a], s.encode], ?_, by simp [Instruction.operandBytes, Opcode.layout]⟩
    exact .cons ⟨_, rfl, _, ha', rfl⟩ (.cons ⟨_, rfl, writes_source hs⟩ .nil)
  next address target =>
    obtain ⟨a, ha, h⟩ := except_bind_eq_ok.mp h
    obtain ⟨t, ht, h⟩ := except_bind_eq_ok.mp h
    cases h
    have ha' := Instruction.operandAt_eq_ok ha
    have ht' := Instruction.operandAt_eq_ok ht
    refine ⟨rfl, rfl, [[a], [t]], ?_, rfl⟩
    exact .cons ⟨_, rfl, _, ha', rfl⟩ (.cons ⟨_, rfl, _, ht', rfl⟩ .nil)
  next op left right target =>
    obtain ⟨l, hl, h⟩ := except_bind_eq_ok.mp h
    obtain ⟨r, hr, h⟩ := except_bind_eq_ok.mp h
    obtain ⟨t, ht, h⟩ := except_bind_eq_ok.mp h
    cases h
    have ht' := Instruction.operandAt_eq_ok ht
    refine ⟨rfl, rfl, [l.encode, r.encode, [t]], ?_, by simp [Instruction.operandBytes, Opcode.layout]⟩
    exact .cons ⟨_, rfl, writes_source hl⟩ (.cons ⟨_, rfl, writes_source hr⟩ (.cons ⟨_, rfl, _, ht', rfl⟩ .nil))
  next =>
    cases h
    exact ⟨Nat.zero_le 1, rfl, [], .nil, rfl⟩
  next status =>
    obtain ⟨s, hs, h⟩ := except_bind_eq_ok.mp h
    cases h
    have hs' := Instruction.operandAt_eq_ok hs
    refine ⟨Nat.le_refl 1, rfl, [s.encode], ?_, by simp [Instruction.operandBytes, Opcode.layout]⟩
    exact .cons ⟨_, rfl, _, hs', rfl⟩ .nil
  next test condition location =>
    obtain ⟨c, hcond, h⟩ := except_bind_eq_ok.mp h
    obtain ⟨l, hl, h⟩ := except_bind_eq_ok.mp h
    cases h
    refine ⟨rfl, rfl, [c.encode, [l]], ?_, by simp [Instruction.operandBytes, Opcode.layout]⟩
    exact .cons ⟨_, rfl, writes_source hcond⟩ (.cons ⟨_, rfl, writes_location hc hl⟩ .nil)
  next location =>
    obtain ⟨l, hl, h⟩ := except_bind_eq_ok.mp h
    cases h
    exact ⟨rfl, rfl, [[l]], .cons ⟨_, rfl, writes_location hc hl⟩ .nil, rfl⟩
  next location =>
    obtain ⟨l, hl, h⟩ := except_bind_eq_ok.mp h
    cases h
    exact ⟨rfl, rfl, [[l]], .cons ⟨_, rfl, writes_location hc hl⟩ .nil, rfl⟩
  next name arguments =>
    obtain ⟨s, hs, h⟩ := except_bind_eq_ok.mp h
    obtain ⟨os, ho, h⟩ := except_bind_eq_ok.mp h
    by_cases hl : 255 < os.length
    · simp only [if_pos hl] at h
      cases h
    · simp only [if_neg hl] at h
      cases h
      have hos := mapM_eq_ok.mp ho
      have hlen := hos.length_eq
      have hs' : table.indexOf? name.text = some s := Instruction.syscallOf_eq_ok hs
      have ha : 1 ≤ (name :: arguments).length ∧ (name :: arguments).length ≤ 256 := by
        rw [List.length_cons]
        omega
      refine ⟨ha, rfl, [s] :: os.map Operand.encode, ?_, ?_⟩
      · exact .cons ⟨_, rfl, _, hs', rfl⟩ (places_arguments 0 hos)
      · simp [Instruction.operandBytes, Opcode.layout, List.flatMap]
  next => cases h

theorem Opcode.Reads.writes {op : Opcode} {operands : List Token} (h : op.Reads table lines operands) {k : Nat}
    {token : Token} {slot : Slot} (hk : operands[k]? = some token) (hs : op.slotAt? k = some slot) :
    ∃ part, slot.Writes table lines token.text part := by
  obtain ⟨part, slot', he, hw⟩ := h k token hk
  rw [hs] at he
  cases he
  exact ⟨part, hw⟩

/-- An instruction with as many operands as it should have, each one fit for its position, can be read. -/
theorem exists_parse {op : Opcode} {operands : List Token} (hc : Collected lines survey.labels)
    (ha : op.Admits operands.length) (hr : op.Reads table lines operands) (head : Token) :
    ∃ i, Instruction.parse (survey.scope table) op head operands = .ok i := by
  cases op with
  | load =>
    obtain ⟨target, source, rfl⟩ := List.length_eq_two.mp ha
    obtain ⟨_, _, ht, -⟩ := hr.writes (k := 0) rfl rfl
    obtain ⟨_, _, hs, -⟩ := hr.writes (k := 1) rfl rfl
    have ht' := operandAt_of_ok ht
    have hs' := operandAt_of_ok hs
    exact ⟨_, except_bind_eq_ok.mpr ⟨_, ht', except_bind_eq_ok.mpr ⟨_, hs', rfl⟩⟩⟩
  | store =>
    obtain ⟨address, source, rfl⟩ := List.length_eq_two.mp ha
    obtain ⟨_, _, hd, -⟩ := hr.writes (k := 0) rfl rfl
    obtain ⟨_, _, hs, -⟩ := hr.writes (k := 1) rfl rfl
    have hd' := operandAt_of_ok hd
    have hs' := operandAt_of_ok hs
    exact ⟨_, except_bind_eq_ok.mpr ⟨_, hd', except_bind_eq_ok.mpr ⟨_, hs', rfl⟩⟩⟩
  | fetch =>
    obtain ⟨address, target, rfl⟩ := List.length_eq_two.mp ha
    obtain ⟨_, _, hd, -⟩ := hr.writes (k := 0) rfl rfl
    obtain ⟨_, _, ht, -⟩ := hr.writes (k := 1) rfl rfl
    have hd' := operandAt_of_ok hd
    have ht' := operandAt_of_ok ht
    exact ⟨_, except_bind_eq_ok.mpr ⟨_, hd', except_bind_eq_ok.mpr ⟨_, ht', rfl⟩⟩⟩
  | arithmetic op =>
    obtain ⟨left, right, target, rfl⟩ := List.length_eq_three.mp ha
    obtain ⟨_, _, hl, -⟩ := hr.writes (k := 0) rfl rfl
    obtain ⟨_, _, hr', -⟩ := hr.writes (k := 1) rfl rfl
    obtain ⟨_, _, ht, -⟩ := hr.writes (k := 2) rfl rfl
    have hl' := operandAt_of_ok hl
    have hr'' := operandAt_of_ok hr'
    have ht' := operandAt_of_ok ht
    exact ⟨_, except_bind_eq_ok.mpr ⟨_, hl', except_bind_eq_ok.mpr ⟨_, hr'', except_bind_eq_ok.mpr ⟨_, ht', rfl⟩⟩⟩⟩
  | halt =>
    cases operands with
    | nil => exact ⟨_, rfl⟩
    | cons status operands =>
      have hn : operands = [] := List.length_eq_zero_iff.mp (by simpa [Opcode.Admits] using ha)
      subst hn
      obtain ⟨_, _, hs, -⟩ := hr.writes (k := 0) rfl rfl
      have hs' := operandAt_of_ok hs
      exact ⟨_, except_bind_eq_ok.mpr ⟨_, hs', rfl⟩⟩
  | branch test =>
    obtain ⟨condition, location, rfl⟩ := List.length_eq_two.mp ha
    obtain ⟨_, _, ho, -⟩ := hr.writes (k := 0) rfl rfl
    obtain ⟨_, _, hl, -⟩ := hr.writes (k := 1) rfl rfl
    have ho' := operandAt_of_ok ho
    exact ⟨_, except_bind_eq_ok.mpr ⟨_, ho', except_bind_eq_ok.mpr ⟨_, operandAt_of_denotes hc hl, rfl⟩⟩⟩
  | jump =>
    obtain ⟨location, rfl⟩ := List.length_eq_one_iff.mp ha
    obtain ⟨_, _, hl, -⟩ := hr.writes (k := 0) rfl rfl
    exact ⟨_, except_bind_eq_ok.mpr ⟨_, operandAt_of_denotes hc hl, rfl⟩⟩
  | mark =>
    obtain ⟨location, rfl⟩ := List.length_eq_one_iff.mp ha
    obtain ⟨_, _, hl, -⟩ := hr.writes (k := 0) rfl rfl
    exact ⟨_, except_bind_eq_ok.mpr ⟨_, operandAt_of_denotes hc hl, rfl⟩⟩
  | call =>
    cases operands with
    | nil => exact absurd ha.1 (by decide)
    | cons name arguments =>
      obtain ⟨_, index, hn, -⟩ := hr.writes (k := 0) rfl rfl
      obtain ⟨os, ho⟩ : ∃ os, arguments.mapM (Instruction.operandAt Literal.operand) = .ok os := by
        apply exists_mapM
        intro token hm
        obtain ⟨k, hk⟩ := List.mem_iff_getElem?.mp hm
        obtain ⟨_, _, hs, -⟩ := hr.writes (k := k + 1) (by simpa using hk) rfl
        exact ⟨_, operandAt_of_ok hs⟩
      have hlen := (mapM_eq_ok.mp ho).length_eq
      have hl : ¬ 255 < os.length := by
        have hle := ha.2
        rw [List.length_cons] at hle
        omega
      refine ⟨.call index os, except_bind_eq_ok.mpr ⟨index, operandAt_of_indexOf? hn, except_bind_eq_ok.mpr ⟨os, ho, ?_⟩⟩⟩
      simp only [if_neg hl]
      rfl

end Words

end RegisterMachine
