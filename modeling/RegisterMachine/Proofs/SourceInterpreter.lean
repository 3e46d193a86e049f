import RegisterMachine.Machine.Run
import RegisterMachine.Proofs.CodeAhead
import RegisterMachine.Proofs.ProgramLayout

namespace RegisterMachine

/-- The line where a program goes on after a label: the first one behind it that is no label. -/
def lineAfter (program : List (Instruction String String)) (k : Nat) : Nat :=
  k + 1 + ((program.drop (k + 1)).takeWhile fun i => i.label?.isSome).length

/-- The number of instructions before the line that declares a label. -/
def labelCount (program : List (Instruction String String)) (name : String) : Nat :=
  (declaration? program name).elim 0 (instructionsBefore program)

/-- A program in its source form while it runs: the line to carry out next, the labels passed so far with
the latest first, and what the program works on. -/
structure Interpreter where
  index : Nat := 0
  passed : List Nat := []
  registers : Registers
  memory : Memory
  output : Sink

section Lines

variable {program : List (Instruction String String)} {k : Nat} {name : String}

theorem instructionsBefore_succ {i : Instruction String String} (h : program[k]? = some i) :
    instructionsBefore program (k + 1) = instructionsBefore program k + if i.label? = none then 1 else 0 := by
  have hm : (program.map Instruction.label?)[k]? = some i.label? := by rw [List.getElem?_map, h]; rfl
  obtain ⟨hlt, he⟩ := List.getElem?_eq_some_iff.mp hm
  rw [instructionsBefore, List.take_succ_eq_append_getElem hlt, List.count_append, he, List.count_singleton]
  simp [instructionsBefore]

theorem instructionsBefore_of_label (h : program[k]? = some (.mark name)) :
    instructionsBefore program (k + 1) = instructionsBefore program k := by
  rw [instructionsBefore_succ h]
  rfl

theorem instructionsBefore_le (program : List (Instruction String String)) {k l : Nat} (h : k ≤ l) :
    instructionsBefore program k ≤ instructionsBefore program l := by
  have hs : (program.map Instruction.label?).take k = ((program.map Instruction.label?).take l).take k := by
    rw [List.take_take, Nat.min_eq_left h]
  rw [instructionsBefore, hs]
  exact (List.take_sublist _ _).count_le _

theorem lineAfter_of_instruction (h : ∀ name, program[k + 1]? ≠ some (.mark name)) : lineAfter program k = k + 1 := by
  have hw : (program.drop (k + 1)).takeWhile (fun i => i.label?.isSome) = [] := by
    cases hi : program[k + 1]? with
    | none => rw [List.drop_eq_nil_of_le (List.getElem?_eq_none_iff.mp hi)]; rfl
    | some i =>
      obtain ⟨hlt, he⟩ := List.getElem?_eq_some_iff.mp hi
      rw [List.drop_eq_getElem_cons hlt, he, List.takeWhile_cons_of_neg]
      intro hs
      obtain ⟨name, hn⟩ := Option.isSome_iff_exists.mp hs
      exact h name (by rw [hi, Instruction.eq_mark_of_label? hn])
  rw [lineAfter, hw]
  rfl

theorem lineAfter_of_label (h : program[k + 1]? = some (.mark name)) :
    lineAfter program k = lineAfter program (k + 1) := by
  obtain ⟨hlt, he⟩ := List.getElem?_eq_some_iff.mp h
  rw [lineAfter, List.drop_eq_getElem_cons hlt, he, List.takeWhile_cons_of_pos (by rfl), List.length_cons, lineAfter]
  omega

theorem lineAfter_add {d : Nat} {other : String} (hk : program[k]? = some (.mark name))
    (hd : program[k + d]? = some (.mark other))
    (hc : instructionsBefore program (k + d) = instructionsBefore program k) :
    lineAfter program (k + d) = lineAfter program k := by
  induction d generalizing k name with
  | zero => rfl
  | succ d ih =>
    have hb := instructionsBefore_of_label hk
    -- an instruction on the next line would be counted at the later label
    have hn : ∃ next, program[k + 1]? = some (.mark next) := by
      obtain ⟨hlt, -⟩ := List.getElem?_eq_some_iff.mp hd
      have hi : program[k + 1]? = some program[k + 1] := List.getElem?_eq_getElem (by omega)
      cases hl : (program[k + 1]).label? with
      | some next => exact ⟨next, by rw [hi, Instruction.eq_mark_of_label? hl]⟩
      | none =>
        have hs := instructionsBefore_succ hi
        rw [hl, if_pos rfl] at hs
        by_cases hz : d = 0
        · subst hz
          exact ⟨other, hd⟩
        · have hm := instructionsBefore_le program (show k + 1 + 1 ≤ k + (d + 1) by omega)
          omega
    obtain ⟨next, hn⟩ := hn
    have he : k + (d + 1) = k + 1 + d := by omega
    rw [he] at hd hc ⊢
    rw [lineAfter_of_label hn]
    exact ih hn hd (by omega)

/-- Labels with as many instructions before them lead to the same line. -/
theorem lineAfter_eq {l : Nat} {other : String} (hk : program[k]? = some (.mark name))
    (hl : program[l]? = some (.mark other)) (hc : instructionsBefore program l = instructionsBefore program k) :
    lineAfter program l = lineAfter program k := by
  rcases Nat.le_total k l with hle | hle
  · obtain ⟨d, rfl⟩ := Nat.exists_eq_add_of_le hle
    exact lineAfter_add hk hl hc
  · obtain ⟨d, rfl⟩ := Nat.exists_eq_add_of_le hle
    exact (lineAfter_add hl hk hc.symm).symm

end Lines

namespace Interpreter

/-- Something that a running program does. -/
abbrev Action (α : Type) : Type := EStateM Fault Interpreter α

def valueOf (o : Operand) : Action Value := fun s =>
  match o.valueIn s.registers with
  | .ok v => .ok v s
  | .error cause => .error cause s

def setRegister (index : UInt8) (v : Value) : Action Unit := fun s =>
  match s.registers.set index v with
  | .ok registers => .ok () { s with registers }
  | .error cause => .error cause s

def storeValue (address : UInt8) (v : Value) : Action Unit := fun s =>
  match s.memory.store address.toNat v with
  | .ok memory => .ok () { s with memory }
  | .error cause => .error cause s

def fetchValue (address : UInt8) : Action Value := fun s =>
  match s.memory.load address.toNat with
  | .ok v => .ok v s
  | .error cause => .error cause s

def writeLine (line : String) : Action Unit := fun s =>
  match Sink.writeLine line s.output with
  | .ok () output => .ok () { s with output }
  | .error cause output => .error cause { s with output }

/-- Goes on behind the latest label passed that has as many instructions before it as the named one,
as far as a byte can tell. -/
def jumpTo (program : List (Instruction String String)) (name : String) : Action Unit := fun s =>
  match s.passed.find? fun k => instructionsBefore program k % 256 == labelCount program name % 256 with
  | some k => .ok () { s with index := lineAfter program k }
  | none => .error (.unresolvedLocation (UInt8.ofNat (labelCount program name))) s

/-- Prints the one argument of a call. -/
def printLine : List Operand → Action Flow
  | [argument] => do
    let v ← valueOf argument
    writeLine v.text
    return .next
  | arguments => throw (.arityMismatch "PRINTLN" 1 arguments.length)

/-- Carries out a line when the next one is already known. -/
def carryOut (program : List (Instruction String String)) (line : Nat) : Instruction String String → Action Flow
  | .load target source => do
    let v ← valueOf source
    setRegister target v
    return .next
  | .store address source => do
    let v ← valueOf source
    storeValue address v
    return .next
  | .fetch address target => do
    let v ← fetchValue address
    setRegister target v
    return .next
  | .arithmetic op left right target => do
    let a ← valueOf left
    let b ← valueOf right
    match op.apply a b with
    | .ok v =>
      setRegister target v
      return .next
    | .error cause => throw cause
  | .halt status => do
    let v ← valueOf status
    match v.status? with
    | some code => return .halt code
    | none => throw (.typeMismatch .halt .status v.kind)
  | .branch test condition name => do
    let v ← valueOf condition
    match test.holds? v with
    | some true =>
      jumpTo program name
      return .next
    | some false => return .next
    | none => throw (.typeMismatch (.branch test) test.demand v.kind)
  | .jump name => do
    jumpTo program name
    return .next
  | .mark _ => do
    modify fun s => { s with passed := line :: s.passed }
    return .next
  | .call name arguments =>
    if name = "PRINTLN" then printLine arguments
    else throw (.unknownSyscall 1 1)

/-- Carries out one line. -/
def step (program : List (Instruction String String)) : Action Flow := fun s =>
  match program[s.index]? with
  | some i => carryOut program s.index i { s with index := s.index + 1 }
  | none => .error (.missingHalt s.index) s

/-- Carries out lines until the program halts or fails, at most as many as `fuel` says. -/
def run (program : List (Instruction String String)) : Nat → Interpreter → Outcome × Interpreter
  | 0, s => (.unfinished, s)
  | fuel + 1, s =>
    match step program s with
    | .ok .next s' => run program fuel s'
    | .ok (.halt code) s' => (.halted code, s')
    | .ok .crash s' => (.crashed, s')
    | .error cause s' => (.failed cause, s')

/-- The action leaves the labels passed so far as they are. -/
def KeepsPassed {α : Type} (x : Action α) : Prop := ∀ s a s', x s = .ok a s' → s'.passed = s.passed

theorem KeepsPassed.bind {α β : Type} {x : Action α} {f : α → Action β} (hx : KeepsPassed x)
    (hf : ∀ a, KeepsPassed (f a)) : KeepsPassed (x >>= f) := by
  intro s b s' h
  obtain ⟨a, s₁, ha, hb⟩ := bind_eq_ok.mp h
  exact (hf a _ _ _ hb).trans (hx _ _ _ ha)

theorem keepsPassed_pure {α : Type} (a : α) : KeepsPassed (pure a) := by
  intro s b s' h
  cases h
  rfl

theorem keepsPassed_throw {α : Type} (cause : Fault) : KeepsPassed (throw cause : Action α) := by
  intro s b s' h
  cases h

theorem valueOf_keeps (o : Operand) : KeepsPassed (valueOf o) := by
  intro s v s' h
  unfold valueOf at h
  split at h <;> cases h
  rfl

theorem setRegister_keeps (index : UInt8) (v : Value) : KeepsPassed (setRegister index v) := by
  intro s u s' h
  unfold setRegister at h
  split at h <;> cases h
  rfl

theorem storeValue_keeps (address : UInt8) (v : Value) : KeepsPassed (storeValue address v) := by
  intro s u s' h
  unfold storeValue at h
  split at h <;> cases h
  rfl

theorem fetchValue_keeps (address : UInt8) : KeepsPassed (fetchValue address) := by
  intro s v s' h
  unfold fetchValue at h
  split at h <;> cases h
  rfl

theorem writeLine_keeps (line : String) : KeepsPassed (writeLine line) := by
  intro s u s' h
  unfold writeLine at h
  split at h <;> cases h
  rfl

theorem jumpTo_keeps (program : List (Instruction String String)) (name : String) :
    KeepsPassed (jumpTo program name) := by
  intro s u s' h
  unfold jumpTo at h
  split at h <;> cases h
  rfl

theorem carryOut_keeps (program : List (Instruction String String)) (line : Nat) {i : Instruction String String}
    (hi : i.label? = none) : KeepsPassed (carryOut program line i) := by
  cases i with
  | load target source =>
    exact (valueOf_keeps source).bind fun v => (setRegister_keeps target v).bind fun _ => keepsPassed_pure _
  | store address source =>
    exact (valueOf_keeps source).bind fun v => (storeValue_keeps address v).bind fun _ => keepsPassed_pure _
  | fetch address target =>
    exact (fetchValue_keeps address).bind fun v => (setRegister_keeps target v).bind fun _ => keepsPassed_pure _
  | arithmetic op left right target =>
    apply (valueOf_keeps left).bind
    intro a
    apply (valueOf_keeps right).bind
    intro b
    split
    next v _ => exact (setRegister_keeps target v).bind fun _ => keepsPassed_pure _
    next => exact keepsPassed_throw _
  | halt status =>
    apply (valueOf_keeps status).bind
    intro v
    split
    next => exact keepsPassed_pure _
    next => exact keepsPassed_throw _
  | branch test condition name =>
    apply (valueOf_keeps condition).bind
    intro v
    split
    next => exact (jumpTo_keeps program name).bind fun _ => keepsPassed_pure _
    next => exact keepsPassed_pure _
    next => exact keepsPassed_throw _
  | jump name => exact (jumpTo_keeps program name).bind fun _ => keepsPassed_pure _
  | mark name => cases hi
  | call name arguments =>
    change KeepsPassed (if name = "PRINTLN" then printLine arguments else throw (.unknownSyscall 1 1))
    by_cases hn : name = "PRINTLN"
    · rw [if_pos hn]
      unfold printLine
      split
      next argument =>
        exact (valueOf_keeps argument).bind fun v => (writeLine_keeps v.text).bind fun _ => keepsPassed_pure _
      next => exact keepsPassed_throw _
    · rw [if_neg hn]
      exact keepsPassed_throw _

/-- The labels passed so far are labels, and where a label stands right behind one of them, it was
passed later or comes next. -/
structure Settled (program : List (Instruction String String)) (s : Interpreter) : Prop where
  labels : ∀ k ∈ s.passed, ∃ name, program[k]? = some (.mark name)
  adjacent : ∀ newer k older name, s.passed = newer ++ k :: older → program[k + 1]? = some (.mark name) →
    k + 1 ∈ newer ∨ s.index = k + 1

section Settled

variable {program : List (Instruction String String)} {s s' : Interpreter} {i : Instruction String String}

theorem Settled.next (h : Settled program s) (hs : step program s = .ok .next s') : Settled program s' := by
  cases hi : program[s.index]? with
  | none =>
    simp only [step, hi] at hs
    cases hs
  | some i =>
    simp only [step, hi] at hs
    cases hl : i.label? with
    | none =>
      have hp : s'.passed = s.passed := carryOut_keeps program s.index hl { s with index := s.index + 1 } _ _ hs
      constructor
      · rw [hp]
        exact h.labels
      · intro newer k older name he hk
        rw [hp] at he
        rcases h.adjacent newer k older name he hk with hm | hx
        · exact .inl hm
        · rw [hx, hk] at hi
          cases hi
          cases hl
    | some name =>
      have hm := Instruction.eq_mark_of_label? hl
      subst hm
      have he : s' = { s with index := s.index + 1, passed := s.index :: s.passed } := by
        cases hs
        rfl
      subst he
      constructor
      · intro k hk
        rcases List.mem_cons.mp hk with rfl | hk
        · exact ⟨name, hi⟩
        · exact h.labels k hk
      · intro newer k older name' he hk
        cases newer with
        | nil =>
          cases he
          exact .inr rfl
        | cons x newer =>
          obtain ⟨rfl, hp⟩ := List.cons.inj he
          rcases h.adjacent newer k older name' hp hk with hm | hx
          · exact .inl (List.mem_cons_of_mem _ hm)
          · exact .inl (by rw [hx]; exact List.mem_cons_self)

/-- Behind the latest label passed with a given count there is no further label. -/
theorem Settled.lineAfter_eq {count k : Nat} (h : Settled program s) (hi : program[s.index]? = some i)
    (hn : i.label? = none)
    (hk : s.passed.find? (fun k => instructionsBefore program k % 256 == count) = some k) :
    lineAfter program k = k + 1 := by
  obtain ⟨hc, newer, older, hp, hnew⟩ := List.find?_eq_some_iff_append.mp hk
  apply lineAfter_of_instruction
  intro name hl
  rcases h.adjacent newer k older name hp hl with hm | hx
  · obtain ⟨own, ho⟩ := h.labels k (by rw [hp]; simp)
    have hne := hnew (k + 1) hm
    rw [instructionsBefore_of_label ho, hc] at hne
    cases hne
  · rw [hx, hl] at hi
    cases hi
    cases hn

end Settled

end Interpreter

end RegisterMachine
