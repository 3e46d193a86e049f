import RegisterMachine.Proofs.CodeAhead

namespace RegisterMachine

/-- The script when the answers to its first requests for operands are known. -/
def Script.supplied : List (Except Fault Value) → Script → Script
  | [], s => s
  | _ :: _, .done => .done
  | _ :: _, .fail cause => .fail cause
  | _ :: _, .crash => .crash
  | a :: as, .operand next => supplied as (next a)
  | a :: as, .line text next => .line text fun answer => supplied (a :: as) (next answer)
  | a :: as, .register index next => .register index fun answer => supplied (a :: as) (next answer)
  | a :: as, .run next => .run fun answer => supplied (a :: as) (next answer)
  | a :: as, .observe next => .observe fun phase status => supplied (a :: as) (next phase status)
  | a :: as, .onWorker next => .onWorker fun own => supplied (a :: as) (next own)

namespace Machine

/-- The number of operands that a system call takes from the code when this machine carries it out. -/
def operandsTaken : Script → Machine → Nat
  | .done, _ => 0
  | .fail _, _ => 0
  | .crash, _ => 0
  | .operand next, m =>
    1 + match readOperand m with
      | .ok v m' => operandsTaken (next (.ok v)) m'
      | .error cause m' => operandsTaken (next (.error cause)) m'
  | .line text next, m =>
    match writeLine text m with
    | .ok () m' => operandsTaken (next (.ok ())) m'
    | .error cause m' => operandsTaken (next (.error cause)) m'
  | .register index next, m => operandsTaken (next (m.registers.get index)) m
  | .run next, m =>
    match m.status.begin with
    | .error cause => operandsTaken (next (.error cause)) m
    | .ok _ => 0
  | .observe next, m => operandsTaken (next m.status.phase m.status.exitStatus?) m
  | .onWorker next, m => operandsTaken (next m.onWorker) m

end Machine

/-- Whether a system call, on every machine, takes exactly the operands that it is told of unless
it fails. -/
def Syscall.Disciplined (s : Syscall) : Prop :=
  ∀ count m m', Machine.perform (s.script count) m = .ok .next m' →
    Machine.operandsTaken (s.script count) m = count.toNat

def SyscallTable.Disciplined (t : SyscallTable) : Prop := ∀ entry ∈ t.entries, entry.Disciplined

namespace Machine

/-- Two results that are the same, up to the reading position of a run that has failed or died. -/
inductive Agree : EStateM.Result Fault Machine Flow → EStateM.Result Fault Machine Flow → Prop
  | refl (r : EStateM.Result Fault Machine Flow) : Agree r r
  | crash (m : Machine) (p : Nat) : Agree (.ok .crash (m.movedTo p)) (.ok .crash m)
  | error (cause : Fault) (m : Machine) (p : Nat) : Agree (.error cause (m.movedTo p)) (.error cause m)

theorem supplied_nil (script : Script) : script.supplied [] = script := by
  cases script <;> rfl

/-- What printing a line answers and leaves behind depends on the sink alone. -/
theorem perform_line (text : String) (sink : Sink) :
    ∃ answer output, ∀ next m, m.output = sink →
      perform (.line text next) m = perform (next answer) { m with output } ∧
      operandsTaken (.line text next) m = operandsTaken (next answer) { m with output } := by
  cases h : Sink.writeLine text sink with
  | ok u output =>
    refine ⟨.ok (), output, ?_⟩
    intro next m hm
    have hw : writeLine text m = .ok () { m with output } := by simp only [writeLine, hm, h]
    exact ⟨by simp only [perform, hw], by simp only [operandsTaken, hw]⟩
  | error cause output =>
    refine ⟨.error cause, output, ?_⟩
    intro next m hm
    have hw : writeLine text m = .error cause { m with output } := by simp only [writeLine, hm, h]
    exact ⟨by simp only [perform, hw], by simp only [operandsTaken, hw]⟩

theorem perform_operand {m : Machine} {o : Operand} {rest : List UInt8} (ho : o.Fits)
    (h : m.ahead = o.encode ++ rest) (next : Except Fault Value → Script) :
    perform (.operand next) m = perform (next (o.valueIn m.registers)) (m.leaving rest) ∧
    operandsTaken (.operand next) m =
      1 + operandsTaken (next (o.valueIn m.registers)) (m.leaving rest) := by
  have hr := readOperand_of_ahead ho h
  have hv : (m.leaving rest).registers = m.registers := rfl
  simp only [operandValue, asking, hv] at hr
  cases ha : o.valueIn m.registers with
  | ok v =>
    rw [ha] at hr
    exact ⟨by simp only [perform, hr], by simp only [operandsTaken, hr]⟩
  | error cause =>
    rw [ha] at hr
    exact ⟨by simp only [perform, hr], by simp only [operandsTaken, hr]⟩

section Call

variable {arguments : List Operand} {rest : List UInt8} {m : Machine}

theorem perform_agrees_of_nil (script : Script) (ha : m.ahead = rest)
    (hc : m.code.cursor ≤ m.code.data.length) :
    Agree (perform script m) (perform (script.supplied []) (m.leaving rest)) := by
  rw [supplied_nil, ← ha, leaving_ahead hc]
  exact .refl _

/-- A system call that finds its operands in the code does what it does when it is handed them. -/
theorem perform_agrees (script : Script) (hf : ∀ a ∈ arguments, a.Fits)
    (ha : m.ahead = arguments.flatMap Operand.encode ++ rest) (hc : m.code.cursor ≤ m.code.data.length)
    (ht : ∀ m', perform script m = .ok .next m' → arguments.length ≤ operandsTaken script m) :
    Agree (perform script m)
      (perform (script.supplied (arguments.map (Operand.valueIn m.registers))) (m.leaving rest)) := by
  induction script generalizing arguments m with
  | done =>
    cases arguments with
    | nil => exact perform_agrees_of_nil _ ha hc
    | cons o os =>
      have hn := ht m rfl
      simp [operandsTaken] at hn
  | fail cause =>
    cases arguments with
    | nil => exact perform_agrees_of_nil _ ha hc
    | cons o os => exact .error cause (m.leaving rest) m.code.cursor
  | crash =>
    cases arguments with
    | nil => exact perform_agrees_of_nil _ ha hc
    | cons o os => exact .crash (m.leaving rest) m.code.cursor
  | operand next ih =>
    cases arguments with
    | nil => exact perform_agrees_of_nil _ ha hc
    | cons o os =>
      rw [List.flatMap_cons, List.append_assoc] at ha
      obtain ⟨hp, hn⟩ := perform_operand (hf o (by simp)) ha next
      rw [hp, hn] at ht
      rw [hp]
      apply ih _ (fun a h => hf a (by simp [h])) (ahead_leaving ha) (Nat.sub_le _ _)
      intro m' h
      have hl := ht m' h
      rw [List.length_cons] at hl
      omega
  | line text next ih =>
    cases arguments with
    | nil => exact perform_agrees_of_nil _ ha hc
    | cons o os =>
      obtain ⟨answer, output, hw⟩ := perform_line text m.output
      obtain ⟨hp, hn⟩ := hw next m rfl
      rw [hp, hn] at ht
      rw [hp, List.map_cons, Script.supplied, (hw _ (m.leaving rest) rfl).1]
      exact ih answer hf ha hc ht
  | register index next ih =>
    cases arguments with
    | nil => exact perform_agrees_of_nil _ ha hc
    | cons o os =>
      exact ih _ hf ha hc ht
  | run next ih =>
    cases arguments with
    | nil => exact perform_agrees_of_nil _ ha hc
    | cons o os =>
      cases hb : m.status.begin with
      | ok status =>
        have hb' : (m.leaving rest).status.begin = .ok status := hb
        simp only [List.map_cons, Script.supplied, perform, hb, hb']
        exact .crash (m.leaving rest) m.code.cursor
      | error cause =>
        have hb' : (m.leaving rest).status.begin = .error cause := hb
        simp only [perform, operandsTaken, hb] at ht
        simp only [List.map_cons, Script.supplied, perform, hb, hb']
        exact ih _ hf ha hc ht
  | observe next ih =>
    cases arguments with
    | nil => exact perform_agrees_of_nil _ ha hc
    | cons o os => exact ih _ _ hf ha hc ht
  | onWorker next ih =>
    cases arguments with
    | nil => exact perform_agrees_of_nil _ ha hc
    | cons o os => exact ih _ hf ha hc ht

/-- A system call that takes as many operands as stand ahead ends right behind them. -/
theorem code_of_perform {m' : Machine} (script : Script) (hf : ∀ a ∈ arguments, a.Fits)
    (ha : m.ahead = arguments.flatMap Operand.encode ++ rest) (hc : m.code.cursor ≤ m.code.data.length)
    (hn : operandsTaken script m = arguments.length) (hp : perform script m = .ok .next m') :
    m'.code = (m.leaving rest).code := by
  induction script generalizing arguments m with
  | done =>
    have hl : arguments = [] := List.length_eq_zero_iff.mp hn.symm
    subst hl
    have hm : m = m' := by cases hp; rfl
    rw [← hm, show rest = m.ahead from ha.symm, leaving_ahead hc]
  | fail cause => cases hp
  | crash => cases hp
  | operand next ih =>
    cases arguments with
    | nil =>
      simp only [operandsTaken, List.length_nil] at hn
      omega
    | cons o os =>
      rw [List.flatMap_cons, List.append_assoc] at ha
      obtain ⟨he, hl⟩ := perform_operand (hf o (by simp)) ha next
      rw [he] at hp
      rw [hl, List.length_cons] at hn
      have hfs : ∀ a ∈ os, a.Fits := fun a h => hf a (by simp [h])
      exact ih _ (m := m.leaving _) hfs (ahead_leaving ha) (Nat.sub_le _ _) (by omega) hp
  | line text next ih =>
    obtain ⟨answer, output, hw⟩ := perform_line text m.output
    obtain ⟨he, hl⟩ := hw next m rfl
    exact ih answer (m := { m with output }) hf ha hc (hl.symm.trans hn) (he.symm.trans hp)
  | register index next ih => exact ih _ hf ha hc hn hp
  | run next ih =>
    cases hb : m.status.begin with
    | ok status => simp [perform, hb] at hp
    | error cause =>
      simp only [perform, hb] at hp
      simp only [operandsTaken, hb] at hn
      exact ih _ hf ha hc hn hp
  | observe next ih => exact ih _ _ hf ha hc hn hp
  | onWorker next ih => exact ih _ hf ha hc hn hp

end Call

end Machine

end RegisterMachine
