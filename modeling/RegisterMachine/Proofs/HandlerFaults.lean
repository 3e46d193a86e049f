import RegisterMachine.Proofs.StandardStep

namespace RegisterMachine

/-- An answer that does not blame the code. -/
def Blameless {α : Type} (answer : Except Fault α) : Prop :=
  ∀ cause, answer = .error cause → cause.isDecoding = false

/-- A system call can come to fail with this cause although no answer that it gets blames the code. -/
inductive Script.FailsWith (cause : Fault) : Script → Prop
  | fail : FailsWith cause (.fail cause)
  | operand {next : Except Fault Value → Script} (answer : Except Fault Value) : Blameless answer →
      FailsWith cause (next answer) → FailsWith cause (.operand next)
  | line {text : String} {next : Except Fault Unit → Script} (answer : Except Fault Unit) : Blameless answer →
      FailsWith cause (next answer) → FailsWith cause (.line text next)
  | register {index : UInt8} {next : Except Fault Value → Script} (answer : Except Fault Value) :
      Blameless answer → FailsWith cause (next answer) → FailsWith cause (.register index next)
  | run {next : Except Fault Int32 → Script} (answer : Except Fault Int32) : Blameless answer →
      FailsWith cause (next answer) → FailsWith cause (.run next)
  | observe {next : Phase → Option Int32 → Script} (phase : Phase) (status : Option Int32) :
      FailsWith cause (next phase status) → FailsWith cause (.observe next)
  | onWorker {next : Bool → Script} (own : Bool) : FailsWith cause (next own) → FailsWith cause (.onWorker next)

theorem blameless_of_isData {α : Type} {answer : Except Fault α}
    (h : ∀ cause, answer = .error cause → cause.IsData) : Blameless answer :=
  fun cause he => (h cause he).1

theorem Operand.valueIn_fault {registers : Registers} {o : Operand} {cause : Fault}
    (h : o.valueIn registers = .error cause) : cause.IsData := by
  cases o with
  | register index => exact registers_get_fault h
  | value v => cases h

namespace Machine

/-- A system call that asks for no more operands than stand ahead fails of its own accord. -/
theorem failsWith_of_perform {arguments : List Operand} {rest : List UInt8} {cause : Fault} {m m' : Machine}
    (script : Script) (hf : ∀ a ∈ arguments, a.Fits)
    (ha : m.ahead = arguments.flatMap Operand.encode ++ rest) (ht : operandsTaken script m ≤ arguments.length)
    (h : perform script m = .error cause m') : script.FailsWith cause := by
  induction script generalizing arguments m with
  | done => cases h
  | fail fault =>
    cases h
    exact .fail
  | crash => cases h
  | operand next ih =>
    cases arguments with
    | nil =>
      simp only [operandsTaken, List.length_nil] at ht
      omega
    | cons o os =>
      rw [List.flatMap_cons, List.append_assoc] at ha
      obtain ⟨hp, hn⟩ := perform_operand (hf o (by simp)) ha next
      rw [hp] at h
      rw [hn, List.length_cons] at ht
      have hfs : ∀ a ∈ os, a.Fits := fun a hm => hf a (by simp [hm])
      refine .operand (o.valueIn m.registers) (blameless_of_isData fun _ => Operand.valueIn_fault) ?_
      exact ih _ (m := m.leaving _) hfs (ahead_leaving ha) (by omega) h
  | line text next ih =>
    cases hw : writeLine text m with
    | ok u m₁ =>
      simp only [perform, hw] at h
      simp only [operandsTaken, hw] at ht
      obtain ⟨output, -, rfl⟩ := writeLine_eq_ok hw
      exact .line (.ok ()) (fun c he => by cases he) (ih _ (m := { m with output }) hf ha ht h)
    | error fault m₁ =>
      simp only [perform, hw] at h
      simp only [operandsTaken, hw] at ht
      have hd := writeLine_raises text _ _ _ hw
      obtain ⟨reason, output, -, rfl⟩ := writeLine_eq_error hw
      exact .line (.error fault) (fun c he => by cases he; exact hd.1) (ih _ (m := { m with output }) hf ha ht h)
  | register index next ih =>
    exact .register _ (blameless_of_isData fun _ => registers_get_fault) (ih _ hf ha ht h)
  | run next ih =>
    cases hb : m.status.begin with
    | ok status =>
      simp only [perform, hb] at h
      cases h
    | error fault =>
      simp only [perform, hb] at h
      simp only [operandsTaken, hb] at ht
      refine .run (.error fault) ?_ (ih _ hf ha ht h)
      intro c he
      cases he
      unfold Status.begin at hb
      split at hb <;> cases hb
      rfl
  | observe next ih => exact .observe _ _ (ih _ _ hf ha ht h)
  | onWorker next ih => exact .onWorker _ (ih _ hf ha ht h)

/-- The action never ends the program. -/
def Continues (x : Action Flow) : Prop := ∀ m code m', x m ≠ .ok (.halt code) m'

theorem continues_bind {α : Type} {x : Action α} {f : α → Action Flow} (h : ∀ a, Continues (f a)) :
    Continues (x >>= f) := by
  intro m code m' he
  obtain ⟨a, u, -, hf⟩ := bind_eq_ok.mp he
  exact h a u code m' hf

theorem perform_continues (script : Script) : Continues (perform script) := by
  induction script with
  | done => intro m code m' h; cases h
  | fail cause => intro m code m' h; cases h
  | crash => intro m code m' h; cases h
  | operand next ih =>
    intro m code m' h
    simp only [perform] at h
    split at h
    next => exact ih _ _ _ _ h
    next => exact ih _ _ _ _ h
  | line text next ih =>
    intro m code m' h
    simp only [perform] at h
    split at h
    next => exact ih _ _ _ _ h
    next => exact ih _ _ _ _ h
  | register index next ih => exact fun m code m' h => ih _ m code m' h
  | run next ih =>
    intro m code m' h
    simp only [perform] at h
    split at h
    next => exact ih _ _ _ _ h
    next => cases h
  | observe next ih => exact fun m code m' h => ih _ _ m code m' h
  | onWorker next ih => exact fun m code m' h => ih _ m code m' h

/-- The instruction that ends the program leaves the machine where it is. -/
theorem carryOut_eq_halt {i : Instruction UInt8 UInt8} {m m' : Machine} {code : Int32}
    (h : carryOut i m = .ok (.halt code) m') : m' = m := by
  by_cases hi : ∃ index arguments, i = .call index arguments
  · obtain ⟨index, arguments, rfl⟩ := hi
    have hc : Continues (carryOut (.call index arguments)) :=
      continues_bind fun entry => continues_bind fun m => perform_continues _
    exact (hc m code m' h).elim
  · cases carryOut_eq_ok (fun index arguments he => hi ⟨index, arguments, he⟩) h with
    | halt hv hs => rfl

end Machine

end RegisterMachine
