import RegisterMachine.Proofs.ControlFlow
import RegisterMachine.Proofs.ReachableStates

namespace RegisterMachine

/-- The handlers of the table return to the running machine that calls them, with or without a fault. -/
def SyscallTable.Returning (t : SyscallTable) : Prop :=
  ∀ entry ∈ t.entries, ∀ count m m', m.status.phase = .running →
    Machine.perform (entry.script count) m ≠ .ok .crash m'

/-- Nothing is left of the call but its end. -/
inductive Script.Over : Script → Prop
  | done : Over done
  | fail (cause : Fault) : Over (fail cause)
  | crash : Over crash

namespace Machine

/-- A machine in the course of its run, whose handlers are those of the table. -/
structure Serving (table : SyscallTable) (sizing : Sizing) (program : List UInt8) (m : Machine) : Prop
    extends Underway sizing program m where
  syscalls : m.syscalls = table

/-- The action does not take the thread down. -/
def Survives (x : Action Flow) : Prop := ∀ m m', x m ≠ .ok .crash m'

section Handlers

variable {table : SyscallTable} {sizing : Sizing} {program : List UInt8} {m m' entered now : Machine}
  {script rest : Script}

theorem Serving.next (h : Serving table sizing program m) (hs : step m = .ok .next m') :
    Serving table sizing program m' := by
  have hu := h.toUnderway.step.1
  have hf := step_frame m
  rw [hs] at hu hf
  refine ⟨hu, ?_⟩
  rcases hf with hk | ⟨op, input, -, hk⟩
  · exact hk.syscalls.trans h.syscalls
  · exact hk.syscalls.trans h.syscalls

theorem Ready.serving (h : Ready table program m) :
    ∃ sizing, ∀ fuel before, run fuel m = (.unfinished, before) → Serving table sizing program before := by
  obtain ⟨sizing, loaded, hl, hm⟩ := h
  refine ⟨sizing, fun fuel before hr => ?_⟩
  rw [Ready.run_eq ⟨sizing, loaded, hl, hm⟩] at hr
  refine keeps_of_unfinished (fun h hs => h.next hs) ⟨?_, ?_⟩ hr
  · rw [hm]
    exact underway_of_load hl _ _ _
  · rw [hm]
    rfl

theorem Serving.returns (h : Serving table sizing program m) (ht : table.Returning) (hc : Calls m script entered) :
    perform script entered ≠ .ok .crash now := by
  have hrun := (hc.underway h.toUnderway).running
  obtain @⟨index, count, input, entry, -, hg⟩ := hc
  rw [h.syscalls] at hg
  exact ht entry (mem_of_get hg) count _ now hrun

theorem survives_bind {α : Type} {x : Action α} {f : α → Action Flow} (h : ∀ a, Survives (f a)) :
    Survives (x >>= f) := by
  intro m m' he
  obtain ⟨a, u, -, hf⟩ := bind_eq_ok.mp he
  exact h a u m' hf

theorem survives_pure {flow : Flow} (h : flow ≠ .crash) : Survives (pure flow) := by
  intro m m' he
  cases he
  exact h rfl

theorem survives_throw (cause : Fault) : Survives (throw cause) := by
  intro m m' he
  cases he

theorem execute_survives {op : Opcode} (h : op ≠ .call) : Survives (execute op) := by
  have hnext : Survives (pure .next) := survives_pure (by simp)
  cases op with
  | load => exact survives_bind fun _ => survives_bind fun _ => survives_bind fun _ => hnext
  | store => exact survives_bind fun _ => survives_bind fun _ => survives_bind fun _ => hnext
  | fetch => exact survives_bind fun _ => survives_bind fun _ => survives_bind fun _ => survives_bind fun _ => hnext
  | arithmetic op =>
    exact survives_bind fun _ => survives_bind fun _ => survives_bind fun _ => survives_bind fun _ =>
      survives_bind fun _ => hnext
  | halt =>
    apply survives_bind
    intro v
    split
    next => exact survives_pure (by simp)
    next => exact survives_throw _
  | branch test =>
    apply survives_bind
    intro v
    apply survives_bind
    intro id
    split
    next => exact survives_bind fun _ => hnext
    next => exact hnext
    next => exact survives_throw _
  | jump => exact survives_bind fun _ => survives_bind fun _ => hnext
  | mark => exact survives_bind fun _ => survives_bind fun _ => hnext
  | call => exact (h rfl).elim

/-- Only a handler takes the thread down. -/
theorem calls_of_crash (h : step m = .ok .crash m') : ∃ script entered, Calls m script entered := by
  cases ha : m.ahead with
  | nil =>
    rw [step_of_ahead_nil ha] at h
    cases h
  | cons b input =>
    cases hb : Opcode.ofCode? b with
    | none =>
      rw [step_of_invalid hb ha] at h
      cases h
    | some op =>
      rw [step_eq_execute hb ha] at h
      by_cases hop : op = .call
      · subst hop
        have hr : ((m.recorded .call).leaving input).ahead = input :=
          ahead_leaving (show (m.recorded .call).ahead = [b] ++ input from ha)
        obtain ⟨index, m₁, hi, hrest⟩ := bind_eq_ok.mp h
        obtain ⟨count, m₂, hc, -⟩ := bind_eq_ok.mp hrest
        have hinput : input = index :: count :: m₂.ahead := by
          rw [← hr, ahead_of_readByte hi, ahead_of_readByte hc]
        rw [execute_call_eq (hr.trans hinput)] at h
        cases hg : ((m.recorded .call).leaving input).syscalls.get index with
        | ok entry =>
          rw [← Opcode.code_eq_of_ofCode? hb, hinput] at ha
          exact ⟨_, _, .handler ha hg⟩
        | error cause =>
          rw [hg] at h
          cases h
      · exact (execute_survives hop _ _ h).elim

theorem Underway.answer_run (h : Underway sizing program m) (next : Except Fault Int32 → Script) :
    answer? (.run next) m = some (next (.error .alreadyStarted), m) := by
  simp only [answer?, h.begin_eq]

theorem Answers.head {script' : Script} (h : answer? script m = some (script', m'))
    (ha : Answers script' m' rest now) : Answers script m rest now := by
  induction ha with
  | none => exact .next .none h
  | next _ hn ih => exact .next ih hn

/-- A handler comes to its end when all its requests are answered. -/
theorem Underway.answers_over (h : Underway sizing program m) (script : Script) :
    ∃ rest last, Answers script m rest last ∧ rest.Over := by
  have hgo : ∀ {m script script' m'}, answer? script m = some (script', m') →
      (∃ rest last, Answers script' m' rest last ∧ rest.Over) →
      ∃ rest last, Answers script m rest last ∧ rest.Over := by
    rintro m script script' m' ha ⟨rest, last, hr, ho⟩
    exact ⟨rest, last, hr.head ha, ho⟩
  induction script generalizing m with
  | done => exact ⟨_, _, .none, .done⟩
  | fail cause => exact ⟨_, _, .none, .fail cause⟩
  | crash => exact ⟨_, _, .none, .crash⟩
  | operand next ih =>
    obtain ⟨reply, m', ha⟩ : ∃ reply m', answer? (.operand next) m = some (next reply, m') := by
      simp only [answer?]
      cases readOperand m with
      | ok v m' => exact ⟨_, _, rfl⟩
      | error cause m' => exact ⟨_, _, rfl⟩
    exact hgo ha (ih reply (h.answer ha))
  | line text next ih =>
    obtain ⟨reply, m', ha⟩ : ∃ reply m', answer? (.line text next) m = some (next reply, m') := by
      simp only [answer?]
      cases writeLine text m with
      | ok u m' => exact ⟨_, _, rfl⟩
      | error cause m' => exact ⟨_, _, rfl⟩
    exact hgo ha (ih reply (h.answer ha))
  | register index next ih => exact hgo rfl (ih _ h)
  | run next ih => exact hgo (h.answer_run next) (ih _ h)
  | observe next ih => exact hgo rfl (ih _ _ h)
  | onWorker next ih => exact hgo rfl (ih _ h)

end Handlers

end Machine

end RegisterMachine
