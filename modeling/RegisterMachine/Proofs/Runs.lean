import RegisterMachine.Machine.Run

namespace RegisterMachine

namespace Machine

/-- A machine with the given program and system calls that has not been started. Its sizes, what it
prints to and the thread that it runs on are left open. -/
def Ready (table : SyscallTable) (program : List UInt8) (m : Machine) : Prop :=
  ∃ sizing loaded, load sizing program = .ok loaded ∧
    m = { loaded with syscalls := table, output := m.output, onWorker := m.onWorker }

/-- The machine when its run has begun. -/
def started (m : Machine) : Machine := { m with status := { m.status with phase := .running } }

/-- What the last step of a run makes of the run, and nothing for a step that is not the last. -/
def conclude : EStateM.Result Fault Machine Flow → Option (Outcome × Machine)
  | .ok .next _ => none
  | .ok (.halt code) m => some (.halted code, { m with status := m.status.halt code })
  | .ok .crash m => some (.crashed, m)
  | .error cause m => some (.failed cause, { m with status := m.status.fault })

/-- The phase of a machine whose run has returned the answer. -/
def finalPhase : Except Fault Int32 → Phase
  | .ok _ => .halted
  | .error _ => .faulted

theorem load_eq_ok {sizing : Sizing} {program : List UInt8} {m : Machine} (h : load sizing program = .ok m) :
    sizing.validate = .ok () ∧ ∃ capacity, program.length ≤ capacity ∧
      m = { code := ⟨program, capacity, 0⟩, registers := .empty sizing.registerCount,
            memory := .zeroed sizing.memorySize } := by
  unfold load at h
  split at h
  next => cases h
  next hv =>
    refine ⟨hv, sizing.codeCapacity.getD program.length, ?_⟩
    unfold CodeReader.load at h
    by_cases hc : (CodeReader.empty (sizing.codeCapacity.getD program.length)).capacity < program.length
    · rw [if_pos hc] at h
      cases h
    · rw [if_neg hc] at h
      cases h
      exact ⟨Nat.le_of_not_lt hc, rfl⟩

section Ready

variable {table : SyscallTable} {program : List UInt8} {m : Machine}

theorem Ready.eq (h : Ready table program m) :
    ∃ (sizing : Sizing) (capacity : Nat), program.length ≤ capacity ∧
      m = { code := ⟨program, capacity, 0⟩, registers := .empty sizing.registerCount,
            memory := .zeroed sizing.memorySize, syscalls := table, output := m.output, onWorker := m.onWorker } := by
  obtain ⟨sizing, loaded, hl, hm⟩ := h
  obtain ⟨-, capacity, hc, rfl⟩ := load_eq_ok hl
  exact ⟨sizing, capacity, hc, hm⟩

theorem Ready.idle (h : Ready table program m) : m.status.phase = .idle := by
  obtain ⟨sizing, capacity, -, hm⟩ := h.eq
  rw [hm]

theorem Ready.begin_eq (h : Ready table program m) : m.status.begin = .ok { m.status with phase := .running } := by
  rw [Status.begin, h.idle]

theorem Ready.run_eq (h : Ready table program m) (fuel : Nat) : run fuel m = drive fuel m.started := by
  simp only [run, h.begin_eq]
  rfl

end Ready

/-- What every step keeps holds whenever a run is cut short. -/
theorem keeps_of_unfinished {P : Machine → Prop} (hs : ∀ {m m'}, P m → step m = .ok .next m' → P m')
    {fuel : Nat} {m m' : Machine} (hm : P m) (h : drive fuel m = (.unfinished, m')) : P m' := by
  induction fuel generalizing m with
  | zero =>
    cases h
    exact hm
  | succ fuel ih =>
    cases hr : step m with
    | ok flow m₁ =>
      simp only [drive, hr] at h
      cases flow with
      | next => exact ih (hs hm hr) h
      | halt code => cases h
      | crash => cases h
    | error cause m₁ =>
      simp only [drive, hr] at h
      cases h

/-- A run that was cut short can be taken up again. -/
theorem drive_add {m before : Machine} {k : Nat} (n : Nat) (h : drive k m = (.unfinished, before)) :
    drive (k + n) m = drive n before := by
  induction k generalizing m with
  | zero =>
    cases h
    rw [Nat.zero_add]
  | succ k ih =>
    rw [Nat.succ_add]
    cases hr : step m with
    | ok flow m₁ =>
      simp only [drive, hr] at h ⊢
      cases flow with
      | next => exact ih h
      | halt code => cases h
      | crash => cases h
    | error cause m₁ =>
      simp only [drive, hr] at h
      cases h

/-- More instructions than it takes make no difference to a run. -/
theorem drive_of_finished {m : Machine} {k : Nat} (n : Nat) (h : (drive k m).1 ≠ .unfinished) :
    drive (k + n) m = drive k m := by
  induction k generalizing m with
  | zero => exact (h rfl).elim
  | succ k ih =>
    rw [Nat.succ_add]
    cases hr : step m with
    | ok flow m₁ =>
      simp only [drive, hr] at h ⊢
      cases flow with
      | next => exact ih h
      | halt code => rfl
      | crash => rfl
    | error cause m₁ => simp only [drive, hr]

/-- A run is cut short, or its last step ends it. -/
theorem drive_last (fuel : Nat) (m : Machine) :
    (∃ m', drive fuel m = (.unfinished, m')) ∨
      ∃ fuel' < fuel, ∃ before, drive fuel' m = (.unfinished, before) ∧
        conclude (step before) = some (drive fuel m) := by
  induction fuel generalizing m with
  | zero => exact .inl ⟨m, rfl⟩
  | succ fuel ih =>
    have hstop : conclude (step m) = some (drive (fuel + 1) m) → ∃ fuel' < fuel + 1, ∃ before,
        drive fuel' m = (.unfinished, before) ∧ conclude (step before) = some (drive (fuel + 1) m) :=
      fun hc => ⟨0, by omega, m, rfl, hc⟩
    cases hr : step m with
    | ok flow m₁ =>
      cases flow with
      | next =>
        have hd : ∀ n, drive (n + 1) m = drive n m₁ := fun n => by simp only [drive, hr]
        rw [hd]
        rcases ih m₁ with hu | ⟨fuel', hlt, before, hb, hc⟩
        · exact .inl hu
        · exact .inr ⟨fuel' + 1, by omega, before, by rw [hd, hb], hc⟩
      | halt code => exact .inr (hstop (by simp only [drive, hr, conclude]))
      | crash => exact .inr (hstop (by simp only [drive, hr, conclude]))
    | error cause m₁ => exact .inr (hstop (by simp only [drive, hr, conclude]))

theorem error_of_conclude {r : EStateM.Result Fault Machine Flow} {cause : Fault} {m : Machine}
    (h : conclude r = some (.failed cause, m)) :
    ∃ m', r = .error cause m' ∧ m = { m' with status := m'.status.fault } := by
  cases r with
  | ok flow m' => cases flow <;> cases h
  | error fault m' =>
    cases h
    exact ⟨m', rfl, rfl⟩

section Ends

variable {table : SyscallTable} {program : List UInt8} {m before after now : Machine} {outcome : Outcome}
  {answer : Except Fault Int32} {fuel : Nat}

theorem run_add (n : Nat) (h : run fuel m = (.unfinished, before)) : run (fuel + n) m = drive n before := by
  unfold run at h ⊢
  split at h
  next => cases h
  next => exact drive_add n h

theorem run_next (h : run fuel m = (.unfinished, before)) (hs : step before = .ok .next after) :
    run (fuel + 1) m = (.unfinished, after) := by
  rw [run_add 1 h]
  simp only [drive, hs]

theorem run_conclude (h : run fuel m = (.unfinished, before)) (hs : conclude (step before) = some (outcome, after)) :
    run (fuel + 1) m = (outcome, after) := by
  rw [run_add 1 h]
  cases hr : step before with
  | ok flow m' =>
    rw [hr] at hs
    simp only [drive, hr]
    cases flow <;> cases hs <;> rfl
  | error cause m' =>
    rw [hr] at hs
    simp only [drive, hr]
    cases hs
    rfl

theorem status_of_conclude {r : EStateM.Result Fault Machine Flow} (h : conclude r = some (outcome, m))
    (ha : outcome.answer? = some answer) :
    m.status.phase = finalPhase answer ∧ m.status.exitStatus? = answer.toOption := by
  cases r with
  | ok flow m' =>
    cases flow <;> cases h <;> cases ha
    exact ⟨rfl, rfl⟩
  | error cause m' =>
    cases h
    cases ha
    exact ⟨rfl, rfl⟩

theorem crash_of_conclude {r : EStateM.Result Fault Machine Flow} (h : conclude r = some (outcome, m))
    (ha : outcome.answer? = none) : r = .ok .crash m := by
  cases r with
  | ok flow m' =>
    cases flow <;> cases h <;> cases ha
    rfl
  | error cause m' =>
    cases h
    cases ha

theorem run_unique {k n : Nat} (hk : (run k m).1 ≠ .unfinished) (hn : (run n m).1 ≠ .unfinished) :
    run k m = run n m := by
  unfold run at hk hn ⊢
  split
  next => rfl
  next status hb =>
    rw [hb] at hk hn
    rcases Nat.le_total k n with hle | hle
    · rw [← Nat.add_sub_cancel' hle, drive_of_finished _ hk]
    · rw [← Nat.add_sub_cancel' hle, drive_of_finished _ hn]

theorem begin_of_not_idle {s : Status} (h : s.phase ≠ .idle) : s.begin = .error .alreadyStarted := by
  unfold Status.begin
  split
  next hi => exact (h hi).elim
  next => rfl

theorem Ready.status_of_answer (h : Ready table program m) (hr : run fuel m = (outcome, now))
    (ha : outcome.answer? = some answer) :
    now.status.phase = finalPhase answer ∧ now.status.exitStatus? = answer.toOption := by
  rw [h.run_eq] at hr
  rcases drive_last fuel m.started with ⟨m', hu⟩ | ⟨fuel', -, before, -, hc⟩
  · rw [hu] at hr
    cases hr
    cases ha
  · rw [hr] at hc
    exact status_of_conclude hc ha

theorem finalPhase_ended (answer : Except Fault Int32) :
    finalPhase answer ≠ .idle ∧ finalPhase answer ≠ .running := by
  cases answer <;> simp [finalPhase]

theorem Ready.begin_of_answer (h : Ready table program m) (hr : run fuel m = (outcome, now))
    (ha : outcome.answer? = some answer) : now.status.phase ≠ .idle ∧ now.status.begin = .error .alreadyStarted := by
  have hne : now.status.phase ≠ .idle := by
    rw [(h.status_of_answer hr ha).1]
    exact (finalPhase_ended answer).1
  exact ⟨hne, begin_of_not_idle hne⟩

end Ends

end Machine

end RegisterMachine
