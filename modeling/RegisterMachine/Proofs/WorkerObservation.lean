import RegisterMachine.Proofs.Lifecycle

namespace RegisterMachine

namespace Phase

/-- How far a machine's life has come. -/
def rank : Phase → Nat
  | idle => 0
  | running => 1
  | halted => 2
  | faulted => 2

/-- A machine that was in the first phase can be in the second one later. -/
def Precedes (p q : Phase) : Prop := p = q ∨ p.rank < q.rank

theorem Precedes.refl (p : Phase) : p.Precedes p := .inl rfl

theorem Precedes.trans {p q r : Phase} (h : p.Precedes q) (h' : q.Precedes r) : p.Precedes r := by
  rcases h with rfl | h
  · exact h'
  · rcases h' with rfl | h'
    · exact .inr h
    · exact .inr (Nat.lt_trans h h')

theorem Precedes.eq_of_halted {q : Phase} (h : halted.Precedes q) : q = halted := by
  rcases h with h | h
  · exact h.symm
  · cases q <;> simp [rank] at h

end Phase

/-- The machine as the thread of a worker has it. -/
def Machine.onThread (m : Machine) : Machine := { m with onWorker := true }

namespace Worker

/-- What the thread of a worker does next. Its end leaves an answer for whoever waits for it, unless a handler has
taken the thread down. -/
inductive Task
  | launch
  | execute
  | storeExitCode (code : Int32)
  | storeHalted (code : Int32)
  | storeFaulted (cause : Fault)
  | finish (answer : Except Fault Int32)
  | ended (answer : Option (Except Fault Int32))

/-- The phase that observers see at each point. -/
def Task.phase : Task → Phase
  | launch => .idle
  | execute => .running
  | storeExitCode _ => .running
  | storeHalted _ => .running
  | storeFaulted _ => .running
  | finish answer => Machine.finalPhase answer
  | ended (some answer) => Machine.finalPhase answer
  | ended none => .running

/-- How a run leaves the thread. -/
def Task.after : Outcome → Task
  | .halted code => ended (some (.ok code))
  | .failed cause => ended (some (.error cause))
  | .crashed => ended none
  | .unfinished => execute

/-- The thread of a worker. The status of its machine is shared with observers. -/
structure Thread where
  machine : Machine
  task : Task

/-- The status that observers look at. -/
def Thread.status (t : Thread) : Status := t.machine.status

/-- One step of the thread. Each of the stores that end a run is a step of its own. -/
inductive Thread.Next : Thread → Thread → Prop
  | launch {m : Machine} {status : Status} : m.status.begin = .ok status →
      Next ⟨m, .launch⟩ ⟨{ m with status, onWorker := true }, .execute⟩
  | instruction {m m' : Machine} : Machine.step m = .ok .next m' → Next ⟨m, .execute⟩ ⟨m', .execute⟩
  | halt {m m' : Machine} {code : Int32} : Machine.step m = .ok (.halt code) m' →
      Next ⟨m, .execute⟩ ⟨m', .storeExitCode code⟩
  | fail {m m' : Machine} {cause : Fault} : Machine.step m = .error cause m' →
      Next ⟨m, .execute⟩ ⟨m', .storeFaulted cause⟩
  | crash {m m' : Machine} : Machine.step m = .ok .crash m' → Next ⟨m, .execute⟩ ⟨m', .ended none⟩
  | storeExitCode {m : Machine} {code : Int32} :
      Next ⟨m, .storeExitCode code⟩ ⟨{ m with status := m.status.storeExitCode code }, .storeHalted code⟩
  | storeHalted {m : Machine} {code : Int32} :
      Next ⟨m, .storeHalted code⟩ ⟨{ m with status := m.status.storePhase .halted }, .finish (.ok code)⟩
  | storeFaulted {m : Machine} {cause : Fault} :
      Next ⟨m, .storeFaulted cause⟩ ⟨{ m with status := m.status.storePhase .faulted }, .finish (.error cause)⟩
  | finish {m : Machine} {answer : Except Fault Int32} : Next ⟨m, .finish answer⟩ ⟨m, .ended (some answer)⟩

/-- What an observer is told. -/
inductive Report
  | state (phase : Phase)
  | isRunning (running : Bool)
  | exitStatus (status : Option Int32)

/-- A look at a worker: the phase that was loaded and what the observer was told. -/
structure Sight where
  phase : Phase
  report : Report

/-- A worker and its observer. An observer who asks for the exit status of a halted machine has `pending` set
between loading the phase and loading the exit code. -/
structure Scene where
  thread : Thread
  pending : Bool
  sights : List Sight

/-- A step of the worker, or a load of its observer. -/
inductive Scene.Next : Scene → Scene → Prop
  | work {t t' : Thread} {pending : Bool} {sights : List Sight} : Thread.Next t t' →
      Next ⟨t, pending, sights⟩ ⟨t', pending, sights⟩
  | state {t : Thread} {sights : List Sight} :
      Next ⟨t, false, sights⟩ ⟨t, false, sights ++ [⟨t.status.phase, .state t.status.phase⟩]⟩
  | isRunning {t : Thread} {sights : List Sight} :
      Next ⟨t, false, sights⟩ ⟨t, false, sights ++ [⟨t.status.phase, .isRunning t.status.isRunning⟩]⟩
  | noExitStatus {t : Thread} {sights : List Sight} : t.status.phase ≠ .halted →
      Next ⟨t, false, sights⟩ ⟨t, false, sights ++ [⟨t.status.phase, .exitStatus none⟩]⟩
  | findHalted {t : Thread} {sights : List Sight} : t.status.phase = .halted →
      Next ⟨t, false, sights⟩ ⟨t, true, sights⟩
  | exitCode {t : Thread} {sights : List Sight} :
      Next ⟨t, true, sights⟩ ⟨t, false, sights ++ [⟨.halted, .exitStatus (some t.status.exitCode)⟩]⟩

/-- Steps of the worker and loads of the observer in some order. -/
inductive Scene.Reaches (s : Scene) : Scene → Prop
  | none : Reaches s s
  | next {now after : Scene} : Reaches s now → Next now after → Reaches s after

/-- The scene before the machine is started. -/
def Scene.opening (m : Machine) : Scene := ⟨⟨m, .launch⟩, false, []⟩

/-- The observer is told what the phase says. -/
def Sight.Faithful (s : Sight) : Prop :=
  match s.report with
  | .state phase => phase = s.phase
  | .isRunning running => running = decide (s.phase = .running)
  | .exitStatus none => s.phase ≠ .halted
  | .exitStatus (some _) => s.phase = .halted

/-- Waiting for the worker of a machine gives this answer and no other. -/
def Joins (m : Machine) (answer : Except Fault Int32) : Prop :=
  (∃ fuel w, start fuel m = .ok w ∧ w.join.1 = some answer) ∧
    ∀ fuel w other, start fuel m = .ok w → w.join.1 = some other → other = answer

/-- How far the thread of a machine has come, in terms of the machine's run. -/
inductive Thread.Stands (m : Machine) : Thread → Prop
  | launch : Stands m ⟨m, .launch⟩
  | execute {fuel : Nat} {now : Machine} : m.onThread.run fuel = (.unfinished, now) → Stands m ⟨now, .execute⟩
  | storeExitCode {fuel : Nat} {before now : Machine} {code : Int32} :
      m.onThread.run fuel = (.unfinished, before) → before.step = .ok (.halt code) now →
      Stands m ⟨now, .storeExitCode code⟩
  | storeHalted {fuel : Nat} {before now : Machine} {code : Int32} :
      m.onThread.run fuel = (.unfinished, before) → before.step = .ok (.halt code) now →
      Stands m ⟨{ now with status := now.status.storeExitCode code }, .storeHalted code⟩
  | storeFaulted {fuel : Nat} {before now : Machine} {cause : Fault} :
      m.onThread.run fuel = (.unfinished, before) → before.step = .error cause now →
      Stands m ⟨now, .storeFaulted cause⟩
  | finish {fuel : Nat} {now : Machine} {outcome : Outcome} {answer : Except Fault Int32} :
      m.onThread.run fuel = (outcome, now) → outcome.answer? = some answer → Stands m ⟨now, .finish answer⟩
  | ended {fuel : Nat} {now : Machine} {outcome : Outcome} {answer : Except Fault Int32} :
      m.onThread.run fuel = (outcome, now) → outcome.answer? = some answer → Stands m ⟨now, .ended (some answer)⟩
  | crashed {fuel : Nat} {before now : Machine} :
      m.onThread.run fuel = (.unfinished, before) → before.step = .ok .crash now → Stands m ⟨now, .ended none⟩

section Threads

variable {table : SyscallTable} {program : List UInt8} {m before now : Machine} {t t' : Thread} {fuel : Nat}
  {outcome : Outcome} {answer : Except Fault Int32}

theorem ready_onThread (h : m.Ready table program) : m.onThread.Ready table program := by
  obtain ⟨sizing, loaded, hl, hm⟩ := h
  refine ⟨sizing, loaded, hl, ?_⟩
  rw [Machine.onThread, hm]

theorem start_eq (h : m.Ready table program) (fuel : Nat) :
    start fuel m = .ok ⟨(m.onThread.run fuel).2.status, (m.onThread.run fuel).1, (m.onThread.run fuel).2.output⟩ := by
  simp only [start, h.begin_eq, (ready_onThread h).run_eq]
  rfl

/-- Whoever waits for the worker is told how the run of its machine ends. -/
theorem joins_of_run (hm : m.Ready table program) (hr : m.onThread.run fuel = (outcome, now))
    (hj : (join ⟨now.status, outcome, now.output⟩).1 = some answer) : Joins m answer := by
  have hfinished : ∀ {w : Worker} {other}, w.join.1 = some other → w.outcome ≠ .unfinished := by
    intro w other h hu
    rw [join, hu] at h
    cases h
  refine ⟨⟨fuel, _, start_eq hm fuel, by rw [hr]; exact hj⟩, ?_⟩
  intro fuel' w other hw hother
  rw [start_eq hm] at hw
  cases hw
  have hsame := Machine.run_unique (hfinished hother) (by rw [hr]; exact hfinished hj)
  rw [hsame, hr, hj] at hother
  exact (Option.some.inj hother).symm

theorem joins_of_answer (hm : m.Ready table program) (hr : m.onThread.run fuel = (outcome, now))
    (ha : outcome.answer? = some answer) : Joins m answer := by
  apply joins_of_run hm hr
  cases outcome with
  | halted code => exact ha
  | failed cause => exact ha
  | crashed => cases ha
  | unfinished => cases ha

theorem running_after (hm : m.Ready table program) (hr : m.onThread.run fuel = (.unfinished, before))
    {r : EStateM.Result Fault Machine Flow} (hs : before.step = r) : (Machine.finalOf r).status.phase = .running := by
  obtain ⟨sizing, hserving⟩ := (ready_onThread hm).serving
  rw [← hs]
  exact (hserving fuel before hr).toUnderway.step.1.running

theorem Thread.Stands.phase_eq (hm : m.Ready table program) (h : t.Stands m) : t.status.phase = t.task.phase := by
  obtain ⟨sizing, hserving⟩ := (ready_onThread hm).serving
  cases h with
  | launch => exact hm.idle
  | execute hr => exact (hserving _ _ hr).running
  | storeExitCode hr hs => exact running_after hm hr hs
  | storeHalted hr hs => exact running_after hm hr hs
  | storeFaulted hr hs => exact running_after hm hr hs
  | finish hr ha => exact ((ready_onThread hm).status_of_answer hr ha).1
  | ended hr ha => exact ((ready_onThread hm).status_of_answer hr ha).1
  | crashed hr hs => exact running_after hm hr hs

/-- A machine that is seen halted has the exit code that is waited for. -/
theorem Thread.Stands.joins_of_halted (hm : m.Ready table program) (h : t.Stands m) (hp : t.status.phase = .halted) :
    Joins m (.ok t.status.exitCode) := by
  have hanswer : ∀ {fuel outcome now answer}, m.onThread.run fuel = (outcome, now) → outcome.answer? = some answer →
      now.status.phase = .halted → Joins m (.ok now.status.exitCode) := by
    intro fuel outcome now answer hr ha hp
    have hx := ((ready_onThread hm).status_of_answer hr ha).2
    rw [Status.exitStatus?, hp] at hx
    cases answer with
    | ok code =>
      cases hx
      exact joins_of_answer hm hr ha
    | error cause => cases hx
  have htask := (h.phase_eq hm).symm.trans hp
  cases h with
  | finish hr ha => exact hanswer hr ha hp
  | ended hr ha => exact hanswer hr ha hp
  | _ => cases htask

theorem Thread.Stands.of_answer (h : t.Stands m) (he : t.task = .ended (some answer)) :
    ∃ fuel outcome, m.onThread.run fuel = (outcome, t.machine) ∧ outcome.answer? = some answer := by
  cases h with
  | ended hr ha =>
    cases he
    exact ⟨_, _, hr, ha⟩
  | _ => cases he

theorem Thread.Stands.of_crash (h : t.Stands m) (he : t.task = .ended none) :
    ∃ fuel, m.onThread.run fuel = (.crashed, t.machine) := by
  cases h with
  | crashed hr hs => exact ⟨_, Machine.run_conclude hr (by rw [hs]; rfl)⟩
  | _ => cases he

theorem Thread.Stands.next (h : t.Stands m) (hn : t.Next t') : t'.Stands m := by
  cases h with
  | launch =>
    cases hn with
    | @launch _ status hb =>
      have hr : m.onThread.run 0 = (.unfinished, { m with status, onWorker := true }) := by
        have hb' : m.onThread.status.begin = .ok status := hb
        simp only [Machine.run, hb', Machine.drive]
        rfl
      exact .execute hr
  | execute hr =>
    cases hn with
    | instruction hs => exact .execute (Machine.run_next hr hs)
    | halt hs => exact .storeExitCode hr hs
    | fail hs => exact .storeFaulted hr hs
    | crash hs => exact .crashed hr hs
  | storeExitCode hr hs => cases hn with | storeExitCode => exact .storeHalted hr hs
  | storeHalted hr hs =>
    cases hn with
    | storeHalted => exact .finish (Machine.run_conclude hr (by rw [hs]; rfl)) rfl
  | storeFaulted hr hs =>
    cases hn with
    | storeFaulted => exact .finish (Machine.run_conclude hr (by rw [hs]; rfl)) rfl
  | finish hr ha => cases hn with | finish => exact .ended hr ha
  | ended hr ha => cases hn
  | crashed hr hs => cases hn

theorem Thread.Next.precedes (h : t.Next t') : t.task.phase.Precedes t'.task.phase := by
  cases h with
  | launch => exact .inr (by simp [Task.phase, Phase.rank])
  | instruction => exact .refl _
  | halt => exact .refl _
  | fail => exact .refl _
  | crash => exact .refl _
  | storeExitCode => exact .refl _
  | storeHalted => exact .inr (by simp [Task.phase, Phase.rank, Machine.finalPhase])
  | storeFaulted => exact .inr (by simp [Task.phase, Phase.rank, Machine.finalPhase])
  | finish => exact .refl _

theorem Thread.Next.not_ended (h : t.Next t') (end? : Option (Except Fault Int32)) : t.task ≠ .ended end? := by
  cases h <;> simp

end Threads

/-- What an observer has seen so far fits the run of the machine. -/
structure Scene.Sound (m : Machine) (s : Scene) : Prop where
  stands : s.thread.Stands m
  pending : s.pending = true → s.thread.status.phase = .halted
  ordered : s.sights.Pairwise fun earlier later => earlier.phase.Precedes later.phase
  latest : ∀ sight ∈ s.sights, sight.phase.Precedes s.thread.status.phase
  faithful : ∀ sight ∈ s.sights, sight.Faithful
  joined : ∀ sight ∈ s.sights, ∀ code, sight.report = .exitStatus (some code) → Joins m (.ok code)

section Scenes

variable {table : SyscallTable} {program : List UInt8} {m : Machine} {s s' : Scene} {t t' : Thread} {pending : Bool}
  {sights : List Sight}

theorem Scene.Sound.work (hm : m.Ready table program) (h : Sound m ⟨t, pending, sights⟩) (hn : t.Next t') :
    Sound m ⟨t', pending, sights⟩ := by
  have hstands := h.stands.next hn
  have hp : t.status.phase.Precedes t'.status.phase := by
    rw [h.stands.phase_eq hm, hstands.phase_eq hm]
    exact hn.precedes
  refine ⟨hstands, ?_, h.ordered, ?_, h.faithful, h.joined⟩
  · intro hpending
    have hh : t.status.phase = .halted := h.pending hpending
    rw [hh] at hp
    exact hp.eq_of_halted
  · exact fun sight hs => (h.latest sight hs).trans hp

theorem Scene.Sound.see (h : Sound m ⟨t, pending, sights⟩) {sight : Sight} (hp : sight.phase = t.status.phase)
    (hf : sight.Faithful) (hj : ∀ code, sight.report = .exitStatus (some code) → Joins m (.ok code)) :
    Sound m ⟨t, false, sights ++ [sight]⟩ := by
  have hlast : ∀ {P : Sight → Prop}, (∀ other ∈ sights, P other) → P sight →
      ∀ other ∈ sights ++ [sight], P other :=
    fun hall hs => List.forall_mem_append.mpr ⟨hall, List.forall_mem_singleton.mpr hs⟩
  refine ⟨h.stands, by simp, ?_, hlast h.latest (.inl hp), hlast h.faithful hf, hlast h.joined hj⟩
  refine List.pairwise_append.mpr ⟨h.ordered, List.pairwise_singleton _ _, ?_⟩
  intro earlier he later hl
  obtain rfl := List.mem_singleton.mp hl
  rw [hp]
  exact h.latest earlier he

theorem Scene.Sound.next (hm : m.Ready table program) (h : Sound m s) (hn : s.Next s') : Sound m s' := by
  cases hn with
  | work hw => exact h.work hm hw
  | state => exact h.see rfl rfl (by simp)
  | isRunning => exact h.see rfl rfl (by simp)
  | noExitStatus hp => exact h.see rfl hp (by simp)
  | findHalted hp => exact ⟨h.stands, fun _ => hp, h.ordered, h.latest, h.faithful, h.joined⟩
  | @exitCode t sights =>
    have hp : t.status.phase = .halted := h.pending rfl
    refine h.see hp.symm rfl ?_
    intro code hcode
    cases hcode
    exact h.stands.joins_of_halted hm hp

theorem Scene.Reaches.sound (hm : m.Ready table program) (hs : Sound m s) (h : s.Reaches s') : Sound m s' := by
  induction h with
  | none => exact hs
  | next _ hn ih => exact ih.next hm hn

theorem Scene.Sound.opening (m : Machine) : Sound m (opening m) :=
  ⟨.launch, by simp [Scene.opening], .nil, by simp [Scene.opening], by simp [Scene.opening], by simp [Scene.opening]⟩

theorem Scene.Next.after_end (hs : Sound m s) {end? : Option (Except Fault Int32)}
    (he : s.thread.task = .ended end?) (h : s.Next s') :
    s'.thread = s.thread ∧ ∃ later, s'.sights = s.sights ++ later ∧
      ∀ sight ∈ later, sight.phase = s.thread.status.phase := by
  cases h with
  | work hw => exact (hw.not_ended end? he).elim
  | state => exact ⟨rfl, _, rfl, List.forall_mem_singleton.mpr rfl⟩
  | isRunning => exact ⟨rfl, _, rfl, List.forall_mem_singleton.mpr rfl⟩
  | noExitStatus => exact ⟨rfl, _, rfl, List.forall_mem_singleton.mpr rfl⟩
  | findHalted => exact ⟨rfl, [], by simp, by simp⟩
  | exitCode => exact ⟨rfl, _, rfl, List.forall_mem_singleton.mpr (hs.pending rfl).symm⟩

/-- Once the thread has ended, every look at the worker finds the phase that the thread has left. -/
theorem Scene.Reaches.after_end (hm : m.Ready table program) (hs : Sound m s) {end? : Option (Except Fault Int32)}
    (he : s.thread.task = .ended end?) (h : s.Reaches s') :
    s'.thread = s.thread ∧ ∃ later, s'.sights = s.sights ++ later ∧
      ∀ sight ∈ later, sight.phase = (Task.ended end?).phase := by
  have hphase : s.thread.status.phase = (Task.ended end?).phase := (hs.stands.phase_eq hm).trans (congrArg _ he)
  induction h with
  | none => exact ⟨rfl, [], by simp, by simp⟩
  | next hr hn ih =>
    obtain ⟨ht, later, hl, hlater⟩ := ih
    obtain ⟨ht', latest, hl', hlatest⟩ := hn.after_end (hr.sound hm hs) (by rw [ht, he])
    refine ⟨ht'.trans ht, later ++ latest, by rw [hl', hl, List.append_assoc], ?_⟩
    rw [ht, hphase] at hlatest
    exact List.forall_mem_append.mpr ⟨hlater, hlatest⟩

theorem Scene.Reaches.conclude {before now : Machine} {outcome : Outcome}
    (h : s.Reaches ⟨⟨before, .execute⟩, pending, sights⟩)
    (hc : Machine.conclude before.step = some (outcome, now)) :
    s.Reaches ⟨⟨now, .after outcome⟩, pending, sights⟩ := by
  cases hr : before.step with
  | ok flow m' =>
    rw [hr] at hc
    cases flow with
    | next => cases hc
    | halt code =>
      cases hc
      exact (((h.next (.work (.halt hr))).next (.work .storeExitCode)).next (.work .storeHalted)).next (.work .finish)
    | crash =>
      cases hc
      exact h.next (.work (.crash hr))
  | error cause m' =>
    rw [hr] at hc
    cases hc
    exact ((h.next (.work (.fail hr))).next (.work .storeFaulted)).next (.work .finish)

/-- The thread does what the machine's run does. -/
theorem reaches_of_run (hm : m.Ready table program) (fuel : Nat) :
    (Scene.opening m).Reaches ⟨⟨(m.onThread.run fuel).2, .after (m.onThread.run fuel).1⟩, false, []⟩ := by
  have hstarted : (Scene.opening m).Reaches ⟨⟨m.onThread.started, .execute⟩, false, []⟩ :=
    .next .none (.work (.launch hm.begin_eq))
  have hgoes : ∀ fuel now, m.onThread.started.drive fuel = (.unfinished, now) →
      (Scene.opening m).Reaches ⟨⟨now, .execute⟩, false, []⟩ := fun fuel now hr =>
    Machine.keeps_of_unfinished (P := fun now => (Scene.opening m).Reaches ⟨⟨now, .execute⟩, false, []⟩)
      (fun h hs => h.next (.work (.instruction hs))) hstarted hr
  rw [(ready_onThread hm).run_eq]
  rcases Machine.drive_last fuel m.onThread.started with ⟨now, hu⟩ | ⟨fuel', -, before, hu, hc⟩
  · rw [hu]
    exact hgoes fuel now hu
  · exact (hgoes fuel' before hu).conclude hc

/-- The observer of a worker sees its phases in order, is told what they say, and sees no exit status but the one
that is waited for. When the thread of the worker has ended with an answer, the observer sees only how it ended.
A thread that a handler has taken down still seems to run, until somebody waits for it. -/
theorem observed_in_order (hm : m.Ready table program) :
    (∀ s, (Scene.opening m).Reaches s →
      s.sights.Pairwise (fun earlier later => earlier.phase.Precedes later.phase) ∧
      (∀ sight ∈ s.sights, sight.Faithful ∧
        ∀ code, sight.report = .exitStatus (some code) → Joins m (.ok code)) ∧
      (∀ answer, s.thread.task = .ended (some answer) → Joins m answer ∧
        ∀ s', s.Reaches s' → ∃ later, s'.sights = s.sights ++ later ∧
          ∀ sight ∈ later, sight.phase = Machine.finalPhase answer) ∧
      (s.thread.task = .ended none → Joins m (.error (.workerFailed "vm thread panicked")) ∧
        (∃ fuel w, start fuel m = .ok w ∧ w.status = s.thread.status ∧ w.join.2.phase = .faulted) ∧
        ∀ s', s.Reaches s' → ∃ later, s'.sights = s.sights ++ later ∧
          ∀ sight ∈ later, sight.phase = .running)) ∧
    ∀ fuel, ∃ w s, start fuel m = .ok w ∧ (Scene.opening m).Reaches s ∧ s.thread.status = w.status ∧
      s.thread.task = .after w.outcome := by
  refine ⟨fun s h => ?_, fun fuel => ⟨_, _, start_eq hm fuel, reaches_of_run hm fuel, rfl, rfl⟩⟩
  have hs := h.sound hm (.opening m)
  refine ⟨hs.ordered, fun sight hsight => ⟨hs.faithful sight hsight, hs.joined sight hsight⟩, ?_, ?_⟩
  · intro answer he
    obtain ⟨fuel, outcome, hr, ha⟩ := hs.stands.of_answer he
    exact ⟨joins_of_answer hm hr ha, fun s' hlater => (hlater.after_end hm hs he).2⟩
  · intro he
    obtain ⟨fuel, hr⟩ := hs.stands.of_crash he
    have hw := start_eq hm fuel
    rw [hr] at hw
    exact ⟨joins_of_run hm hr rfl, ⟨fuel, _, hw, rfl, rfl⟩, fun s' hlater => (hlater.after_end hm hs he).2⟩

/-- A machine that makes its only system call and halts. -/
def calling (script : Script) : Machine :=
  { code := ⟨Machine.oneCall, Machine.oneCall.length, 0⟩
    registers := .empty 1
    memory := .zeroed 0
    syscalls := ⟨[⟨"CALL", fun _ => script⟩]⟩ }

/-- Between its two stores the worker still seems to run, and afterwards it has the exit code. -/
theorem observed_in_order_between_stores :
    ∃ s, (Scene.opening (calling .done)).Reaches s ∧ s.thread.task = .ended (some (.ok 7)) ∧
      s.sights = [⟨.running, .exitStatus none⟩, ⟨.halted, .exitStatus (some 7)⟩] ∧
      Joins (calling .done) (.ok 7) := by
  have hm : (calling .done).Ready (calling .done).syscalls Machine.oneCall := ⟨⟨none, 0, 1⟩, _, rfl, rfl⟩
  have hcode : (Scene.opening (calling .done)).Reaches ⟨⟨_, .storeHalted 7⟩, false, []⟩ :=
    ((((Scene.Reaches.none.next (.work (.launch rfl))).next (.work (.instruction rfl))).next
      (.work (.halt rfl))).next (.work .storeExitCode))
  have hhalted := (hcode.next (.noExitStatus (by intro h; cases h))).next (.work .storeHalted)
  have h := ((hhalted.next (.findHalted rfl)).next .exitCode).next (.work .finish)
  obtain ⟨-, -, hended, -⟩ := (observed_in_order hm).1 _ h
  exact ⟨_, h, rfl, rfl, (hended (.ok 7) rfl).1⟩

/-- The thread has ended, nobody has waited for it, and it is seen running. -/
theorem crashed_worker_seen_running :
    ∃ s s', (Scene.opening (calling .crash)).Reaches s ∧ s.thread.task = .ended none ∧
      s.Reaches s' ∧ s'.sights = s.sights ++ [⟨.running, .isRunning true⟩] := by
  have h : (Scene.opening (calling .crash)).Reaches ⟨⟨_, .ended none⟩, false, []⟩ :=
    (Scene.Reaches.none.next (.work (.launch rfl))).next (.work (.crash rfl))
  exact ⟨_, _, h, rfl, .next .none .isRunning, rfl⟩

end Scenes

end Worker

end RegisterMachine
