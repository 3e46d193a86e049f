import RegisterMachine.Proofs.HandlerEnds

namespace RegisterMachine

namespace Machine

/-- What handlers that have asked for a run do with its answer, the latest first. -/
abbrev Waiting : Type := List (Except Fault Int32 → Script)

/-- Where the life of a machine stands. Its owner has it, or it carries out its program, or the handler of a
system call has it and `rest` is what the handler still does. -/
inductive Moment
  | resting (m : Machine)
  | running (m : Machine) (waiting : Waiting)
  | handling (m : Machine) (rest : Script) (waiting : Waiting)

/-- What happens in the life of a machine. A request to run is accepted or refused, and one that was accepted
returns an answer at its end, unless a handler takes the thread down. -/
inductive Event
  | register (index : UInt8) (answer : Except Fault Value)
  | state (phase : Phase)
  | exitStatus (status : Option Int32)
  | accepted
  | refused (cause : Fault)
  | worked
  | returned (answer : Except Fault Int32)
  | crashed

/-- The machine of a moment. -/
def Moment.machine : Moment → Machine
  | resting m => m
  | running m _ => m
  | handling m _ _ => m

/-- A run returns to whoever asked for it. -/
def Moment.answered (answer : Except Fault Int32) (m : Machine) : Waiting → Moment
  | [] => resting m
  | next :: waiting => handling m (next answer) waiting

/-- One call of the owner, one instruction or one request of a handler. -/
inductive Happens : Moment → Event → Moment → Prop
  | register (m : Machine) (index : UInt8) :
      Happens (.resting m) (.register index (m.registers.get index)) (.resting m)
  | state (m : Machine) : Happens (.resting m) (.state m.status.phase) (.resting m)
  | exitStatus (m : Machine) : Happens (.resting m) (.exitStatus m.status.exitStatus?) (.resting m)
  | accept {m : Machine} {status : Status} : m.status.begin = .ok status →
      Happens (.resting m) .accepted (.running { m with status } [])
  | refuse {m : Machine} {cause : Fault} : m.status.begin = .error cause →
      Happens (.resting m) (.refused cause) (.resting m)
  | instruction {m m' : Machine} {waiting : Waiting} :
      (∀ script entered, ¬ Calls m script entered) → step m = .ok .next m' →
      Happens (.running m waiting) .worked (.running m' waiting)
  | finish {m m' : Machine} {waiting : Waiting} {outcome : Outcome}
      {answer : Except Fault Int32} : (∀ script entered, ¬ Calls m script entered) →
      conclude (step m) = some (outcome, m') → outcome.answer? = some answer →
      Happens (.running m waiting) (.returned answer) (.answered answer m' waiting)
  | enter {m entered : Machine} {waiting : Waiting} {script : Script} :
      Calls m script entered → Happens (.running m waiting) .worked (.handling entered script waiting)
  | request {m m' : Machine} {waiting : Waiting} {script rest : Script} :
      (∀ next, script ≠ .run next) → answer? script m = some (rest, m') →
      Happens (.handling m script waiting) .worked (.handling m' rest waiting)
  | acceptWithin {m : Machine} {waiting : Waiting} {status : Status}
      {next : Except Fault Int32 → Script} : m.status.begin = .ok status →
      Happens (.handling m (.run next) waiting) .accepted (.running { m with status } (next :: waiting))
  | refuseWithin {m : Machine} {waiting : Waiting} {cause : Fault}
      {next : Except Fault Int32 → Script} : m.status.begin = .error cause →
      Happens (.handling m (.run next) waiting) (.refused cause) (.handling m (next (.error cause)) waiting)
  | leave {m : Machine} {waiting : Waiting} :
      Happens (.handling m .done waiting) .worked (.running m waiting)
  | fail {m : Machine} {waiting : Waiting} {cause : Fault} :
      Happens (.handling m (.fail cause) waiting) (.returned (.error cause))
        (.answered (.error cause) { m with status := m.status.fault } waiting)
  | crash {m : Machine} {waiting : Waiting} :
      Happens (.handling m .crash waiting) .crashed (.resting m)

/-- A part of a machine's life, with what happened in it. -/
inductive Life (start : Moment) : List Event → Moment → Prop
  | none : Life start [] start
  | next {log : List Event} {now after : Moment} {event : Event} : Life start log now → Happens now event after →
      Life start (log ++ [event]) after

/-- The moves of a machine that is started once. It is idle, then running, and then halted or faulted, and
nothing else that happens changes it. -/
inductive Move : Event → Machine → Machine → Prop
  | register (m : Machine) (index : UInt8) : Move (.register index (m.registers.get index)) m m
  | state (m : Machine) : Move (.state m.status.phase) m m
  | exitStatus (m : Machine) : Move (.exitStatus m.status.exitStatus?) m m
  | accepted {m : Machine} : m.status.phase = .idle → Move .accepted m m.started
  | refused {m : Machine} : m.status.phase ≠ .idle → Move (.refused .alreadyStarted) m m
  | worked {m m' : Machine} : m.status.phase = .running → m'.status.phase = .running → Move .worked m m'
  | returned {m m' : Machine} {answer : Except Fault Int32} : m.status.phase = .running →
      m'.status.phase = finalPhase answer → m'.status.exitStatus? = answer.toOption → Move (.returned answer) m m'

/-- Whether somebody asks for a run. -/
def Event.asksRun : Event → Bool
  | accepted => true
  | refused _ => true
  | _ => false

/-- The answer of a run that ends. -/
def Event.answer? : Event → Option (Except Fault Int32)
  | returned answer => some answer
  | _ => none

/-- What a log says of the requests to run and of their answers. The first request is accepted, and all others
come too late. -/
structure Tells (log : List Event) (begun : Bool) (answer : Option (Except Fault Int32)) : Prop where
  asked : ∃ late, log.filter Event.asksRun =
    if begun then .accepted :: List.replicate late (.refused .alreadyStarted) else []
  answered : log.filterMap Event.answer? = answer.toList

/-- Where the life of a machine stands, in terms of its run. -/
inductive Stands (m : Machine) : List Event → Moment → Prop
  | ready {log : List Event} : Tells log false none → Stands m log (.resting m)
  | running {log : List Event} {fuel : Nat} {now : Machine} : Tells log true none →
      run fuel m = (.unfinished, now) → Stands m log (.running now [])
  | handling {log : List Event} {fuel : Nat} {before entered now : Machine} {script rest : Script} :
      Tells log true none → run fuel m = (.unfinished, before) → Calls before script entered →
      Answers script entered rest now → Stands m log (.handling now rest [])
  | settled {log : List Event} {fuel : Nat} {now : Machine} {outcome : Outcome} {answer : Except Fault Int32} :
      Tells log true (some answer) → run fuel m = (outcome, now) → outcome.answer? = some answer →
      Stands m log (.resting now)

section Logs

variable {log : List Event} {event : Event} {begun : Bool} {answer : Option (Except Fault Int32)}

theorem Tells.quiet (h : Tells log begun answer) (hr : event.asksRun = false) (ha : event.answer? = none) :
    Tells (log ++ [event]) begun answer where
  asked := by simpa [List.filter_append, hr] using h.asked
  answered := by simpa [List.filterMap_append, ha] using h.answered

theorem Tells.accepted (h : Tells log false none) : Tells (log ++ [.accepted]) true none where
  asked := by
    obtain ⟨late, ha⟩ := h.asked
    refine ⟨0, ?_⟩
    rw [List.filter_append, ha]
    rfl
  answered := by
    rw [List.filterMap_append, h.answered]
    rfl

theorem Tells.refused (h : Tells log true answer) : Tells (log ++ [.refused .alreadyStarted]) true answer where
  asked := by
    obtain ⟨late, ha⟩ := h.asked
    refine ⟨late + 1, ?_⟩
    rw [List.filter_append, ha, List.replicate_succ']
    rfl
  answered := by
    rw [List.filterMap_append, h.answered]
    exact List.append_nil _

theorem Tells.returned (h : Tells log true none) (answer : Except Fault Int32) :
    Tells (log ++ [.returned answer]) true (some answer) where
  asked := by simpa [List.filter_append, Event.asksRun] using h.asked
  answered := by
    rw [List.filterMap_append, h.answered]
    rfl

theorem Tells.eq_of_returned (h : Tells log begun answer) {returned : Except Fault Int32}
    (hr : .returned returned ∈ log) : answer = some returned := by
  have hmem : returned ∈ log.filterMap Event.answer? := List.mem_filterMap.mpr ⟨_, hr, rfl⟩
  rw [h.answered] at hmem
  exact Option.mem_toList.mp hmem

end Logs

section Lives

variable {table : SyscallTable} {sizing : Sizing} {program : List UInt8} {m before after now : Machine}
  {script rest : Script} {waiting : Waiting} {start moment : Moment} {log : List Event} {event : Event}
  {outcome : Outcome} {answer : Except Fault Int32} {fuel : Nat}

theorem exitStatus?_isSome_iff (s : Status) : (∃ code, s.exitStatus? = some code) ↔ s.phase = .halted := by
  unfold Status.exitStatus?
  split
  next h => simp [h]
  next h => simpa using h

/-- One event takes a life from one of its stages to the next. -/
theorem Stands.next {moment' : Moment} (hm : Ready table program m) (ht : table.Returning)
    (h : Stands m log moment) (he : Happens moment event moment') :
    Stands m (log ++ [event]) moment' ∧ Move event moment.machine moment'.machine := by
  obtain ⟨sizing, hserving⟩ := hm.serving
  cases h with
  | ready htells =>
    cases he with
    | register _ index => exact ⟨.ready (htells.quiet rfl rfl), .register m index⟩
    | state => exact ⟨.ready (htells.quiet rfl rfl), .state m⟩
    | exitStatus => exact ⟨.ready (htells.quiet rfl rfl), .exitStatus m⟩
    | accept hb =>
      rw [hm.begin_eq] at hb
      cases hb
      exact ⟨.running htells.accepted (hm.run_eq 0), .accepted hm.idle⟩
    | refuse hb =>
      rw [hm.begin_eq] at hb
      cases hb
  | running htells hr =>
    have hu := hserving _ _ hr
    cases he with
    | instruction _ hs =>
      exact ⟨.running (htells.quiet rfl rfl) (run_next hr hs), .worked hu.running (hu.next hs).running⟩
    | @finish _ m' _ outcome answer _ hc ha =>
      obtain ⟨hp, hx⟩ := status_of_conclude hc ha
      exact ⟨.settled (htells.returned answer) (run_conclude hr hc) ha, .returned hu.running hp hx⟩
    | enter hc =>
      exact ⟨.handling (htells.quiet rfl rfl) hr hc .none, .worked hu.running (hc.underway hu.toUnderway).running⟩
  | handling htells hr hc ha =>
    have hu := ha.underway (hc.underway (hserving _ _ hr).toUnderway)
    have hs := hc.step_eq.trans ha.perform_eq
    cases he with
    | request _ hn =>
      exact ⟨.handling (htells.quiet rfl rfl) hr hc (ha.next hn), .worked hu.running (hu.answer hn).running⟩
    | acceptWithin hb =>
      -- only a running machine calls a handler
      rw [hu.begin_eq] at hb
      cases hb
    | @refuseWithin _ _ _ next hb =>
      rw [hu.begin_eq] at hb
      cases hb
      have hne : Phase.running ≠ .idle := by simp
      rw [← hu.running] at hne
      exact ⟨.handling htells.refused hr hc (ha.next (hu.answer_run next)), .refused hne⟩
    | leave => exact ⟨.running (htells.quiet rfl rfl) (run_next hr hs), .worked hu.running hu.running⟩
    | @fail _ _ cause =>
      exact ⟨.settled (htells.returned _) (run_conclude hr (by rw [hs]; rfl)) rfl, .returned hu.running rfl rfl⟩
    | crash => exact ((hserving _ _ hr).returns ht hc ha.perform_eq).elim
  | settled htells hr ha =>
    obtain ⟨hne, hb⟩ := hm.begin_of_answer hr ha
    cases he with
    | register _ index => exact ⟨.settled (htells.quiet rfl rfl) hr ha, .register _ index⟩
    | state => exact ⟨.settled (htells.quiet rfl rfl) hr ha, .state _⟩
    | exitStatus => exact ⟨.settled (htells.quiet rfl rfl) hr ha, .exitStatus _⟩
    | accept hb' =>
      rw [hb] at hb'
      cases hb'
    | refuse hb' =>
      rw [hb] at hb'
      cases hb'
      exact ⟨.settled htells.refused hr ha, .refused hne⟩

theorem Life.stands (hm : Ready table program m) (ht : table.Returning) (h : Life (.resting m) log moment) :
    Stands m log moment := by
  induction h with
  | none => exact .ready ⟨⟨0, rfl⟩, rfl⟩
  | next _ he ih => exact (ih.next hm ht he).1

theorem Stands.tells (h : Stands m log moment) : ∃ begun answer, Tells log begun answer := by
  cases h with
  | ready htells => exact ⟨_, _, htells⟩
  | running htells => exact ⟨_, _, htells⟩
  | handling htells => exact ⟨_, _, htells⟩
  | settled htells => exact ⟨_, _, htells⟩

/-- Once the run has returned, the machine is with its owner again. -/
theorem Stands.of_returned (h : Stands m log moment) (hr : .returned answer ∈ log) :
    ∃ held fuel outcome, moment = .resting held ∧ run fuel m = (outcome, held) ∧ outcome.answer? = some answer := by
  cases h with
  | ready htells => cases htells.eq_of_returned hr
  | running htells => cases htells.eq_of_returned hr
  | handling htells => cases htells.eq_of_returned hr
  | settled htells hrun ha =>
    cases htells.eq_of_returned hr
    exact ⟨_, _, _, rfl, hrun, ha⟩

theorem Life.answers (h : Life start log (.handling before script waiting)) (ha : Answers script before rest now) :
    ∃ log', Life start log' (.handling now rest waiting) := by
  induction ha with
  | none => exact ⟨log, h⟩
  | @next rest rest' within within' _ hn ih =>
    obtain ⟨log', hl⟩ := ih
    by_cases hrun : ∃ next, rest = .run next
    · obtain ⟨next, rfl⟩ := hrun
      simp only [answer?] at hn
      split at hn
      next hb =>
        cases hn
        exact ⟨_, hl.next (.refuseWithin hb)⟩
      next => cases hn
    · exact ⟨_, hl.next (.request (fun next he => hrun ⟨next, he⟩) hn)⟩

/-- A step of the machine is a part of its life. -/
theorem Life.onward (hu : Underway sizing program now) (h : Life start log (.running now [])) :
    (∀ after, step now = .ok .next after → ∃ log', Life start log' (.running after [])) ∧
    ∀ outcome after answer, conclude (step now) = some (outcome, after) → outcome.answer? = some answer →
      ∃ log', Life start (log' ++ [.returned answer]) (.resting after) := by
  by_cases hc : ∃ script entered, Calls now script entered
  · obtain ⟨script, entered, hc⟩ := hc
    obtain ⟨rest, last, ha, ho⟩ := (hc.underway hu).answers_over script
    obtain ⟨log', hl⟩ := (h.next (.enter hc)).answers ha
    rw [hc.step_eq, ha.perform_eq]
    cases ho with
    | done =>
      refine ⟨?_, fun outcome after answer hr => (by cases hr)⟩
      intro after hr
      cases hr
      exact ⟨_, hl.next .leave⟩
    | fail cause =>
      refine ⟨fun after hr => (by cases hr), ?_⟩
      intro outcome after answer hr hans
      cases hr
      cases hans
      exact ⟨_, hl.next .fail⟩
    | crash =>
      refine ⟨fun after hr => (by cases hr), ?_⟩
      intro outcome after answer hr hans
      cases hr
      cases hans
  · have hn : ∀ script entered, ¬ Calls now script entered := fun script entered hcall => hc ⟨script, entered, hcall⟩
    constructor
    · exact fun after hs => ⟨_, h.next (.instruction hn hs)⟩
    · exact fun outcome after answer hr ha => ⟨_, h.next (.finish hn hr ha)⟩

/-- Whoever has a machine that was started cannot start it again. -/
theorem Happens.of_begun {cause : Fault} (hb : now.status.begin = .error cause)
    (h : Happens (.resting now) event moment) : moment = .resting now := by
  cases h with
  | accept hb' =>
    rw [hb] at hb'
    cases hb'
  | _ => rfl

theorem Life.of_begun {cause : Fault} (hb : now.status.begin = .error cause)
    (h : Life (.resting now) log moment) : moment = .resting now := by
  induction h with
  | none => rfl
  | next _ he ih => exact (ih ▸ he).of_begun hb

/-- The run of a machine is a part of its life, as long as it goes and when it has returned. -/
theorem Ready.run_lived (hm : Ready table program m) (ht : table.Returning) (fuel : Nat) :
    ((run fuel m).1 = .unfinished ∧ ∃ log, Life (.resting m) log (.running (run fuel m).2 [])) ∨
      ∃ log answer, (run fuel m).1.answer? = some answer ∧
        Life (.resting m) (log ++ [.returned answer]) (.resting (run fuel m).2) := by
  obtain ⟨sizing, hserving⟩ := hm.serving
  have hgoes : ∀ fuel now, drive fuel m.started = (.unfinished, now) →
      ∃ log, Life (.resting m) log (.running now []) := by
    intro fuel now hr
    have hnext : ∀ {now after}, (Serving table sizing program now ∧ ∃ log, Life (.resting m) log (.running now [])) →
        step now = .ok .next after →
        Serving table sizing program after ∧ ∃ log, Life (.resting m) log (.running after []) := by
      rintro now after ⟨hs, log, hl⟩ hstep
      exact ⟨hs.next hstep, (hl.onward hs.toUnderway).1 after hstep⟩
    exact (keeps_of_unfinished hnext ⟨hserving 0 _ (hm.run_eq 0), _, Life.none.next (.accept hm.begin_eq)⟩ hr).2
  rw [hm.run_eq]
  rcases drive_last fuel m.started with ⟨now, hu⟩ | ⟨fuel', -, before, hu, hc⟩
  · rw [hu]
    exact .inl ⟨rfl, hgoes fuel now hu⟩
  · right
    have hs := hserving fuel' before ((hm.run_eq fuel').trans hu)
    obtain ⟨log, hl⟩ := hgoes fuel' before hu
    cases ha : (drive fuel m.started).1.answer? with
    | none =>
      have hcrash := crash_of_conclude hc ha
      obtain ⟨script, entered, hcall⟩ := calls_of_crash hcrash
      exact (hs.returns ht hcall (hcall.step_eq ▸ hcrash)).elim
    | some answer =>
      obtain ⟨log', hl'⟩ := (hl.onward hs.toUnderway).2 _ _ answer hc ha
      exact ⟨log', answer, rfl, hl'⟩

/-- A machine is started once. In every life of a new machine whose handlers return, it is idle, then running and
then halted or faulted, and the first request to run is the only one that is accepted. All others, of its owner
or of a handler, are refused and change nothing. Once the run has returned, the machine stays as it is, with
the exit status that was returned or with none. The lives are those of the machine's `run`. -/
theorem lives_once (hm : Ready table program m) (ht : table.Returning) :
    (∀ log now, Life (.resting m) log now →
      (∀ event after, Happens now event after → Move event now.machine after.machine) ∧
      ((∃ code, now.machine.status.exitStatus? = some code) ↔ now.machine.status.phase = .halted) ∧
      (∀ held, now = .resting held → held.status.phase ≠ .running) ∧
      (log.filter Event.asksRun = [] ∨
        ∃ late, log.filter Event.asksRun = .accepted :: List.replicate late (.refused .alreadyStarted)) ∧
      ∀ answer, .returned answer ∈ log →
        now.machine.status.phase = finalPhase answer ∧ now.machine.status.exitStatus? = answer.toOption ∧
        (∀ later after, Life now later after → after = now) ∧
        (∃ fuel outcome, run fuel m = (outcome, now.machine) ∧ outcome.answer? = some answer) ∧
        ∀ fuel, run fuel now.machine = (.failed .alreadyStarted, now.machine)) ∧
    ∀ fuel,
      ((run fuel m).1 = .unfinished ∧ ∃ log, Life (.resting m) log (.running (run fuel m).2 [])) ∨
      ∃ log answer, (run fuel m).1.answer? = some answer ∧
        Life (.resting m) (log ++ [.returned answer]) (.resting (run fuel m).2) := by
  refine ⟨fun log now h => ?_, hm.run_lived ht⟩
  have hstands := h.stands hm ht
  refine ⟨fun event after he => (hstands.next hm ht he).2, exitStatus?_isSome_iff _, ?_, ?_, ?_⟩
  · rintro held rfl
    cases hstands with
    | ready => simp [hm.idle]
    | settled _ hrun ha =>
      rw [(hm.status_of_answer hrun ha).1]
      exact (finalPhase_ended _).2
  · obtain ⟨begun, answer, htells⟩ := hstands.tells
    obtain ⟨late, hasked⟩ := htells.asked
    cases begun with
    | false => exact .inl hasked
    | true => exact .inr ⟨late, hasked⟩
  · intro answer hr
    obtain ⟨held, fuel, outcome, rfl, hrun, ha⟩ := hstands.of_returned hr
    obtain ⟨hp, hx⟩ := hm.status_of_answer hrun ha
    have hb := (hm.begin_of_answer hrun ha).2
    refine ⟨hp, hx, fun later after hlater => hlater.of_begun hb, ⟨fuel, outcome, hrun, ha⟩, ?_⟩
    intro fuel'
    simp only [run, Moment.machine, hb]

/-- A program that makes one system call and halts. -/
def oneCall : List UInt8 := [0x0b, 0, 0, 0x05, 1, 1, 7]

/-- The handler asks in the middle of the run, and the owner asks again after it. -/
theorem lives_once_of_restart :
    ∃ now, Life (.resting (restarting oneCall))
        [.accepted, .worked, .refused .alreadyStarted, .worked, .returned (.ok 7), .refused .alreadyStarted] now ∧
      now.machine.status.phase = .halted ∧ now.machine.status.exitStatus? = some 7 ∧
      ∀ later after, Life now later after → after = now := by
  have hm : Ready (restarting oneCall).syscalls oneCall (restarting oneCall) := ⟨⟨none, 0, 1⟩, _, rfl, rfl⟩
  have ht : (restarting oneCall).syscalls.Returning := by
    intro entry he count m m' hr
    obtain rfl := List.mem_singleton.mp he
    simp only [perform, Status.begin, hr]
    intro h
    cases h
  have hc : Calls (restarting oneCall).started (.run fun _ => .done) _ :=
    @Calls.handler _ 0 0 [0x05, 1, 1, 7] ⟨"AGAIN", fun _ => .run fun _ => .done⟩ rfl rfl
  have hh : ∀ script entered,
      ¬ Calls (((restarting oneCall).started.recorded .call).leaving [0x05, 1, 1, 7]) script entered := by
    rintro script entered ⟨ha, -⟩
    cases ha
  have hcalled := ((Life.none.next (.accept rfl)).next (.enter hc)).next (.refuseWithin rfl)
  have hl : Life (.resting (restarting oneCall))
      [.accepted, .worked, .refused .alreadyStarted, .worked, .returned (.ok 7), .refused .alreadyStarted] _ :=
    ((hcalled.next .leave).next (.finish hh rfl rfl)).next (.refuse rfl)
  obtain ⟨-, -, -, -, hr⟩ := (lives_once hm ht).1 _ _ hl
  obtain ⟨hp, hx, hstay, -⟩ := hr (.ok 7) (by simp)
  exact ⟨_, hl, hp, hx, hstay⟩

end Lives

end Machine

end RegisterMachine
