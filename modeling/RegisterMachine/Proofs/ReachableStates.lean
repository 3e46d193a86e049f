import RegisterMachine.Proofs.MachineInvariant

namespace RegisterMachine

namespace Machine

/-- What is left of a system call after its next request, and the machine when the request has been answered.
A call without requests left is over. So is one that made the machine run, which only an idle machine does. -/
def answer? : Script → Machine → Option (Script × Machine)
  | .done, _ => none
  | .fail _, _ => none
  | .crash, _ => none
  | .operand next, m =>
    match readOperand m with
    | .ok v m' => some (next (.ok v), m')
    | .error cause m' => some (next (.error cause), m')
  | .line text next, m =>
    match writeLine text m with
    | .ok () m' => some (next (.ok ()), m')
    | .error cause m' => some (next (.error cause), m')
  | .register index next, m => some (next (m.registers.get index), m)
  | .run next, m =>
    match m.status.begin with
    | .error cause => some (next (.error cause), m)
    | .ok _ => none
  | .observe next, m => some (next m.status.phase m.status.exitStatus?, m)
  | .onWorker next, m => some (next m.onWorker, m)

/-- Some requests of a system call have been answered. -/
inductive Answers (script : Script) (m : Machine) : Script → Machine → Prop
  | none : Answers script m script m
  | next {rest rest' : Script} {within within' : Machine} : Answers script m rest within →
      answer? rest within = some (rest', within') → Answers script m rest' within'

/-- The machine hands over to the handler of a system call. The operands, if there are any, come next. -/
inductive Calls (m : Machine) : Script → Machine → Prop
  | handler {index count : UInt8} {rest : List UInt8} {entry : Syscall} :
      m.ahead = Opcode.code .call :: index :: count :: rest → m.syscalls.get index = .ok entry →
      Calls m (entry.script count) ((m.recorded .call).leaving rest)

/-- The states of a run: those between two instructions, the one that it ends in, and those that the handlers
of system calls see. -/
inductive Reachable (m : Machine) : Machine → Prop
  | run (fuel : Nat) : Reachable m (run fuel m).2
  | call {fuel : Nat} {before entered within : Machine} {script rest : Script} :
      Machine.run fuel m = (.unfinished, before) → Calls before script entered →
      Answers script entered rest within → Reachable m within

section Handlers

variable {sizing : Sizing} {program : List UInt8} {script rest : Script} {m entered within : Machine}

theorem perform_of_answer (h : answer? script m = some (rest, within)) : perform script m = perform rest within := by
  cases script with
  | done => cases h
  | fail cause => cases h
  | crash => cases h
  | operand next =>
    simp only [answer?] at h
    simp only [perform]
    split at h <;> cases h <;> simp only [*]
  | line text next =>
    simp only [answer?] at h
    simp only [perform]
    split at h <;> cases h <;> simp only [*]
  | register index next => cases h; rfl
  | run next =>
    simp only [answer?] at h
    simp only [perform]
    split at h <;> cases h
    simp only [*]
  | observe next => cases h; rfl
  | onWorker next => cases h; rfl

theorem Underway.answer (hm : Underway sizing program m) (h : answer? script m = some (rest, within)) :
    Underway sizing program within := by
  cases script with
  | done => cases h
  | fail cause => cases h
  | crash => cases h
  | operand next =>
    have hk := (readOperand_secures m hm).final
    simp only [answer?] at h
    split at h
    next hr => cases h; rw [hr] at hk; exact hk
    next hr => cases h; rw [hr] at hk; exact hk
  | line text next =>
    have hk := (writeLine_secures text m hm).final
    simp only [answer?] at h
    split at h
    next hr => cases h; rw [hr] at hk; exact hk
    next hr => cases h; rw [hr] at hk; exact hk
  | register index next => cases h; exact hm
  | run next =>
    simp only [answer?] at h
    split at h <;> cases h
    exact hm
  | observe next => cases h; exact hm
  | onWorker next => cases h; exact hm

theorem Answers.perform_eq (h : Answers script m rest within) : perform script m = perform rest within := by
  induction h with
  | none => rfl
  | next _ ha ih => exact ih.trans (perform_of_answer ha)

theorem Answers.underway (h : Answers script m rest within) (hm : Underway sizing program m) :
    Underway sizing program within := by
  induction h with
  | none => exact hm
  | next _ ha ih => exact ih.answer ha

theorem Calls.step_eq (h : Calls m script entered) : step m = perform script entered := by
  obtain @⟨index, count, input, entry, ha, hg⟩ := h
  have hr : ((m.recorded .call).leaving (index :: count :: input)).ahead = index :: count :: input :=
    ahead_leaving (show (m.recorded .call).ahead = [Opcode.code .call] ++ _ from ha)
  have hg' : ((m.recorded .call).leaving (index :: count :: input)).syscalls.get index = .ok entry := hg
  rw [step_eq_execute (Opcode.ofCode?_code .call) ha, execute_call_eq hr, hg']
  rfl

theorem Calls.underway (h : Calls m script entered) (hm : Underway sizing program m) :
    Underway sizing program entered := by
  obtain @⟨index, count, input, entry, -, -⟩ := h
  exact (hm.recorded .call).leaving input

/-- A handler cannot start the machine that it is called by. -/
theorem Underway.begin_eq (h : Underway sizing program m) : m.status.begin = .error .alreadyStarted := by
  simp only [Status.begin, h.running]

end Handlers

section Runs

variable {sizing : Sizing} {program : List UInt8} {m m' loaded : Machine}

/-- What a machine holds in a register can be stored and read back. -/
theorem Intact.decode_encode (h : Intact sizing program m) {index : UInt8} {v : Value}
    (hv : m.registers.get index = .ok v) (rest : List UInt8) :
    Codec.value.decode (Codec.value.encode v ++ rest) = .ok v rest :=
  Codec.value_lawful.decode_encode v (h.fits (slot_of_get hv)) rest

theorem underway_of_load (h : load sizing program = .ok loaded) (table : SyscallTable) (output : Sink)
    (onWorker : Bool) :
    Underway sizing program ({ loaded with syscalls := table, output, onWorker } : Machine).started := by
  obtain ⟨-, capacity, hroom, rfl⟩ := load_eq_ok h
  constructor
  · constructor
    · rfl
    · exact hroom
    · exact Nat.zero_le _
    · exact Array.size_replicate
    · exact ⟨rfl, Nat.zero_le _⟩
    · intro i s hs
      change (Array.replicate sizing.registerCount none)[i]? = some (some (Value.string s)) at hs
      rw [Array.getElem?_replicate] at hs
      split at hs <;> cases hs
    · intro id p hp
      cases hp
  · rfl

theorem Underway.run_intact (h : Underway sizing program m) (fuel : Nat) :
    Intact sizing program (drive fuel m).2 ∧
      ∀ m', drive fuel m = (.unfinished, m') → Underway sizing program m' := by
  induction fuel generalizing m with
  | zero => exact ⟨h.toIntact, fun m' hm => by cases hm; exact h⟩
  | succ fuel ih =>
    have hk := h.step.1
    cases hr : Machine.step m with
    | ok flow m₁ =>
      rw [hr] at hk
      simp only [drive, hr]
      cases flow with
      | next => exact ih hk
      | halt code => exact ⟨{ hk with }, fun m' hm => by cases hm⟩
      | crash => exact ⟨hk.toIntact, fun m' hm => by cases hm⟩
    | error cause m₁ =>
      rw [hr] at hk
      simp only [drive, hr]
      exact ⟨{ hk with }, fun m' hm => by cases hm⟩

/-- A loaded machine stays in good order, whatever its program and the handlers of its system calls do. So no
jump leaves the program, no text in a register is too long for the memory, and no handler starts the machine
again. -/
theorem reachable_intact (h : load sizing program = .ok loaded) (table : SyscallTable) (output : Sink)
    (onWorker : Bool) (hm : m = { loaded with syscalls := table, output, onWorker }) :
    (∀ state, Reachable m state → Intact sizing program state ∧
      ∀ index v rest, state.registers.get index = .ok v →
        Codec.value.decode (Codec.value.encode v ++ rest) = .ok v rest) ∧
    ∀ fuel before, run fuel m = (.unfinished, before) →
      (∀ op rest cause after, before.ahead = Opcode.code op :: rest → step before = .error cause after →
        cause.PossibleAt op) ∧
      ∀ script entered, Calls before script entered → ∀ rest within, Answers script entered rest within →
        step before = perform rest within ∧ within.status.begin = .error .alreadyStarted := by
  have hs : Underway sizing program m.started := hm ▸ underway_of_load h table output onWorker
  have hready : Ready table program m := ⟨sizing, loaded, h, by rw [hm]⟩
  have hrun := hready.run_eq
  have hu : ∀ fuel before, run fuel m = (.unfinished, before) → Underway sizing program before :=
    fun fuel before hr => (hs.run_intact fuel).2 before (hrun fuel ▸ hr)
  constructor
  · intro state hstate
    have hi : Intact sizing program state := by
      cases hstate with
      | run fuel =>
        rw [hrun]
        exact (hs.run_intact fuel).1
      | call hr hc ha => exact (ha.underway (hc.underway (hu _ _ hr))).toIntact
    exact ⟨hi, fun index v rest hv => hi.decode_encode hv rest⟩
  · intro fuel before hr
    refine ⟨(hu fuel before hr).step.2, ?_⟩
    intro script entered hc rest within ha
    exact ⟨hc.step_eq.trans ha.perform_eq, (ha.underway (hc.underway (hu fuel before hr))).begin_eq⟩

/-- A machine whose only system call asks it to run and leaves the operands unread. -/
def restarting (program : List UInt8) : Machine :=
  { code := ⟨program, program.length, 0⟩
    registers := .empty 1
    memory := .zeroed 0
    syscalls := ⟨[⟨"AGAIN", fun _ => .run fun _ => .done⟩]⟩ }

/-- The operand of the call is carried out as a marker, and the jump behind it finds the place. -/
theorem reachable_intact_of_unread_operand :
    ∃ entered, Calls (restarting [0x0b, 0, 1, 0x0d, 7, 0x0c, 7]).started (.run fun _ => .done) entered ∧
      entered.status.begin = .error .alreadyStarted ∧
      (run 3 (restarting [0x0b, 0, 1, 0x0d, 7, 0x0c, 7])).1 = .unfinished ∧
      (run 3 (restarting [0x0b, 0, 1, 0x0d, 7, 0x0c, 7])).2.locations.entries = [(7, 5)] ∧
      EndsMark [0x0b, 0, 1, 0x0d, 7, 0x0c, 7] 7 5 := by
  have hl : load ⟨none, 0, 1⟩ [0x0b, 0, 1, 0x0d, 7, 0x0c, 7] = .ok
      { restarting [0x0b, 0, 1, 0x0d, 7, 0x0c, 7] with syscalls := .standard } := rfl
  obtain ⟨hi, hr⟩ := reachable_intact (m := restarting [0x0b, 0, 1, 0x0d, 7, 0x0c, 7]) hl _ {} false rfl
  have hc : Calls (restarting [0x0b, 0, 1, 0x0d, 7, 0x0c, 7]).started (.run fun _ => .done) _ :=
    @Calls.handler _ 0 1 [0x0d, 7, 0x0c, 7] ⟨"AGAIN", fun _ => .run fun _ => .done⟩ rfl rfl
  have hp : (run 3 (restarting [0x0b, 0, 1, 0x0d, 7, 0x0c, 7])).2.locations.entries = [(7, 5)] := by decide +kernel
  have he := (hi _ (.run 3)).1.locations 7 5 (by rw [hp]; exact List.mem_singleton.mpr rfl)
  exact ⟨_, hc, ((hr 0 _ rfl).2 _ _ hc _ _ .none).2, by decide +kernel, hp, he⟩

end Runs

end Machine

end RegisterMachine
