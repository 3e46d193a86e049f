import RegisterMachine.Proofs.StepFrame

namespace RegisterMachine

namespace Machine

/-- A machine with `P` is left behind, also after a fault. What was asked for has `Q`, or the fault has `E`. -/
inductive Secured {α : Type} (P : Machine → Prop) (Q : α → Prop) (E : Fault → Prop) :
    EStateM.Result Fault Machine α → Prop
  | ok {a : α} {m : Machine} : P m → Q a → Secured P Q E (.ok a m)
  | error {cause : Fault} {m : Machine} : P m → E cause → Secured P Q E (.error cause m)

/-- The action turns a machine with the invariant `P` into one with it, gives what has `Q`, and has only
faults with `E`. -/
def Secures {α : Type} (P : Machine → Prop) (Q : α → Prop) (E : Fault → Prop) (x : Action α) : Prop :=
  ∀ m, P m → Secured P Q E (x m)

section Contracts

variable {α β : Type} {P : Machine → Prop} {Q : α → Prop} {R : β → Prop} {E F : Fault → Prop}

theorem Secured.final {r : EStateM.Result Fault Machine α} (h : Secured P Q E r) : P (finalOf r) := by
  cases h with
  | ok hm _ => exact hm
  | error hm _ => exact hm

theorem Secures.bind {x : Action α} {f : α → Action β} (hx : Secures P Q E x)
    (hf : ∀ a, Q a → Secures P R E (f a)) : Secures P R E (x >>= f) := by
  intro m hm
  have hs := hx m hm
  cases hr : x m with
  | ok a m' =>
    rw [hr] at hs
    cases hs with
    | ok hm' ha =>
      have hb : (x >>= f) m = f a m' := bind_of_ok hr
      rw [hb]
      exact hf a ha m' hm'
  | error cause m' =>
    rw [hr] at hs
    cases hs with
    | error hm' he =>
      have hb : (x >>= f) m = .error cause m' := bind_of_error hr
      rw [hb]
      exact .error hm' he

theorem Secures.weaken {x : Action α} (hx : Secures P Q E x) (h : ∀ cause, E cause → F cause) :
    Secures P Q F x := by
  intro m hm
  have hs := hx m hm
  generalize x m = r at hs
  cases hs with
  | ok hm' ha => exact .ok hm' ha
  | error hm' he => exact .error hm' (h _ he)

theorem secures_pure {a : α} (h : Q a) : Secures P Q E (pure a) :=
  fun _ hm => .ok hm h

theorem secures_throw {cause : Fault} (h : E cause) : Secures P Q E (throw cause : Action α) :=
  fun _ hm => .error hm h

theorem secures_asking {question : Machine → Except Fault α} (hq : ∀ m a, P m → question m = .ok a → Q a)
    (he : ∀ m cause, P m → question m = .error cause → E cause) : Secures P Q E (asking question) := by
  intro m hm
  cases h : question m with
  | ok a =>
    rw [asking_of_ok m h]
    exact .ok hm (hq m a hm h)
  | error cause =>
    rw [asking_of_error m h]
    exact .error hm (he m cause hm h)

/-- A part of the machine is replaced, unless that is refused. -/
theorem secures_changing {part : Machine → Except Fault α} {put : Machine → α → Machine}
    (hc : ∀ m a, P m → part m = .ok a → P (put m a)) (he : ∀ m cause, P m → part m = .error cause → E cause) :
    Secures P (fun _ => True) E (changing fun m => (part m).map (put m)) := by
  intro m hm
  cases h : part m with
  | ok a =>
    have hr : changing (fun m => (part m).map (put m)) m = .ok () (put m a) := by simp only [changing, h, Except.map]
    rw [hr]
    exact .ok (hc m a hm h) trivial
  | error cause =>
    have hr : changing (fun m => (part m).map (put m)) m = .error cause m := by simp only [changing, h, Except.map]
    rw [hr]
    exact .error hm (he m cause hm h)

theorem Secures.respects {x : Action α} (hx : Secures P Q E x) : Respects (fun m m' => P m → P m') x :=
  fun m hm => (hx m hm).final

/-- On a machine with `P`, every fault of the action has `E`. -/
def RaisesOn {α : Type} (P : Machine → Prop) (E : Fault → Prop) (x : Action α) : Prop :=
  ∀ m cause m', P m → x m = .error cause m' → E cause

theorem Secures.raisesOn {x : Action α} (hx : Secures P Q E x) : RaisesOn P E x := by
  intro m cause m' hm h
  have hs := hx m hm
  rw [h] at hs
  cases hs with
  | error _ he => exact he

/-- The last of several actions need not keep the invariant. -/
theorem Secures.bind_raisesOn {x : Action α} {f : α → Action β} (hx : Secures P Q E x)
    (hf : ∀ a, Q a → RaisesOn P E (f a)) : RaisesOn P E (x >>= f) := by
  intro m cause m' hm h
  obtain h | ⟨a, m₁, ha, h⟩ := bind_eq_error.mp h
  · exact hx.raisesOn m cause m' hm h
  · have hs := hx m hm
    rw [ha] at hs
    cases hs with
    | ok hm₁ hq => exact hf a hq m₁ cause m' hm₁ h

theorem RaisesOn.done {x : Action α} (hx : RaisesOn P E x) (b : β) : RaisesOn P E (x >>= fun _ => pure b) := by
  intro m cause m' hm h
  obtain h | ⟨a, m₁, -, h⟩ := bind_eq_error.mp h
  · exact hx m cause m' hm h
  · cases h

theorem keeping_lasting (P : Machine → Prop) : Lasting fun m m' => P m → P m' where
  refl _ hm := hm
  trans h h' hm := h' (h hm)

end Contracts

/-- A handler keeps what reading operands and printing keep. Its faults may be of any sort. -/
theorem secures_perform {P : Machine → Prop} {Q : Value → Prop} {R : Unit → Prop} {E F : Fault → Prop}
    (ho : Secures P Q E readOperand) (hw : ∀ line, Secures P R E (writeLine line))
    (hF : ∀ cause, F cause) (script : Script) : Secures P (fun _ => True) F (perform script) := by
  intro m hm
  have hk := respects_perform (keeping_lasting P) ho.respects (fun line => (hw line).respects) script m hm
  cases hr : perform script m with
  | ok flow m' =>
    rw [hr] at hk
    exact .ok hk trivial
  | error cause m' =>
    rw [hr] at hk
    exact .error hk (hF cause)

end Machine

end RegisterMachine
