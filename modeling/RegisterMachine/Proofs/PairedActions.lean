import RegisterMachine.Proofs.StandardStep

namespace RegisterMachine

/-- Two answers that are the same, where a fault is of the sort `F`. When the first one is a fault of the sort
`E`, the second may be anything. -/
inductive Concur {α : Type} (E F : Fault → Prop) : Except Fault α → Except Fault α → Prop
  | ok (a : α) : Concur E F (.ok a) (.ok a)
  | error {cause : Fault} : F cause → Concur E F (.error cause) (.error cause)
  | excused {cause : Fault} {answer : Except Fault α} : E cause → Concur E F (.error cause) answer

namespace Machine

/-- Two results with the same answer, or the same fault of the sort `F`, on machines that are so related. When
the first one is a fault of the sort `E`, the second may be anything. -/
inductive Paired {α : Type} (R : Machine → Machine → Prop) (E F : Fault → Prop) :
    EStateM.Result Fault Machine α → EStateM.Result Fault Machine α → Prop
  | ok {a : α} {m m' : Machine} : R m m' → Paired R E F (.ok a m) (.ok a m')
  | error {cause : Fault} {m m' : Machine} : F cause → R m m' → Paired R E F (.error cause m) (.error cause m')
  | excused {cause : Fault} {m : Machine} {r : EStateM.Result Fault Machine α} : E cause →
      Paired R E F (.error cause m) r

/-- The action has paired results on related machines. -/
def Pairs {α : Type} (R : Machine → Machine → Prop) (E F : Fault → Prop) (x : Action α) : Prop :=
  ∀ m m', R m m' → Paired R E F (x m) (x m')

variable {α β : Type} {R : Machine → Machine → Prop} {E F : Fault → Prop}

theorem Paired.bind {x y : Action α} {f g : α → Action β} {m m' : Machine} (hx : Paired R E F (x m) (y m'))
    (hf : ∀ a n n', R n n' → Paired R E F (f a n) (g a n')) : Paired R E F ((x >>= f) m) ((y >>= g) m') := by
  generalize hr : x m = r at hx
  generalize hr' : y m' = r' at hx
  cases hx with
  | @ok a n n' hR =>
    rw [bind_of_ok hr, bind_of_ok hr']
    exact hf a n n' hR
  | error hc hR =>
    rw [bind_of_error hr, bind_of_error hr']
    exact .error hc hR
  | excused hc =>
    rw [bind_of_error hr]
    exact .excused hc

theorem Pairs.bind {x : Action α} {f : α → Action β} (hx : Pairs R E F x) (hf : ∀ a, Pairs R E F (f a)) :
    Pairs R E F (x >>= f) :=
  fun m m' h => (hx m m' h).bind fun a n n' hn => hf a n n' hn

theorem pairs_pure (a : α) : Pairs R E F (pure a) := fun _ _ h => .ok h

theorem pairs_throw {cause : Fault} (hc : F cause) : Pairs R E F (throw cause : Action α) :=
  fun _ _ h => .error hc h

theorem pairs_asking {question : Machine → Except Fault α}
    (hq : ∀ m m', R m m' → Concur E F (question m) (question m')) : Pairs R E F (asking question) := by
  intro m m' h
  have hc := hq m m' h
  simp only [asking]
  generalize question m = answer at hc
  generalize question m' = answer' at hc
  cases hc with
  | ok a => exact .ok h
  | error hF => exact .error hF h
  | excused hE => exact .excused hE

end Machine

end RegisterMachine
