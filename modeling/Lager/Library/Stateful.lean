import Lager.Library.Program

set_option relaxedAutoImplicit false
set_option autoImplicit false

/-!
# Programs with a state that can fail

A program over an interface that keeps a state of its own and may fail. A failure ends it, and the
state stays as it was left.

## Main definitions

* `Library.Stateful` — such programs, a monad.
* `Library.Stateful.Does` — what holds of every run, computed along the program.

## Main results

* `Library.Stateful.does_bind` — the rule for sequencing: a failure of the first program is the
  failure of both.
-/

namespace Library

variable {ε σ Op : Type} {Ans : Op → Type} {α β : Type}

/-- Programs over an interface with errors in `ε` and a state in `σ`. -/
abbrev Stateful (ε σ Op : Type) (Ans : Op → Type) := ExceptT ε (StateT σ (Program Op Ans))

namespace Stateful

/-- A program without a state, as one that leaves the state alone. -/
def ofProgram (p : Program Op Ans (Except ε α)) : Stateful ε σ Op Ans α :=
  ExceptT.mk fun s => p >>= fun r => pure (r, s)

/-- A result or an error. -/
def ofResult (r : Except ε α) : Stateful ε σ Op Ans α := ofProgram (pure r)

/-- A program that neither uses the state nor fails. -/
def perform (p : Program Op Ans α) : Stateful ε σ Op Ans α := ofProgram (Except.ok <$> p)

/-- Read the state. -/
def load : Stateful ε σ Op Ans σ := ExceptT.mk fun s => pure (.ok s, s)

/-- Set the state. -/
def store (s : σ) : Stateful ε σ Op Ans Unit := ExceptT.mk fun _ => pure (.ok (), s)

/-- Every run from a state has events, a result and a final state that satisfy `Q`. -/
def Does (p : Stateful ε σ Op Ans α) (s : σ)
    (Q : List (Event Op Ans) → Except ε α → σ → Prop) : Prop :=
  Always (p.run.run s) fun events r => Q events r.1 r.2

variable {p : Stateful ε σ Op Ans α} {s : σ} {Q Q' : List (Event Op Ans) → Except ε α → σ → Prop}

/-- `Does` speaks of all runs. -/
theorem does_iff_run :
    p.Does s Q ↔ ∀ events r s', Run (p.run.run s) events (r, s') → Q events r s' := by
  unfold Does
  rw [always_iff_run]
  constructor
  · intro h events r s' hrun
    exact h events (r, s') hrun
  · rintro h events ⟨r, s'⟩ hrun
    exact h events r s' hrun

/-- The rule of consequence. -/
theorem Does.mono (h : p.Does s Q) (hQ : ∀ events r s', Q events r s' → Q' events r s') :
    p.Does s Q' :=
  Always.mono h fun events r => hQ events r.1 r.2

/-- A program that does nothing. -/
@[simp] theorem does_pure {a : α} : (pure a : Stateful ε σ Op Ans α).Does s Q ↔ Q [] (.ok a) s :=
  Iff.rfl

/-- A result or an error, without an operation. -/
@[simp] theorem does_ofResult {r : Except ε α} :
    (ofResult r : Stateful ε σ Op Ans α).Does s Q ↔ Q [] r s := Iff.rfl

/-- A program that leaves the state alone. -/
@[simp] theorem does_ofProgram {p : Program Op Ans (Except ε α)} :
    (ofProgram p : Stateful ε σ Op Ans α).Does s Q ↔ Always p fun events r => Q events r s := by
  show Always (p >>= fun r => pure (r, s)) _ ↔ _
  simp only [always_bind, always_pure, List.append_nil]

/-- A program that neither uses the state nor fails. -/
@[simp] theorem does_perform {p : Program Op Ans α} :
    (perform p : Stateful ε σ Op Ans α).Does s Q ↔
      Always p fun events a => Q events (.ok a) s := by
  rw [perform, does_ofProgram, always_map]

/-- Reading the state. -/
@[simp] theorem does_load {Q : List (Event Op Ans) → Except ε σ → σ → Prop} :
    (load : Stateful ε σ Op Ans σ).Does s Q ↔ Q [] (.ok s) s := Iff.rfl

/-- Setting the state. -/
@[simp] theorem does_store {s' : σ} {Q : List (Event Op Ans) → Except ε Unit → σ → Prop} :
    (store s' : Stateful ε σ Op Ans Unit).Does s Q ↔ Q [] (.ok ()) s' := Iff.rfl

/-- The rule for sequencing. A program that fails is followed by nothing. -/
@[simp] theorem does_bind {f : α → Stateful ε σ Op Ans β}
    {Q : List (Event Op Ans) → Except ε β → σ → Prop} :
    (p >>= f).Does s Q ↔ p.Does s fun events r s' =>
      match r with
      | .ok a => (f a).Does s' fun events' r' s'' => Q (events ++ events') r' s''
      | .error err => Q events (.error err) s' := by
  unfold Does
  rw [ExceptT.run_bind, StateT.run_bind, always_bind]
  constructor
  · intro h
    refine h.mono ?_
    rintro events ⟨err | a, s'⟩ hrest
    · simpa using hrest
    · exact hrest
  · intro h
    refine h.mono ?_
    rintro events ⟨err | a, s'⟩ hrest
    · simpa using hrest
    · exact hrest

end Stateful

end Library
