import Lager.Client.Calls

set_option relaxedAutoImplicit false
set_option autoImplicit false

/-!
# Routines

Most of the crate never sees the wire: it goes through a few methods of a client, which are passes.
Such code is a program over the passes. What either client does when it carries one out is what it
does for its passes, one after the other.

## Main definitions

* `Lager.Routine` — a program over the passes.
* `Lager.Transport.carryOut` — what a client does for it.

## Main results

* `Lager.Transport.carryOut_spec` — its passes, one after the other.
-/

namespace Lager

open Library

/-- What a pass returns to its caller. -/
def Pass.Ans (p : Pass) : Type := Except Error p.Result

/-- Code that goes through the passes of a client. -/
abbrev Routine := Program Pass Pass.Ans

/-- A pass with what it returned. -/
abbrev PassEvent := Library.Event Pass Pass.Ans

/-- `execute`. -/
def Routine.execute (req : HttpRequest) : Routine (Except Error (ℕ × Value)) :=
  @Program.perform Pass Pass.Ans (.execute req)

/-- `execute_debug`. -/
def Routine.executeDebug (req : HttpRequest) : Routine (Except Error (ℕ × Value)) :=
  @Program.perform Pass Pass.Ans (.executeDebug req)

/-- `stream_debug`. -/
def Routine.streamDebug (req : HttpRequest) : Routine (Except Error RttStream) :=
  @Program.perform Pass Pass.Ans (.streamDebug req)

section

variable {req : HttpRequest}

@[simp] theorem Routine.always_execute {Q : List PassEvent → Except Error (ℕ × Value) → Prop} :
    Always (Routine.execute req) Q ↔
      ∀ answer : Except Error (ℕ × Value), Q [⟨.execute req, answer⟩] answer := Iff.rfl

@[simp] theorem Routine.always_executeDebug {Q : List PassEvent → Except Error (ℕ × Value) → Prop} :
    Always (Routine.executeDebug req) Q ↔
      ∀ answer : Except Error (ℕ × Value), Q [⟨.executeDebug req, answer⟩] answer := Iff.rfl

@[simp] theorem Routine.always_streamDebug {Q : List PassEvent → Except Error RttStream → Prop} :
    Always (Routine.streamDebug req) Q ↔
      ∀ answer : Except Error RttStream, Q [⟨.streamDebug req, answer⟩] answer := Iff.rfl

end

/-- What a client does for a routine. -/
def Transport.carryOut [SerdeJson] {α : Type} (t : Transport) (client : Client)
    (routine : Routine α) : Action α := routine.interpret (t.pass client)

/-- What a client does for a routine is what it does for its passes. -/
theorem Transport.carryOut_spec [SerdeJson] {α : Type} (t : Transport) (client : Client)
    {Does : PassEvent → List Event → Prop}
    (hpass : ∀ p s, Always ((t.pass client p).run s) fun events r => Does ⟨p, r.1⟩ events)
    (routine : Routine α) (s : GatewayAuth.State) :
    Always ((t.carryOut client routine).run s) fun events r => ∃ passes parts,
      Run routine passes r.1 ∧ List.Forall₂ Does passes parts ∧ events = parts.flatten :=
  always_interpret hpass routine s

end Lager
