import Mathlib.Data.List.Basic
import Mathlib.Tactic.Common

set_option relaxedAutoImplicit false
set_option autoImplicit false

/-!
# Programs over an interface

A program that talks to its surroundings is a tree: at each node it performs an operation and
goes on with the answer. Nothing is said about the answers, so what is proved of all runs of a
program holds in every environment, whoever else is in it.

An interface is a type `Op` of operations with a type of answers for each, `Ans`. A run of a
program is the list of operations it performed with the answers it got, and its result.

## Main definitions

* `Library.Program` — programs, a monad.
* `Library.Run` — a run of a program.
* `Library.Always` — what holds of every run, computed along the tree.
* `Library.Program.inl` — a program over an interface with more operations.
* `Library.Program.interpret` — a program whose operations are programs themselves.

## Main results

* `Library.always_iff_run` — `Always` speaks of all runs.
* `Library.always_bind` — the rule for sequencing.
* `Library.always_interpret` — what is carried out is a run of the program.
* `Library.Run.determined` — a program that gets the same answers does the same.
-/

namespace Library

variable {Op : Type} {Ans : Op → Type} {α β : Type}

/-- A program with results in `α`. -/
inductive Program (Op : Type) (Ans : Op → Type) (α : Type) : Type
  | pure (a : α) : Program Op Ans α
  | op (o : Op) (next : Ans o → Program Op Ans α) : Program Op Ans α

/-- An operation with its answer. -/
abbrev Event (Op : Type) (Ans : Op → Type) : Type := (o : Op) × Ans o

/-- Events of one operation are the same when their answers are. -/
theorem event_inj {o : Op} {a b : Ans o} (h : (⟨o, a⟩ : Event Op Ans) = ⟨o, b⟩) : a = b :=
  eq_of_heq (Sigma.mk.inj h).2

namespace Program

/-- Sequencing: the second program starts with the result of the first. -/
def bind : Program Op Ans α → (α → Program Op Ans β) → Program Op Ans β
  | pure a, f => f a
  | op o next, f => op o fun ans => (next ans).bind f

instance : Monad (Program Op Ans) where
  pure := Program.pure
  bind := Program.bind

/-- Perform one operation. -/
def perform (o : Op) : Program Op Ans (Ans o) := op o Program.pure

/-- Mapping with the identity changes nothing. -/
theorem id_map' (p : Program Op Ans α) : id <$> p = p := by
  induction p with
  | pure a => rfl
  | op o next ih => exact congrArg (op o) (funext ih)

/-- Sequencing is associative. -/
theorem bind_assoc' {γ : Type} (p : Program Op Ans α) (f : α → Program Op Ans β)
    (g : β → Program Op Ans γ) : p >>= f >>= g = p >>= fun a => f a >>= g := by
  induction p with
  | pure a => rfl
  | op o next ih => exact congrArg (op o) (funext ih)

instance : LawfulMonad (Program Op Ans) :=
  LawfulMonad.mk' _ id_map' (fun _ _ => rfl) bind_assoc'

end Program

/-- The runs of a program. -/
inductive Run : Program Op Ans α → List (Event Op Ans) → α → Prop
  | pure (a : α) : Run (.pure a) [] a
  | op {o : Op} {next : Ans o → Program Op Ans α} (ans : Ans o) {events : List (Event Op Ans)}
      {a : α} : Run (next ans) events a → Run (.op o next) (⟨o, ans⟩ :: events) a

/-- A run of an operation. -/
theorem run_perform (o : Op) (ans : Ans o) : Run (Program.perform o) [⟨o, ans⟩] ans :=
  .op ans (.pure ans)

/-- A run of one program after the other. -/
theorem Run.bind {p : Program Op Ans α} {f : α → Program Op Ans β}
    {events events' : List (Event Op Ans)} {a : α} {b : β} (h : Run p events a)
    (h' : Run (f a) events' b) : Run (p >>= f) (events ++ events') b := by
  induction h with
  | pure a => exact h'
  | op ans _ ih => exact .op ans (ih h')

/-- A run of a program, and then of one that performs nothing. -/
theorem Run.bind_quiet {p : Program Op Ans α} {f : α → Program Op Ans β}
    {events : List (Event Op Ans)} {a : α} {b : β} (h : Run p events a)
    (h' : Run (f a) [] b) : Run (p >>= f) events b := by
  simpa using h.bind h'

/-- The events of a run determine its result. -/
theorem Run.unique {p : Program Op Ans α} {events : List (Event Op Ans)} {a b : α}
    (h : Run p events a) (h' : Run p events b) : a = b := by
  induction h with
  | pure a =>
    cases h'
    rfl
  | op ans _ ih =>
    cases h' with
    | op _ hrest => exact ih hrest

/-- The runs of a program whose result is mapped. -/
theorem run_map {p : Program Op Ans α} {f : α → β} {events : List (Event Op Ans)} {b : β} :
    Run (f <$> p) events b ↔ ∃ a, Run p events a ∧ f a = b := by
  constructor
  · intro h
    induction p generalizing events with
    | pure a =>
      cases h
      exact ⟨a, .pure a, rfl⟩
    | op o next ih =>
      cases h with
      | op ans hrest =>
        obtain ⟨a, hrun, ha⟩ := ih ans hrest
        exact ⟨a, .op ans hrun, ha⟩
  · rintro ⟨a, hrun, rfl⟩
    induction hrun with
    | pure a => exact .pure _
    | op ans _ ih => exact .op ans ih

/-- The result of a program in surroundings with fixed answers. -/
def Program.eval (answers : (o : Op) → Ans o) : Program Op Ans α → α
  | .pure a => a
  | .op o next => (next (answers o)).eval answers

/-- `Always p Q`: every run of `p` has events and a result that satisfy `Q`. -/
def Always : Program Op Ans α → (List (Event Op Ans) → α → Prop) → Prop
  | .pure a, Q => Q [] a
  | .op o next, Q => ∀ ans, Always (next ans) fun events a => Q (⟨o, ans⟩ :: events) a

/-- `Always` speaks of all runs. -/
theorem always_iff_run {p : Program Op Ans α} {Q : List (Event Op Ans) → α → Prop} :
    Always p Q ↔ ∀ events a, Run p events a → Q events a := by
  induction p generalizing Q with
  | pure a =>
    refine ⟨fun h events b hrun => ?_, fun h => h [] a (.pure a)⟩
    cases hrun
    exact h
  | op o next ih =>
    refine ⟨fun h events a hrun => ?_, fun h ans => (ih ans).mpr fun events a hrun => ?_⟩
    · cases hrun with
      | op ans hrest => exact (ih ans).mp (h ans) _ _ hrest
    · exact h _ _ (.op ans hrun)

/-! ## Larger interfaces -/

/-- A program over an interface with more operations. -/
def Program.inl {Op' : Type} {Ans' : Op' → Type} :
    Program Op Ans α → Program (Op ⊕ Op') (Sum.elim Ans Ans') α
  | .pure a => .pure a
  | .op o next => .op (.inl o) fun ans => (next ans).inl

/-- An operation of the smaller interface with its answer. -/
def Event.inl {Op' : Type} {Ans' : Op' → Type} (e : Event Op Ans) :
    Event (Op ⊕ Op') (Sum.elim Ans Ans') := ⟨.inl e.1, e.2⟩

/-- The runs of a program over an interface with more operations are its own. -/
@[simp] theorem always_inl {Op' : Type} {Ans' : Op' → Type} {p : Program Op Ans α}
    {Q : List (Event (Op ⊕ Op') (Sum.elim Ans Ans')) → α → Prop} :
    Always p.inl Q ↔ Always p fun events a => Q (events.map Event.inl) a := by
  induction p generalizing Q with
  | pure a => rfl
  | op o next ih => exact forall_congr' fun ans => ih ans

/-- A run of a program is one over an interface with more operations. -/
theorem Run.inl {Op' : Type} {Ans' : Op' → Type} {p : Program Op Ans α}
    {events : List (Event Op Ans)} {a : α} (h : Run p events a) :
    Run (p.inl : Program (Op ⊕ Op') (Sum.elim Ans Ans') α) (events.map Event.inl) a := by
  induction h with
  | pure a => exact .pure a
  | @op o next ans events a h ih =>
    exact @Run.op (Op ⊕ Op') (Sum.elim Ans Ans') α (.inl o) (fun ans => (next ans).inl) ans _ a ih

/-! ## Rules -/

/-- A run of a program that performs nothing. -/
@[simp] theorem always_pure {a : α} {Q : List (Event Op Ans) → α → Prop} :
    Always (pure a : Program Op Ans α) Q ↔ Q [] a := Iff.rfl

/-- A run that starts with an operation. -/
@[simp] theorem always_perform {o : Op} {Q : List (Event Op Ans) → Ans o → Prop} :
    Always (Program.perform o) Q ↔ ∀ ans, Q [⟨o, ans⟩] ans := Iff.rfl

/-- The rule of consequence. -/
theorem Always.mono {p : Program Op Ans α} {Q Q' : List (Event Op Ans) → α → Prop}
    (h : Always p Q) (hQ : ∀ events a, Q events a → Q' events a) : Always p Q' := by
  rw [always_iff_run] at h ⊢
  intro events a hrun
  exact hQ events a (h events a hrun)

/-- What holds of every run anyway holds of every run of a program. -/
theorem Always.of_forall {p : Program Op Ans α} {Q : List (Event Op Ans) → α → Prop}
    (h : ∀ events a, Q events a) : Always p Q :=
  always_iff_run.mpr fun events a _ => h events a

/-- Two things that hold of every run hold of it together. -/
theorem Always.and {p : Program Op Ans α} {Q Q' : List (Event Op Ans) → α → Prop}
    (h : Always p Q) (h' : Always p Q') : Always p fun events a => Q events a ∧ Q' events a := by
  rw [always_iff_run] at *
  intro events a hrun
  exact ⟨h events a hrun, h' events a hrun⟩

/-- The rule for sequencing: the events of the second program follow those of the first. -/
@[simp] theorem always_bind {p : Program Op Ans α} {f : α → Program Op Ans β}
    {Q : List (Event Op Ans) → β → Prop} :
    Always (p >>= f) Q ↔
      Always p fun events a => Always (f a) fun events' b => Q (events ++ events') b := by
  induction p generalizing Q with
  | pure a => exact Iff.rfl
  | op o next ih => exact forall_congr' fun ans => ih ans

/-- The rule for mapping the result. -/
@[simp] theorem always_map {p : Program Op Ans α} {f : α → β}
    {Q : List (Event Op Ans) → β → Prop} :
    Always (f <$> p) Q ↔ Always p fun events a => Q events (f a) := by
  rw [map_eq_pure_bind, always_bind]
  simp

/-- What follows a program only matters for the results it can have. -/
theorem Always.bind_congr {p : Program Op Ans α} {P : α → Prop} (h : Always p fun _ a => P a)
    {f g : α → Program Op Ans β} (hfg : ∀ a, P a → f a = g a) : p >>= f = p >>= g := by
  induction p with
  | pure a => exact hfg a h
  | op o next ih => exact congrArg (Program.op o) (funext fun ans => ih ans (h ans))

/-- The same for a program lifted into one with a state. -/
theorem Always.lift_bind_congr {σ : Type} {p : Program Op Ans α} {P : α → Prop}
    (h : Always p fun _ a => P a) {f g : α → StateT σ (Program Op Ans) β}
    (hfg : ∀ a, P a → f a = g a) :
    (liftM p : StateT σ (Program Op Ans) α) >>= f = liftM p >>= g := by
  funext s
  show (p >>= fun a => Pure.pure (a, s)) >>= (fun r => f r.1 r.2) =
    (p >>= fun a => Pure.pure (a, s)) >>= fun r => g r.1 r.2
  rw [bind_assoc, bind_assoc]
  exact h.bind_congr fun a ha => congrFun (hfg a ha) s

/-! ## Programs of programs -/

/-- Carry out a program, each of its operations as `handle` says. -/
def Program.interpret {M : Type → Type} [Monad M] (handle : (o : Op) → M (Ans o)) :
    Program Op Ans α → M α
  | .pure a => Pure.pure a
  | .op o next => handle o >>= fun ans => (next ans).interpret handle

/-- **Carrying out a program.** What is done then is what is done for the operations of a run, one
after the other.

**Proof sketch.** Induction on the program, with the rule for sequencing. -/
theorem always_interpret {σ Op' : Type} {Ans' : Op' → Type}
    {handle : (o : Op) → StateT σ (Program Op' Ans') (Ans o)}
    {Does : Event Op Ans → List (Event Op' Ans') → Prop}
    (hhandle : ∀ o s, Always ((handle o).run s) fun events r => Does ⟨o, r.1⟩ events)
    (p : Program Op Ans α) (s : σ) :
    Always ((p.interpret handle).run s) fun events r => ∃ calls parts, Run p calls r.1 ∧
      List.Forall₂ Does calls parts ∧ events = parts.flatten := by
  induction p generalizing s with
  | pure a => exact ⟨[], [], .pure a, .nil, rfl⟩
  | op o next ih =>
    rw [Program.interpret, StateT.run_bind, always_bind]
    refine (hhandle o s).mono ?_
    rintro first ⟨ans, s'⟩ hdoes
    refine (ih ans s').mono ?_
    rintro rest r ⟨calls, parts, hrun, hparts, rfl⟩
    exact ⟨⟨o, ans⟩ :: calls, first :: parts, .op ans hrun, .cons hdoes hparts, rfl⟩

/-- What was done for an operation is in what was done for all. -/
theorem exists_part_of_mem {A B : Type} {Does : A → List B → Prop} {calls : List A}
    {parts : List (List B)} (h : List.Forall₂ Does calls parts) {call : A} (hcall : call ∈ calls) :
    ∃ part, Does call part ∧ ∀ e ∈ part, e ∈ parts.flatten := by
  induction h with
  | nil => cases hcall
  | @cons first part calls parts hdoes _ ih =>
    rcases List.mem_cons.mp hcall with rfl | hcall
    · exact ⟨part, hdoes, fun e he => by simp [he]⟩
    · obtain ⟨part', hdoes', hmem⟩ := ih hcall
      exact ⟨part', hdoes', fun e he => List.mem_append_right _ (hmem e he)⟩

/-- An event in what was done for some operations was done for one of them, after what was done for
the operations before. -/
theorem split_flatten {A B : Type} {Does : A → List B → Prop} {calls : List A}
    {parts : List (List B)} (h : List.Forall₂ Does calls parts) {front back : List B} {e : B}
    (hsplit : parts.flatten = front ++ e :: back) :
    ∃ callsBefore call callsAfter partsBefore before after,
      calls = callsBefore ++ call :: callsAfter ∧ List.Forall₂ Does callsBefore partsBefore ∧
        Does call (before ++ e :: after) ∧ front = partsBefore.flatten ++ before := by
  induction h generalizing front with
  | nil => simp at hsplit
  | @cons call part calls parts hdoes hrest ih =>
    have hlater : ∀ rest, parts.flatten = rest ++ e :: back → front = part ++ rest →
        ∃ callsBefore call' callsAfter partsBefore before after,
          call :: calls = callsBefore ++ call' :: callsAfter ∧
            List.Forall₂ Does callsBefore partsBefore ∧ Does call' (before ++ e :: after) ∧
              front = partsBefore.flatten ++ before := by
      rintro rest hparts rfl
      obtain ⟨callsBefore, call', callsAfter, partsBefore, before, after, rfl, hbefore, hcall,
        rfl⟩ := ih hparts
      exact ⟨call :: callsBefore, call', callsAfter, part :: partsBefore, before, after, rfl,
        .cons hdoes hbefore, hcall, by simp⟩
    rw [List.flatten_cons] at hsplit
    rcases List.append_eq_append_iff.mp hsplit with ⟨rest, hfront, hparts⟩ | ⟨rest, hpart, hparts⟩
    · exact hlater rest hparts hfront
    · cases rest with
      | nil => exact hlater [] hparts.symm (by simpa using hpart.symm)
      | cons first rest =>
        obtain ⟨rfl, -⟩ := List.cons.inj hparts
        exact ⟨[], call, calls, [], front, rest, rfl, .nil, hpart ▸ hdoes, rfl⟩

/-- A program that gets the same answers does the same. What an answer is to be compared by is given
by `key`; the answers may be followed by more. -/
theorem Run.determined {K : Type} {key : Event Op Ans → Option K}
    (hkey : ∀ (o : Op) (a b : Ans o) (k : K), key ⟨o, a⟩ = some k → key ⟨o, b⟩ = some k → a = b)
    {p : Program Op Ans α} {events events' : List (Event Op Ans)} {a a' : α}
    (h : Run p events a) (h' : Run p events' a') (hsome : ∀ e ∈ events, (key e).isSome)
    (hsome' : ∀ e ∈ events', (key e).isSome) {later later' : List K}
    (hanswers : events.filterMap key ++ later = events'.filterMap key ++ later') :
    events = events' ∧ a = a' ∧ later = later' := by
  induction h generalizing events' with
  | pure a =>
    cases h'
    exact ⟨rfl, rfl, hanswers⟩
  | @op o next ans events a hrest ih =>
    cases h' with
    | @op _ _ ans' events' _ hrest' =>
      obtain ⟨hfirst, htail⟩ := List.forall_mem_cons.mp hsome
      obtain ⟨hfirst', htail'⟩ := List.forall_mem_cons.mp hsome'
      obtain ⟨k, hk⟩ := Option.isSome_iff_exists.mp hfirst
      obtain ⟨k', hk'⟩ := Option.isSome_iff_exists.mp hfirst'
      rw [List.filterMap_cons_some hk, List.filterMap_cons_some hk'] at hanswers
      obtain ⟨rfl, hlater⟩ := List.cons.inj hanswers
      obtain rfl := hkey o ans ans' k hk hk'
      obtain ⟨rfl, rfl, rfl⟩ := ih hrest' htail htail' hlater
      exact ⟨rfl, rfl, rfl⟩

end Library
