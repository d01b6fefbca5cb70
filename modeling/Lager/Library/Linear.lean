import Lager.Library.Licensed
import Mathlib.Data.List.Forall2
import Mathlib.Data.List.Infix
import Mathlib.Data.List.ReduceOption

set_option relaxedAutoImplicit false
set_option autoImplicit false

/-!
# Calls that take effect at once

Parties make calls of a shared object, each over several events, and the events of all are
interleaved. If every call has one event at which it is done, and its other events leave the object
as it is, then the object ends up as after the calls one after another, in an order that keeps the
calls of each party in turn. At every moment, the calls that are done are all that are over, and
none that has not begun.

## Main definitions

* `Library.Steps` — the steps of a system, one after another.
* `Library.TakesEffect` — the events of a call that is done at one of them.
* `Library.InTime` — the calls done at a moment.

## Main results

* `Library.linearize` — the calls in an order.
-/

namespace Library

variable {E C M ι σ : Type}

/-! ## Steps -/

/-- The steps of a system, one after another. -/
inductive Steps (R : σ → E → σ → Prop) : σ → List E → σ → Prop
  | nil (s : σ) : Steps R s [] s
  | cons {s s' s'' : σ} {e : E} {l : List E} (step : R s e s') (rest : Steps R s' l s'') :
      Steps R s (e :: l) s''

section

variable {R : σ → E → σ → Prop} {s s' : σ} {e : E} {l : List E}

/-- Without a step a system stays where it is. -/
@[simp] theorem steps_nil : Steps R s [] s' ↔ s = s' := by
  constructor
  · rintro ⟨⟩
    rfl
  · rintro rfl
    exact .nil s

/-- A step and the steps after it. -/
@[simp] theorem steps_cons : Steps R s (e :: l) s' ↔ ∃ m, R s e m ∧ Steps R m l s' := by
  constructor
  · rintro (_ | ⟨step, rest⟩)
    exact ⟨_, step, rest⟩
  · rintro ⟨m, step, rest⟩
    exact .cons step rest

/-- A system whose steps are steps of another, seen through `f`. -/
theorem Steps.simulate {τ E' : Type} {R' : τ → E' → τ → Prop} {f : σ → τ} {g : E → E'}
    (h : Steps R s l s') (hstep : ∀ s e s', e ∈ l → R s e s' → R' (f s) (g e) (f s')) :
    Steps R' (f s) (l.map g) (f s') := by
  induction h with
  | nil s => exact .nil (f s)
  | cons step _ ih =>
    refine .cons (hstep _ _ _ List.mem_cons_self step) (ih ?_)
    intro s e s' he hR
    exact hstep s e s' (List.mem_cons_of_mem _ he) hR

end

/-! ## Marks -/

/-- What an event does to the object: a call is done at it, or nothing. -/
def Marked (R : σ → E → σ → Prop) (Do : σ → C → σ → Prop) (e : E) : Option C → Prop
  | some c => ∀ s s', R s e s' → Do s c s'
  | none => ∀ s s', R s e s' → s' = s

/-- The events of a call: it is done at one of them, and nothing at the others. -/
def TakesEffect (R : σ → E → σ → Prop) (Do : σ → C → σ → Prop) (c : C) (events : List E) : Prop :=
  ∃ front e back, events = front ++ e :: back ∧ (∀ x ∈ front, Marked R Do x none) ∧
    Marked R Do e (some c) ∧ ∀ x ∈ back, Marked R Do x none

/-- Events that do nothing. -/
theorem forall₂_marked_none {R : σ → E → σ → Prop} {Do : σ → C → σ → Prop} {events : List E}
    (h : ∀ x ∈ events, Marked R Do x none) :
    List.Forall₂ (Marked R Do) events (List.replicate events.length none) := by
  induction events with
  | nil => exact .nil
  | cons e events ih =>
    rw [List.forall_mem_cons] at h
    exact .cons h.1 (ih h.2)

/-- The marks of a call. -/
theorem TakesEffect.exists_marks {R : σ → E → σ → Prop} {Do : σ → C → σ → Prop} {c : C}
    {events : List E} (h : TakesEffect R Do c events) :
    ∃ marks, List.Forall₂ (Marked R Do) events marks ∧ marks.reduceOption = [c] := by
  obtain ⟨front, e, back, rfl, hfront, he, hback⟩ := h
  refine ⟨List.replicate front.length none ++ some c :: List.replicate back.length none, ?_, ?_⟩
  · exact List.rel_append (forall₂_marked_none hfront) (.cons he (forall₂_marked_none hback))
  · rw [List.reduceOption_append, List.reduceOption_cons_of_some, List.reduceOption_replicate_none,
      List.reduceOption_replicate_none, List.nil_append]

/-- The marks of calls. -/
theorem exists_marks_of_calls {R : σ → E → σ → Prop} {Do : σ → C → σ → Prop} {calls : List C}
    {parts : List (List E)} (h : List.Forall₂ (TakesEffect R Do) calls parts) :
    ∃ marks, List.Forall₂ (List.Forall₂ (Marked R Do)) parts marks ∧
      marks.map List.reduceOption = calls.map fun c => [c] := by
  induction h with
  | nil => exact ⟨[], .nil, rfl⟩
  | cons hcall _ ih =>
    obtain ⟨marks, hmarks, hreduce⟩ := hcall.exists_marks
    obtain ⟨rest, hrest, hcalls⟩ := ih
    exact ⟨marks :: rest, .cons hmarks hrest, by rw [List.map_cons, List.map_cons, hreduce, hcalls]⟩

/-- The calls among the marks of all parties. -/
def doneIn (marks : List (ι × Option C)) : List (ι × C) :=
  marks.filterMap fun m => m.2.map (Prod.mk m.1)

/-- The calls of some marks and of more. -/
theorem doneIn_append (marks marks' : List (ι × Option C)) :
    doneIn (marks ++ marks') = doneIn marks ++ doneIn marks' := List.filterMap_append

/-- A mark is one of an event of the same party. -/
def MarkOf (Rel : ι → E → M → Prop) (x : ι × E) (m : ι × M) : Prop :=
  m.1 = x.1 ∧ Rel x.1 x.2 m.2

/-- An object changes by the calls among the marks. -/
theorem steps_doneIn {R : σ → E → σ → Prop} {Do : ι → σ → C → σ → Prop} {l : List (ι × E)}
    {marks : List (ι × Option C)}
    (h : List.Forall₂ (MarkOf fun i => Marked R (Do i)) l marks) {s s' : σ}
    (hsteps : Steps R s (l.map Prod.snd) s') :
    Steps (fun s x s' => Do x.1 s x.2 s') s (doneIn marks) s' := by
  induction h generalizing s with
  | nil => exact steps_nil.mpr (steps_nil.mp hsteps)
  | @cons x m l marks hmark _ ih =>
    obtain ⟨i, e⟩ := x
    obtain ⟨j, c⟩ := m
    obtain ⟨hj, hmark⟩ := hmark
    obtain rfl : j = i := hj
    obtain ⟨s₁, step, rest⟩ := steps_cons.mp hsteps
    cases c with
    | none =>
      obtain rfl := hmark s s₁ step
      exact ih rest
    | some c => exact .cons (hmark s s₁ step) (ih rest)

/-! ## Marks of an interleaving -/

section

variable [DecidableEq ι]

/-- The events of a party from one of another on. -/
theorem lane_cons_of_ne {i j : ι} (h : j ≠ i) (e : E) (l : List (ι × E)) :
    lane i ((j, e) :: l) = lane i l := by
  simp [lane, h]

/-- The calls of a party are those among its marks. -/
theorem lane_doneIn (i : ι) (marks : List (ι × Option C)) :
    lane i (doneIn marks) = (lane i marks).reduceOption := by
  induction marks with
  | nil => rfl
  | cons m marks ih =>
    obtain ⟨j, c⟩ := m
    by_cases hj : j = i
    · subst hj
      cases c with
      | none => rw [lane_cons_self, List.reduceOption_cons_of_none, ← ih]; rfl
      | some c =>
        rw [lane_cons_self, List.reduceOption_cons_of_some, ← ih, ← lane_cons_self]
        rfl
    · rw [lane_cons_of_ne hj, ← ih]
      cases c with
      | none => rfl
      | some c => exact lane_cons_of_ne hj c _

/-- Marks of the events of each party are marks of the events of all. -/
theorem exists_marks_of_lanes {Rel : ι → E → M → Prop} {l : List (ι × E)} {marks : ι → List M}
    (h : ∀ i, List.Forall₂ (Rel i) (lane i l) (marks i)) :
    ∃ all : List (ι × M), List.Forall₂ (MarkOf Rel) l all ∧ ∀ i, lane i all = marks i := by
  induction l generalizing marks with
  | nil => exact ⟨[], .nil, fun i => (List.forall₂_nil_left_iff.mp (h i)).symm⟩
  | cons x l ih =>
    obtain ⟨j, e⟩ := x
    have hj := h j
    rw [lane_cons_self, List.forall₂_cons_left_iff] at hj
    obtain ⟨m, rest, hm, hrest, hmarks⟩ := hj
    -- The others keep their marks, and party `j` has used one.
    obtain ⟨all, hall, hlanes⟩ := @ih (Function.update marks j rest) fun i => by
      by_cases hi : j = i
      · subst hi
        rwa [Function.update_self]
      · rw [Function.update_of_ne (Ne.symm hi), ← lane_cons_of_ne hi e l]
        exact h i
    refine ⟨(j, m) :: all, .cons ⟨rfl, hm⟩ hall, fun i => ?_⟩
    by_cases hi : j = i
    · subst hi
      rw [lane_cons_self, hlanes, Function.update_self, hmarks]
    · rw [lane_cons_of_ne hi, hlanes, Function.update_of_ne (Ne.symm hi)]

/-- The marks of a party are as many as its events. -/
theorem length_lane_eq {Rel : ι → E → M → Prop} {l : List (ι × E)} {all : List (ι × M)}
    (h : List.Forall₂ (MarkOf Rel) l all) (i : ι) :
    (lane i all).length = (lane i l).length := by
  induction h with
  | nil => rfl
  | @cons x m l all hmark _ ih =>
    obtain ⟨j, e⟩ := x
    obtain ⟨j', m⟩ := m
    obtain rfl : j' = j := hmark.1
    by_cases hj : j' = i
    · subst hj
      rw [lane_cons_self, lane_cons_self, List.length_cons, List.length_cons, ih]
    · rw [lane_cons_of_ne hj, lane_cons_of_ne hj, ih]

end

/-! ## The calls in an order -/

/-- The calls of a party that are done when some of its events have happened: all that are over, and
none that has not begun. -/
structure InTime (calls : List C) (parts : List (List E)) (events : List E) (done : List C) :
    Prop where
  ended : ∀ k, (parts.take k).flatten <+: events → calls.take k <+: done
  begun : ∀ k, events <+: (parts.take k).flatten → done <+: calls.take k

/-- Calls are those among their marks. -/
theorem reduceOption_flatten {calls : List C} {marks : List (List (Option C))}
    (h : marks.map List.reduceOption = calls.map fun c => [c]) :
    marks.flatten.reduceOption = calls := by
  have hmap : marks.flatten.reduceOption = (marks.map List.reduceOption).flatten :=
    List.filterMap_flatten
  rw [hmap, h, ← List.flatMap_def, List.flatMap_singleton']

/-- The first calls are those among their marks. -/
theorem reduceOption_take {calls : List C} {marks : List (List (Option C))}
    (h : marks.map List.reduceOption = calls.map fun c => [c]) (k : ℕ) :
    (marks.take k).flatten.reduceOption = calls.take k :=
  reduceOption_flatten (by rw [List.map_take, h, List.map_take])

/-- The calls among the marks of some events are the ones in time. -/
theorem inTime_reduceOption {Rel : E → Option C → Prop} {calls : List C} {parts : List (List E)}
    {marks : List (List (Option C))} (hparts : List.Forall₂ (List.Forall₂ Rel) parts marks)
    (hcalls : marks.map List.reduceOption = calls.map fun c => [c]) {events : List E}
    {done : List (Option C)} (hdone : done <+: marks.flatten)
    (hlength : done.length = events.length) :
    InTime calls parts events done.reduceOption := by
  have htake : ∀ k, (marks.take k).flatten <+: marks.flatten := fun k =>
    ⟨(marks.drop k).flatten, by rw [← List.flatten_append, List.take_append_drop]⟩
  have hsize : ∀ k, (parts.take k).flatten.length = (marks.take k).flatten.length := fun k =>
    (List.rel_flatten (List.forall₂_take k hparts)).length_eq
  refine ⟨fun k hended => ?_, fun k hbegun => ?_⟩
  · rw [← reduceOption_take hcalls k]
    refine (List.prefix_of_prefix_length_le (htake k) hdone ?_).reduceOption
    rw [hlength, ← hsize k]
    exact hended.length_le
  · rw [← reduceOption_take hcalls k]
    refine (List.prefix_of_prefix_length_le hdone (htake k) ?_).reduceOption
    rw [hlength, ← hsize k]
    exact hbegun.length_le

/-- **Calls one after another.** Let every call take effect at one of its events. Then any
interleaving of the events of the parties takes the object where the calls take it one after
another, in some order that keeps the calls of each party in turn; and where the object is at a
moment is where the calls before some point of that order take it, which are in time.

**Proof sketch.** Mark the event at which each call is done. The marks of the parties make marks of
the interleaving, and the calls among them are the order; those among the marks of the first events
come first in it. -/
theorem linearize [DecidableEq ι] {R : σ → E → σ → Prop} {Do : ι → σ → C → σ → Prop}
    {calls : ι → List C} {parts : ι → List (List E)}
    (hcalls : ∀ i, List.Forall₂ (TakesEffect R (Do i)) (calls i) (parts i)) {l : List (ι × E)}
    (hlanes : ∀ i, lane i l = (parts i).flatten) {s s' : σ}
    (hsteps : Steps R s (l.map Prod.snd) s') :
    ∃ order : List (ι × C), (∀ i, lane i order = calls i) ∧
      Steps (fun s x s' => Do x.1 s x.2 s') s order s' ∧
      ∀ front back m, l = front ++ back → Steps R s (front.map Prod.snd) m →
        ∃ before after, order = before ++ after ∧
          Steps (fun s x s' => Do x.1 s x.2 s') s before m ∧
          ∀ i, InTime (calls i) (parts i) (lane i front) (lane i before) := by
  choose marks hparts hreduce using fun i => exists_marks_of_calls (hcalls i)
  have hmarks : ∀ i, List.Forall₂ (Marked R (Do i)) (lane i l) (marks i).flatten := fun i =>
    hlanes i ▸ List.rel_flatten (hparts i)
  obtain ⟨all, hall, hlane⟩ := exists_marks_of_lanes hmarks
  refine ⟨doneIn all, fun i => ?_, steps_doneIn hall hsteps, fun front back m hsplit hfront => ?_⟩
  · rw [lane_doneIn, hlane, reduceOption_flatten (hreduce i)]
  · subst hsplit
    have hfirst := List.forall₂_take front.length hall
    rw [List.take_left] at hfirst
    refine ⟨doneIn (all.take front.length), doneIn (all.drop front.length), ?_,
      steps_doneIn hfirst hfront, fun i => ?_⟩
    · rw [← doneIn_append, List.take_append_drop]
    · rw [lane_doneIn]
      refine inTime_reduceOption (hparts i) (hreduce i) ?_ (length_lane_eq hfirst i)
      rw [← hlane i]
      exact (List.take_prefix _ all).filterMap _

end Library
