import Mathlib.Algebra.Group.Nat.Defs
import Mathlib.Data.List.Forall2
import Mathlib.Tactic.Common

set_option relaxedAutoImplicit false
set_option autoImplicit false

/-!
# Computations that may panic

Compiled code stops with a panic where it reads past the end of a slice, and where a number does not
fit its type. Here such code is a computation whose operations can fail, so that it is proved of
it that none of them does. Errors that the code itself reports are results, on top of that.

## Main definitions

* `Library.Checked` — computations that may panic.
* `Library.Checked.index`, `Library.Checked.slice`, `Library.Checked.sliceFrom`,
  `Library.Checked.copy` — reading slices.
* `Library.Checked.add`, `Library.Checked.mul` — arithmetic of so many bits.
* `Library.Fallible` — computations that may panic, and may report an error.
* `Library.Evaluates` — a computation does not panic, and comes to a result or an error of its own.

## Main results

* `Library.Evaluates.bind`, `Library.Evaluates.lift`, `Library.Evaluates.mapM` — the rules.
* `Library.mapM_eq_ok` — when a table is read.
-/

namespace Library

variable {α β ε : Type}

/-- What stops a computation. -/
inductive Panic
  | outOfRange
  | overflow
  deriving DecidableEq, Repr

/-- Computations that may panic. -/
abbrev Checked (α : Type) : Type := Except Panic α

namespace Checked

/-- `buf[i]`. -/
def index (buf : List α) (i : ℕ) : Checked α :=
  match buf[i]? with
  | some a => .ok a
  | none => .error .outOfRange

/-- `&buf[i..j]`. -/
def slice (buf : List α) (i j : ℕ) : Checked (List α) :=
  if i ≤ j ∧ j ≤ buf.length then .ok ((buf.drop i).take (j - i)) else .error .outOfRange

/-- `&buf[i..]`. -/
def sliceFrom (buf : List α) (i : ℕ) : Checked (List α) :=
  if i ≤ buf.length then .ok (buf.drop i) else .error .outOfRange

/-- `out.copy_from_slice(buf)`, for an array of `n`. -/
def copy (n : ℕ) (buf : List α) : Checked (List α) :=
  if buf.length = n then .ok buf else .error .outOfRange

/-- `a + b`, in a type of `w` bits. -/
def add (w a b : ℕ) : Checked ℕ := if a + b < 2 ^ w then .ok (a + b) else .error .overflow

/-- `a * b`, in a type of `w` bits. -/
def mul (w a b : ℕ) : Checked ℕ := if a * b < 2 ^ w then .ok (a * b) else .error .overflow

/-- An index within a slice. -/
theorem index_eq {buf : List α} {i : ℕ} (h : i < buf.length) : index buf i = .ok buf[i] := by
  rw [index, List.getElem?_eq_getElem h]

/-- A range within a slice. -/
theorem slice_eq {buf : List α} {i j : ℕ} (hij : i ≤ j) (hj : j ≤ buf.length) :
    slice buf i j = .ok ((buf.drop i).take (j - i)) := if_pos ⟨hij, hj⟩

/-- A rest of a slice. -/
theorem sliceFrom_eq {buf : List α} {i : ℕ} (h : i ≤ buf.length) :
    sliceFrom buf i = .ok (buf.drop i) := if_pos h

/-- A copy of the right length. -/
theorem copy_eq {buf : List α} {n : ℕ} (h : buf.length = n) : copy n buf = .ok buf := if_pos h

/-- A sum that fits. -/
theorem add_eq {w a b : ℕ} (h : a + b < 2 ^ w) : add w a b = .ok (a + b) := if_pos h

/-- A product that fits. -/
theorem mul_eq {w a b : ℕ} (h : a * b < 2 ^ w) : mul w a b = .ok (a * b) := if_pos h

end Checked

/-! ## Computations with errors of their own -/

/-- Computations that may panic, and may report an error. -/
structure Fallible (ε α : Type) where
  run : Checked (Except ε α)

namespace Fallible

/-- Sequencing: the second computation starts with the result of the first. -/
def bind (p : Fallible ε α) (f : α → Fallible ε β) : Fallible ε β :=
  ⟨match p.run with
  | .ok (.ok a) => (f a).run
  | .ok (.error e) => .ok (.error e)
  | .error panic => .error panic⟩

instance : Monad (Fallible ε) where
  pure a := ⟨.ok (.ok a)⟩
  bind := Fallible.bind

/-- Report an error. -/
def throw (e : ε) : Fallible ε α := ⟨.ok (.error e)⟩

/-- An operation that reports no error. -/
def lift (c : Checked α) : Fallible ε α := ⟨c.map .ok⟩

instance : MonadLift Checked (Fallible ε) := ⟨Fallible.lift⟩

instance : LawfulMonad (Fallible ε) :=
  LawfulMonad.mk' _ (fun ⟨p⟩ => by rcases p with _ | _ | _ <;> rfl) (fun _ _ => rfl)
    (fun ⟨p⟩ _ _ => by rcases p with _ | _ | _ <;> rfl)

end Fallible

/-- A computation does not panic, and comes to a result or to an error of its own. -/
def Evaluates (p : Fallible ε α) (r : Except ε α) : Prop := p.run = .ok r

namespace Evaluates

/-- A result. -/
theorem pure (a : α) : Evaluates (Pure.pure a : Fallible ε α) (.ok a) := rfl

/-- An error. -/
theorem throw (e : ε) : Evaluates (Fallible.throw e : Fallible ε α) (.error e) := rfl

/-- What follows a computation goes on with its result. -/
theorem bind {p : Fallible ε α} {f : α → Fallible ε β} {a : α} {r : Except ε β}
    (h : Evaluates p (.ok a)) (h' : Evaluates (f a) r) : Evaluates (p >>= f) r := by
  show (p.bind f).run = .ok r
  rw [Fallible.bind, h]
  exact h'

/-- What follows a computation that fails is not done. -/
theorem bind_error {p : Fallible ε α} {f : α → Fallible ε β} {e : ε}
    (h : Evaluates p (.error e)) : Evaluates (p >>= f) (.error e) := by
  show (p.bind f).run = .ok (.error e)
  rw [Fallible.bind, h]

/-- What follows an operation that does not panic goes on with its result. -/
theorem lift {c : Checked α} {f : α → Fallible ε β} {a : α} {r : Except ε β}
    (h : c = .ok a) (h' : Evaluates (f a) r) :
    Evaluates ((liftM c : Fallible ε α) >>= f) r := by
  subst h
  exact h'

/-- What is done for each element of a list, where it is known what that comes to. -/
theorem mapM {f : α → Fallible ε β} {g : α → Except ε β} {l : List α}
    (h : ∀ a ∈ l, Evaluates (f a) (g a)) : Evaluates (l.mapM f) (l.mapM g) := by
  induction l with
  | nil => exact pure []
  | cons a l ih =>
    obtain ⟨hfirst, hrest⟩ := List.forall_mem_cons.mp h
    rw [List.mapM_cons, List.mapM_cons]
    rcases hg : g a with e | b
    · exact bind_error (hg ▸ hfirst)
    · refine bind (hg ▸ hfirst) ?_
      rcases hl : List.mapM g l with e | bs
      · exact bind_error (hl ▸ ih hrest)
      · exact bind (hl ▸ ih hrest) (pure (b :: bs))

end Evaluates

/-! ## Tables -/

/-- A sequence of two steps has a result where both have. -/
theorem bind_eq_ok {x : Except ε α} {f : α → Except ε β} {b : β} :
    x >>= f = .ok b ↔ ∃ a, x = .ok a ∧ f a = .ok b := by
  cases x with
  | error e => simp [bind, Except.bind]
  | ok a => simp [bind, Except.bind]

/-- A table is read where each of its entries is. -/
theorem mapM_eq_ok {f : α → Except ε β} {l : List α} {bs : List β} :
    l.mapM f = .ok bs ↔ List.Forall₂ (fun a b => f a = .ok b) l bs := by
  induction l generalizing bs with
  | nil => simp [pure, Except.pure, eq_comm]
  | cons a l ih =>
    simp only [List.mapM_cons, bind_eq_ok, ih, List.forall₂_cons_left_iff]
    refine ⟨?_, ?_⟩
    · rintro ⟨b, hfirst, others, hrest, ⟨⟩⟩
      exact ⟨b, others, hfirst, hrest, rfl⟩
    · rintro ⟨b, others, hfirst, hrest, rfl⟩
      exact ⟨b, hfirst, others, hrest, rfl⟩

/-- Each entry of a table has its counterpart. -/
theorem exists_of_mem_left {r : α → β → Prop} {l : List α} {bs : List β} (h : List.Forall₂ r l bs) :
    ∀ a ∈ l, ∃ b ∈ bs, r a b := by
  induction h with
  | nil => simp
  | @cons a b l bs hfirst hrest ih =>
    refine List.forall_mem_cons.mpr ⟨⟨b, List.mem_cons_self, hfirst⟩, fun a' ha' => ?_⟩
    obtain ⟨b', hb', hr⟩ := ih a' ha'
    exact ⟨b', List.mem_cons_of_mem _ hb', hr⟩

/-- A table whose entries all have a counterpart has a table of counterparts. -/
theorem exists_forall₂_of_mem {r : α → β → Prop} {l : List α} (h : ∀ a ∈ l, ∃ b, r a b) :
    ∃ bs, List.Forall₂ r l bs := by
  induction l with
  | nil => exact ⟨[], .nil⟩
  | cons a l ih =>
    obtain ⟨⟨b, hfirst⟩, hothers⟩ := List.forall_mem_cons.mp h
    obtain ⟨bs, hrest⟩ := ih hothers
    exact ⟨b :: bs, .cons hfirst hrest⟩

/-- Where a table is not read, it is for one of its entries. -/
theorem mapM_eq_error {f : α → Except ε β} {l : List α} {e : ε} (h : l.mapM f = .error e) :
    ∃ a ∈ l, f a = .error e := by
  induction l with
  | nil => exact absurd h (by simp [pure, Except.pure])
  | cons a l ih =>
    rw [List.mapM_cons] at h
    cases hfirst : f a with
    | error e' =>
      simp only [hfirst, bind, Except.bind, Except.error.injEq] at h
      exact ⟨a, List.mem_cons_self, hfirst.trans (congrArg _ h)⟩
    | ok b =>
      cases hrest : l.mapM f with
      | error e' =>
        simp only [hfirst, hrest, bind, Except.bind, Except.error.injEq] at h
        obtain ⟨a', hmem, hfail⟩ := ih (hrest.trans (congrArg _ h))
        exact ⟨a', List.mem_cons_of_mem _ hmem, hfail⟩
      | ok others => simp [hfirst, hrest, bind, Except.bind, pure, Except.pure] at h

end Library
