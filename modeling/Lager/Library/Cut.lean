import Mathlib.Data.List.Basic
import Mathlib.Order.MinMax

set_option relaxedAutoImplicit false
set_option autoImplicit false

/-!
# Cutting a list at its first delimiter

Line readers, field splitters and header parsers all do the same thing to a sequence: find
the first occurrence of a delimiter, keep what stands before it, and go on with what stands
after it. This file has that operation once, over an arbitrary type with decidable equality,
with the laws its callers use: what a cut says about the list, when there is none, and how
a cut behaves when the list is extended or truncated.

## Main definitions

* `Library.cut` — the parts before and after the first occurrence of a delimiter.

## Main results

* `Library.cut_eq_some_iff`, `Library.cut_eq_none_iff` — a cut, characterised by the list.
* `Library.cut_append_left`, `Library.cut_append_right` — cutting a concatenation.
* `Library.cut_take` — cutting a truncated list.
-/

namespace Library

variable {α : Type*} [DecidableEq α]

/-- The parts of `l` before and after the first `d`, or `none` when `d` does not occur. -/
def cut (d : α) : List α → Option (List α × List α)
  | [] => none
  | a :: l => if a = d then some ([], l) else (cut d l).map fun p => (a :: p.1, p.2)

@[simp] theorem cut_nil (d : α) : cut d [] = none := rfl

/-- A list without the delimiter, followed by it, is cut exactly there. -/
@[simp] theorem cut_append_cons {d : α} {p q : List α} (h : d ∉ p) :
    cut d (p ++ d :: q) = some (p, q) := by
  induction p with
  | nil => simp [cut]
  | cons a p ih =>
    simp only [List.mem_cons, not_or] at h
    simp [cut, Ne.symm h.1, ih h.2]

/-- There is no cut exactly when the delimiter does not occur. -/
@[simp] theorem cut_eq_none_iff {d : α} {l : List α} : cut d l = none ↔ d ∉ l := by
  induction l with
  | nil => simp
  | cons a l ih =>
    by_cases h : a = d
    · simp [cut, h]
    · simp [cut, h, ih, Ne.symm h]

/-- A cut into `p` and `q` says the list is `p`, the delimiter and `q`, with no delimiter
in `p`. -/
theorem cut_eq_some_iff {d : α} {l p q : List α} :
    cut d l = some (p, q) ↔ l = p ++ d :: q ∧ d ∉ p := by
  constructor
  · intro h
    induction l generalizing p with
    | nil => simp at h
    | cons a l ih =>
      by_cases ha : a = d
      · simp only [cut, ha, ↓reduceIte, Option.some.injEq, Prod.mk.injEq] at h
        obtain ⟨rfl, rfl⟩ := h
        simp [ha]
      · simp only [cut, ha, ↓reduceIte, Option.map_eq_some_iff, Prod.mk.injEq] at h
        obtain ⟨⟨p', q'⟩, hc, rfl, rfl⟩ := h
        obtain ⟨rfl, hp'⟩ := ih hc
        simp [hp', Ne.symm ha]
  · rintro ⟨rfl, h⟩
    exact cut_append_cons h

/-- A cut of the front is a cut of the whole. -/
theorem cut_append_left {d : α} {l p q : List α} (r : List α) (h : cut d l = some (p, q)) :
    cut d (l ++ r) = some (p, q ++ r) := by
  obtain ⟨rfl, hp⟩ := cut_eq_some_iff.mp h
  simpa using cut_append_cons (q := q ++ r) hp

/-- With no delimiter in the front, the whole is cut where the back is. -/
theorem cut_append_right {d : α} {l : List α} (r : List α) (h : d ∉ l) :
    cut d (l ++ r) = (cut d r).map fun p => (l ++ p.1, p.2) := by
  induction l with
  | nil => simp
  | cons a l ih =>
    simp only [List.mem_cons, not_or] at h
    rw [List.cons_append, cut, if_neg (Ne.symm h.1), ih h.2]
    cases cut d r <;> rfl

/-- A cut survives truncation as long as the delimiter itself is kept. -/
theorem cut_take {d : α} {l p q : List α} {n : ℕ} (h : cut d l = some (p, q))
    (hn : p.length < n) : cut d (l.take n) = some (p, q.take (n - (p.length + 1))) := by
  obtain ⟨rfl, hp⟩ := cut_eq_some_iff.mp h
  have ht : (p ++ d :: q).take n = p ++ d :: q.take (n - (p.length + 1)) := by
    obtain ⟨k, rfl⟩ : ∃ k, n = p.length + (k + 1) := ⟨n - (p.length + 1), by omega⟩
    rw [List.take_length_add_append, List.take_succ_cons]
    congr 3
    omega
  rw [ht, cut_append_cons hp]

end Library
