import Mathlib.Data.List.Infix
import Mathlib.Tactic.Common

set_option relaxedAutoImplicit false
set_option autoImplicit false

/-!
# Reading up to a terminator

A reader that shares its stream with others must not take anything behind the terminator. So it
takes one element at a time, and stops as soon as what it has ends with the terminator. What it
takes is the shortest prefix of the stream that ends so, however the stream comes in.

## Main definitions

* `Library.readTerminated` — the reader, with a limit.
* `Library.EndsFirst` — a list ends with a terminator, and none of its prefixes does.
* `Library.HandsOver` — a source hands over the start of a stream.

## Main results

* `Library.HandsOver.of_step` — a source hands over what it hands over step by step.
* `Library.readTerminated_of_endsFirst` — the reader takes a terminated prefix and nothing more.
* `Library.readTerminated_of_late` — it gives up where there is none within the limit.
-/

namespace Library

variable {α σ ε : Type} [DecidableEq α]

/-- Take elements until they end with the terminator. There are none if the stream ends before, or
the limit is reached. -/
def readTerminated (next : σ → Except ε (Option α) × σ) (stop : List α) (limit : ℕ) (taken : List α)
    (s : σ) : Except ε (Option (List α)) × σ :=
  if stop <:+ taken then (.ok (some taken), s)
  else if limit ≤ taken.length then (.ok none, s)
  else
    match next s with
    | (.ok (some a), s) => readTerminated next stop limit (taken ++ [a]) s
    | (.ok none, s) => (.ok none, s)
    | (.error e, s) => (.error e, s)
termination_by limit - taken.length
decreasing_by
  rw [List.length_append, List.length_singleton]
  omega

/-- A list ends with a terminator, and none of its prefixes does. -/
structure EndsFirst (stop l : List α) : Prop where
  ends : stop <:+ l
  first : ∀ p, p <+: l → stop <:+ p → p = l

/-- A source hands over the first elements of its content, so many, or all of them and then the end,
one at a time. -/
def HandsOver (next : σ → Except ε (Option α) × σ) (content : σ → List α) : ℕ → σ → Prop
  | 0, _ => True
  | n + 1, s => ∃ s', next s = (.ok (content s).head?, s') ∧ content s' = (content s).tail ∧
      HandsOver next content n s'

section

variable {next : σ → Except ε (Option α) × σ} {content : σ → List α} {stop : List α} {limit : ℕ}

omit [DecidableEq α] in
/-- A source hands over what it hands over step by step. -/
theorem HandsOver.of_step {P : ℕ → σ → Prop}
    (hstep : ∀ n s, P (n + 1) s →
      ∃ s', next s = (.ok (content s).head?, s') ∧ content s' = (content s).tail ∧ P n s')
    {n : ℕ} {s : σ} (h : P n s) : HandsOver next content n s := by
  induction n generalizing s with
  | zero => trivial
  | succ n ih =>
    obtain ⟨s', hnext, hcontent, hrest⟩ := hstep n s h
    exact ⟨s', hnext, hcontent, ih hrest⟩

/-- What was taken ends with the terminator. -/
theorem readTerminated_done {taken : List α} (h : stop <:+ taken) (s : σ) :
    readTerminated next stop limit taken s = (.ok (some taken), s) := by
  rw [readTerminated, if_pos h]

/-- One more element is taken. -/
theorem readTerminated_step {taken : List α} (hopen : ¬ stop <:+ taken)
    (hshort : taken.length < limit) {s s' : σ} {a : α} (hnext : next s = (.ok (some a), s')) :
    readTerminated next stop limit taken s =
      readTerminated next stop limit (taken ++ [a]) s' := by
  rw [readTerminated, if_neg hopen, if_neg (not_le.mpr hshort), hnext]

/-- An error of the reader is one of the source. -/
theorem readTerminated_error {taken : List α} {s s' : σ} {e : ε}
    (h : readTerminated next stop limit taken s = (.error e, s')) :
    ∃ t t', next t = (.error e, t') := by
  fun_induction readTerminated next stop limit taken s with
  | case1 => cases h
  | case2 => cases h
  | case3 taken s hopen hshort a t hnext ih => exact ih h
  | case4 => cases h
  | case5 taken s hopen hshort e' t hnext =>
    cases h
    exact ⟨s, _, hnext⟩

/-- The reader goes on to the end of the first terminated prefix.

**Proof sketch.** Induction on what is still to be taken. -/
theorem readTerminated_append {taken tail rest : List α} {s : σ}
    (hands : HandsOver next content tail.length s) (hcontent : content s = tail ++ rest)
    (hends : stop <:+ taken ++ tail)
    (hfirst : ∀ p, p <+: tail → stop <:+ taken ++ p → p = tail)
    (hlimit : (taken ++ tail).length ≤ limit) :
    ∃ s', readTerminated next stop limit taken s = (.ok (some (taken ++ tail)), s') ∧
      content s' = rest := by
  induction tail generalizing taken s with
  | nil =>
    rw [List.append_nil] at hends ⊢
    exact ⟨s, readTerminated_done hends s, hcontent⟩
  | cons a tail ih =>
    obtain ⟨s', hnext, hcontent', hands'⟩ := hands
    rw [hcontent, List.cons_append] at hnext hcontent'
    have hopen : ¬ stop <:+ taken := by
      intro hstop
      have hnil := hfirst [] List.nil_prefix (by rwa [List.append_nil])
      cases hnil
    have hshort : taken.length < limit := by
      rw [List.length_append, List.length_cons] at hlimit
      omega
    have hassoc : ∀ l, taken ++ [a] ++ l = taken ++ a :: l := by
      simp
    rw [readTerminated_step hopen hshort hnext, ← hassoc tail]
    refine ih hands' hcontent' ?_ ?_ ?_
    · rwa [hassoc]
    · intro p hp hstop
      rw [hassoc] at hstop
      exact (List.cons.inj (hfirst (a :: p) (List.cons_prefix_cons.mpr ⟨rfl, hp⟩) hstop)).2
    · rwa [hassoc]

/-- **The reader takes a terminated prefix and nothing more.** -/
theorem readTerminated_of_endsFirst {head rest : List α} {s : σ}
    (hands : HandsOver next content head.length s) (hcontent : content s = head ++ rest)
    (hends : EndsFirst stop head) (hlimit : head.length ≤ limit) :
    ∃ s', readTerminated next stop limit [] s = (.ok (some head), s') ∧ content s' = rest :=
  readTerminated_append hands hcontent hends.ends hends.first hlimit

/-- The reader gives up where no terminated prefix is within the limit.

**Proof sketch.** Induction on what the limit leaves. -/
theorem readTerminated_append_late {taken : List α} {s : σ} {n : ℕ} (hn : taken.length + n = limit)
    (hands : HandsOver next content n s)
    (hlate : ∀ p, p <+: content s → stop <:+ taken ++ p → limit < (taken ++ p).length) :
    ∃ s', readTerminated next stop limit taken s = (.ok none, s') := by
  have hopen : ¬ stop <:+ taken := by
    intro hstop
    have hlong := hlate [] List.nil_prefix (by rwa [List.append_nil])
    rw [List.append_nil] at hlong
    omega
  induction n generalizing taken s with
  | zero => exact ⟨s, by rw [readTerminated, if_neg hopen, if_pos (by omega)]⟩
  | succ n ih =>
    obtain ⟨s', hnext, hcontent, hands'⟩ := hands
    cases hs : content s with
    | nil =>
      rw [hs] at hnext
      exact ⟨s', by rw [readTerminated, if_neg hopen, if_neg (by omega), hnext]; rfl⟩
    | cons a rest =>
      rw [hs] at hnext hcontent
      have hassoc : ∀ l, taken ++ [a] ++ l = taken ++ a :: l := by
        simp
      have hlate' : ∀ p, p <+: content s' → stop <:+ taken ++ [a] ++ p →
          limit < (taken ++ [a] ++ p).length := by
        intro p hp hstop
        rw [hcontent] at hp
        rw [hassoc] at hstop ⊢
        exact hlate (a :: p) (hs ▸ List.cons_prefix_cons.mpr ⟨rfl, hp⟩) hstop
      rw [readTerminated_step hopen (by omega) hnext]
      refine ih ?_ hands' hlate' ?_
      · rw [List.length_append, List.length_singleton]
        omega
      · intro hstop
        have hlong := hlate' [] List.nil_prefix (by rwa [List.append_nil])
        rw [List.append_nil, List.length_append, List.length_singleton] at hlong
        omega

/-- **The reader gives up where no terminated prefix is within the limit.** -/
theorem readTerminated_of_late {s : σ} (hands : HandsOver next content limit s)
    (hlate : ∀ p, p <+: content s → stop <:+ p → limit < p.length) :
    ∃ s', readTerminated next stop limit [] s = (.ok none, s') :=
  readTerminated_append_late (Nat.zero_add limit) hands hlate

end

end Library
