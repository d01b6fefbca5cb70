import Mathlib.Data.List.Basic

set_option relaxedAutoImplicit false
set_option autoImplicit false

/-!
# Asking again

Something is asked again and again, for so much at a time, until it gives a final answer. Some
answers are transient: they say no more than to ask again. Another one that gives the same answers
but for the transient ones is asked without them.

## Main definitions

* `Library.Session` — questions with their answers, up to the final one.
* `Library.Shadows` — a simulation that stutters at transient answers.

## Main results

* `Library.Session.filter` — without its transient answers, a session is one of the shadow.
* `Library.exists_session` — asking ends, where every answer that is not final is progress.
-/

namespace Library

variable {ρ σ A : Type}

/-- Questions with their answers, up to the first final answer. Nothing is asked for nothing. -/
inductive Session (ask : ℕ → ρ → A × ρ) (final : A → Bool) : ρ → List (ℕ × A) → Prop
  | last {r r' : ρ} {n : ℕ} {a : A} (hn : 0 < n) (hask : ask n r = (a, r'))
      (hfinal : final a = true) : Session ask final r [(n, a)]
  | more {r r' : ρ} {n : ℕ} {a : A} {log : List (ℕ × A)} (hn : 0 < n) (hask : ask n r = (a, r'))
      (hfinal : final a = false) (hrest : Session ask final r' log) :
      Session ask final r ((n, a) :: log)

/-- A shadow stays where it is at a transient answer, and gives every other answer too. -/
structure Shadows (ask : ℕ → ρ → A × ρ) (ask' : ℕ → σ → A × σ) (final transient : A → Bool)
    (R : ρ → σ → Prop) : Prop where
  stutter {r r' : ρ} {s : σ} {n : ℕ} {a : A} : R r s → 0 < n → ask n r = (a, r') →
    transient a = true → R r' s
  step {r r' : ρ} {s : σ} {n : ℕ} {a : A} : R r s → 0 < n → ask n r = (a, r') →
    transient a = false → ∃ s', ask' n s = (a, s') ∧ (final a = false → R r' s')

/-- **A session without its transient answers is one of the shadow.**

**Proof sketch.** By induction on the session. At a transient answer the shadow stays, at any other
it answers the same. -/
theorem Session.filter {ask : ℕ → ρ → A × ρ} {ask' : ℕ → σ → A × σ} {final transient : A → Bool}
    {R : ρ → σ → Prop} (h : Shadows ask ask' final transient R)
    (hfinal : ∀ a, final a = true → transient a = false) {r : ρ} {s : σ} (hR : R r s)
    {log : List (ℕ × A)} (hlog : Session ask final r log) :
    Session ask' final s (log.filter fun entry => !transient entry.2) := by
  induction hlog generalizing s with
  | @last r r' n a hn hask hlast =>
    have hnot := hfinal a hlast
    obtain ⟨s', hask', -⟩ := h.step hR hn hask hnot
    rw [List.filter_cons_of_pos (by simp [hnot]), List.filter_nil]
    exact .last hn hask' hlast
  | @more r r' n a log hn hask hmore _ ih =>
    cases htransient : transient a with
    | true =>
      rw [List.filter_cons_of_neg (by simp [htransient])]
      exact ih (h.stutter hR hn hask htransient)
    | false =>
      obtain ⟨s', hask', hR'⟩ := h.step hR hn hask htransient
      rw [List.filter_cons_of_pos (by simp [htransient])]
      exact .more hn hask' hmore (ih (hR' hmore))

/-- **Asking ends.** Whoever asks, with whatever sizes, comes to a final answer, where every other
answer leaves less work. -/
theorem exists_session {ask : ℕ → ρ → A × ρ} {final : A → Bool} (work : ρ → ℕ) {Inv : ρ → Prop}
    (hprogress : ∀ {r r' : ρ} {n : ℕ} {a : A}, Inv r → 0 < n → ask n r = (a, r') →
      final a = false → Inv r' ∧ work r' < work r)
    {sizes : ℕ → ℕ} (hsizes : ∀ i, 0 < sizes i) {r : ρ} (hr : Inv r) :
    ∃ log, Session ask final r log ∧ log.map Prod.fst = (List.range log.length).map sizes := by
  induction hw : work r using Nat.strongRecOn generalizing r sizes with
  | ind w ih =>
    subst hw
    obtain ⟨a, r', hask⟩ : ∃ a r', ask (sizes 0) r = (a, r') := ⟨_, _, rfl⟩
    cases hfinal : final a with
    | true => exact ⟨[(sizes 0, a)], .last (hsizes 0) hask hfinal, rfl⟩
    | false =>
      obtain ⟨hr', hless⟩ := hprogress hr (hsizes 0) hask hfinal
      obtain ⟨log, hlog, hmap⟩ := ih _ hless (fun i => hsizes (i + 1)) hr' rfl
      refine ⟨(sizes 0, a) :: log, .more (hsizes 0) hask hfinal hlog, ?_⟩
      rw [List.map_cons, hmap, List.length_cons, List.range_succ_eq_map, List.map_cons,
        List.map_map]
      rfl

/-- The first answer of a session is the one to its first question. -/
theorem Session.head_eq {ask : ℕ → ρ → A × ρ} {final : A → Bool} {r : ρ} {n : ℕ} {a : A}
    {log : List (ℕ × A)} (h : Session ask final r ((n, a) :: log)) : (ask n r).1 = a := by
  cases h with
  | last _ hask _ => rw [hask]
  | more _ hask _ _ => rw [hask]

end Library
