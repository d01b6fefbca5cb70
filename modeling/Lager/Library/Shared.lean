import Mathlib.Data.List.Basic
import Mathlib.Tactic.Common

set_option relaxedAutoImplicit false
set_option autoImplicit false

/-!
# A shared cell

A cell that is read and written as a whole, without a lock. An update reads it and writes back what
it makes of the value, if it makes anything of it; between the two, others may write.

## Main definitions

* `Library.CellRun` — the reads and writes are those of one cell.
* `Library.Updates` — the accesses of an update.
* `Library.Shuffle` — two lists interleaved, each element with the side it is from.
* `Library.Isolated` — neither side writes between a read and a write of the other.

## Main results

* `Library.isolated_updates` — two isolated updates have the effect of one after the other.
-/

namespace Library

variable {σ α β : Type}

/-- An access to a cell: a read with the value read, or a write. -/
inductive Access (σ : Type)
  | read (value : σ)
  | write (value : σ)

/-- The accesses are those of one cell, from a value to a value. -/
inductive CellRun : σ → List (Access σ) → σ → Prop
  | nil (s : σ) : CellRun s [] s
  | read {s s' : σ} {accesses : List (Access σ)} (rest : CellRun s accesses s') :
      CellRun s (.read s :: accesses) s'
  | write {s v s' : σ} {accesses : List (Access σ)} (rest : CellRun v accesses s') :
      CellRun s (.write v :: accesses) s'

/-- A cell that is not written keeps its value. -/
theorem CellRun.unchanged {s s' : σ} {accesses : List (Access σ)} (h : CellRun s accesses s')
    (hreads : ∀ v, .write v ∉ accesses) : s' = s := by
  induction h with
  | nil s => rfl
  | read rest ih => exact ih fun v hv => hreads v (List.mem_cons_of_mem _ hv)
  | write rest ih => exact absurd List.mem_cons_self (hreads _)

/-- A read gives the value of the cell. -/
theorem CellRun.of_read {s v s' : σ} {accesses : List (Access σ)}
    (h : CellRun s (.read v :: accesses) s') : v = s ∧ CellRun s accesses s' := by
  cases h with
  | read rest => exact ⟨rfl, rest⟩

/-- A write replaces the value of the cell. -/
theorem CellRun.of_write {s v s' : σ} {accesses : List (Access σ)}
    (h : CellRun s (.write v :: accesses) s') : CellRun v accesses s' := by
  cases h with
  | write rest => exact rest

/-- Nothing happens to a cell that is not accessed. -/
theorem CellRun.of_nil {s s' : σ} (h : CellRun s [] s') : s' = s := by
  cases h
  rfl

/-! ## Updates -/

/-- The accesses of an update by `f`: it reads, and writes if there is something to write. -/
inductive Updates (f : σ → Option σ) : List (Access σ) → Prop
  | kept {v : σ} (h : f v = none) : Updates f [.read v]
  | changed {v w : σ} (h : f v = some w) : Updates f [.read v, .write w]

/-- The effect of an update that nobody interferes with. -/
def applied (f : σ → Option σ) (s : σ) : σ := (f s).getD s

/-! ## Interleavings -/

/-- Two lists interleaved. `true` marks the elements of the first. -/
inductive Shuffle : List α → List α → List (Bool × α) → Prop
  | nil : Shuffle [] [] []
  | left {a : α} {l₁ l₂ : List α} {l : List (Bool × α)} (rest : Shuffle l₁ l₂ l) :
      Shuffle (a :: l₁) l₂ ((true, a) :: l)
  | right {a : α} {l₁ l₂ : List α} {l : List (Bool × α)} (rest : Shuffle l₁ l₂ l) :
      Shuffle l₁ (a :: l₂) ((false, a) :: l)

/-- What is left of an interleaving when its elements are mapped and some dropped. -/
def filterMapSnd (f : α → Option β) (l : List (Bool × α)) : List (Bool × β) :=
  l.filterMap fun x => (f x.2).map fun b => (x.1, b)

/-- Dropping elements leaves an interleaving. -/
theorem Shuffle.filterMap {l₁ l₂ : List α} {l : List (Bool × α)} (h : Shuffle l₁ l₂ l)
    (f : α → Option β) : Shuffle (l₁.filterMap f) (l₂.filterMap f) (filterMapSnd f l) := by
  unfold filterMapSnd
  induction h with
  | nil => exact .nil
  | @left a l₁ l₂ l rest ih =>
    rcases ha : f a with _ | b
    · simpa [List.filterMap_cons, ha] using ih
    · simpa [List.filterMap_cons, ha] using ih.left
  | @right a l₁ l₂ l rest ih =>
    rcases ha : f a with _ | b
    · simpa [List.filterMap_cons, ha] using ih
    · simpa [List.filterMap_cons, ha] using ih.right

/-- Dropping elements of an interleaving drops the elements. -/
theorem map_snd_filterMapSnd (f : α → Option β) (l : List (Bool × α)) :
    (filterMapSnd f l).map Prod.snd = (l.map Prod.snd).filterMap f := by
  unfold filterMapSnd
  rw [List.map_filterMap, List.filterMap_map]
  congr 1
  funext x
  show ((f x.2).map fun b => (x.1, b)).map Prod.snd = f x.2
  cases f x.2 <;> rfl

/-- An interleaving with the sides exchanged. -/
def swap (l : List (Bool × α)) : List (Bool × α) := l.map fun x => (!x.1, x.2)

/-- Exchanging the sides of an interleaving. -/
theorem Shuffle.swap {l₁ l₂ : List α} {l : List (Bool × α)} (h : Shuffle l₁ l₂ l) :
    Shuffle l₂ l₁ (swap l) := by
  induction h with
  | nil => exact .nil
  | left rest ih => exact ih.right
  | right rest ih => exact ih.left

/-- The elements stay the same when the sides are exchanged. -/
theorem map_snd_swap (l : List (Bool × α)) : (swap l).map Prod.snd = l.map Prod.snd := by
  unfold Library.swap
  rw [List.map_map]
  rfl

/-- Exchanging the sides twice. -/
theorem swap_swap (l : List (Bool × α)) : swap (swap l) = l := by
  unfold Library.swap
  rw [List.map_map]
  refine List.map_id'' (fun x => ?_) l
  show (!!x.1, x.2) = x
  rw [Bool.not_not]

/-- An interleaving with nothing is the other list. -/
theorem Shuffle.of_nil_left {l₂ : List α} {l : List (Bool × α)} (h : Shuffle [] l₂ l) :
    l.map Prod.snd = l₂ := by
  generalize hl₁ : ([] : List α) = l₁ at h
  induction h with
  | nil => rfl
  | left rest ih => cases hl₁
  | @right a l₁ l₂ l rest ih => exact congrArg (a :: ·) (ih hl₁)

/-- Neither side writes between a read and a write of the other. -/
def Isolated (l : List (Bool × Access σ)) : Prop :=
  ∀ side front between between' back v w w', l ≠ front ++ (side, .read v) ::
    (between ++ (!side, .write w) :: (between' ++ (side, .write w') :: back))

/-- Exchanging the sides of isolated accesses. -/
theorem Isolated.swap {l : List (Bool × Access σ)} (h : Isolated l) : Isolated (swap l) := by
  intro side front between between' back v w w' heq
  have hl := congrArg Library.swap heq
  rw [swap_swap] at hl
  refine h (!side) (Library.swap front) (Library.swap between) (Library.swap between')
    (Library.swap back) v w w' ?_
  simpa [Library.swap] using hl

/-- The one side after the other is isolated. -/
theorem isolated_of_pairwise {l : List (Bool × Access σ)}
    (h : l.Pairwise fun x y => x.1 = false → y.1 = false) : Isolated l := by
  rintro side front between between' back v w w' rfl
  have hread := (List.pairwise_cons.mp (List.pairwise_append.mp h).2.1)
  have hwrite := List.pairwise_cons.mp (List.pairwise_append.mp hread.2).2.1
  cases side
  · have hlater := hread.1 (!false, .write w) (by simp) rfl
    cases hlater
  · have hlater := hwrite.1 (true, .write w') (by simp) rfl
    cases hlater

section

variable {f g : σ → Option σ} {l₁ l₂ : List (Access σ)} {l : List (Bool × Access σ)} {s s' : σ}

/-- The effect of an update that writes nothing. -/
theorem applied_of_none (h : f s = none) : applied f s = s := by rw [applied, h, Option.getD_none]

/-- The effect of an update that writes. -/
theorem applied_of_some {w : σ} (h : f s = some w) : applied f s = w := by
  rw [applied, h, Option.getD_some]

/-- The effect of an update with nobody else around. -/
theorem Updates.alone (h : Updates g l₂) (hrun : CellRun s l₂ s') : s' = applied g s := by
  cases h with
  | kept hg =>
    obtain ⟨rfl, hrun⟩ := hrun.of_read
    rw [applied_of_none hg]
    exact hrun.of_nil
  | changed hg =>
    obtain ⟨rfl, hrun⟩ := hrun.of_read
    rw [applied_of_some hg]
    exact hrun.of_write.of_nil

/-- When the first update has read and is going to write, the second comes after that write, or it
has read too and does not write. -/
theorem pending {w : σ} (hg : Updates g l₂) (h : Shuffle [.write w] l₂ l)
    (hrun : CellRun s (l.map Prod.snd) s') (hiso : Isolated ((true, .read s) :: l)) :
    s' = applied g w ∨ applied g s = s ∧ s' = w := by
  cases h with
  | left rest =>
    have hrest := hrun.of_write
    rw [rest.of_nil_left] at hrest
    exact .inl (hg.alone hrest)
  | right rest =>
    cases hg with
    | @kept v hg =>
      obtain ⟨rfl, hrest⟩ := hrun.of_read
      rw [← map_snd_swap, rest.swap.of_nil_left] at hrest
      exact .inr ⟨applied_of_none hg, hrest.of_write.of_nil⟩
    | @changed v w' hg =>
      exfalso
      cases rest with
      | left rest =>
        cases rest with
        | right rest =>
          cases rest
          exact hiso false [(true, .read s)] [] [] [] v w w' rfl
      | right rest =>
        cases rest with
        | left rest =>
          cases rest
          exact hiso true [] [(false, .read v)] [] [] s w' w rfl

/-- The case that the first update reads first. -/
theorem isolated_left {v : σ} (hf : Updates f (.read v :: l₁)) (hg : Updates g l₂)
    (h : Shuffle l₁ l₂ l) (hrun : CellRun s (.read v :: l.map Prod.snd) s')
    (hiso : Isolated ((true, .read v) :: l)) :
    s' = applied g (applied f s) ∨ s' = applied f (applied g s) := by
  obtain ⟨rfl, hrest⟩ := hrun.of_read
  cases hf with
  | kept hf =>
    rw [h.of_nil_left] at hrest
    rw [applied_of_none hf]
    exact .inl (hg.alone hrest)
  | changed hf =>
    rw [applied_of_some hf]
    rcases pending hg h hrest hiso with hafter | ⟨hnone, hafter⟩
    · exact .inl hafter
    · rw [hnone, applied_of_some hf]
      exact .inr hafter

/-- **Isolated updates are serial.** Two updates neither of which writes between the read and the
write of the other have the effect of one after the other.

**Proof sketch.** Say the first update reads first. If it does not write, the second goes on alone.
If it does, the second cannot write before it, nor read before it and write after it; so the second
comes after that write, or it has read by then and does not write. -/
theorem isolated_updates (hf : Updates f l₁) (hg : Updates g l₂) (h : Shuffle l₁ l₂ l)
    (hrun : CellRun s (l.map Prod.snd) s') (hiso : Isolated l) :
    s' = applied g (applied f s) ∨ s' = applied f (applied g s) := by
  cases h with
  | nil => cases hf
  | @left a l₁ l₂ l rest =>
    cases a with
    | read v => exact isolated_left hf hg rest hrun hiso
    | write v => cases hf
  | @right a l₁ l₂ l rest =>
    cases a with
    | read v =>
      have hrun' : CellRun s (.read v :: (swap l).map Prod.snd) s' := by
        rw [map_snd_swap]
        exact hrun
      exact (isolated_left hg hf rest.swap hrun' hiso.swap).symm
    | write v => cases hg

end

end Library
