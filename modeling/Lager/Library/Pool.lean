import Lager.Library.Licensed
import Lager.Library.Program
import Mathlib.Data.List.Forall2
import Mathlib.Data.List.Induction
import Mathlib.Data.List.Perm.Basic

set_option relaxedAutoImplicit false
set_option autoImplicit false

/-!
# A pool of tasks

Programs handed to a pool are carried out there side by side, an operation of one and then an
operation of another, in any order. What each of them does is a run of it all the same. If each is
handed over only when those before it are finished, they are carried out one after the other.

## Main definitions

* `Library.Reaches` — a program after some of its operations.
* `Library.Pool` — the tasks handed over, and the operations performed, each with its task.
* `Library.Pool.submit`, `Library.Pool.Works` — handing over a task, and an operation of one.

## Main results

* `Library.Pool.perm_lanes` — nothing but the operations of the tasks was performed.
* `Library.Pool.eq_lanes` — tasks that wait for each other are carried out in turn.
-/

namespace Library

variable {Op : Type} {Ans : Op → Type} {α E : Type}

/-! ## Programs in progress -/

/-- A program, operations it has performed, and what is left of it after them. -/
inductive Reaches : Program Op Ans α → List (Event Op Ans) → Program Op Ans α → Prop
  | refl (p : Program Op Ans α) : Reaches p [] p
  | op {o : Op} {next : Ans o → Program Op Ans α} (ans : Ans o) {events : List (Event Op Ans)}
      {q : Program Op Ans α} : Reaches (next ans) events q →
      Reaches (.op o next) (⟨o, ans⟩ :: events) q

/-- A program that goes on by one operation. -/
theorem Reaches.snoc {p : Program Op Ans α} {events : List (Event Op Ans)} {o : Op}
    {next : Ans o → Program Op Ans α} (h : Reaches p events (.op o next)) (ans : Ans o) :
    Reaches p (events ++ [⟨o, ans⟩]) (next ans) := by
  generalize hq : Program.op o next = q at h
  induction h with
  | refl p =>
    subst hq
    exact .op ans (.refl _)
  | op ans' _ ih => exact .op ans' (ih hq)

/-! ## Lanes -/

/-- A list whose elements are marked with numbers, cut in two by the numbers. -/
theorem sorted_split {l : List (ℕ × E)} {n : ℕ} (hlt : ∀ x ∈ l, x.1 < n + 1)
    (hsorted : l.Pairwise fun x y => x.1 ≤ y.1) :
    l = (l.filter fun x => x.1 < n) ++ l.filter fun x => x.1 = n := by
  induction l with
  | nil => rfl
  | cons x l ih =>
    obtain ⟨hx, hrest⟩ := List.pairwise_cons.mp hsorted
    have hl := ih (fun y hy => hlt y (List.mem_cons_of_mem _ hy)) hrest
    by_cases hn : x.1 < n
    · have hne : x.1 ≠ n := by omega
      simpa [hn, hne] using hl
    · have hfirst := hlt x List.mem_cons_self
      have heq : x.1 = n := by omega
      have hnone : (l.filter fun y => y.1 < n) = [] := by
        rw [List.filter_eq_nil_iff]
        intro y hy
        have hle := hx y hy
        simp only [decide_eq_true_eq]
        omega
      rw [hnone, List.nil_append] at hl
      simpa [heq, hnone] using hl

/-- The elements with the greatest number are the last lane. -/
theorem map_snd_filter (l : List (ℕ × E)) (n : ℕ) :
    (l.filter fun x => x.1 = n).map Prod.snd = lane n l := by
  induction l with
  | nil => rfl
  | cons x l ih =>
    by_cases hx : x.1 = n <;> simp_all [lane]

/-- A lane without the elements of another. -/
theorem lane_filter {l : List (ℕ × E)} {i n : ℕ} (hi : i < n) :
    lane i (l.filter fun x => x.1 < n) = lane i l := by
  unfold lane
  rw [List.filterMap_filter]
  congr 1
  funext x
  by_cases hx : x.1 = i
  · simp [hx, hi]
  · simp [hx]

/-- The lanes one after the other. -/
def lanes (n : ℕ) (l : List (ℕ × E)) : List E := (List.range n).flatMap fun i => lane i l

theorem lanes_succ (n : ℕ) (l : List (ℕ × E)) : lanes (n + 1) l = lanes n l ++ lane n l := by
  rw [lanes, List.range_succ, List.flatMap_append, List.flatMap_singleton]
  rfl

/-- The first lanes without the elements of the others. -/
theorem lanes_filter (n : ℕ) (l : List (ℕ × E)) :
    lanes n (l.filter fun x => x.1 < n) = lanes n l := by
  unfold lanes
  refine List.flatMap_congr fun i hi => ?_
  exact lane_filter (List.mem_range.mp hi)

/-- An interleaving is a rearrangement of its lanes. -/
theorem perm_lanes {n : ℕ} {l : List (ℕ × E)} (hlt : ∀ x ∈ l, x.1 < n) :
    (l.map Prod.snd).Perm (lanes n l) := by
  induction n generalizing l with
  | zero =>
    have hnil : l = [] := List.eq_nil_iff_forall_not_mem.mpr fun x hx => by
      have := hlt x hx
      omega
    subst hnil
    exact .nil
  | succ n ih =>
    have hsplit := (List.filter_append_perm (fun x : ℕ × E => decide (x.1 < n)) l).symm
    have hlast : (l.filter fun x => !decide (x.1 < n)) = l.filter fun x => decide (x.1 = n) := by
      refine List.filter_congr fun x hx => ?_
      have hle := hlt x hx
      rw [← decide_not, decide_eq_decide]
      omega
    rw [hlast] at hsplit
    refine (hsplit.map Prod.snd).trans ?_
    have hfirst := ih (l := l.filter fun x => x.1 < n) fun x hx => by
      simpa using (List.mem_filter.mp hx).2
    rw [lanes_filter] at hfirst
    rw [List.map_append, map_snd_filter, lanes_succ]
    exact hfirst.append_right _

/-- An interleaving in which the lanes take turns is the lanes one after the other. -/
theorem eq_lanes {n : ℕ} {l : List (ℕ × E)} (hlt : ∀ x ∈ l, x.1 < n)
    (hsorted : l.Pairwise fun x y => x.1 ≤ y.1) : l.map Prod.snd = lanes n l := by
  induction n generalizing l with
  | zero =>
    have hnil : l = [] := List.eq_nil_iff_forall_not_mem.mpr fun x hx => by
      have := hlt x hx
      omega
    subst hnil
    rfl
  | succ n ih =>
    have hfirst := ih (l := l.filter fun x => x.1 < n)
      (fun x hx => by simpa using (List.mem_filter.mp hx).2) (hsorted.filter _)
    rw [lanes_filter] at hfirst
    conv_lhs => rw [sorted_split hlt hsorted]
    rw [List.map_append, hfirst, map_snd_filter, lanes_succ]

/-! ## The pool -/

/-- A program handed over, and what is left of it. -/
structure Task (Op : Type) (Ans : Op → Type) (α : Type) where
  program : Program Op Ans α
  left : Program Op Ans α

/-- The tasks in the order they were handed over, and the operations performed so far, each with
its answer and the place of its task. -/
structure Pool (Op : Type) (Ans : Op → Type) (α : Type) where
  tasks : List (Task Op Ans α)
  log : List (ℕ × Event Op Ans)
  /-- Every task is where its operations have brought it. -/
  reached : ∀ i t, tasks[i]? = some t → Reaches t.program (lane i log) t.left
  /-- Every operation is one of a task. -/
  owned : ∀ x ∈ log, x.1 < tasks.length

namespace Pool

/-- No task, and nothing done. -/
def empty : Pool Op Ans α where
  tasks := []
  log := []
  reached := by simp
  owned := by simp

/-- A task nobody has handed over has done nothing. -/
theorem lane_eq_nil (P : Pool Op Ans α) {i : ℕ} (h : P.tasks.length ≤ i) : lane i P.log = [] := by
  rw [List.eq_nil_iff_forall_not_mem]
  intro e he
  have := P.owned _ (mem_of_mem_lane he)
  omega

/-- Hand over a task. -/
def submit (P : Pool Op Ans α) (p : Program Op Ans α) : Pool Op Ans α where
  tasks := P.tasks ++ [⟨p, p⟩]
  log := P.log
  reached i t ht := by
    rcases Nat.lt_or_ge i P.tasks.length with hi | hi
    · rw [List.getElem?_append_left hi] at ht
      exact P.reached i t ht
    · rw [List.getElem?_append_right hi] at ht
      rw [List.getElem?_singleton] at ht
      split_ifs at ht
      cases ht
      rw [P.lane_eq_nil hi]
      exact .refl p
  owned x hx := by
    have := P.owned x hx
    rw [List.length_append]
    omega

/-- A task performs its next operation. -/
def advance (P : Pool Op Ans α) {i : ℕ} {t : Task Op Ans α} (ht : P.tasks[i]? = some t) {o : Op}
    {next : Ans o → Program Op Ans α} (hleft : t.left = .op o next) (ans : Ans o) :
    Pool Op Ans α where
  tasks := P.tasks.set i ⟨t.program, next ans⟩
  log := P.log ++ [(i, ⟨o, ans⟩)]
  reached j t' ht' := by
    have hi : i < P.tasks.length := (List.getElem?_eq_some_iff.mp ht).1
    rw [lane_append]
    by_cases hj : j = i
    · subst hj
      rw [List.getElem?_set_self hi] at ht'
      cases ht'
      rw [lane_cons_self]
      exact (hleft ▸ P.reached j t ht).snoc ans
    · rw [List.getElem?_set_ne (Ne.symm hj)] at ht'
      have hother : lane j [(i, (⟨o, ans⟩ : Event Op Ans))] = [] := by
        simp [lane, Ne.symm hj]
      rw [hother, List.append_nil]
      exact P.reached j t' ht'
  owned x hx := by
    have hi : i < P.tasks.length := (List.getElem?_eq_some_iff.mp ht).1
    rw [List.length_set]
    rcases List.mem_append.mp hx with hx | hx
    · exact P.owned x hx
    · rw [List.mem_singleton.mp hx]
      exact hi

/-- An operation of one of the tasks. -/
inductive Works : Pool Op Ans α → Pool Op Ans α → Prop
  | advance {P : Pool Op Ans α} {i : ℕ} {t : Task Op Ans α} (ht : P.tasks[i]? = some t) {o : Op}
      {next : Ans o → Program Op Ans α} (hleft : t.left = .op o next) (ans : Ans o) :
      Works P (P.advance ht hleft ans)

/-- All tasks are finished. -/
def Settled (P : Pool Op Ans α) : Prop := ∀ t ∈ P.tasks, ∃ a, t.left = .pure a

/-- The result of a task, once it is finished. -/
def result (P : Pool Op Ans α) (i : ℕ) : Option α :=
  match P.tasks[i]? with
  | some ⟨_, .pure a⟩ => some a
  | _ => none

/-- The operations performed, in order. -/
def calls (P : Pool Op Ans α) : List (Event Op Ans) := P.log.map Prod.snd

/-- The programs handed over, in order. -/
def programs (P : Pool Op Ans α) : List (Program Op Ans α) := P.tasks.map Task.program

/-- The tasks took turns, each after the ones handed over before it; and only the last may still
have something left. -/
structure InTurn (P : Pool Op Ans α) : Prop where
  sorted : P.log.Pairwise fun x y => x.1 ≤ y.1
  before : ∀ i t, P.tasks[i]? = some t → i + 1 < P.tasks.length → ∃ a, t.left = .pure a

variable {P P' : Pool Op Ans α}

@[simp] theorem programs_submit (p : Program Op Ans α) :
    (P.submit p).programs = P.programs ++ [p] := by
  simp [programs, submit]

@[simp] theorem calls_submit (p : Program Op Ans α) : (P.submit p).calls = P.calls := rfl

/-- Working on the tasks takes nothing back. -/
theorem Works.calls (h : Works P P') : P.calls <+: P'.calls := by
  cases h with
  | advance ht hleft ans =>
    apply List.IsPrefix.map
    exact List.prefix_append _ _

/-- Working on the tasks leaves their programs. -/
theorem Works.programs (h : Works P P') : P'.programs = P.programs := by
  cases h with
  | @advance i t ht o next hleft ans =>
    show (P.tasks.set i ⟨t.program, next ans⟩).map Task.program = P.tasks.map Task.program
    obtain ⟨hi, rfl⟩ := List.getElem?_eq_some_iff.mp ht
    have hmap : i < (P.tasks.map Task.program).length := by rwa [List.length_map]
    rw [List.map_set, show P.tasks[i].program = (P.tasks.map Task.program)[i] from
      (List.getElem_map _).symm, List.set_getElem_self hmap]

/-- What a task has done of its program. -/
theorem exists_reaches {i : ℕ} {p : Program Op Ans α} (h : P.programs[i]? = some p) :
    ∃ left, Reaches p (lane i P.log) left ∧ ∀ a, P.result i = some a → left = .pure a := by
  rw [programs, List.getElem?_map, Option.map_eq_some_iff] at h
  obtain ⟨⟨program, left⟩, ht, rfl⟩ := h
  refine ⟨left, P.reached i _ ht, fun a ha => ?_⟩
  rw [result, ht] at ha
  cases left with
  | pure b =>
    cases ha
    rfl
  | op o next => cases ha

/-- Nothing but the operations of the tasks was performed. -/
theorem perm_lanes (P : Pool Op Ans α) : P.calls.Perm (lanes P.programs.length P.log) := by
  refine Library.perm_lanes fun x hx => ?_
  rw [programs, List.length_map]
  exact P.owned x hx

/-- Tasks that took turns were carried out one after the other. -/
theorem InTurn.eq_lanes (h : P.InTurn) : P.calls = lanes P.programs.length P.log := by
  refine Library.eq_lanes (fun x hx => ?_) h.sorted
  rw [programs, List.length_map]
  exact P.owned x hx

/-- The operations of a task are performed in their order. -/
theorem lane_sublist (P : Pool Op Ans α) (i : ℕ) : (lane i P.log).Sublist P.calls := by
  rw [calls]
  induction P.log with
  | nil => exact .slnil
  | cons x l ih =>
    by_cases hx : x.1 = i
    · obtain ⟨j, e⟩ := x
      obtain rfl : j = i := hx
      rw [lane_cons_self]
      exact ih.cons_cons e
    · rw [show lane i (x :: l) = lane i l by simp [lane, hx]]
      exact ih.cons x.2

theorem inTurn_empty : (empty : Pool Op Ans α).InTurn := ⟨.nil, by simp [empty]⟩

/-- A task handed over when all are finished waits for them. -/
theorem InTurn.submit (h : P.InTurn) (hs : P.Settled) (p : Program Op Ans α) :
    (P.submit p).InTurn := by
  refine ⟨h.sorted, fun i t ht hi => ?_⟩
  have hlen : (P.submit p).tasks.length = P.tasks.length + 1 := List.length_append
  rw [hlen] at hi
  rw [show (P.submit p).tasks[i]? = P.tasks[i]? from
    List.getElem?_append_left (by omega)] at ht
  exact hs t (List.mem_of_getElem? ht)

/-- Only the last task has something to do. -/
theorem InTurn.works (h : P.InTurn) (hw : Works P P') : P'.InTurn := by
  cases hw with
  | @advance i t ht o next hleft ans =>
    have hi : i < P.tasks.length := (List.getElem?_eq_some_iff.mp ht).1
    have hlast : P.tasks.length ≤ i + 1 := by
      by_contra hlt
      obtain ⟨a, ha⟩ := h.before i t ht (by omega)
      rw [ha] at hleft
      cases hleft
    refine ⟨?_, fun j t' ht' hj => ?_⟩
    · refine List.pairwise_append.mpr ⟨h.sorted, List.pairwise_singleton _ _, fun x hx y hy => ?_⟩
      rw [List.mem_singleton.mp hy]
      have hx' := P.owned x hx
      show x.1 ≤ i
      omega
    · have hlen : (P.advance ht hleft ans).tasks.length = P.tasks.length := List.length_set
      rw [hlen] at hj
      refine h.before j t' ?_ hj
      rwa [show (P.advance ht hleft ans).tasks[j]? = P.tasks[j]? from
        List.getElem?_set_ne (by omega)] at ht'

/-- A finished task stays finished when others are handed over. -/
theorem result_submit {i : ℕ} {a : α} (h : P.result i = some a) (p : Program Op Ans α) :
    (P.submit p).result i = some a := by
  have hi : i < P.tasks.length := by
    by_contra hge
    rw [result, List.getElem?_eq_none (by omega)] at h
    cases h
  rw [result, show (P.submit p).tasks[i]? = P.tasks[i]? from List.getElem?_append_left hi]
  exact h

/-- A finished task does nothing more. -/
theorem Works.result {i : ℕ} {a : α} (h : Works P P') (ha : P.result i = some a) :
    P'.result i = some a := by
  cases h with
  | @advance j t ht o next hleft ans =>
    have hne : j ≠ i := by
      rintro rfl
      obtain ⟨program, left⟩ := t
      simp only at hleft
      subst hleft
      rw [Pool.result, ht] at ha
      cases ha
    rw [Pool.result, show (P.advance ht hleft ans).tasks[i]? = P.tasks[i]? from
      List.getElem?_set_ne hne]
    exact ha

/-- A task that is alone and finished. -/
theorem settled_of_result {a : α} (hone : P.programs.length = 1) (ha : P.result 0 = some a) :
    P.Settled := by
  rw [programs, List.length_map] at hone
  obtain ⟨⟨program, left⟩, htasks⟩ := List.length_eq_one_iff.mp hone
  intro t ht
  rw [htasks, List.mem_singleton] at ht
  subst ht
  rw [result, htasks] at ha
  cases left with
  | pure b => exact ⟨b, rfl⟩
  | op o next => cases ha

/-- Whether a task is finished. -/
def Task.isFinished (t : Task Op Ans α) : Bool :=
  match t.left with
  | .pure _ => true
  | .op _ _ => false

/-- Tasks that are looked at one by one. -/
theorem settled_of_all (h : P.tasks.all Task.isFinished = true) : P.Settled := by
  intro t ht
  have hfinished := List.all_eq_true.mp h t ht
  unfold Task.isFinished at hfinished
  split at hfinished
  · exact ⟨_, by assumption⟩
  · cases hfinished

/-! ### A task that the others wait for -/

/-- The first task has nothing to do once another has done something. -/
def Led (P : Pool Op Ans α) : Prop := P.log.Pairwise fun x y => y.1 = 0 → x.1 = 0

/-- The operations of the tasks behind the first, task by task. -/
def later (P : Pool Op Ans α) : List (Event Op Ans) :=
  (List.range (P.programs.length - 1)).flatMap fun i => lane (i + 1) P.log

theorem led_empty : (empty : Pool Op Ans α).Led := .nil

theorem Led.submit (h : P.Led) (p : Program Op Ans α) : (P.submit p).Led := h

/-- The first task is alone, or it is finished. -/
theorem Led.works (h : P.Led) (hw : Works P P')
    (hfirst : P.programs.length ≤ 1 ∨ ∃ a, P.result 0 = some a) : P'.Led := by
  cases hw with
  | @advance i t ht o next hleft ans =>
    refine List.pairwise_append.mpr ⟨h, List.pairwise_singleton _ _, fun x hx y hy hy0 => ?_⟩
    rw [List.mem_singleton.mp hy] at hy0
    obtain rfl : i = 0 := hy0
    rcases hfirst with hone | ⟨a, ha⟩
    · have hx' := P.owned x hx
      rw [programs, List.length_map] at hone
      omega
    · obtain ⟨program, left⟩ := t
      simp only at hleft
      subst hleft
      rw [result, ht] at ha
      cases ha

/-- What a list begins with, when the first lane is in front of the others. -/
theorem exists_of_led {l : List (ℕ × E)} (h : l.Pairwise fun x y => y.1 = 0 → x.1 = 0) :
    ∃ rest, l.map Prod.snd = lane 0 l ++ rest := by
  induction l with
  | nil => exact ⟨[], rfl⟩
  | cons x l ih =>
    obtain ⟨hx, hl⟩ := List.pairwise_cons.mp h
    by_cases h0 : x.1 = 0
    · obtain ⟨rest, hrest⟩ := ih hl
      obtain ⟨i, e⟩ := x
      simp only at h0
      subst h0
      exact ⟨rest, by rw [lane_cons_self, List.map_cons, hrest, List.cons_append]⟩
    · have hnone : lane 0 (x :: l) = [] := by
        rw [List.eq_nil_iff_forall_not_mem]
        intro e he
        rcases List.mem_cons.mp (mem_of_mem_lane he) with rfl | hmem
        · exact h0 rfl
        · exact h0 (hx _ hmem rfl)
      exact ⟨_, by rw [hnone, List.nil_append]⟩

/-- The calls begin with those of the first task; the others follow, in turn if the tasks took
turns. -/
theorem Led.calls (h : P.Led) (hone : 1 ≤ P.programs.length) :
    ∃ rest, P.calls = lane 0 P.log ++ rest ∧ rest.Perm P.later ∧ (P.InTurn → rest = P.later) := by
  obtain ⟨rest, hrest⟩ := exists_of_led h
  have hlanes : lanes P.programs.length P.log = lane 0 P.log ++ P.later := by
    obtain ⟨n, hn⟩ := Nat.exists_eq_add_of_le' hone
    rw [later, hn, Nat.add_sub_cancel, lanes, List.range_succ_eq_map, List.flatMap_cons,
      List.flatMap_map]
  have hcalls : P.calls = lane 0 P.log ++ rest := hrest
  refine ⟨rest, hcalls, ?_, fun hturn => ?_⟩
  · have hperm := P.perm_lanes
    rw [hlanes, hcalls] at hperm
    exact (List.perm_append_left_iff _).mp hperm
  · have heq := hturn.eq_lanes
    rw [hlanes, hcalls] at heq
    exact List.append_cancel_left heq

/-! ### Tasks that do the same whatever the answers -/

/-- A program that performs the same operations whatever the answers. -/
def Scripted (p : Program Op Ans α) (ops : List Op) : Prop :=
  ∀ events left, Reaches p events left →
    events.map Sigma.fst <+: ops ∧ ((∃ a, left = .pure a) → events.map Sigma.fst = ops)

theorem scripted_pure (a : α) : Scripted (.pure a : Program Op Ans α) [] := by
  rintro events left (_ | _)
  exact ⟨List.prefix_refl _, fun _ => rfl⟩

/-- An operation, and then the same whatever its answer. -/
theorem scripted_op {o : Op} {next : Ans o → Program Op Ans α} {ops : List Op}
    (h : ∀ ans, Scripted (next ans) ops) : Scripted (.op o next) (o :: ops) := by
  rintro events left (_ | ⟨ans, hreach⟩)
  · refine ⟨List.nil_prefix, ?_⟩
    rintro ⟨a, ha⟩
    cases ha
  · obtain ⟨hbegun, hfull⟩ := h ans _ _ hreach
    exact ⟨List.prefix_cons_inj o |>.mpr hbegun, fun hdone => congrArg (o :: ·) (hfull hdone)⟩

variable {f : ℕ → List Op} {scripts : List (List Op)}

/-- Lists by their places, and one more. -/
theorem flatMap_range_concat (f : ℕ → List Op) (scripts : List (List Op)) (last : List Op) :
    (List.range (scripts ++ [last]).length).flatMap f =
      (List.range scripts.length).flatMap f ++ f scripts.length := by
  rw [List.length_append, List.length_singleton, List.range_succ, List.flatMap_append,
    List.flatMap_singleton]

/-- What holds at each place of a list and one more holds at the places of the list. -/
theorem forall_of_concat {Q : ℕ → List Op → Prop} {last : List Op}
    (h : ∀ i ops, (scripts ++ [last])[i]? = some ops → Q i ops) :
    (∀ i ops, scripts[i]? = some ops → Q i ops) ∧ Q scripts.length last := by
  refine ⟨fun i ops hi => h i ops ?_, h scripts.length last List.getElem?_concat_length⟩
  rwa [List.getElem?_append_left (List.getElem?_eq_some_iff.mp hi).1]

/-- Lists that are all complete. -/
theorem flatMap_range_eq (h : ∀ i ops, scripts[i]? = some ops → f i = ops) :
    (List.range scripts.length).flatMap f = scripts.flatten := by
  induction scripts using List.reverseRecOn with
  | nil => rfl
  | append_singleton scripts last ih =>
    obtain ⟨hfront, hlast⟩ := forall_of_concat h
    rw [flatMap_range_concat, ih hfront, hlast, List.flatten_append, List.flatten_singleton]

/-- Lists that are begun. -/
theorem flatMap_range_sublist (h : ∀ i ops, scripts[i]? = some ops → f i <+: ops) :
    ((List.range scripts.length).flatMap f).Sublist scripts.flatten := by
  induction scripts using List.reverseRecOn with
  | nil => exact .slnil
  | append_singleton scripts last ih =>
    obtain ⟨hfront, hlast⟩ := forall_of_concat h
    rw [flatMap_range_concat, List.flatten_append, List.flatten_singleton]
    exact (ih hfront).append hlast.sublist

/-- Lists that are complete, and a last one that is begun. -/
theorem flatMap_range_begun (h : ∀ i ops, scripts[i]? = some ops → f i <+: ops)
    (hfull : ∀ i ops, scripts[i]? = some ops → i + 1 < scripts.length → f i = ops) :
    (List.range scripts.length).flatMap f <+: scripts.flatten := by
  induction scripts using List.reverseRecOn with
  | nil => exact List.prefix_refl _
  | append_singleton scripts last _ =>
    rw [flatMap_range_concat, List.flatten_append, List.flatten_singleton,
      flatMap_range_eq fun i ops hi => (forall_of_concat hfull).1 i ops hi ?_]
    · exact (List.prefix_append_right_inj _).mpr (forall_of_concat h).2
    · have hlt := (List.getElem?_eq_some_iff.mp hi).1
      rw [List.length_append, List.length_singleton]
      omega

variable {p : Program Op Ans α} {ps : List (Program Op Ans α)}

/-- What a task behind the first has done of its script. -/
theorem lane_of_scripted (hprograms : P.programs = p :: ps)
    (hscripts : List.Forall₂ Scripted ps scripts) {i : ℕ} {ops : List Op}
    (hi : scripts[i]? = some ops) :
    (lane (i + 1) P.log).map Sigma.fst <+: ops ∧
      ((∀ t, P.tasks[i + 1]? = some t → ∃ a, t.left = .pure a) →
        (lane (i + 1) P.log).map Sigma.fst = ops) := by
  obtain ⟨hlt, rfl⟩ := List.getElem?_eq_some_iff.mp hi
  have hlt' : i < ps.length := hscripts.length_eq ▸ hlt
  have hscript : Scripted ps[i] scripts[i] := hscripts.get hlt' hlt
  have hprogram : P.programs[i + 1]? = some ps[i] := by
    rw [hprograms, List.getElem?_cons_succ, List.getElem?_eq_getElem hlt']
  rw [programs, List.getElem?_map, Option.map_eq_some_iff] at hprogram
  obtain ⟨t, ht, hprogram⟩ := hprogram
  obtain ⟨hbegun, hfull⟩ := hscript _ _ (hprogram ▸ P.reached _ t ht)
  exact ⟨hbegun, fun hdone => hfull (hdone t ht)⟩

/-- The operations of tasks with scripts, task by task. -/
theorem map_later (hprograms : P.programs = p :: ps)
    (hscripts : List.Forall₂ Scripted ps scripts) :
    P.later.map Sigma.fst =
      (List.range scripts.length).flatMap fun i => (lane (i + 1) P.log).map Sigma.fst := by
  rw [later, hprograms, List.length_cons, Nat.add_sub_cancel, List.map_flatMap,
    hscripts.length_eq]

/-- Tasks with scripts do nothing else, and nothing twice. -/
theorem later_sublist (hprograms : P.programs = p :: ps)
    (hscripts : List.Forall₂ Scripted ps scripts) :
    (P.later.map Sigma.fst).Sublist scripts.flatten := by
  rw [map_later hprograms hscripts]
  exact flatMap_range_sublist fun i ops hi => (lane_of_scripted hprograms hscripts hi).1

/-- Finished tasks with scripts have done all of them. -/
theorem later_of_settled (hprograms : P.programs = p :: ps)
    (hscripts : List.Forall₂ Scripted ps scripts) (hsettled : P.Settled) :
    P.later.map Sigma.fst = scripts.flatten := by
  rw [map_later hprograms hscripts]
  refine flatMap_range_eq fun i ops hi => (lane_of_scripted hprograms hscripts hi).2 ?_
  exact fun t ht => hsettled t (List.mem_of_getElem? ht)

/-- Tasks with scripts that take turns follow them in order. -/
theorem InTurn.later_inOrder (hturn : P.InTurn) (hprograms : P.programs = p :: ps)
    (hscripts : List.Forall₂ Scripted ps scripts) :
    P.later.map Sigma.fst <+: scripts.flatten := by
  rw [map_later hprograms hscripts]
  refine flatMap_range_begun (fun i ops hi => (lane_of_scripted hprograms hscripts hi).1)
    fun i ops hi hlt => (lane_of_scripted hprograms hscripts hi).2 fun t ht => ?_
  refine hturn.before (i + 1) t ht ?_
  have hlen : P.tasks.length = ps.length + 1 := by
    have hmap := congrArg List.length hprograms
    rwa [programs, List.length_map, List.length_cons] at hmap
  rw [hlen, hscripts.length_eq]
  omega

/-- A finished task with a script has done all of it, in order. -/
theorem script_sublist {i : ℕ} {ops : List Op} (hprogram : P.programs[i]? = some p)
    (hscript : Scripted p ops) (hsettled : P.Settled) :
    ops.Sublist (P.calls.map Sigma.fst) := by
  rw [programs, List.getElem?_map, Option.map_eq_some_iff] at hprogram
  obtain ⟨t, ht, rfl⟩ := hprogram
  have hfull := (hscript _ _ (P.reached i t ht)).2 (hsettled t (List.mem_of_getElem? ht))
  rw [← hfull]
  exact (P.lane_sublist i).map _

end Pool

end Library
