import Lager.Library.Shared

set_option relaxedAutoImplicit false
set_option autoImplicit false

/-!
# What may happen when

A safety property says of each thing that happens that what happened before allows it. Events are
licensed by such a rule when each is allowed by those before it. Parties that each follow a rule of
their own follow it in every interleaving, and what each makes of what it read of a shared cell is
then as good as what was in the cell at first.

## Main definitions

* `Library.Licensed` — each event is allowed by those before it.
* `Library.lane` — the events of one party in an interleaving.

## Main results

* `Library.licensed_iff` — the rule at every point of the events.
* `Library.may_of_lane` — parties follow their rules in an interleaving.
* `Library.CellRun.provenance` — what holds of a cell and of everything read from it.
-/

namespace Library

variable {E ι σ : Type} {May : List E → E → Prop}

/-! ## Rules -/

/-- The events, after those of `past`, are each allowed by the ones before. -/
def Licensed (May : List E → E → Prop) : List E → List E → Prop
  | _, [] => True
  | past, e :: events => May past e ∧ Licensed May (past ++ [e]) events

@[simp] theorem licensed_nil (past : List E) : Licensed May past [] := trivial

@[simp] theorem licensed_cons {past events : List E} {e : E} :
    Licensed May past (e :: events) ↔ May past e ∧ Licensed May (past ++ [e]) events := Iff.rfl

/-- Events and more of them. -/
@[simp] theorem licensed_append {past events events' : List E} :
    Licensed May past (events ++ events') ↔
      Licensed May past events ∧ Licensed May (past ++ events) events' := by
  induction events generalizing past with
  | nil => simp
  | cons e events ih => simp [ih, and_assoc]

/-- Licensed events, and more of them after. -/
theorem Licensed.append {past events events' : List E} (h : Licensed May past events)
    (h' : Licensed May (past ++ events) events') : Licensed May past (events ++ events') :=
  licensed_append.mpr ⟨h, h'⟩

/-- The rule holds at every point of licensed events. -/
theorem licensed_iff {past events : List E} :
    Licensed May past events ↔
      ∀ front e back, events = front ++ e :: back → May (past ++ front) e := by
  constructor
  · rintro h front e back rfl
    exact (licensed_append.mp h).2.1
  · intro h
    induction events generalizing past with
    | nil => trivial
    | cons e events ih =>
      refine ⟨by simpa using h [] e events rfl, ih fun front e' back heq => ?_⟩
      have hsplit : e :: events = (e :: front) ++ e' :: back := by rw [heq, List.cons_append]
      simpa using h (e :: front) e' back hsplit

/-! ## Parties -/

section

variable [DecidableEq ι]

/-- The events of one party. -/
def lane (i : ι) (l : List (ι × E)) : List E :=
  l.filterMap fun x => if x.1 = i then some x.2 else none

/-- The events of a party before and after a point. -/
theorem lane_append (i : ι) (l l' : List (ι × E)) :
    lane i (l ++ l') = lane i l ++ lane i l' := List.filterMap_append

/-- The events of a party from one of its own on. -/
theorem lane_cons_self (i : ι) (e : E) (l : List (ι × E)) :
    lane i ((i, e) :: l) = e :: lane i l := by
  simp [lane]

/-- An event of a party is one of all events. -/
theorem mem_of_mem_lane {i : ι} {e : E} {l : List (ι × E)} (h : e ∈ lane i l) : (i, e) ∈ l := by
  obtain ⟨⟨j, e'⟩, hmem, hsome⟩ := List.mem_filterMap.mp h
  by_cases hj : j = i
  · rw [if_pos hj, Option.some.injEq] at hsome
    exact hj ▸ hsome ▸ hmem
  · simp [hj] at hsome

/-- A party that follows a rule follows it whatever the others do. -/
theorem may_of_lane {l front back : List (ι × E)} {i : ι} {e : E} {past : List E}
    (h : Licensed May past (lane i l)) (heq : l = front ++ (i, e) :: back) :
    May (past ++ lane i front) e := by
  refine licensed_iff.mp h (lane i front) e (lane i back) ?_
  rw [heq, lane_append, lane_cons_self]

end

/-! ## A cell that parties share -/

/-- **Where the values of a cell come from.** Let `Good` say that a value may be there after some
events, and still after more. If the first value is good, and each value written is good as long as
all values read before it were, then the last value is good, and so is every value read.

**Proof sketch.** Induction on the events still to come: the value of the cell and all values read
so far are good. -/
theorem CellRun.provenance {access : E → Option (Access σ)} {s s' : σ} {l : List E}
    (Good : List E → σ → Prop) (hrun : CellRun s (l.filterMap access) s')
    (hinit : Good [] s) (hmono : ∀ front x v, Good front v → Good (front ++ [x]) v)
    (hwrite : ∀ front x back w, l = front ++ x :: back → access x = some (.write w) →
      (∀ y ∈ front, ∀ v, access y = some (.read v) → Good front v) → Good (front ++ [x]) w) :
    Good l s' ∧ ∀ front x back v, l = front ++ x :: back → access x = some (.read v) →
      Good front v := by
  suffices hlater : ∀ (rest front : List E) (now : σ), l = front ++ rest →
      CellRun now (rest.filterMap access) s' → Good front now →
      (∀ y ∈ front, ∀ v, access y = some (.read v) → Good front v) →
      Good l s' ∧ ∀ front' x back v, rest = front' ++ x :: back → access x = some (.read v) →
        Good (front ++ front') v by
    have hall := hlater l [] s rfl hrun hinit (by simp)
    simpa using hall
  intro rest
  induction rest with
  | nil =>
    intro front now heq hcell hnow _
    obtain rfl := hcell.of_nil
    exact ⟨by rw [heq, List.append_nil]; exact hnow, by simp⟩
  | cons x rest ih =>
    intro front now heq hcell hnow hreads
    have heq' : l = (front ++ [x]) ++ rest := by rw [heq, List.append_assoc]; rfl
    -- One step: the value of the cell afterwards, and what was read at it.
    obtain ⟨next, hcell', hnext, hread⟩ : ∃ next, CellRun next (rest.filterMap access) s'
        ∧ Good (front ++ [x]) next ∧ ∀ v, access x = some (.read v) → Good front v := by
      rcases hx : access x with _ | ⟨v⟩ | ⟨w⟩
      · rw [List.filterMap_cons_none hx] at hcell
        exact ⟨now, hcell, hmono front x now hnow, by simp⟩
      · rw [List.filterMap_cons_some hx] at hcell
        obtain ⟨rfl, hrest⟩ := hcell.of_read
        refine ⟨v, hrest, hmono front x v hnow, fun v' hv' => ?_⟩
        cases hv'
        exact hnow
      · rw [List.filterMap_cons_some hx] at hcell
        exact ⟨w, hcell.of_write, hwrite front x rest w heq hx hreads, by simp⟩
    obtain ⟨hlast, hlater⟩ := ih (front ++ [x]) next heq' hcell' hnext fun y hy v hv => by
      rcases List.mem_append.mp hy with hy | hy
      · exact hmono front x v (hreads y hy v hv)
      · obtain rfl := List.mem_singleton.mp hy
        exact hmono front y v (hread v hv)
    refine ⟨hlast, fun front' y back v heq'' hv => ?_⟩
    rcases front' with _ | ⟨z, front'⟩
    · obtain ⟨rfl, rfl⟩ := List.cons.inj heq''
      simpa using hread v hv
    · obtain ⟨rfl, hrest⟩ := List.cons.inj heq''
      simpa using hlater front' y back v hrest hv

end Library
