import Lager.Library.Linear
import Mathlib.Algebra.Order.BigOperators.Group.List
import Mathlib.Algebra.Order.Ring.Nat

set_option relaxedAutoImplicit false
set_option autoImplicit false

/-!
# Paced channels

A sender puts frames on a channel, but no more of them than it was let. The receiver lets it send
more by grants, which go the other way. What is under way keeps its order, and some of it may get
lost. If the receiver never grants more than a window and one for each frame it took, then no more
than the window is ever under way, whatever the two do in whatever order.

## Main definitions

* `Library.Pace` — the channel: the grants and the frames under way, and the room of the sender.
* `Library.Pace.Exact`, `Library.Pace.Lossy` — its steps, without losses and with them.

## Main results

* `Library.Pace.exact_conserved`, `Library.Pace.lossy_bounded` — what becomes of grants and frames.
* `Library.Pace.backlog_le` — the frames under way, the room and the grants stay within the window.
-/

namespace Library

variable {F : Type}

/-- A paced channel: the grants under way to the sender, how many frames the sender may still put on
it, and the frames under way to the receiver. -/
structure Pace (F : Type) where
  grants : List ℕ
  room : ℕ
  frames : List F

/-- What happens: the receiver grants, a grant arrives, the sender puts a frame on the channel, the
receiver takes one, or nothing of the kind. -/
inductive PaceEvent (F : Type)
  | grant (n : ℕ)
  | arrive
  | push (frame : F)
  | take (frame : F)
  | idle

namespace PaceEvent

/-- What some events grant. -/
def granted : List (PaceEvent F) → ℕ
  | [] => 0
  | grant n :: events => n + granted events
  | _ :: events => granted events

/-- The frames put on the channel. -/
def pushed : List (PaceEvent F) → List F
  | [] => []
  | push frame :: events => frame :: pushed events
  | _ :: events => pushed events

/-- The frames taken off it. -/
def taken : List (PaceEvent F) → List F
  | [] => []
  | take frame :: events => frame :: taken events
  | _ :: events => taken events

end PaceEvent

namespace Pace

open PaceEvent

/-- The channel at first. -/
def start : Pace F := ⟨[], 0, []⟩

/-- A step without losses. -/
inductive Exact : Pace F → PaceEvent F → Pace F → Prop
  | grant (n : ℕ) {grants : List ℕ} {room : ℕ} {frames : List F} :
      Exact ⟨grants, room, frames⟩ (.grant n) ⟨grants ++ [n], room, frames⟩
  | arrive {n : ℕ} {grants : List ℕ} {room : ℕ} {frames : List F} :
      Exact ⟨n :: grants, room, frames⟩ .arrive ⟨grants, room + n, frames⟩
  | push (frame : F) {grants : List ℕ} {room : ℕ} {frames : List F} :
      Exact ⟨grants, room + 1, frames⟩ (.push frame) ⟨grants, room, frames ++ [frame]⟩
  | take {frame : F} {grants : List ℕ} {room : ℕ} {frames : List F} :
      Exact ⟨grants, room, frame :: frames⟩ (.take frame) ⟨grants, room, frames⟩
  | idle (s : Pace F) : Exact s .idle s

/-- Some of what is under way gets lost. -/
structure Fades (s s' : Pace F) : Prop where
  grants : s'.grants.Sublist s.grants
  room : s'.room = s.room
  frames : s'.frames.Sublist s.frames

/-- A step after which some of what is under way gets lost. -/
def Lossy (s : Pace F) (e : PaceEvent F) (s' : Pace F) : Prop := ∃ m, Exact s e m ∧ Fades m s'

/-- Nothing has to get lost. -/
theorem Fades.refl (s : Pace F) : Fades s s := ⟨.refl _, rfl, .refl _⟩

/-- A step without losses is one where some may occur. -/
theorem Exact.lossy {s s' : Pace F} {e : PaceEvent F} (h : Exact s e s') : Lossy s e s' :=
  ⟨s', h, .refl s'⟩

/-- **Conservation.** Without losses, what was granted is under way, left as room or used for a
frame, and the frames put on the channel are those taken, and then those under way.

**Proof sketch.** Induction on the steps, with a case for each kind. -/
theorem exact_conserved {s s' : Pace F} {events : List (PaceEvent F)}
    (h : Steps Exact s events s') :
    s'.room + s'.grants.sum + (pushed events).length =
        s.room + s.grants.sum + granted events ∧
      s.frames ++ pushed events = taken events ++ s'.frames := by
  induction h with
  | nil s => exact ⟨rfl, by simp [pushed, taken]⟩
  | cons step _ ih =>
    obtain ⟨hroom, hframes⟩ := ih
    cases step with
    | grant n =>
      simp only [List.sum_append, List.sum_singleton] at hroom
      exact ⟨by simp only [pushed, granted]; omega, hframes⟩
    | arrive =>
      dsimp only at hroom
      exact ⟨by simp only [pushed, granted, List.sum_cons]; omega, hframes⟩
    | push frame =>
      dsimp only at hroom
      rw [List.append_assoc] at hframes
      exact ⟨by simp only [pushed, granted, List.length_cons]; omega, hframes⟩
    | take => exact ⟨hroom, congrArg (List.cons _) hframes⟩
    | idle => exact ⟨hroom, hframes⟩

/-- **Bounds.** With losses there is no more of anything, and what is taken and under way comes in
the order it was put on the channel.

**Proof sketch.** Induction on the steps. A step without losses conserves, and a loss takes away. -/
theorem lossy_bounded {s s' : Pace F} {events : List (PaceEvent F)} (h : Steps Lossy s events s') :
    s'.room + s'.grants.sum + (pushed events).length ≤
        s.room + s.grants.sum + granted events ∧
      (taken events ++ s'.frames).Sublist (s.frames ++ pushed events) := by
  induction h with
  | nil s => exact ⟨le_rfl, by simp [pushed, taken]⟩
  | @cons s m s' e events step _ ih =>
    obtain ⟨exact, hstep, hfades⟩ := step
    obtain ⟨hroom, hframes⟩ := ih
    have hgrants := hfades.grants.sum_le_sum fun n _ => Nat.zero_le n
    rw [hfades.room] at hroom
    have hlater : (taken events ++ s'.frames).Sublist (exact.frames ++ pushed events) :=
      hframes.trans (hfades.frames.append (.refl _))
    cases hstep with
    | grant n =>
      simp only [List.sum_append, List.sum_singleton] at hgrants hroom
      exact ⟨by simp only [pushed, granted]; omega, hlater⟩
    | arrive =>
      dsimp only at hgrants hroom
      exact ⟨by simp only [pushed, granted, List.sum_cons]; omega, hlater⟩
    | push frame =>
      dsimp only at hgrants hroom
      rw [List.append_assoc] at hlater
      exact ⟨by simp only [pushed, granted, List.length_cons]; omega, hlater⟩
    | take =>
      dsimp only at hgrants hroom
      exact ⟨by simp only [pushed, granted]; omega, hlater.cons_cons _⟩
    | idle => exact ⟨by simp only [pushed, granted]; omega, hlater⟩

/-- **The backlog.** If the receiver has granted no more than the window and one for each frame it
took, then the room, the grants and the frames under way are no more than the window.

**Proof sketch.** A frame that is under way was put on the channel and not taken, and for each that
was put on it one was granted. -/
theorem backlog_le {s : Pace F} {events : List (PaceEvent F)} {window : ℕ}
    (h : Steps Lossy start events s) (hgranted : granted events ≤ window + (taken events).length) :
    s.room + s.grants.sum + s.frames.length ≤ window := by
  obtain ⟨hroom, hframes⟩ := lossy_bounded h
  have hlength := hframes.length_le
  simp only [start, List.sum_nil, List.nil_append, List.length_append] at hroom hlength
  omega

end Pace

end Library
