import Mathlib.Data.Finset.Dedup
import Mathlib.Data.Finset.Order
import Mathlib.Data.List.Basic
import Mathlib.Order.MinMax

set_option relaxedAutoImplicit false
set_option autoImplicit false

/-!
# Timed channels

The receiving end of a channel, on a clock. The senders' side is given in advance: which event
arrives when, and when the last sender goes away. A receive hands over the next event if it is
there in time and lets the clock run otherwise. The clock also runs between operations, by
whatever the schedule says.

## Main definitions

* `Lager.Channel` — the receiver with its clock.
* `Lager.Channel.recvBy` — wait for the next event up to a point in time.
* `Lager.Channel.recvTimeout`, `Lager.Channel.timeoutAt`, `Lager.Channel.tryRecv` — the three
  receives of the sessions, in terms of it.
* `Lager.Channel.queued` — the events that have arrived and not been received.

## Main results

* `Lager.Channel.recvBy_spec` — a receive takes the next event or none, and the clock never
  runs backwards.
-/

namespace Lager

/-- The receiving end of a channel. Arrivals are in the order they were sent, so their times
never decrease. -/
structure Channel (ε : Type) where
  /-- The clock. -/
  now : ℕ
  /-- What will still be received, each with the time it arrives. -/
  incoming : List (ℕ × ε)
  /-- When the last sender goes away, if it does. -/
  closed : Option ℕ
  /-- How long the clock runs before each of the next operations. -/
  lag : List ℕ
  sorted : incoming.Pairwise fun x y => x.1 ≤ y.1

/-- The outcome of a receive. -/
inductive Received (ε : Type)
  | event (e : ε)
  | timeout
  | closed
  deriving DecidableEq, Repr

namespace Channel

variable {ε : Type}

/-- Let the clock run as the schedule says. -/
def tick (c : Channel ε) : Channel ε := { c with now := c.now + c.lag.headD 0, lag := c.lag.tail }

/-- Take the next event off, at the time it is there. -/
def take (arrival : ℕ) (c : Channel ε) : Channel ε :=
  { c with
    now := max c.now arrival
    incoming := c.incoming.tail
    sorted := c.sorted.tail }

/-- Let the clock run to a point in time, if that has not passed. -/
def waitUntil (t : ℕ) (c : Channel ε) : Channel ε := { c with now := max c.now t }

/-- Wait up to `deadline` for the next event. What is there already is received even when the
deadline has passed. -/
def recvBy (deadline : ℕ) (c : Channel ε) : Received ε × Channel ε :=
  match c.incoming with
  | (arrival, e) :: _ =>
    if arrival ≤ max c.now deadline then (.event e, c.take arrival)
    else (.timeout, c.waitUntil deadline)
  | [] =>
    match c.closed with
    | some t => if t ≤ max c.now deadline then (.closed, c.waitUntil t)
      else (.timeout, c.waitUntil deadline)
    | none => (.timeout, c.waitUntil deadline)

/-- `std::sync::mpsc::Receiver::recv_timeout`. -/
def recvTimeout (wait : ℕ) (c : Channel ε) : Received ε × Channel ε :=
  recvBy (c.tick.now + wait) c.tick

/-- `tokio::time::timeout_at(deadline, rx.recv())`. -/
def timeoutAt (deadline : ℕ) (c : Channel ε) : Received ε × Channel ε := recvBy deadline c.tick

/-- `tokio::sync::mpsc::UnboundedReceiver::try_recv`; `timeout` when nothing is there. -/
def tryRecv (c : Channel ε) : Received ε × Channel ε := recvBy c.tick.now c.tick

/-- `Instant::now()`, read off the channel's clock. -/
def instant (c : Channel ε) : ℕ × Channel ε := (c.tick.now, c.tick)

/-- The events that have arrived by `t` and not been received. -/
def queued (t : ℕ) (c : Channel ε) : List ε :=
  (c.incoming.filter fun x => x.1 ≤ t).map Prod.snd

/-- Everything that will be received is there. -/
def Arrived (c : Channel ε) : Prop := ∀ x ∈ c.incoming, x.1 ≤ c.now

@[simp] theorem tick_incoming (c : Channel ε) : c.tick.incoming = c.incoming := rfl

/-- The clock never runs backwards. -/
theorem le_tick (c : Channel ε) : c.now ≤ c.tick.now := Nat.le_add_right _ _

/-- A receive takes the next event, at a time between now and the deadline at which it is there,
or it leaves all of them and waits out the deadline; or the channel is closed. -/
theorem recvBy_spec (deadline : ℕ) (c : Channel ε) :
    match c.recvBy deadline with
    | (.event e, c') => ∃ arrival rest, c.incoming = (arrival, e) :: rest ∧ c'.incoming = rest ∧
        c'.now = max c.now arrival ∧ arrival ≤ max c.now deadline ∧ c'.closed = c.closed ∧
        c'.lag = c.lag
    | (.timeout, c') => c' = c.waitUntil deadline ∧
        ∀ x ∈ c.incoming.head?, max c.now deadline < x.1
    | (.closed, c') => c'.incoming = c.incoming ∧ c.incoming = [] ∧ c.now ≤ c'.now ∧
        c'.closed = c.closed ∧ c.closed ≠ none := by
  unfold recvBy
  cases hi : c.incoming with
  | nil =>
    cases hc : c.closed with
    | none => simp
    | some t =>
      dsimp only
      split_ifs with ht
      · simp [waitUntil, hi, hc]
      · simp
  | cons x rest =>
    dsimp only
    split_ifs with hx
    · exact ⟨x.1, rest, rfl, by simp [take, hi], rfl, hx, rfl, rfl⟩
    · simpa using hx

/-- There is a time when everything is there. -/
theorem exists_arrived (c : Channel ε) : ∃ t, ∀ x ∈ c.incoming, x.1 ≤ t := by
  obtain ⟨t, ht⟩ := (c.incoming.map Prod.fst).toFinset.exists_le
  exact ⟨t, fun x hx => ht x.1 (List.mem_toFinset.mpr (List.mem_map_of_mem hx))⟩

/-- When everything is there, a receive times out only if there is nothing. -/
theorem Arrived.incoming_of_timeout {c c' : Channel ε} (h : c.Arrived) {deadline : ℕ}
    (hr : c.tick.recvBy deadline = (.timeout, c')) : c'.incoming = [] := by
  have hs := c.tick.recvBy_spec deadline
  rw [hr] at hs
  obtain ⟨rfl, hhead⟩ := hs
  show c.incoming = []
  cases hi : c.incoming with
  | nil => rfl
  | cons x rest =>
    have harrived := h x (by rw [hi]; exact List.mem_cons_self)
    have hlate := hhead x (by rw [tick_incoming, hi]; rfl)
    have htick := c.le_tick
    omega

/-- Only a channel that closes is found closed. -/
theorem closed_of_recvBy {c c' : Channel ε} {deadline : ℕ}
    (hr : c.tick.recvBy deadline = (.closed, c')) : c.closed ≠ none := by
  have hs := c.tick.recvBy_spec deadline
  rw [hr] at hs
  exact hs.2.2.2.2

/-- A received event is gone from the channel. -/
theorem recvBy_length {deadline : ℕ} {c c' : Channel ε} {e : ε}
    (h : c.recvBy deadline = (.event e, c')) : c'.incoming.length < c.incoming.length := by
  have hs := c.recvBy_spec deadline
  rw [h] at hs
  obtain ⟨arrival, rest, hi, hi', -⟩ := hs
  rw [hi, hi', List.length_cons]
  omega

/-- A receive on an open channel takes an event or waits its time out. -/
theorem recvTimeout_progress {wait : ℕ} {c c' : Channel ε} {res : Received ε}
    (h : c.recvTimeout wait = (res, c')) (hres : res ≠ .closed) :
    c'.incoming.length ≤ c.incoming.length ∧ c.now ≤ c'.now ∧
      (c'.incoming.length < c.incoming.length ∨ c.now + wait ≤ c'.now) := by
  have hs := c.tick.recvBy_spec (c.tick.now + wait)
  rw [recvTimeout] at h
  rw [h] at hs
  have htick := c.le_tick
  rcases res with e | _ | _
  · obtain ⟨arrival, rest, -, -, hnow, -⟩ := hs
    have hlt : c'.incoming.length < c.incoming.length := recvBy_length (c := c.tick) h
    omega
  · have hnow : c'.now = max c.tick.now (c.tick.now + wait) := by rw [hs.1]; rfl
    have hlen : c'.incoming = c.incoming := by rw [hs.1]; rfl
    rw [hlen]
    omega
  · exact absurd rfl hres

end Channel

end Lager
