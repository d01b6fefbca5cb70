import Lager.Nets.Uart

set_option relaxedAutoImplicit false
set_option autoImplicit false

/-!
# The blocking and the async sessions on one clock

A blocking `read` waits `timeout` for each event until data comes; an async one waits for all
of them until one deadline. On events that neither carry data nor end the read, the blocking one
starts its wait anew. This file says exactly when that shows.

## Main definitions

* `Lager.Channel.Prompt` — the clock runs only while a receive waits, and the senders stay.
* `Lager.Kind.Loud` — an event that ends the waiting of a read.
* `Lager.Kind.Settles` — the waiting of a read ends in time.
* `Lager.SameRead` — two reads come to the same by a deadline.

## Main results

* `Lager.read_agree_iff` — when a blocking and an async `read` are the same.
-/

namespace Lager

variable {ε ι : Type}

/-- Every operation takes no time but what it waits, and the senders stay. -/
structure Channel.Prompt (c : Channel ε) : Prop where
  lag : c.lag = []
  isOpen : c.closed = none

/-- Data and errors end the waiting of a read. -/
def Kind.Loud (k : Kind ε ι) (e : ε) : Prop :=
  match k.arm e with
  | .data _ | .error _ => True
  | _ => False

/-- The waiting of a read that starts now ends by itself: with data or an error that come within
the timeout; or nothing comes within it that is not there already. -/
def Kind.Settles (k : Kind ε ι) (timeout : ℕ) (s : Session ε ι) : Prop :=
  (∃ x ∈ s.rx.incoming, x.1 ≤ s.rx.now + timeout ∧ k.Loud x.2) ∨
    ∀ x ∈ s.rx.incoming, x.1 ≤ s.rx.now + timeout → x.1 ≤ s.rx.now

/-- Two reads return the same, leave the same events to receive, and are back by `deadline`. -/
structure SameRead (deadline : ℕ) (r r' : Except Error (List UInt8) × Session ε ι) : Prop where
  result : r.1 = r'.1
  incoming : r.2.rx.incoming = r'.2.rx.incoming
  now_le : r.2.rx.now ≤ deadline
  now_le' : r'.2.rx.now ≤ deadline

namespace Channel.Prompt

variable {c c' : Channel ε}

/-- Between operations no time passes. -/
theorem tick (h : c.Prompt) : c.tick = c := by
  obtain ⟨now, incoming, closed, lag, sorted⟩ := c
  obtain rfl : lag = [] := h.lag
  rfl

/-- A received event was the next one, and the channel is prompt still. -/
theorem event (h : c.Prompt) {deadline : ℕ} {e : ε} (hr : c.tick.recvBy deadline = (.event e, c')) :
    ∃ arrival, c.incoming = (arrival, e) :: c'.incoming ∧ c'.now = max c.now arrival ∧
      arrival ≤ max c.now deadline ∧ c'.Prompt := by
  rw [h.tick] at hr
  have hs := c.recvBy_spec deadline
  rw [hr] at hs
  obtain ⟨arrival, rest, hi, hi', hnow, hle, hclosed, hlag⟩ := hs
  exact ⟨arrival, hi'.symm ▸ hi, hnow, hle, hlag.trans h.lag, hclosed.trans h.isOpen⟩

/-- A receive that timed out waited, and the next event comes later. -/
theorem timeout (h : c.Prompt) {deadline : ℕ} (hr : c.tick.recvBy deadline = (.timeout, c')) :
    c' = c.waitUntil deadline ∧ ∀ x ∈ c.incoming, max c.now deadline < x.1 := by
  rw [h.tick] at hr
  have hs := c.recvBy_spec deadline
  rw [hr] at hs
  refine ⟨hs.1, fun x hx => ?_⟩
  have hsorted := c.sorted
  cases hi : c.incoming with
  | nil => simp [hi] at hx
  | cons y rest =>
    rw [hi] at hx hsorted
    have hhead := hs.2 y (by rw [hi]; rfl)
    rcases List.mem_cons.mp hx with rfl | hx
    · exact hhead
    · exact hhead.trans_le (List.rel_of_pairwise_cons hsorted hx)

/-- Two waits that both last until the next event receive it alike. -/
theorem recvBy_congr (h : c.Prompt) {d d' : ℕ} {x : ℕ × ε} (hx : x ∈ c.incoming)
    (hd : x.1 ≤ d) (hd' : x.1 ≤ d') : c.tick.recvBy d = c.tick.recvBy d' := by
  rw [h.tick]
  have hsorted := c.sorted
  unfold recvBy
  cases hi : c.incoming with
  | nil => simp [hi] at hx
  | cons y rest =>
    rw [hi] at hx hsorted
    have hy : y.1 ≤ x.1 := by
      rcases List.mem_cons.mp hx with rfl | hx
      · exact le_rfl
      · exact List.rel_of_pairwise_cons hsorted hx
    dsimp only
    rw [if_pos (le_max_of_le_right (hy.trans hd)), if_pos (le_max_of_le_right (hy.trans hd'))]

end Channel.Prompt

/-! ## One pump in terms of the other -/

variable (k : Kind ε ι)

/-- The blocking `pump` in terms of `absorb`: after data it does not wait any more. -/
theorem Session.pump_eq (wait : ℕ) (s : Session ε ι) : Session.pump k wait s =
    match s.rx.recvTimeout wait with
    | (.event e, rx) =>
      match AsyncSession.absorb k e { s with rx } with
      | (.error err, s') => (.error err, s')
      | (.ok true, s') => pump k 0 s'
      | (.ok false, s') => pump k wait s'
    | (.timeout, rx) => (.ok (), { s with rx })
    | (.closed, rx) => (.error k.closed, { s with rx }) := by
  rw [pump.eq_def]
  split
  · rename_i e rx h
    rw [h]
    dsimp only
    unfold AsyncSession.absorb
    cases k.arm e <;> rfl
  · rename_i rx h
    rw [h]
  · rename_i rx h
    rw [h]

/-- A blocking pump that does not wait is a drain. -/
theorem Session.pump_zero (s : Session ε ι) : Session.pump k 0 s = AsyncSession.drain k s := by
  have hrecv : ∀ c : Channel ε, c.recvTimeout 0 = c.tryRecv := fun _ => rfl
  fun_induction AsyncSession.drain k s with
  | case1 s e rx h err s' ha =>
    rw [pump_eq, hrecv, h]
    dsimp only
    rw [ha]
  | case2 s e rx h b s' ha ih =>
    rw [pump_eq, hrecv, h]
    dsimp only
    rw [ha]
    cases b <;> exact ih
  | case3 s rx h => rw [pump_eq, hrecv, h]
  | case4 s rx h => rw [pump_eq, hrecv, h]

/-- When the two wait alike for every event, as long as some invariant of the waiting holds, the
blocking pump is the async one. -/
theorem Session.pump_eq_pump {wait deadline : ℕ} (P : Session ε ι → Prop)
    (hrecv : ∀ s, P s → s.rx.recvTimeout wait = s.rx.timeoutAt deadline)
    (hstep : ∀ s e rx s', P s → s.rx.timeoutAt deadline = (.event e, rx) →
      AsyncSession.absorb k e { s with rx } = (.ok false, s') → P s')
    {s : Session ε ι} (hs : P s) :
    Session.pump k wait s = AsyncSession.pump k deadline s := by
  fun_induction AsyncSession.pump k deadline s with
  | case1 s e rx h err s' ha =>
    rw [pump_eq, hrecv s hs, h]
    dsimp only
    rw [ha]
  | case2 s e rx h s' ha =>
    rw [pump_eq, hrecv s hs, h]
    dsimp only
    rw [ha]
    exact pump_zero k s'
  | case3 s e rx h s' ha ih =>
    rw [pump_eq, hrecv s hs, h]
    dsimp only
    rw [ha]
    exact ih (hstep s e rx s' hs h ha)
  | case4 s rx h => rw [pump_eq, hrecv s hs, h]
  | case5 s rx h => rw [pump_eq, hrecv s hs, h]

/-- Only what neither carries data nor is an error is absorbed without an end to the waiting. -/
theorem AsyncSession.not_loud_of_absorb {e : ε} {s s' : Session ε ι}
    (h : absorb k e s = (.ok false, s')) : ¬ k.Loud e := by
  unfold absorb at h
  unfold Kind.Loud
  split at h <;> simp_all

/-- Absorbing leaves the channel as the receive left it. -/
theorem AsyncSession.rx_of_absorb {e : ε} {rx : Channel ε} {s s' : Session ε ι}
    {res : Except Error Bool} (h : absorb k e { s with rx } = (res, s')) : s'.rx = rx := by
  have hrx := absorb_rx k e { s with rx }
  rwa [h] at hrx

/-! ## When the waiting ends by itself -/

/-- A read that sees data or an error in time receives the same events either way. -/
theorem Session.pump_eq_of_loud {wait deadline : ℕ} {s : Session ε ι} (hs : s.rx.Prompt)
    (hwait : deadline ≤ s.rx.now + wait) {x : ℕ × ε} (hx : x ∈ s.rx.incoming)
    (hle : x.1 ≤ deadline) (hloud : k.Loud x.2) :
    Session.pump k wait s = AsyncSession.pump k deadline s := by
  refine pump_eq_pump k
    (fun s => s.rx.Prompt ∧ deadline ≤ s.rx.now + wait ∧ x ∈ s.rx.incoming) ?_ ?_ ⟨hs, hwait, hx⟩
  · rintro s ⟨hs, hwait, hx⟩
    rw [Channel.recvTimeout, Channel.timeoutAt]
    exact hs.recvBy_congr hx (hle.trans (hwait.trans_eq (by rw [hs.tick]))) hle
  · rintro s e rx s' ⟨hs, hwait, hx⟩ h ha
    obtain ⟨arrival, hi, hnow, -, hrx⟩ := hs.event h
    rw [AsyncSession.rx_of_absorb k ha]
    refine ⟨hrx, hwait.trans ?_, ?_⟩
    · rw [hnow]
      exact Nat.add_le_add_right (le_max_left _ _) wait
    · rw [hi] at hx
      rcases List.mem_cons.mp hx with rfl | hx
      · exact absurd hloud (AsyncSession.not_loud_of_absorb k ha)
      · exact hx

/-- A read that starts when all that comes in time is there receives it either way. -/
theorem Session.pump_eq_of_arrived {wait : ℕ} {s : Session ε ι} (hs : s.rx.Prompt)
    (hall : ∀ x ∈ s.rx.incoming, x.1 ≤ s.rx.now + wait → x.1 ≤ s.rx.now) :
    Session.pump k wait s = AsyncSession.pump k (s.rx.now + wait) s := by
  obtain ⟨start, hstart⟩ : ∃ start, start = s.rx.now := ⟨_, rfl⟩
  rw [← hstart] at hall ⊢
  refine pump_eq_pump k (fun s => s.rx.Prompt ∧ start = s.rx.now ∧
    ∀ x ∈ s.rx.incoming, x.1 ≤ start + wait → x.1 ≤ start) ?_ ?_ ⟨hs, hstart, hall⟩
  · rintro s ⟨hs, rfl, -⟩
    rw [Channel.recvTimeout, Channel.timeoutAt, hs.tick]
  · rintro s e rx s' ⟨hs, hstart, hall⟩ h ha
    obtain ⟨arrival, hi, hnow, hle, hrx⟩ := hs.event h
    rw [AsyncSession.rx_of_absorb k ha]
    have hthere := hall (arrival, e) (by rw [hi]; exact List.mem_cons_self) (by dsimp only; omega)
    refine ⟨hrx, ?_, fun x hx => hall x (by rw [hi]; exact List.mem_cons_of_mem _ hx)⟩
    rw [hnow, ← hstart]
    exact (max_eq_left hthere).symm

/-- A drain takes no time. -/
theorem AsyncSession.drain_now_le {s : Session ε ι} (hs : s.rx.Prompt) :
    (drain k s).2.rx.now ≤ s.rx.now := by
  fun_induction drain k s with
  | case1 s e rx h err s' ha =>
    obtain ⟨arrival, -, hnow, hle, -⟩ := hs.event h
    rw [rx_of_absorb k ha, hnow, hs.tick] at *
    omega
  | case2 s e rx h b s' ha ih =>
    obtain ⟨arrival, -, hnow, hle, hrx⟩ := hs.event h
    have hih := ih (by rwa [rx_of_absorb k ha])
    rw [rx_of_absorb k ha, hnow] at hih
    rw [hs.tick] at hle
    omega
  | case3 s rx h =>
    obtain ⟨rfl, -⟩ := hs.timeout h
    rw [hs.tick]
    exact (max_self _).le
  | case4 s rx h => exact absurd hs.isOpen (Channel.closed_of_recvBy h)

/-- An async pump is back by its deadline. -/
theorem AsyncSession.pump_now_le {deadline : ℕ} {s : Session ε ι} (hs : s.rx.Prompt) :
    (pump k deadline s).2.rx.now ≤ max s.rx.now deadline := by
  fun_induction pump k deadline s with
  | case1 s e rx h err s' ha =>
    obtain ⟨arrival, -, hnow, hle, -⟩ := hs.event h
    rw [rx_of_absorb k ha, hnow]
    exact max_le (le_max_left _ _) hle
  | case2 s e rx h s' ha =>
    obtain ⟨arrival, -, hnow, hle, hrx⟩ := hs.event h
    rw [← rx_of_absorb k ha] at hnow hrx
    exact (drain_now_le k hrx).trans (hnow ▸ max_le (le_max_left _ _) hle)
  | case3 s e rx h s' ha ih =>
    obtain ⟨arrival, -, hnow, hle, hrx⟩ := hs.event h
    rw [← rx_of_absorb k ha] at hnow hrx
    refine (ih hrx).trans (max_le (hnow ▸ max_le (le_max_left _ _) hle) (le_max_right _ _))
  | case4 s rx h =>
    obtain ⟨rfl, -⟩ := hs.timeout h
    exact le_rfl
  | case5 s rx h => exact absurd hs.isOpen (Channel.closed_of_recvBy h)

/-! ## When it does not -/

/-- A blocking wait that will last longer than until `deadline`: nothing comes by then that ends
it, and it lasts longer from now on, or from an event on that comes by then. -/
structure Outlasts (wait deadline : ℕ) (c : Channel ε) : Prop where
  prompt : c.Prompt
  quiet : ∀ x ∈ c.incoming, x.1 ≤ deadline → ¬ k.Loud x.2
  le : deadline ≤ c.now + wait
  late : deadline < c.now + wait ∨ ∃ x ∈ c.incoming, x.1 ≤ deadline ∧ deadline < x.1 + wait

namespace Outlasts

variable {k} {wait deadline : ℕ} {c rx : Channel ε}

/-- An event does not change that. -/
theorem event (hc : Outlasts k wait deadline c) {e : ε}
    (h : c.recvTimeout wait = (.event e, rx)) : Outlasts k wait deadline rx := by
  obtain ⟨arrival, hi, hnow, -, hrx⟩ := hc.prompt.event h
  have hlate := hc.late
  rw [hi] at hlate
  refine ⟨hrx, fun x hx => hc.quiet x (by rw [hi]; exact List.mem_cons_of_mem _ hx),
    hc.le.trans (Nat.add_le_add_right (hnow ▸ le_max_left _ _) wait), ?_⟩
  rcases hlate with hlt | ⟨x, hx, hle, hlt⟩
  · left
    omega
  · rcases List.mem_cons.mp hx with rfl | hx
    · left
      dsimp only at hlt
      omega
    · exact .inr ⟨x, hx, hle, hlt⟩

/-- What ends the wait is late. -/
theorem loud (hc : Outlasts k wait deadline c) {e : ε}
    (h : c.recvTimeout wait = (.event e, rx)) (hloud : k.Loud e) : deadline < rx.now := by
  obtain ⟨arrival, hi, hnow, -, -⟩ := hc.prompt.event h
  by_contra hle
  refine hc.quiet (arrival, e) (by rw [hi]; exact List.mem_cons_self) ?_ hloud
  dsimp only
  omega

/-- So is its end without any event. -/
theorem timeout (hc : Outlasts k wait deadline c)
    (h : c.recvTimeout wait = (.timeout, rx)) : deadline < rx.now := by
  obtain ⟨rfl, hlater⟩ := hc.prompt.timeout h
  rw [hc.prompt.tick] at hlater ⊢
  show deadline < max c.now (c.now + wait)
  rcases hc.late with hlt | ⟨x, hx, hle, -⟩
  · omega
  · have hx' := hlater x hx
    have hle' := hc.le
    omega

end Outlasts

/-- A blocking pump whose wait outlasts the deadline is back late. -/
theorem Session.pump_late {wait deadline : ℕ} {s : Session ε ι}
    (hs : Outlasts k wait deadline s.rx) : deadline < (Session.pump k wait s).2.rx.now := by
  fun_induction Session.pump k wait s with
  | case1 wait s e rx h bytes harm ih =>
    have hlate := hs.loud h (by rw [Kind.Loud, harm]; trivial)
    exact hlate.trans_le (pump_absorbs k 0 { s with rx, buf := s.buf ++ bytes }).now_le
  | case2 wait s e rx h err harm => exact hs.loud h (by rw [Kind.Loud, harm]; trivial)
  | case3 wait s e rx h info harm ih => exact ih (hs.event h)
  | case4 wait s e rx h info harm ih => exact ih (hs.event h)
  | case5 wait s e rx h harm ih => exact ih (hs.event h)
  | case6 wait s rx h => exact hs.timeout h
  | case7 wait s rx h => exact absurd hs.prompt.isOpen (Channel.closed_of_recvBy h)

/-! ## Reads -/

/-- Where both pumps come to the same, so do the reads. -/
theorem AsyncSession.read_eq {timeout : ℕ} {s : Session ε ι} (hs : s.rx.Prompt)
    (h : Session.pump k timeout s = AsyncSession.pump k (s.rx.now + timeout) s) :
    Session.read k timeout s = AsyncSession.read k timeout s := by
  have hinstant : s.rx.instant = (s.rx.now, s.rx) := by rw [Channel.instant, hs.tick]
  unfold Session.read AsyncSession.read
  rw [hinstant, h]

/-- The clock after a blocking read is the clock after its pump. -/
theorem Session.read_now (timeout : ℕ) (s : Session ε ι) :
    (Session.read k timeout s).2.rx.now = (Session.pump k timeout s).2.rx.now := by
  unfold Session.read
  rcases Session.pump k timeout s with ⟨e | ⟨⟨⟩⟩, s'⟩ <;> rfl

/-- **When the two reads of a kind are the same.** -/
theorem Session.sameRead_iff {timeout : ℕ} {s : Session ε ι} (hs : s.rx.Prompt) :
    SameRead (s.rx.now + timeout) (Session.read k timeout s) (AsyncSession.read k timeout s) ↔
      k.Settles timeout s := by
  constructor
  · intro hsame
    by_contra hnot
    rw [Kind.Settles, not_or] at hnot
    obtain ⟨hquiet, hlate⟩ := hnot
    push Not at hquiet hlate
    obtain ⟨x, hx, hle, hlt⟩ := hlate
    have hback := hsame.now_le
    rw [read_now] at hback
    refine absurd (pump_late k ⟨hs, hquiet, le_rfl, .inr ⟨x, hx, hle, ?_⟩⟩) hback.not_gt
    omega
  · intro hsettles
    have hpump : Session.pump k timeout s = AsyncSession.pump k (s.rx.now + timeout) s := by
      rcases hsettles with ⟨x, hx, hle, hloud⟩ | hall
      · exact pump_eq_of_loud k hs le_rfl hx hle hloud
      · exact pump_eq_of_arrived k hs hall
    have hread := AsyncSession.read_eq k hs hpump
    have hback : (Session.read k timeout s).2.rx.now ≤ s.rx.now + timeout := by
      rw [read_now, hpump]
      exact (AsyncSession.pump_now_le k hs).trans_eq (max_eq_right (Nat.le_add_right _ _))
    exact ⟨by rw [hread], by rw [hread], hback, by rwa [← hread]⟩

/-- **When a blocking and an async read are the same.** On a clock that runs only while a receive
waits, for every list of events, every timeout and every buffer: the blocking and the async `read`
return the same, leave the same events to receive and are back within the timeout, if and only if
data or an error comes within it, or nothing does that was not there at the start. So for `Uart`
and `AsyncUart`, and for `RttSession` and `AsyncRttSession`.

**Proof sketch.** Up to the first data or error both receive the same events, and what follows
is a drain for both. If there is none, each event that comes during the wait starts the blocking
wait anew, and so the blocking read is back late if there is one. -/
theorem read_agree_iff (timeout : ℕ) {u : Session UartEvent UartInfo} (hu : u.rx.Prompt)
    {r : Session RttEvent RttInfo} (hr : r.rx.Prompt) :
    (SameRead (u.rx.now + timeout) (Uart.read timeout u) (AsyncUart.read timeout u) ↔
      Uart.kind.Settles timeout u) ∧
    (SameRead (r.rx.now + timeout) (RttSession.read timeout r) (AsyncRttSession.read timeout r) ↔
      RttSession.kind.Settles timeout r) :=
  ⟨Session.sameRead_iff Uart.kind hu, Session.sameRead_iff RttSession.kind hr⟩

/-- A UART session whose box reports that the device reconnects, and then sends a byte. -/
def reconnecting : Session UartEvent UartInfo where
  rx := ⟨0, [(1, .status "reconnecting"), (3, .data [0x61])], none, [], by decide⟩
  netname := "uart0"
  info := ⟨"/dev/ttyUSB0", 115200, none⟩
  buf := []

/-- A status notification makes the blocking read wait beyond its timeout; data within the timeout
makes the two agree. -/
theorem reads_part_at_status :
    ¬ SameRead 2 (Uart.read 2 reconnecting) (AsyncUart.read 2 reconnecting) ∧
      SameRead 2
        (RttSession.read 2 ⟨⟨0, [(1, .stopped), (2, .data [0x61])], none, [], by decide⟩, "rtt0",
          ⟨0, "jlink"⟩, []⟩)
        (AsyncRttSession.read 2 ⟨⟨0, [(1, .stopped), (2, .data [0x61])], none, [], by decide⟩,
          "rtt0", ⟨0, "jlink"⟩, []⟩) := by
  have hagree := read_agree_iff 2 (u := reconnecting) ⟨rfl, rfl⟩
    (r := ⟨⟨0, [(1, .stopped), (2, .data [0x61])], none, [], by decide⟩, "rtt0", ⟨0, "jlink"⟩, []⟩)
    ⟨rfl, rfl⟩
  refine ⟨fun hsame => ?_, hagree.2.mpr (.inl ⟨(2, .data [0x61]), by simp, le_rfl, trivial⟩)⟩
  rcases hagree.1.mp hsame with ⟨x, hx, hle, hloud⟩ | hall
  · simp only [reconnecting, List.mem_cons, List.not_mem_nil, or_false] at hx
    rcases hx with rfl | rfl
    · exact hloud
    · exact absurd hle (by decide)
  · exact absurd (hall (1, .status "reconnecting") (by simp [reconnecting]) (by decide)) (by decide)

/-- **The reads are not the same.** With a status notification at 1 and data at 3, a blocking read
with a timeout of 2 returns the data, at 3, and an async one returns nothing, at 2. -/
theorem reads_disagree :
    reconnecting.rx.Prompt ∧ reconnecting.rx.now = 0 ∧
      (Uart.read 2 reconnecting).1 = .ok [0x61] ∧ (Uart.read 2 reconnecting).2.rx.now = 3 ∧
      (AsyncUart.read 2 reconnecting).1 = .ok [] ∧
      (AsyncUart.read 2 reconnecting).2.rx.now = 2 := by
  have hblocking : Session.pump Uart.kind 2 reconnecting = (.ok (), ⟨⟨3, [], none, [], by decide⟩,
      "uart0", ⟨"/dev/ttyUSB0", 115200, some "reconnecting"⟩, [0x61]⟩) := by
    rw [Session.pump_eq]
    show Session.pump Uart.kind 2 _ = _
    rw [Session.pump_eq]
    show Session.pump Uart.kind 0 _ = _
    rw [Session.pump_eq]
    rfl
  have hasync : AsyncSession.pump Uart.kind (reconnecting.rx.instant.1 + 2)
      { reconnecting with rx := reconnecting.rx.instant.2 } = (.ok (), ⟨⟨2, [(3, .data [0x61])],
        none, [], by decide⟩, "uart0", ⟨"/dev/ttyUSB0", 115200, some "reconnecting"⟩, []⟩) := by
    rw [AsyncSession.pump]
    show AsyncSession.pump Uart.kind 2 _ = _
    rw [AsyncSession.pump]
    rfl
  refine ⟨⟨rfl, rfl⟩, rfl, ?_⟩
  rw [Uart.read, Session.read, hblocking, AsyncUart.read, AsyncSession.read, hasync]
  exact ⟨rfl, rfl, rfl, rfl⟩

end Lager
