import Lager.Error
import Lager.Nets.Sio
import Lager.Rust.Channel

set_option relaxedAutoImplicit false
set_option autoImplicit false

/-!
# Streaming sessions

A UART or RTT session receives events from the box on a channel, keeps the bytes they carry in
a buffer and serves its caller from there. `Uart`, `AsyncUart`, `RttSession` and
`AsyncRttSession` are the same machine twice over: the blocking two and the async two differ
in how they wait, UART and RTT in their events and in a few texts. So there is one session,
with the events of its kind as a parameter, and two sets of operations on it; `Lager.Uart` and
`Lager.Rtt` have the two kinds.

## Main definitions

* `Lager.Arm`, `Lager.Kind` — what the events of a kind of session mean to it.
* `Lager.Session` — a session.
* `Lager.Session.pump`, `Lager.Session.read`, `Lager.Session.tryRead`,
  `Lager.Session.waitFor`, `Lager.Session.openSession` — the blocking operations.
* `Lager.AsyncSession.absorb`, `Lager.AsyncSession.drain`, `Lager.AsyncSession.pump` and so on
  — the async ones.

## Implementation notes

The socket is left out: these operations never touch it. A duration or a point in time is a
number of clock ticks, and `Instant::now` reads the channel's clock.
-/

namespace Lager

variable {ε ι : Type}

/-- What an event means to a session: `ι` is what the session remembers of the box's reports. -/
inductive Arm (ι : Type)
  /-- The box confirmed the session. -/
  | connected (info : ι → ι)
  /-- Bytes from the device. -/
  | data (bytes : List UInt8)
  /-- The box reported an error. -/
  | error (err : Error)
  /-- A status notification, remembered. -/
  | status (info : ι → ι)
  /-- An event that says nothing to the session. -/
  | other

/-- A kind of session: its events, and the values its texts and its opening use. -/
structure Kind (ε ι : Type) where
  arm : ε → Arm ι
  label : String
  connectTimeout : ℕ

/-- A session: the receiving end of its channel, its net, what the box has reported, and the
bytes received but not read. -/
structure Session (ε ι : Type) where
  rx : Channel ε
  netname : String
  info : ι
  buf : List UInt8

/-- The bytes an event carries. -/
def Kind.bytes (k : Kind ε ι) (e : ε) : List UInt8 :=
  match k.arm e with
  | .data bytes => bytes
  | _ => []

/-- The error of a session whose channel closed. -/
def Kind.closed (k : Kind ε ι) : Error := .stream (.closedUnexpectedly k.label)

/-- The error of a session the box did not confirm in time. -/
def Kind.notConfirmed (k : Kind ε ι) (s : Session ε ι) : Error :=
  .timeout (.notConfirmed k.label s.netname k.connectTimeout)

/-- The error of a wait that saw no needle in time. -/
def Kind.didNotAppear (k : Kind ε ι) (needle : List UInt8) (timeout : ℕ) (s : Session ε ι) :
    Error :=
  .timeout (.didNotAppear needle k.label s.netname timeout)

/-- Every byte a session can still give its caller by `t`: what it has buffered, and what the
events queued by then carry. -/
def Kind.unread (k : Kind ε ι) (t : ℕ) (s : Session ε ι) : List UInt8 :=
  s.buf ++ (s.rx.queued t).flatMap k.bytes

/-- The stream a session has not given out yet: what it has buffered, and what all events to come
carry. -/
def Kind.stream (k : Kind ε ι) (s : Session ε ι) : List UInt8 :=
  s.buf ++ s.rx.incoming.flatMap fun x => k.bytes x.2

/-- A session nothing will go wrong with: no error is on its way, and its channel stays open. -/
structure Kind.Calm (k : Kind ε ι) (s : Session ε ι) : Prop where
  noError : ∀ x ∈ s.rx.incoming, ∀ err, k.arm x.2 ≠ .error err
  isOpen : s.rx.closed = none

/-- Once everything to come is there, the stream is what can be read. -/
theorem Kind.unread_eq_stream (k : Kind ε ι) {s : Session ε ι} {t : ℕ}
    (ht : ∀ x ∈ s.rx.incoming, x.1 ≤ t) : k.unread t s = k.stream s := by
  have hall : (s.rx.incoming.filter fun x => x.1 ≤ t) = s.rx.incoming := by
    rw [List.filter_eq_self]
    simpa using ht
  rw [unread, stream, Channel.queued, hall, List.flatMap_map]

/-- No error event comes out of its channel. -/
theorem Kind.Calm.noError_of_event {k : Kind ε ι} {s : Session ε ι} (hs : k.Calm s)
    {deadline : ℕ} {e : ε} {rx : Channel ε} (h : s.rx.tick.recvBy deadline = (.event e, rx))
    (err : Error) : k.arm e ≠ .error err := by
  have hspec := s.rx.tick.recvBy_spec deadline
  rw [h] at hspec
  obtain ⟨arrival, rest, hi, -⟩ := hspec
  rw [Channel.tick_incoming] at hi
  exact hs.noError (arrival, e) (by rw [hi]; exact List.mem_cons_self) err

/-- A session that only received: its clock ran on, some of its events are gone, and their
bytes are in its buffer. -/
structure Absorbs (k : Kind ε ι) (s s' : Session ε ι) : Prop where
  now_le : s.rx.now ≤ s'.rx.now
  suffix : s'.rx.incoming <:+ s.rx.incoming
  unread : ∀ t, s'.rx.now ≤ t → k.unread t s' = k.unread t s
  netname : s'.netname = s.netname
  closed : s'.rx.closed = s.rx.closed

namespace Absorbs

variable {k : Kind ε ι} {s s' s'' : Session ε ι}

/-- Nothing received. -/
theorem refl (k : Kind ε ι) (s : Session ε ι) : Absorbs k s s :=
  ⟨le_rfl, List.suffix_refl _, fun _ _ => rfl, rfl, rfl⟩

/-- Receiving, then receiving more. -/
theorem trans (h : Absorbs k s s') (h' : Absorbs k s' s'') : Absorbs k s s'' :=
  ⟨h.now_le.trans h'.now_le, h'.suffix.trans h.suffix,
    fun t ht => (h'.unread t ht).trans (h.unread t (h'.now_le.trans ht)),
    h'.netname.trans h.netname, h'.closed.trans h.closed⟩

/-- Receiving moves bytes from the channel to the buffer, and the stream stays. -/
theorem stream (h : Absorbs k s s') : k.stream s' = k.stream s := by
  obtain ⟨t, ht⟩ := s.rx.exists_arrived
  have hle : ∀ x ∈ s.rx.incoming, x.1 ≤ max t s'.rx.now :=
    fun x hx => (ht x hx).trans (le_max_left _ _)
  rw [← k.unread_eq_stream hle, ← h.unread _ (le_max_right _ _),
    k.unread_eq_stream fun x hx => hle x (h.suffix.subset hx)]

/-- Receiving brings no trouble. -/
theorem calm (h : Absorbs k s s') (hs : k.Calm s) : k.Calm s' :=
  ⟨fun x hx => hs.noError x (h.suffix.subset hx), h.closed.trans hs.isOpen⟩

/-- What is there stays there. -/
theorem arrived (h : Absorbs k s s') (hs : s.rx.Arrived) : s'.rx.Arrived :=
  fun x hx => (hs x (h.suffix.subset hx)).trans h.now_le

/-- The clock ran before an operation. -/
theorem tick (k : Kind ε ι) (s : Session ε ι) : Absorbs k s { s with rx := s.rx.tick } :=
  ⟨s.rx.le_tick, List.suffix_refl _, fun _ _ => rfl, rfl, rfl⟩

/-- The clock ran while nothing came. -/
theorem waitUntil (k : Kind ε ι) (t : ℕ) (s : Session ε ι) :
    Absorbs k s { s with rx := s.rx.waitUntil t } :=
  ⟨le_max_left _ _, List.suffix_refl _, fun _ _ => rfl, rfl, rfl⟩

/-- An event came, and its bytes went to the buffer. -/
theorem event {deadline : ℕ} {e : ε} {rx : Channel ε}
    (h : s.rx.tick.recvBy deadline = (.event e, rx)) (info : ι) :
    Absorbs k s { s with rx, info, buf := s.buf ++ k.bytes e } := by
  have hs := s.rx.tick.recvBy_spec deadline
  rw [h] at hs
  obtain ⟨arrival, rest, hi, hi', hnow, -, hclosed, -⟩ := hs
  rw [Channel.tick_incoming] at hi
  refine ⟨s.rx.le_tick.trans (hnow ▸ le_max_left _ _), ?_, fun t ht => ?_, rfl, hclosed⟩
  · rw [hi, hi']
    exact List.suffix_cons _ _
  · have harrived : arrival ≤ t := (le_max_right _ _).trans (hnow ▸ ht)
    simp [Kind.unread, Channel.queued, hi, hi', harrived]

/-- An event came that carries no bytes. -/
theorem quiet {deadline : ℕ} {e : ε} {rx : Channel ε}
    (h : s.rx.tick.recvBy deadline = (.event e, rx)) (hb : k.bytes e = []) (info : ι) :
    Absorbs k s { s with rx, info } := by
  have he := event (k := k) h info
  rwa [hb, List.append_nil] at he

/-- A receive that came back without an event. -/
theorem noEvent {deadline : ℕ} {res : Received ε} {rx : Channel ε}
    (h : s.rx.tick.recvBy deadline = (res, rx)) (hres : ∀ e, res ≠ .event e) :
    Absorbs k s { s with rx } := by
  have hs := s.rx.tick.recvBy_spec deadline
  rw [h] at hs
  rcases res with e | _ | _
  · exact absurd rfl (hres e)
  · rw [hs.1]
    exact (tick k s).trans (waitUntil k deadline _)
  · have hi : rx.incoming = s.rx.incoming := hs.1
    refine ⟨s.rx.le_tick.trans hs.2.2.1, hi ▸ List.suffix_refl _, fun t _ => ?_, rfl, hs.2.2.2.1⟩
    simp [Kind.unread, Channel.queued, hi]

end Absorbs

/-- What is left of a wait up to `deadline`: events to receive, and time. -/
def waitWork (deadline : ℕ) (c : Channel ε) : ℕ := c.incoming.length + (deadline - c.now)

/-- A turn of a wait, between the reading of the clock and the next one, leaves less of it. -/
theorem waitWork_lt {deadline : ℕ} {c c' : Channel ε} {now : ℕ} (hnow : c.now ≤ now)
    (hr : deadline - now ≠ 0) (hlen : c'.incoming.length ≤ c.incoming.length)
    (hle : now ≤ c'.now)
    (hp : c'.incoming.length < c.incoming.length ∨ now + (deadline - now) ≤ c'.now) :
    waitWork deadline c' < waitWork deadline c := by
  simp only [waitWork]
  omega

/-! ## The blocking sessions -/

namespace Session

variable (k : Kind ε ι)

/-- `pump`: receive events into the buffer. The first data ends the waiting: from then on, only
what is queued already is received. -/
def pump (wait : ℕ) (s : Session ε ι) : Except Error Unit × Session ε ι :=
  match _h : s.rx.recvTimeout wait with
  | (.event e, rx) =>
    match k.arm e with
    | .data bytes => pump 0 { s with rx, buf := s.buf ++ bytes }
    | .error err => (.error err, { s with rx })
    | .status info => pump wait { s with rx, info := info s.info }
    | .connected _ => pump wait { s with rx }
    | .other => pump wait { s with rx }
  | (.timeout, rx) => (.ok (), { s with rx })
  | (.closed, rx) => (.error k.closed, { s with rx })
termination_by s.rx.incoming.length
decreasing_by all_goals exact Channel.recvBy_length (c := s.rx.tick) _h

/-- `read`: what arrives within `timeout`, with what was buffered. -/
def read (timeout : ℕ) (s : Session ε ι) : Except Error (List UInt8) × Session ε ι :=
  match pump k timeout s with
  | (.error e, s) => (.error e, s)
  | (.ok (), s) => (.ok s.buf, { s with buf := [] })

/-- `try_read`: what has been received already. -/
def tryRead (s : Session ε ι) : Except Error (List UInt8) × Session ε ι :=
  match pump k 0 s with
  | (.error e, s) => (.error e, s)
  | (.ok (), s) => (.ok s.buf, { s with buf := [] })

/-- A pump receives, and nothing else. -/
theorem pump_absorbs (wait : ℕ) (s : Session ε ι) : Absorbs k s (pump k wait s).2 := by
  fun_induction pump k wait s with
  | case1 wait s e rx h bytes ha ih =>
    have he := Absorbs.event (k := k) h s.info
    rw [Kind.bytes, ha] at he
    exact he.trans ih
  | case2 wait s e rx h err ha => exact .quiet h (by rw [Kind.bytes, ha]) s.info
  | case3 wait s e rx h info ha ih =>
    exact (Absorbs.quiet h (by rw [Kind.bytes, ha]) (info s.info)).trans ih
  | case4 wait s e rx h info ha ih =>
    exact (Absorbs.quiet h (by rw [Kind.bytes, ha]) s.info).trans ih
  | case5 wait s e rx h ha ih =>
    exact (Absorbs.quiet h (by rw [Kind.bytes, ha]) s.info).trans ih
  | case6 wait s rx h => exact .noEvent h (by simp)
  | case7 wait s rx h => exact .noEvent h (by simp)

/-- When nothing goes wrong, a pump succeeds; when moreover everything to come is there, it
receives all of it. -/
theorem pump_calm (wait : ℕ) (s : Session ε ι) (hs : k.Calm s) :
    (pump k wait s).1 = .ok () ∧ (s.rx.Arrived → (pump k wait s).2.rx.incoming = []) := by
  fun_induction pump k wait s with
  | case1 wait s e rx h bytes harm ih =>
    have he := Absorbs.event (k := k) h s.info
    rw [Kind.bytes, harm] at he
    exact (ih (he.calm hs)).imp_right fun hi ha => hi (he.arrived ha)
  | case2 wait s e rx h err harm => exact absurd harm (hs.noError_of_event h err)
  | case3 wait s e rx h info harm ih =>
    have he := Absorbs.quiet (k := k) h (by rw [Kind.bytes, harm]) (info s.info)
    exact (ih (he.calm hs)).imp_right fun hi ha => hi (he.arrived ha)
  | case4 wait s e rx h info harm ih =>
    have he := Absorbs.quiet (k := k) h (by rw [Kind.bytes, harm]) s.info
    exact (ih (he.calm hs)).imp_right fun hi ha => hi (he.arrived ha)
  | case5 wait s e rx h harm ih =>
    have he := Absorbs.quiet (k := k) h (by rw [Kind.bytes, harm]) s.info
    exact (ih (he.calm hs)).imp_right fun hi ha => hi (he.arrived ha)
  | case6 wait s rx h => exact ⟨rfl, fun ha => ha.incoming_of_timeout h⟩
  | case7 wait s rx h => exact absurd hs.isOpen (Channel.closed_of_recvBy h)

/-- A pump that comes back without an error has received an event or waited its time out. -/
theorem pump_progress {wait : ℕ} {s s' : Session ε ι} (h : pump k wait s = (.ok (), s')) :
    s'.rx.incoming.length < s.rx.incoming.length ∨ s.rx.now + wait ≤ s'.rx.now := by
  have key : ∀ {e : ε} {rx : Channel ε} {wait' : ℕ} {s₁ : Session ε ι},
      s.rx.recvTimeout wait = (.event e, rx) → s₁.rx = rx → pump k wait' s₁ = (.ok (), s') →
      s'.rx.incoming.length < s.rx.incoming.length := by
    intro e rx wait' s₁ hr h₁ hp
    have hlt := Channel.recvBy_length (c := s.rx.tick) hr
    have hle := (pump_absorbs k wait' s₁).suffix.length_le
    rw [hp, h₁] at hle
    exact hle.trans_lt hlt
  rw [pump.eq_def] at h
  split at h
  · rename_i e rx hr
    split at h
    · exact .inl (key hr rfl h)
    · simp at h
    · exact .inl (key hr rfl h)
    · exact .inl (key hr rfl h)
    · exact .inl (key hr rfl h)
  · rename_i rx hr
    simp only [Prod.mk.injEq, true_and] at h
    rw [← h]
    exact (Channel.recvTimeout_progress hr (by simp)).2.2
  · simp at h

/-- The loop of `wait_for`. -/
def waitForLoop (needle : List UInt8) (timeout deadline : ℕ) (s : Session ε ι) :
    Except Error (List UInt8) × Session ε ι :=
  match takeThrough s.buf needle with
  | some (found, rest) => (.ok found, { s with buf := rest })
  | none =>
    let now := s.rx.instant
    let s := { s with rx := now.2 }
    let remaining := deadline - now.1
    if _hr : remaining = 0 then (.error (k.didNotAppear needle timeout s), s)
    else
      match _h : pump k remaining s with
      | (.error e, s) => (.error e, s)
      | (.ok (), s') => waitForLoop needle timeout deadline s'
termination_by waitWork deadline s.rx
decreasing_by
  have habs := pump_absorbs k remaining s
  rw [_h] at habs
  exact waitWork_lt (Channel.le_tick _) _hr habs.suffix.length_le habs.now_le (pump_progress k _h)

/-- `wait_for`. -/
def waitFor (needle : List UInt8) (timeout : ℕ) (s : Session ε ι) :
    Except Error (List UInt8) × Session ε ι :=
  if needle = [] then (.ok [], s)
  else
    let now := s.rx.instant
    waitForLoop k needle timeout (now.1 + timeout) { s with rx := now.2 }

/-- The loop of `open`: wait for the box to confirm the session, or to refuse it. -/
def openLoop (deadline : ℕ) (s : Session ε ι) : Except Error Unit × Session ε ι :=
  let now := s.rx.instant
  let s := { s with rx := now.2 }
  let remaining := deadline - now.1
  if _hr : remaining = 0 then (.error (k.notConfirmed s), s)
  else
    match _h : s.rx.recvTimeout remaining with
    | (.event e, rx) =>
      match k.arm e with
      | .connected info => (.ok (), { s with rx, info := info s.info })
      | .data bytes => openLoop deadline { s with rx, buf := s.buf ++ bytes }
      | .error err => (.error err, { s with rx })
      | .status _ => openLoop deadline { s with rx }
      | .other => openLoop deadline { s with rx }
    | (.timeout, rx) => openLoop deadline { s with rx }
    | (.closed, rx) => (.error k.closed, { s with rx })
termination_by waitWork deadline s.rx
decreasing_by
  all_goals
    have hp := Channel.recvTimeout_progress _h (by simp)
    exact waitWork_lt (Channel.le_tick _) _hr hp.1 hp.2.1 hp.2.2

/-- `open`, once the socket is connected. -/
def openSession (rx : Channel ε) (netname : String) (info : ι) :
    Except Error Unit × Session ε ι :=
  let now := rx.instant
  openLoop k (now.1 + k.connectTimeout) ⟨now.2, netname, info, []⟩

end Session

/-! ## What the operations deliver -/

/-- The bytes a call returned. -/
def returned : Except Error (List UInt8) → List UInt8
  | .ok bytes => bytes
  | .error _ => []

/-- A call that came back: the clock ran on, and what it returned is the front of what the
session could give. -/
structure Delivers (k : Kind ε ι) (s : Session ε ι) (res : Except Error (List UInt8))
    (s' : Session ε ι) : Prop where
  now_le : s.rx.now ≤ s'.rx.now
  suffix : s'.rx.incoming <:+ s.rx.incoming
  unread : ∀ t, s'.rx.now ≤ t → returned res ++ k.unread t s' = k.unread t s
  closed : s'.rx.closed = s.rx.closed

namespace Delivers

variable {k : Kind ε ι} {s s' : Session ε ι} {res : Except Error (List UInt8)}

/-- What a call returned is the front of the stream. -/
theorem stream (h : Delivers k s res s') : returned res ++ k.stream s' = k.stream s := by
  obtain ⟨t, ht⟩ := s.rx.exists_arrived
  have hle : ∀ x ∈ s.rx.incoming, x.1 ≤ max t s'.rx.now :=
    fun x hx => (ht x hx).trans (le_max_left _ _)
  rw [← k.unread_eq_stream hle, ← h.unread _ (le_max_right _ _),
    k.unread_eq_stream fun x hx => hle x (h.suffix.subset hx)]

/-- A call brings no trouble. -/
theorem calm (h : Delivers k s res s') (hs : k.Calm s) : k.Calm s' :=
  ⟨fun x hx => hs.noError x (h.suffix.subset hx), h.closed.trans hs.isOpen⟩

end Delivers

namespace Absorbs

variable {k : Kind ε ι} {s s' : Session ε ι}

/-- A call that failed after receiving returned nothing. -/
theorem delivers_error (h : Absorbs k s s') (e : Error) : Delivers k s (.error e) s' :=
  ⟨h.now_le, h.suffix, h.unread, h.closed⟩

/-- A call that returned the front of the buffer after receiving. -/
theorem delivers (h : Absorbs k s s') {found rest : List UInt8} (hb : found ++ rest = s'.buf) :
    Delivers k s (.ok found) { s' with buf := rest } := by
  refine ⟨h.now_le, h.suffix, fun t ht => ?_, h.closed⟩
  rw [← h.unread t ht, Kind.unread, Kind.unread, ← hb, List.append_assoc]
  rfl

end Absorbs

/-- What a wait for a needle comes to: it receives until the needle is in the buffer and returns
what is there up to it, or it fails and keeps what it received. -/
def FindsNeedle (k : Kind ε ι) (needle : List UInt8) (s : Session ε ι) :
    Except Error (List UInt8) × Session ε ι → Prop
  | (.ok found, s') => ∃ s₁ rest, Absorbs k s s₁ ∧
      takeThrough s₁.buf needle = some (found, rest) ∧ s' = { s₁ with buf := rest }
  | (.error _, s') => Absorbs k s s'

namespace FindsNeedle

variable {k : Kind ε ι} {needle : List UInt8} {s s₁ : Session ε ι}

/-- Receiving before the wait is receiving in it. -/
theorem of_absorbs (h : Absorbs k s s₁) :
    ∀ {res : Except Error (List UInt8) × Session ε ι}, FindsNeedle k needle s₁ res →
      FindsNeedle k needle s res
  | (.ok _, _), ⟨s₂, rest, habs, hfound, hs⟩ => ⟨s₂, rest, h.trans habs, hfound, hs⟩
  | (.error _, _), habs => h.trans habs

/-- Such a wait delivers. -/
theorem delivers : ∀ {res : Except Error (List UInt8)} {s' : Session ε ι},
    FindsNeedle k needle s (res, s') → Delivers k s res s'
  | .ok _, _, ⟨_, _, habs, hfound, hs⟩ => hs ▸ habs.delivers (takeThrough_spec hfound).1
  | .error e, _, habs => habs.delivers_error e

end FindsNeedle

namespace Session

variable (k : Kind ε ι)

/-- `read` delivers. -/
theorem read_delivers (timeout : ℕ) (s : Session ε ι) :
    Delivers k s (read k timeout s).1 (read k timeout s).2 := by
  have habs := pump_absorbs k timeout s
  unfold read
  rcases hp : pump k timeout s with ⟨e | ⟨⟨⟩⟩, s'⟩ <;> rw [hp] at habs
  · exact habs.delivers_error e
  · exact habs.delivers (List.append_nil _)

/-- When nothing goes wrong, `read` returns the whole stream once everything to come is there; in
any case it receives an event or waits its time out. -/
theorem read_calm (timeout : ℕ) (s : Session ε ι) (hs : k.Calm s) :
    (s.rx.Arrived → (read k timeout s).1 = .ok (k.stream s)) ∧
      ((read k timeout s).2.rx.incoming.length < s.rx.incoming.length ∨
        s.rx.now + timeout ≤ (read k timeout s).2.rx.now) := by
  have habs := pump_absorbs k timeout s
  obtain ⟨hok, hall⟩ := pump_calm k timeout s hs
  unfold read
  rcases hp : pump k timeout s with ⟨e | ⟨⟨⟩⟩, s'⟩ <;> rw [hp] at habs hok hall
  · simp at hok
  · have hprogress := pump_progress k hp
    refine ⟨fun ha => ?_, hprogress⟩
    rw [← habs.stream, Kind.stream, hall ha, List.flatMap_nil, List.append_nil]

/-- The loop of `wait_for` waits for its needle. -/
theorem waitForLoop_findsNeedle (needle : List UInt8) (timeout deadline : ℕ) (s : Session ε ι) :
    FindsNeedle k needle s (waitForLoop k needle timeout deadline s) := by
  fun_induction waitForLoop k needle timeout deadline s with
  | case1 s found rest h => exact ⟨s, rest, .refl k s, h, rfl⟩
  | case2 s h now s' remaining hr => exact .tick k s
  | case3 s h now s₁ remaining hr e s₂ hp =>
    have habs := pump_absorbs k remaining s₁
    rw [hp] at habs
    exact (Absorbs.tick k s).trans habs
  | case4 s h now s₁ remaining hr s₂ hp ih =>
    have habs := pump_absorbs k remaining s₁
    rw [hp] at habs
    exact ih.of_absorbs ((Absorbs.tick k s).trans habs)

/-- `wait_for` waits for its needle. -/
theorem waitFor_findsNeedle {needle : List UInt8} (hn : needle ≠ []) (timeout : ℕ)
    (s : Session ε ι) : FindsNeedle k needle s (waitFor k needle timeout s) := by
  rw [waitFor, if_neg hn]
  exact (waitForLoop_findsNeedle k needle timeout _ _).of_absorbs (.tick k s)

/-- `open` receives until the box confirms, keeping the data that came first. -/
theorem openLoop_absorbs (deadline : ℕ) (s : Session ε ι) :
    Absorbs k s (openLoop k deadline s).2 := by
  fun_induction openLoop k deadline s with
  | case1 s now s' remaining hr => exact .tick k s
  | case2 s now s₁ remaining hr e rx h info ha =>
    exact (Absorbs.tick k s).trans (.quiet h (by rw [Kind.bytes, ha]) _)
  | case3 s now s₁ remaining hr e rx h bytes ha ih =>
    have he := Absorbs.event (k := k) (s := s₁) h s₁.info
    rw [Kind.bytes, ha] at he
    exact ((Absorbs.tick k s).trans he).trans ih
  | case4 s now s₁ remaining hr e rx h err ha =>
    exact (Absorbs.tick k s).trans (.quiet h (by rw [Kind.bytes, ha]) _)
  | case5 s now s₁ remaining hr e rx h info ha ih =>
    exact ((Absorbs.tick k s).trans (.quiet h (by rw [Kind.bytes, ha]) _)).trans ih
  | case6 s now s₁ remaining hr e rx h ha ih =>
    exact ((Absorbs.tick k s).trans (.quiet h (by rw [Kind.bytes, ha]) _)).trans ih
  | case7 s now s₁ remaining hr rx h ih =>
    exact ((Absorbs.tick k s).trans (.noEvent h (by simp))).trans ih
  | case8 s now s₁ remaining hr rx h =>
    exact (Absorbs.tick k s).trans (.noEvent h (by simp))

end Session

/-! ## The async sessions -/

namespace AsyncSession

variable (k : Kind ε ι)

/-- `absorb`: take one event into the session; `true` when it carried data. -/
def absorb (e : ε) (s : Session ε ι) : Except Error Bool × Session ε ι :=
  match k.arm e with
  | .data bytes => (.ok true, { s with buf := s.buf ++ bytes })
  | .error err => (.error err, s)
  | .status info => (.ok false, { s with info := info s.info })
  | .connected _ => (.ok false, s)
  | .other => (.ok false, s)

/-- Absorbing an event leaves the channel alone. -/
@[simp] theorem absorb_rx (e : ε) (s : Session ε ι) : (absorb k e s).2.rx = s.rx := by
  unfold absorb
  split <;> rfl

/-- `drain`: take every event already queued, without waiting. -/
def drain (s : Session ε ι) : Except Error Unit × Session ε ι :=
  match _h : s.rx.tryRecv with
  | (.event e, rx) =>
    match _ha : absorb k e { s with rx } with
    | (.error err, s') => (.error err, s')
    | (.ok _, s') => drain s'
  | (.timeout, rx) => (.ok (), { s with rx })
  | (.closed, rx) => (.error k.closed, { s with rx })
termination_by s.rx.incoming.length
decreasing_by
  have hrx := absorb_rx k e { s with rx }
  rw [_ha] at hrx
  rw [hrx]
  exact Channel.recvBy_length (c := s.rx.tick) _h

/-- `pump`: wait until data arrives or `deadline` passes, then take everything queued. -/
def pump (deadline : ℕ) (s : Session ε ι) : Except Error Unit × Session ε ι :=
  match _h : s.rx.timeoutAt deadline with
  | (.event e, rx) =>
    match _ha : absorb k e { s with rx } with
    | (.error err, s') => (.error err, s')
    | (.ok true, s') => drain k s'
    | (.ok false, s') => pump deadline s'
  | (.timeout, rx) => (.ok (), { s with rx })
  | (.closed, rx) => (.error k.closed, { s with rx })
termination_by s.rx.incoming.length
decreasing_by
  have hrx := absorb_rx k e { s with rx }
  rw [_ha] at hrx
  rw [hrx]
  exact Channel.recvBy_length (c := s.rx.tick) _h

/-- `read`: what arrives within `timeout`, with what was buffered. -/
def read (timeout : ℕ) (s : Session ε ι) : Except Error (List UInt8) × Session ε ι :=
  let now := s.rx.instant
  match pump k (now.1 + timeout) { s with rx := now.2 } with
  | (.error e, s) => (.error e, s)
  | (.ok (), s) => (.ok s.buf, { s with buf := [] })

/-- `try_read`: what has been received already. -/
def tryRead (s : Session ε ι) : Except Error (List UInt8) × Session ε ι :=
  match drain k s with
  | (.error e, s) => (.error e, s)
  | (.ok (), s) => (.ok s.buf, { s with buf := [] })

/-- Absorbing a received event receives it. -/
theorem absorb_absorbs {deadline : ℕ} {e : ε} {rx : Channel ε} {s : Session ε ι}
    (h : s.rx.tick.recvBy deadline = (.event e, rx)) :
    Absorbs k s (absorb k e { s with rx }).2 := by
  have he := Absorbs.event (k := k) h s.info
  unfold absorb
  rcases ha : k.arm e with info | bytes | err | info | _
  · exact .quiet h (by rw [Kind.bytes, ha]) _
  · rwa [Kind.bytes, ha] at he
  · exact .quiet h (by rw [Kind.bytes, ha]) _
  · exact .quiet h (by rw [Kind.bytes, ha]) _
  · exact .quiet h (by rw [Kind.bytes, ha]) _

/-- When nothing goes wrong, absorbing a received event succeeds. -/
theorem absorb_calm {deadline : ℕ} {e : ε} {rx : Channel ε} {s s' : Session ε ι} {err : Error}
    (hs : k.Calm s) (h : s.rx.tick.recvBy deadline = (.event e, rx)) :
    absorb k e { s with rx } ≠ (.error err, s') := by
  have hne := hs.noError_of_event h
  unfold absorb
  rcases ha : k.arm e with info | bytes | err' | info | _
  · simp
  · simp
  · exact absurd ha (hne err')
  · simp
  · simp

/-- A drain receives, and nothing else. -/
theorem drain_absorbs (s : Session ε ι) : Absorbs k s (drain k s).2 := by
  fun_induction drain k s with
  | case1 s e rx h err s' ha =>
    have habs := absorb_absorbs k h
    rwa [ha] at habs
  | case2 s e rx h b s' ha ih =>
    have habs := absorb_absorbs k h
    rw [ha] at habs
    exact habs.trans ih
  | case3 s rx h => exact .noEvent h (by simp)
  | case4 s rx h => exact .noEvent h (by simp)

/-- A pump receives, and nothing else. -/
theorem pump_absorbs (deadline : ℕ) (s : Session ε ι) :
    Absorbs k s (pump k deadline s).2 := by
  fun_induction pump k deadline s with
  | case1 s e rx h err s' ha =>
    have habs := absorb_absorbs k h
    rwa [ha] at habs
  | case2 s e rx h s' ha =>
    have habs := absorb_absorbs k h
    rw [ha] at habs
    exact habs.trans (drain_absorbs k s')
  | case3 s e rx h s' ha ih =>
    have habs := absorb_absorbs k h
    rw [ha] at habs
    exact habs.trans ih
  | case4 s rx h => exact .noEvent h (by simp)
  | case5 s rx h => exact .noEvent h (by simp)

/-- When nothing goes wrong, a drain succeeds; when moreover everything to come is there, it
receives all of it. -/
theorem drain_calm (s : Session ε ι) (hs : k.Calm s) :
    (drain k s).1 = .ok () ∧ (s.rx.Arrived → (drain k s).2.rx.incoming = []) := by
  fun_induction drain k s with
  | case1 s e rx h err s' harm => exact absurd harm (absorb_calm k hs h)
  | case2 s e rx h b s' harm ih =>
    have habs := absorb_absorbs k h
    rw [harm] at habs
    exact (ih (habs.calm hs)).imp_right fun hi ha => hi (habs.arrived ha)
  | case3 s rx h => exact ⟨rfl, fun ha => ha.incoming_of_timeout h⟩
  | case4 s rx h => exact absurd hs.isOpen (Channel.closed_of_recvBy h)

/-- When nothing goes wrong, a pump succeeds; when moreover everything to come is there, it
receives all of it. -/
theorem pump_calm (deadline : ℕ) (s : Session ε ι) (hs : k.Calm s) :
    (pump k deadline s).1 = .ok () ∧
      (s.rx.Arrived → (pump k deadline s).2.rx.incoming = []) := by
  fun_induction pump k deadline s with
  | case1 s e rx h err s' harm => exact absurd harm (absorb_calm k hs h)
  | case2 s e rx h s' harm =>
    have habs := absorb_absorbs k h
    rw [harm] at habs
    exact (drain_calm k s' (habs.calm hs)).imp_right fun hi ha => hi (habs.arrived ha)
  | case3 s e rx h s' harm ih =>
    have habs := absorb_absorbs k h
    rw [harm] at habs
    exact (ih (habs.calm hs)).imp_right fun hi ha => hi (habs.arrived ha)
  | case4 s rx h => exact ⟨rfl, fun ha => ha.incoming_of_timeout h⟩
  | case5 s rx h => exact absurd hs.isOpen (Channel.closed_of_recvBy h)

/-- A pump that comes back without an error has received an event or waited until its
deadline. -/
theorem pump_progress {deadline : ℕ} {s s' : Session ε ι}
    (h : pump k deadline s = (.ok (), s')) :
    s'.rx.incoming.length < s.rx.incoming.length ∨ deadline ≤ s'.rx.now := by
  have key : ∀ {e : ε} {rx : Channel ε} {b : Bool} {s₁ : Session ε ι},
      s.rx.timeoutAt deadline = (.event e, rx) → absorb k e { s with rx } = (.ok b, s₁) →
      Absorbs k s₁ s' → s'.rx.incoming.length < s.rx.incoming.length := by
    intro e rx b s₁ hr ha habs
    have hlt := Channel.recvBy_length (c := s.rx.tick) hr
    have hrx := absorb_rx k e { s with rx }
    rw [ha] at hrx
    exact (hrx ▸ habs.suffix.length_le).trans_lt hlt
  rw [pump.eq_def] at h
  split at h
  · rename_i e rx hr
    split at h
    · simp at h
    · rename_i s₁ ha
      have habs := drain_absorbs k s₁
      rw [h] at habs
      exact .inl (key hr ha habs)
    · rename_i s₁ ha
      have habs := pump_absorbs k deadline s₁
      rw [h] at habs
      exact .inl (key hr ha habs)
  · rename_i rx hr
    simp only [Prod.mk.injEq, true_and] at h
    have hs := s.rx.tick.recvBy_spec deadline
    rw [Channel.timeoutAt] at hr
    rw [hr] at hs
    refine .inr ?_
    rw [← h, hs.1]
    exact le_max_right _ _
  · simp at h

/-- The loop of `wait_for`. -/
def waitForLoop (needle : List UInt8) (timeout deadline : ℕ) (s : Session ε ι) :
    Except Error (List UInt8) × Session ε ι :=
  match takeThrough s.buf needle with
  | some (found, rest) => (.ok found, { s with buf := rest })
  | none =>
    let now := s.rx.instant
    let s := { s with rx := now.2 }
    if _hr : deadline ≤ now.1 then (.error (k.didNotAppear needle timeout s), s)
    else
      match _h : pump k deadline s with
      | (.error e, s) => (.error e, s)
      | (.ok (), s') => waitForLoop needle timeout deadline s'
termination_by waitWork deadline s.rx
decreasing_by
  have habs := pump_absorbs k deadline s
  rw [_h] at habs
  refine waitWork_lt (Channel.le_tick _) (Nat.sub_ne_zero_of_lt (Nat.lt_of_not_le _hr))
    habs.suffix.length_le habs.now_le ((pump_progress k _h).imp_right fun hd => ?_)
  show now.1 + (deadline - now.1) ≤ _
  omega

/-- `wait_for`. -/
def waitFor (needle : List UInt8) (timeout : ℕ) (s : Session ε ι) :
    Except Error (List UInt8) × Session ε ι :=
  if needle = [] then (.ok [], s)
  else
    let now := s.rx.instant
    waitForLoop k needle timeout (now.1 + timeout) { s with rx := now.2 }

/-- The loop of `open`: wait for the box to confirm the session, or to refuse it. -/
def openLoop (deadline : ℕ) (s : Session ε ι) : Except Error Unit × Session ε ι :=
  match _h : s.rx.timeoutAt deadline with
  | (.timeout, rx) => (.error (k.notConfirmed s), { s with rx })
  | (.event e, rx) =>
    match k.arm e with
    | .connected info => (.ok (), { s with rx, info := info s.info })
    | .data bytes => openLoop deadline { s with rx, buf := s.buf ++ bytes }
    | .error err => (.error err, { s with rx })
    | .status _ => openLoop deadline { s with rx }
    | .other => openLoop deadline { s with rx }
  | (.closed, rx) => (.error k.closed, { s with rx })
termination_by s.rx.incoming.length
decreasing_by all_goals exact Channel.recvBy_length (c := s.rx.tick) _h

/-- `open`, once the socket is connected. -/
def openSession (rx : Channel ε) (netname : String) (info : ι) :
    Except Error Unit × Session ε ι :=
  let now := rx.instant
  openLoop k (now.1 + k.connectTimeout) ⟨now.2, netname, info, []⟩

/-- `read` delivers. -/
theorem read_delivers (timeout : ℕ) (s : Session ε ι) :
    Delivers k s (read k timeout s).1 (read k timeout s).2 := by
  have habs := (Absorbs.tick k s).trans
    (pump_absorbs k (s.rx.instant.1 + timeout) { s with rx := s.rx.instant.2 })
  unfold read
  rcases hp : pump k (s.rx.instant.1 + timeout) { s with rx := s.rx.instant.2 } with
    ⟨e | ⟨⟨⟩⟩, s'⟩ <;> rw [hp] at habs
  · simp only [hp]
    exact habs.delivers_error e
  · simp only [hp]
    exact habs.delivers (List.append_nil _)

/-- When nothing goes wrong, `read` returns the whole stream once everything to come is there; in
any case it receives an event or waits its time out. -/
theorem read_calm (timeout : ℕ) (s : Session ε ι) (hs : k.Calm s) :
    (s.rx.Arrived → (read k timeout s).1 = .ok (k.stream s)) ∧
      ((read k timeout s).2.rx.incoming.length < s.rx.incoming.length ∨
        s.rx.now + timeout ≤ (read k timeout s).2.rx.now) := by
  have htick := Absorbs.tick k s
  have habs := pump_absorbs k (s.rx.instant.1 + timeout) { s with rx := s.rx.instant.2 }
  obtain ⟨hok, hall⟩ := pump_calm k (s.rx.instant.1 + timeout) { s with rx := s.rx.instant.2 }
    (htick.calm hs)
  unfold read
  rcases hp : pump k (s.rx.instant.1 + timeout) { s with rx := s.rx.instant.2 } with
    ⟨e | ⟨⟨⟩⟩, s'⟩ <;> rw [hp] at habs hok hall
  · simp at hok
  · have hprogress := pump_progress k hp
    simp only [hp]
    refine ⟨fun ha => ?_, hprogress.imp_right fun hd => le_trans ?_ hd⟩
    · rw [← (htick.trans habs).stream, Kind.stream, hall (htick.arrived ha), List.flatMap_nil,
        List.append_nil]
    · exact Nat.add_le_add_right htick.now_le timeout

/-- When everything to come is there and nothing goes wrong, `try_read` returns all of it. -/
theorem tryRead_arrived (s : Session ε ι) (hs : k.Calm s) (ha : s.rx.Arrived) :
    (tryRead k s).1 = .ok (k.stream s) := by
  have habs := drain_absorbs k s
  obtain ⟨hok, hall⟩ := drain_calm k s hs
  unfold tryRead
  rcases hp : drain k s with ⟨e | ⟨⟨⟩⟩, s'⟩ <;> rw [hp] at habs hok hall
  · simp at hok
  · rw [← habs.stream, Kind.stream, hall ha, List.flatMap_nil, List.append_nil]

/-- `try_read` delivers. -/
theorem tryRead_delivers (s : Session ε ι) :
    Delivers k s (tryRead k s).1 (tryRead k s).2 := by
  have habs := drain_absorbs k s
  unfold tryRead
  rcases hp : drain k s with ⟨e | ⟨⟨⟩⟩, s'⟩ <;> rw [hp] at habs
  · exact habs.delivers_error e
  · exact habs.delivers (List.append_nil _)

/-- The loop of `wait_for` waits for its needle. -/
theorem waitForLoop_findsNeedle (needle : List UInt8) (timeout deadline : ℕ) (s : Session ε ι) :
    FindsNeedle k needle s (waitForLoop k needle timeout deadline s) := by
  fun_induction waitForLoop k needle timeout deadline s with
  | case1 s found rest h => exact ⟨s, rest, .refl k s, h, rfl⟩
  | case2 s h now s' hr => exact .tick k s
  | case3 s h now s₁ hr e s₂ hp =>
    have habs := pump_absorbs k deadline s₁
    rw [hp] at habs
    exact (Absorbs.tick k s).trans habs
  | case4 s h now s₁ hr s₂ hp ih =>
    have habs := pump_absorbs k deadline s₁
    rw [hp] at habs
    exact ih.of_absorbs ((Absorbs.tick k s).trans habs)

/-- `wait_for` waits for its needle. -/
theorem waitFor_findsNeedle {needle : List UInt8} (hn : needle ≠ []) (timeout : ℕ)
    (s : Session ε ι) : FindsNeedle k needle s (waitFor k needle timeout s) := by
  rw [waitFor, if_neg hn]
  exact (waitForLoop_findsNeedle k needle timeout _ _).of_absorbs (.tick k s)

/-- `open` receives until the box confirms, keeping the data that came first. -/
theorem openLoop_absorbs (deadline : ℕ) (s : Session ε ι) :
    Absorbs k s (openLoop k deadline s).2 := by
  fun_induction openLoop k deadline s with
  | case1 s rx h => exact .noEvent h (by simp)
  | case2 s e rx h info ha => exact .quiet h (by rw [Kind.bytes, ha]) _
  | case3 s e rx h bytes ha ih =>
    have he := Absorbs.event (k := k) h s.info
    rw [Kind.bytes, ha] at he
    exact he.trans ih
  | case4 s e rx h err ha => exact .quiet h (by rw [Kind.bytes, ha]) _
  | case5 s e rx h info ha ih => exact (Absorbs.quiet h (by rw [Kind.bytes, ha]) _).trans ih
  | case6 s e rx h ha ih => exact (Absorbs.quiet h (by rw [Kind.bytes, ha]) _).trans ih
  | case7 s rx h => exact .noEvent h (by simp)

end AsyncSession

end Lager
