import Lager.Nets.Uart

set_option relaxedAutoImplicit false
set_option autoImplicit false

/-!
# The sessions as byte streams

A session is a way to read a byte stream, the bytes of its data events in the order they came.
The reads cut it up by time, by needles and by errors; this file says that they only cut it
up: nothing is lost, doubled or moved, whatever the calls and whenever the events come.

## Main definitions

* `Lager.Member` — the four sessions, with their operations.
* `Lager.Call`, `Lager.Member.run` — a caller's sequence of reads.
* `Lager.Member.ReadsBack` — later calls give a stream back.

## Main results

* `Lager.session_lossless` — at every point, the bytes returned, buffered and queued are the
  bytes received since the session opened.
* `Lager.waitFor_stream` — what a wait for a needle takes off the stream does not depend on
  how events cut it.
-/

namespace Lager

/-- The four streaming sessions. -/
inductive Member
  | uart
  | asyncUart
  | rttSession
  | asyncRttSession
  deriving DecidableEq, Repr

namespace Member

/-- The events of a session. -/
def Event : Member → Type
  | uart | asyncUart => UartEvent
  | rttSession | asyncRttSession => RttEvent

/-- What a session remembers of the box's reports. -/
def Info : Member → Type
  | uart | asyncUart => UartInfo
  | rttSession | asyncRttSession => RttInfo

/-- The kind of a session. -/
def kind : (m : Member) → Kind m.Event m.Info
  | uart | asyncUart => Uart.kind
  | rttSession | asyncRttSession => RttSession.kind

/-- `open`, once the socket is connected; `channel` is the RTT channel, for the RTT sessions. -/
def openSession : (m : Member) → Channel m.Event → String → ℕ →
    Except Error Unit × Session m.Event m.Info
  | uart, rx, netname, _ => Uart.openSession rx netname
  | asyncUart, rx, netname, _ => AsyncUart.openSession rx netname
  | rttSession, rx, netname, channel => RttSession.openSession rx netname channel
  | asyncRttSession, rx, netname, channel => AsyncRttSession.openSession rx netname channel

/-- `read`. -/
def read : (m : Member) → ℕ → Session m.Event m.Info →
    Except Error (List UInt8) × Session m.Event m.Info
  | uart => Uart.read
  | asyncUart => AsyncUart.read
  | rttSession => RttSession.read
  | asyncRttSession => AsyncRttSession.read

/-- `try_read`. -/
def tryRead : (m : Member) → Session m.Event m.Info →
    Except Error (List UInt8) × Session m.Event m.Info
  | uart => Uart.tryRead
  | asyncUart => AsyncUart.tryRead
  | rttSession => RttSession.tryRead
  | asyncRttSession => AsyncRttSession.tryRead

/-- `wait_for`. -/
def waitFor : (m : Member) → List UInt8 → ℕ → Session m.Event m.Info →
    Except Error (List UInt8) × Session m.Event m.Info
  | uart => Uart.waitFor
  | asyncUart => AsyncUart.waitFor
  | rttSession => RttSession.waitFor
  | asyncRttSession => AsyncRttSession.waitFor

variable (m : Member)

/-- Opening a session receives, and nothing else. -/
theorem openSession_absorbs (rx : Channel m.Event) (netname : String) (channel : ℕ) :
    ∃ info, Absorbs m.kind ⟨rx, netname, info, []⟩ (m.openSession rx netname channel).2 := by
  cases m with
  | uart =>
    exact ⟨⟨"", 0, none⟩, (Absorbs.tick _ _).trans (Session.openLoop_absorbs Uart.kind _ _)⟩
  | asyncUart =>
    exact ⟨⟨"", 0, none⟩, (Absorbs.tick _ _).trans (AsyncSession.openLoop_absorbs Uart.kind _ _)⟩
  | rttSession =>
    exact ⟨⟨channel, ""⟩, (Absorbs.tick _ _).trans
      (Session.openLoop_absorbs RttSession.kind _ _)⟩
  | asyncRttSession =>
    exact ⟨⟨channel, ""⟩, (Absorbs.tick _ _).trans
      (AsyncSession.openLoop_absorbs RttSession.kind _ _)⟩

/-- `read` delivers. -/
theorem read_delivers (timeout : ℕ) (s : Session m.Event m.Info) :
    Delivers m.kind s (m.read timeout s).1 (m.read timeout s).2 := by
  cases m with
  | uart => exact Session.read_delivers Uart.kind timeout s
  | asyncUart => exact AsyncSession.read_delivers Uart.kind timeout s
  | rttSession => exact Session.read_delivers RttSession.kind timeout s
  | asyncRttSession => exact AsyncSession.read_delivers RttSession.kind timeout s

/-- `try_read` delivers. -/
theorem tryRead_delivers (s : Session m.Event m.Info) :
    Delivers m.kind s (m.tryRead s).1 (m.tryRead s).2 := by
  cases m with
  | uart => exact Session.read_delivers Uart.kind 0 s
  | asyncUart => exact AsyncSession.tryRead_delivers Uart.kind s
  | rttSession => exact Session.read_delivers RttSession.kind 0 s
  | asyncRttSession => exact AsyncSession.tryRead_delivers RttSession.kind s

/-- `wait_for` waits for its needle. -/
theorem waitFor_findsNeedle {needle : List UInt8} (hn : needle ≠ []) (timeout : ℕ)
    (s : Session m.Event m.Info) : FindsNeedle m.kind needle s (m.waitFor needle timeout s) := by
  cases m with
  | uart => exact Session.waitFor_findsNeedle Uart.kind hn timeout s
  | asyncUart => exact AsyncSession.waitFor_findsNeedle Uart.kind hn timeout s
  | rttSession => exact Session.waitFor_findsNeedle RttSession.kind hn timeout s
  | asyncRttSession => exact AsyncSession.waitFor_findsNeedle RttSession.kind hn timeout s

/-- When nothing goes wrong, `read` returns the whole stream once everything to come is there; in
any case it receives an event or waits its time out. -/
theorem read_calm (timeout : ℕ) (s : Session m.Event m.Info) (hs : m.kind.Calm s) :
    (s.rx.Arrived → (m.read timeout s).1 = .ok (m.kind.stream s)) ∧
      ((m.read timeout s).2.rx.incoming.length < s.rx.incoming.length ∨
        s.rx.now + timeout ≤ (m.read timeout s).2.rx.now) := by
  cases m with
  | uart => exact Session.read_calm Uart.kind timeout s hs
  | asyncUart => exact AsyncSession.read_calm Uart.kind timeout s hs
  | rttSession => exact Session.read_calm RttSession.kind timeout s hs
  | asyncRttSession => exact AsyncSession.read_calm RttSession.kind timeout s hs

/-- When everything to come is there and nothing goes wrong, `try_read` returns all of it. -/
theorem tryRead_arrived (s : Session m.Event m.Info) (hs : m.kind.Calm s) (ha : s.rx.Arrived) :
    (m.tryRead s).1 = .ok (m.kind.stream s) := by
  cases m with
  | uart => exact (Session.read_calm Uart.kind 0 s hs).1 ha
  | asyncUart => exact AsyncSession.tryRead_arrived Uart.kind s hs ha
  | rttSession => exact (Session.read_calm RttSession.kind 0 s hs).1 ha
  | asyncRttSession => exact AsyncSession.tryRead_arrived RttSession.kind s hs ha

/-- A wait for nothing returns nothing. -/
theorem waitFor_nil (timeout : ℕ) (s : Session m.Event m.Info) :
    m.waitFor [] timeout s = (.ok [], s) := by
  cases m <;> rfl

end Member

/-! ## Sequences of reads -/

/-- A call a caller may make on a session. -/
inductive Call
  | read (timeout : ℕ)
  | tryRead
  | waitFor (needle : List UInt8) (timeout : ℕ)
  deriving DecidableEq, Repr

namespace Member

variable (m : Member)

/-- Make a call. -/
def call : Call → Session m.Event m.Info → Except Error (List UInt8) × Session m.Event m.Info
  | .read timeout => m.read timeout
  | .tryRead => m.tryRead
  | .waitFor needle timeout => m.waitFor needle timeout

/-- Make calls one after the other, whether they fail or not: all the bytes returned, and the
session after the last. -/
def run : List Call → Session m.Event m.Info → List UInt8 × Session m.Event m.Info
  | [], s => ([], s)
  | c :: calls, s => (returned (m.call c s).1 ++ (run calls (m.call c s).2).1,
      (run calls (m.call c s).2).2)

/-- Every call delivers. -/
theorem call_delivers (c : Call) (s : Session m.Event m.Info) :
    Delivers m.kind s (m.call c s).1 (m.call c s).2 := by
  cases c with
  | read timeout => exact m.read_delivers timeout s
  | tryRead => exact m.tryRead_delivers s
  | waitFor needle timeout =>
    by_cases hn : needle = []
    · rw [hn, call, waitFor_nil]
      exact ⟨le_rfl, List.suffix_refl _, fun _ _ => rfl, rfl⟩
    · exact (m.waitFor_findsNeedle hn timeout s).delivers

/-- The clock never runs backwards over a run of calls. -/
theorem run_now_le (calls : List Call) (s : Session m.Event m.Info) :
    s.rx.now ≤ (m.run calls s).2.rx.now := by
  induction calls generalizing s with
  | nil => exact le_rfl
  | cons c calls ih => exact (m.call_delivers c s).now_le.trans (ih _)

/-- Calls, then more calls. -/
theorem run_append (calls more : List Call) (s : Session m.Event m.Info) :
    m.run (calls ++ more) s = ((m.run calls s).1 ++ (m.run more (m.run calls s).2).1,
      (m.run more (m.run calls s).2).2) := by
  induction calls generalizing s with
  | nil => rfl
  | cons c calls ih => rw [List.cons_append, run, ih, run, List.append_assoc]

/-- A run of calls brings no trouble. -/
theorem run_calm (calls : List Call) {s : Session m.Event m.Info} (hs : m.kind.Calm s) :
    m.kind.Calm (m.run calls s).2 := by
  induction calls generalizing s with
  | nil => exact hs
  | cons c calls ih => exact ih ((m.call_delivers c s).calm hs)

/-- What a run of calls returned is the front of the stream. -/
theorem run_stream (calls : List Call) (s : Session m.Event m.Info) :
    (m.run calls s).1 ++ m.kind.stream (m.run calls s).2 = m.kind.stream s := by
  induction calls generalizing s with
  | nil => rfl
  | cons c calls ih => rw [run, List.append_assoc, ih, (m.call_delivers c s).stream]

/-- What a run of calls returned is the front of what the session could give. -/
theorem run_unread (calls : List Call) (s : Session m.Event m.Info) {t : ℕ}
    (ht : (m.run calls s).2.rx.now ≤ t) :
    (m.run calls s).1 ++ m.kind.unread t (m.run calls s).2 = m.kind.unread t s := by
  induction calls generalizing s with
  | nil => rfl
  | cons c calls ih =>
    have hc := m.call_delivers c s
    rw [run, List.append_assoc, ih _ ht]
    exact hc.unread t ((m.run_now_le calls _).trans ht)

end Member

/-- **Session streams lose, duplicate and reorder nothing.** For each of the four sessions,
whatever the events and the times they come, once the session is open and after any sequence
of calls that succeed, time out or fail: the bytes returned, then the buffer, then the bytes of
the events queued by any time from then on, are the bytes of all events that came by that time
since the session opened. -/
theorem session_lossless (m : Member) {rx : Channel m.Event} {netname : String} {channel : ℕ}
    {s : Session m.Event m.Info} (hopen : m.openSession rx netname channel = (.ok (), s))
    (calls : List Call) {t : ℕ} (ht : (m.run calls s).2.rx.now ≤ t) :
    (m.run calls s).1 ++ (m.run calls s).2.buf ++
        ((m.run calls s).2.rx.queued t).flatMap m.kind.bytes =
      (rx.queued t).flatMap m.kind.bytes := by
  obtain ⟨info, habs⟩ := m.openSession_absorbs rx netname channel
  rw [hopen] at habs
  have hrun := m.run_unread calls s ht
  rw [habs.unread t ((m.run_now_le calls s).trans ht)] at hrun
  rw [List.append_assoc]
  exact hrun

/-- Data that came before the box confirmed is read like any other. -/
theorem session_lossless_beforeConnected :
    ∃ s t, Member.asyncUart.openSession
        ⟨0, [(1, .data [0x68]), (2, .connected "/dev/ttyUSB0" 115200), (3, .status "reconnecting"),
          (4, .data [0x69, 0x0a])], none, [], by decide⟩ "uart0" 0 = (.ok (), s) ∧
      (Member.asyncUart.run [.waitFor [0x69] 10, .tryRead] s).1 ++
        (Member.asyncUart.run [.waitFor [0x69] 10, .tryRead] s).2.buf ++
        ((Member.asyncUart.run [.waitFor [0x69] 10, .tryRead] s).2.rx.queued t).flatMap
          Uart.kind.bytes = [0x68, 0x69, 0x0a] := by
  have hopen : Member.asyncUart.openSession
      ⟨0, [(1, .data [0x68]), (2, .connected "/dev/ttyUSB0" 115200), (3, .status "reconnecting"),
        (4, .data [0x69, 0x0a])], none, [], by decide⟩ "uart0" 0 =
      (.ok (), ⟨⟨2, [(3, .status "reconnecting"), (4, .data [0x69, 0x0a])], none, [], by decide⟩,
        "uart0", ⟨"/dev/ttyUSB0", 115200, none⟩, [0x68]⟩) := by
    show AsyncSession.openLoop Uart.kind _ _ = _
    rw [AsyncSession.openLoop]
    show AsyncSession.openLoop Uart.kind _ _ = _
    rw [AsyncSession.openLoop]
    rfl
  refine ⟨_, _, hopen, (session_lossless .asyncUart hopen [.waitFor [0x69] 10, .tryRead]
    (le_max_right 4 _)).trans ?_⟩
  rw [Channel.queued, List.filter_eq_self.mpr (by simp)]
  rfl

/-! ## Waiting for a needle -/

/-- A call that returns whatever there is. -/
def Call.Takes : Call → Prop
  | .read _ | .tryRead => True
  | .waitFor _ _ => False

namespace Member

variable (m : Member)

/-- Later calls give a stream back: whatever is called, they return it from the front; and if
nothing goes wrong, one `read` or `try_read` after everything has come leaves nothing of it
behind, and so do as many reads as there are events and one more, if each waits long enough. -/
structure ReadsBack (stream : List UInt8) (s : Session m.Event m.Info) : Prop where
  front : ∀ calls, (m.run calls s).1 ++ m.kind.stream (m.run calls s).2 = stream
  all : m.kind.Calm s → ∀ calls, (m.run calls s).2.rx.Arrived → ∀ last : Call, last.Takes →
    (m.run (calls ++ [last]) s).1 = stream
  reads : m.kind.Calm s → ∀ timeouts : List ℕ,
    (∀ w ∈ timeouts, ∀ x ∈ s.rx.incoming, x.1 ≤ s.rx.now + w) →
    s.rx.incoming.length < timeouts.length → (m.run (timeouts.map .read) s).1 = stream

/-- A taking call returns the whole stream when everything to come is there. -/
theorem call_takes {c : Call} (hc : c.Takes) {s : Session m.Event m.Info}
    (hs : m.kind.Calm s) (ha : s.rx.Arrived) : (m.call c s).1 = .ok (m.kind.stream s) := by
  cases c with
  | read timeout => exact (m.read_calm timeout s hs).1 ha
  | tryRead => exact m.tryRead_arrived s hs ha
  | waitFor needle timeout => exact hc.elim

/-- After a call that returned the whole stream, nothing is left to return. -/
theorem run_cons_of_all {c : Call} {s : Session m.Event m.Info}
    (hc : (m.call c s).1 = .ok (m.kind.stream s)) (calls : List Call) :
    (m.run (c :: calls) s).1 = m.kind.stream s := by
  have hrun := m.run_stream (c :: calls) s
  simp only [run, hc, returned, List.append_assoc, List.append_right_eq_self,
    List.append_eq_nil_iff] at hrun
  rw [run, hc, returned, hrun.1, List.append_nil]

/-- Enough reads that wait long enough return the whole stream. -/
theorem run_reads (timeouts : List ℕ) {s : Session m.Event m.Info} (hs : m.kind.Calm s)
    (hlong : ∀ w ∈ timeouts, ∀ x ∈ s.rx.incoming, x.1 ≤ s.rx.now + w)
    (hlen : s.rx.incoming.length < timeouts.length ∨ timeouts ≠ [] ∧ s.rx.Arrived) :
    (m.run (timeouts.map .read) s).1 = m.kind.stream s := by
  induction timeouts generalizing s with
  | nil => simp at hlen
  | cons w timeouts ih =>
    rw [List.map_cons]
    by_cases ha : s.rx.Arrived
    · exact m.run_cons_of_all (c := .read w) ((m.read_calm w s hs).1 ha) _
    · have hd := m.read_delivers w s
      have hne : s.rx.incoming ≠ [] := fun h => ha (by simp [Channel.Arrived, h])
      have hpos := List.length_pos_iff.mpr hne
      have hlen' : s.rx.incoming.length < timeouts.length + 1 := by
        simpa [ha] using hlen
      have hrest := ih (hd.calm hs) (fun w' hw' x hx =>
          (hlong w' (List.mem_cons_of_mem _ hw') x (hd.suffix.subset hx)).trans
            (Nat.add_le_add_right hd.now_le w')) <| by
        refine (m.read_calm w s hs).2.imp (fun hlt => by omega) fun hnow => ⟨?_, fun x hx => ?_⟩
        · intro hnil
          rw [hnil, List.length_nil] at hlen'
          omega
        · exact (hlong w List.mem_cons_self x (hd.suffix.subset hx)).trans hnow
      rw [run]
      show returned (m.read w s).1 ++ (m.run (timeouts.map .read) (m.read w s).2).1 = _
      rw [hrest, hd.stream]

/-- Later calls give back the stream a session has not given out. -/
theorem readsBack (s : Session m.Event m.Info) : m.ReadsBack (m.kind.stream s) s where
  front calls := m.run_stream calls s
  all hs calls ha last hlast := by
    have hall := m.call_takes hlast (m.run_calm calls hs) ha
    rw [run_append, m.run_cons_of_all hall, m.run_stream]
  reads hs timeouts hlong hlen := m.run_reads timeouts hs hlong (.inl hlen)

end Member

/-- **A wait for a needle does not see how output is split into events.** For each of the four
sessions, every non-empty needle and whatever the session has buffered and will receive: a
`wait_for` that succeeds returns the shortest prefix of the stream that ends with the needle, and
later reads return everything after it; one that fails leaves the whole stream to later reads.

**Proof sketch.** The wait only receives before it takes, and receiving moves bytes from the
channel to the buffer, so the buffer it searches is the front of the stream. The first needle
of the buffer is the first of the stream, since a shorter prefix of the stream that ends with
the needle would be one of the buffer. -/
theorem waitFor_stream (m : Member) {needle : List UInt8} (hn : needle ≠ []) (timeout : ℕ)
    (s : Session m.Event m.Info) :
    match m.waitFor needle timeout s with
    | (.ok found, s') => ShortestThrough needle found (m.kind.stream s) ∧
        ∃ rest, found ++ rest = m.kind.stream s ∧ m.ReadsBack rest s'
    | (.error _, s') => m.ReadsBack (m.kind.stream s) s' := by
  have hfinds := m.waitFor_findsNeedle hn timeout s
  rcases hw : m.waitFor needle timeout s with ⟨e | found, s'⟩ <;> rw [hw] at hfinds
  · have hback := m.readsBack s'
    have habs : Absorbs m.kind s s' := hfinds
    rwa [habs.stream] at hback
  · obtain ⟨s₁, rest, habs, htake, rfl⟩ := hfinds
    obtain ⟨hbuf, hshort⟩ := takeThrough_spec htake
    have hstream : s₁.buf ++ s₁.rx.incoming.flatMap (fun x => m.kind.bytes x.2) =
        m.kind.stream s := habs.stream
    refine ⟨hstream ▸ hshort.append _, _, ?_, m.readsBack _⟩
    rw [← hstream, ← hbuf, List.append_assoc]
    rfl

/-- A needle left in the buffer by earlier waits is found, and what follows it is read after
it, with what comes. -/
theorem waitFor_stream_buffered :
    ∃ s', Member.uart.waitFor [0x6f, 0x6b] 10 ⟨⟨0, [(2, .status "reconnecting"),
        (3, .data [0x0a])], none, [], by decide⟩, "uart0", ⟨"/dev/ttyUSB0", 115200, none⟩,
        [0x6f, 0x6f, 0x6b, 0x21]⟩ = (.ok [0x6f, 0x6f, 0x6b], s') ∧
      Member.uart.ReadsBack [0x21, 0x0a] s' := by
  have hfound : Member.uart.waitFor [0x6f, 0x6b] 10 ⟨⟨0, [(2, .status "reconnecting"),
      (3, .data [0x0a])], none, [], by decide⟩, "uart0", ⟨"/dev/ttyUSB0", 115200, none⟩,
      [0x6f, 0x6f, 0x6b, 0x21]⟩ = (.ok [0x6f, 0x6f, 0x6b], ⟨⟨0, [(2, .status "reconnecting"),
        (3, .data [0x0a])], none, [], by decide⟩, "uart0", ⟨"/dev/ttyUSB0", 115200, none⟩,
        [0x21]⟩) := by
    show Session.waitForLoop Uart.kind _ _ _ _ = _
    rw [Session.waitForLoop]
    rfl
  have hwait := waitFor_stream .uart (show [0x6f, 0x6b] ≠ [] by decide) 10
    ⟨⟨0, [(2, .status "reconnecting"), (3, .data [0x0a])], none, [], by decide⟩, "uart0",
      ⟨"/dev/ttyUSB0", 115200, none⟩, [0x6f, 0x6f, 0x6b, 0x21]⟩
  rw [hfound] at hwait
  obtain ⟨-, rest, hrest, hback⟩ := hwait
  refine ⟨_, hfound, ?_⟩
  have heq : rest = [0x21, 0x0a] := List.append_cancel_left hrest
  rwa [heq] at hback

end Lager
