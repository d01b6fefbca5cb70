import Lager.Library.Pool
import Lager.Nets.Debug
import Lager.Nets.Streams
import Mathlib.Logic.Relation

set_option relaxedAutoImplicit false
set_option autoImplicit false

/-!
# What a session tells the box

A session opens a Socket.IO connection, asks the box to start, sends what its caller writes and
hangs up at the end. The blocking sessions make these calls on the caller's thread. The async ones
hand each to a task of its own, and a caller who does not wait for one goes on without it; so the
calls of several tasks may be made side by side. This file says what the box is told over the whole
life of a session, whatever the caller does and in whatever order the tasks are carried out.

## Main definitions

* `Lager.UartConfig`, `Lager.RttSession.startPayload` — what the box is asked to start.
* `Lager.Dialect.connect`, `Lager.Dialect.write`, `Lager.Dialect.hangUp` — the calls on the socket.
* `Lager.Life` — a session with its socket and its tasks, from `open` on.
* `Lager.Life.Step` — what the caller, the box and the tasks may do.

## Main results

* `Lager.life_told` — the box is told to start once, each write once, and to stop once.
-/

namespace Lager

open Library

/-! ## The settings of a session -/

/-- `Parity`. -/
inductive Parity
  | none
  | even
  | odd
  | mark
  | space
  deriving DecidableEq, Repr

/-- `Parity::as_str`. -/
def Parity.asStr : Parity → String
  | .none => "none"
  | .even => "even"
  | .odd => "odd"
  | .mark => "mark"
  | .space => "space"

/-- `StopBits`. -/
inductive StopBits
  | one
  | onePointFive
  | two
  deriving DecidableEq, Repr

/-- `StopBits::as_str`. -/
def StopBits.asStr : StopBits → String
  | .one => "1"
  | .onePointFive => "1.5"
  | .two => "2"

/-- `UartConfig`. -/
structure UartConfig where
  baudrate : Option UInt32
  bytesize : Option UInt8
  parity : Option Parity
  stopbits : Option StopBits
  xonxoff : Option Bool
  rtscts : Option Bool
  dsrdtr : Option Bool
  opost : Option Bool
  deriving DecidableEq

/-- `UartConfig::overrides`. -/
def UartConfig.overrides (config : UartConfig) : Value :=
  .object (Map.setSome "opost" (config.opost.map .bool)
    (Map.setSome "dsrdtr" (config.dsrdtr.map .bool)
      (Map.setSome "rtscts" (config.rtscts.map .bool)
        (Map.setSome "xonxoff" (config.xonxoff.map .bool)
          (Map.setSome "stopbits" (config.stopbits.map fun v => .string v.asStr)
            (Map.setSome "parity" (config.parity.map fun v => .string v.asStr)
              (Map.setSome "bytesize" (config.bytesize.map fun v => uint v.toNat)
                (Map.setSome "baudrate" (config.baudrate.map fun v => uint v.toNat) []))))))))

/-! ## The socket -/

/-- The calls on a Socket.IO connection. -/
inductive SioOp
  | connect (baseUrl «namespace» : String) (openingHeader : Option (String × String))
  | emit (event : String) (payload : Value)
  | disconnect

/-- The answer to a call: whether it went through, or the text of the error. -/
abbrev SioAns : SioOp → Type := fun _ => Except String Unit

/-- The calls of a task, and what it comes to. -/
abbrev SioProgram := Program SioOp SioAns (Except Error Unit)

/-- What the two kinds of session call their events. -/
structure Dialect where
  label : String
  «namespace» : String
  start : String
  write : String
  stop : String

namespace Dialect

variable (d : Dialect)

/-- The call that connects. -/
def connectCall (baseUrl : String) (bearerToken : Option String) : SioOp :=
  .connect baseUrl d.namespace (bearerToken.map fun token => ("Authorization", "Bearer " ++ token))

/-- The call that sends data to the device. -/
def writeCall (data : List UInt8) : SioOp :=
  .emit d.write (.object [("data", .string (sio.hexEncode data))])

/-- `connect`: open the connection, and ask the box to start. -/
def connect (baseUrl : String) (payload : Value) (bearerToken : Option String) : SioProgram :=
  .op (d.connectCall baseUrl bearerToken) fun
    | .error e => .pure (.error (.connection (.inContext "Socket.IO connect failed" e)))
    | .ok () => .op (.emit d.start payload) fun
      | .error e =>
        .pure (.error (.stream (.inContext ("could not start " ++ d.label ++ " session") e)))
      | .ok () => .pure (.ok ())

/-- `write`, with or without a socket. -/
def writeTo (socket : Bool) (data : List UInt8) : SioProgram :=
  if socket then
    .op (d.writeCall data) fun
      | .error e => .pure (.error (.stream (.inContext (d.label ++ " write failed") e)))
      | .ok () => .pure (.ok ())
  else .pure (.error (.stream (.text (d.label ++ " session already stopped"))))

/-- `hang_up`: tell the box to stop, and drop the connection. -/
def hangUp : SioProgram :=
  .op (.emit d.stop (.object [])) fun _ => .op .disconnect fun _ => .pure (.ok ())

end Dialect

/-- The dialect of the UART sessions. -/
def Uart.dialect : Dialect := ⟨"UART", "/uart", "start_uart", "uart_write", "stop_uart"⟩

/-- What `connect` of the UART sessions asks the box to start. -/
def Uart.startPayload (netname : String) (config : UartConfig) : Value :=
  .object [("netname", .string netname), ("overrides", config.overrides)]

/-- The dialect of the RTT sessions. -/
def RttSession.dialect : Dialect := ⟨"RTT", "/rtt", "start_rtt", "rtt_write", "stop_rtt"⟩

/-- `start_payload`. -/
def RttSession.startPayload (netname : String) (opts : RttOptions) : Value :=
  .object (Map.setSome "chunk_size" (opts.chunkSize.map fun n => uint n.toNat)
    (Map.setSome "search_size" (opts.searchSize.map fun n => uint n.toNat)
      (Map.setSome "search_addr" (opts.searchAddr.map fun n => uint n.toNat)
        [("channel", uint opts.channel.toNat), ("netname", .string netname)])))

namespace Member

/-- The dialect of a session. -/
def dialect : Member → Dialect
  | uart | asyncUart => Uart.dialect
  | rttSession | asyncRttSession => RttSession.dialect

/-- The settings of a session. -/
def Options : Member → Type
  | uart | asyncUart => UartConfig
  | rttSession | asyncRttSession => RttOptions

/-- What the box is asked to start. -/
def startPayload : (m : Member) → String → m.Options → Value
  | uart, netname, config | asyncUart, netname, config => Uart.startPayload netname config
  | rttSession, netname, opts | asyncRttSession, netname, opts =>
    RttSession.startPayload netname opts

/-- The channel of an RTT session. -/
def channelOf : (m : Member) → m.Options → ℕ
  | uart, _ | asyncUart, _ => 0
  | rttSession, opts | asyncRttSession, opts => UInt32.toNat (RttOptions.channel opts)

/-- Whether a session makes its calls in tasks of their own. -/
def isAsync : Member → Bool
  | uart | rttSession => false
  | asyncUart | asyncRttSession => true

/-- Whether a caller hands over no task before the others are finished: with a blocking session
always, with an async one when the caller waits for each. -/
def takesTurns (m : Member) (waits : Bool) : Bool := !m.isAsync || waits

end Member

/-! ## The life of a session -/

/-- What a session is opened with: the arguments of `open`, and the channel on which the events of
the box will come. -/
structure Opening (m : Member) where
  baseUrl : String
  netname : String
  options : m.Options
  bearerToken : Option String
  rx : Channel m.Event

/-- The task that connects. -/
def Opening.connect {m : Member} (o : Opening m) : SioProgram :=
  m.dialect.connect o.baseUrl (m.startPayload o.netname o.options) o.bearerToken

/-- The calls of that task, when they go through. -/
def Opening.calls {m : Member} (o : Opening m) : List SioOp :=
  [m.dialect.connectCall o.baseUrl o.bearerToken,
    .emit m.dialect.start (m.startPayload o.netname o.options)]

/-- The calls that end a session. -/
def Member.closing (m : Member) : List SioOp := [.emit m.dialect.stop (.object []), .disconnect]

/-- Where a session is. -/
inductive Phase (m : Member)
  /-- `open` waits for the task that connects. -/
  | connecting
  /-- `open` waits for the box to confirm. -/
  | waiting
  /-- The caller has the session. -/
  | live (s : Session m.Event m.Info)
  /-- The session is gone, or `open` has failed. -/
  | gone
  /-- The caller of `open` went away while the task was connecting. -/
  | abandoned

/-- A session: where it is, whether it has a socket, its tasks, what it was given to write, and the
bytes its reads returned. -/
structure Life (m : Member) where
  phase : Phase m
  socket : Bool
  pool : Pool SioOp SioAns (Except Error Unit)
  written : List (List UInt8)
  read : List UInt8

namespace Life

variable {m : Member}

/-- `open` begins. -/
def init (o : Opening m) : Life m where
  phase := .connecting
  socket := false
  pool := Pool.empty.submit o.connect
  written := []
  read := []

/-- `shutdown`, and what `stop` and `drop` of the async sessions do: take the socket, if it is
there, and hang up. -/
def shutdown (l : Life m) : Life m :=
  if l.socket then { l with socket := false, pool := l.pool.submit m.dialect.hangUp } else l

/-- What may happen next. Only what is asynchronous can be abandoned. -/
inductive Step (o : Opening m) (waits : Bool) : Life m → Life m → Prop
  /-- A task makes its next call. -/
  | works {l : Life m} {P : Pool SioOp SioAns (Except Error Unit)} (h : l.pool.Works P) :
      Step o waits l { l with pool := P }
  | connected {l : Life m} (hphase : l.phase = .connecting)
      (hresult : l.pool.result 0 = some (.ok ())) :
      Step o waits l { l with phase := .waiting, socket := true }
  | unconnected {l : Life m} {e : Error} (hphase : l.phase = .connecting)
      (hresult : l.pool.result 0 = some (.error e)) :
      Step o waits l { l with phase := .gone }
  | abandonedConnecting {l : Life m} (hphase : l.phase = .connecting) (hasync : m.isAsync) :
      Step o waits l { l with phase := .abandoned }
  | confirmed {l : Life m} {s : Session m.Event m.Info} (hphase : l.phase = .waiting)
      (hopen : m.openSession o.rx o.netname (m.channelOf o.options) = (.ok (), s)) :
      Step o waits l { l with phase := .live s }
  /-- `open` fails, and drops the session it was making. -/
  | refused {l : Life m} {s : Session m.Event m.Info} {e : Error} (hphase : l.phase = .waiting)
      (hopen : m.openSession o.rx o.netname (m.channelOf o.options) = (.error e, s)) :
      Step o waits l { l.shutdown with phase := .gone }
  | abandonedWaiting {l : Life m} (hphase : l.phase = .waiting) (hasync : m.isAsync) :
      Step o waits l { l.shutdown with phase := .gone }
  /-- The caller reads or waits for a needle. -/
  | called {l : Life m} {s : Session m.Event m.Info} (c : Call) (hphase : l.phase = .live s) :
      Step o waits l { l with
        phase := .live (m.call c s).2
        read := l.read ++ returned (m.call c s).1 }
  /-- The caller gives a read up; what it received stays in the buffer. -/
  | abandonedCall {l : Life m} {s s' : Session m.Event m.Info} (hphase : l.phase = .live s)
      (hasync : m.isAsync) (habsorbs : Absorbs m.kind s s') :
      Step o waits l { l with phase := .live s' }
  | wrote {l : Life m} {s : Session m.Event m.Info} (data : List UInt8)
      (hphase : l.phase = .live s) (hwaits : m.takesTurns waits → l.pool.Settled) :
      Step o waits l { l with
        pool := l.pool.submit (m.dialect.writeTo l.socket data)
        written := l.written ++ [data] }
  /-- The session goes out of scope. -/
  | dropped {l : Life m} {s : Session m.Event m.Info} (hphase : l.phase = .live s)
      (hwaits : m.takesTurns waits → l.pool.Settled) :
      Step o waits l { l.shutdown with phase := .gone }
  /-- `stop` shuts the session down, and then the session goes out of scope. -/
  | stopped {l : Life m} {s : Session m.Event m.Info} (hphase : l.phase = .live s)
      (hwaits : m.takesTurns waits → l.pool.Settled) :
      Step o waits l { l.shutdown.shutdown with phase := .gone }

/-- What a session can come to. -/
def Reachable (o : Opening m) (waits : Bool) (l : Life m) : Prop :=
  Relation.ReflTransGen (Step o waits) (init o) l

/-! ### The tasks of a session -/

/-- The task that connects: its calls, and what they come to. -/
theorem reaches_connect {o : Opening m} {events : List (Library.Event SioOp SioAns)}
    {left : SioProgram} (h : Reaches o.connect events left) :
    events.map Sigma.fst <+: o.calls ∧ (left = .pure (.ok ()) → events =
      [⟨m.dialect.connectCall o.baseUrl o.bearerToken, .ok ()⟩,
        ⟨.emit m.dialect.start (m.startPayload o.netname o.options), .ok ()⟩]) := by
  unfold Opening.connect Dialect.connect at h
  cases h with
  | refl => exact ⟨List.nil_prefix, fun hleft => by cases hleft⟩
  | op ans h =>
    rcases ans with e | ⟨⟩
    · cases h with
      | refl => exact ⟨⟨_, rfl⟩, fun hleft => by cases hleft⟩
    · cases h with
      | refl => exact ⟨⟨_, rfl⟩, fun hleft => by cases hleft⟩
      | op ans h =>
        rcases ans with e | ⟨⟩
        · cases h with
          | refl => exact ⟨List.prefix_refl _, fun hleft => by cases hleft⟩
        · cases h with
          | refl => exact ⟨List.prefix_refl _, fun _ => rfl⟩

/-- A write tells the box its bytes. -/
theorem scripted_writeTo (d : Dialect) (data : List UInt8) :
    Pool.Scripted (d.writeTo true data) [d.writeCall data] := by
  refine Pool.scripted_op fun ans => ?_
  rcases ans with e | ⟨⟩ <;> exact Pool.scripted_pure _

/-- Hanging up tells the box to stop, and drops the connection. -/
theorem scripted_hangUp (m : Member) : Pool.Scripted m.dialect.hangUp m.closing :=
  Pool.scripted_op fun _ => Pool.scripted_op fun _ => Pool.scripted_pure _

/-- What a session has handed over, and whether it is connected, wherever it is. -/
inductive Standing (o : Opening m) (l : Life m) : Prop
  /-- Nothing but the task that connects. -/
  | opening (hphase : l.phase = .connecting ∨ l.phase = .abandoned) (hsocket : l.socket = false)
      (hwritten : l.written = []) (hprograms : l.pool.programs = [o.connect])
  /-- That task failed. -/
  | failed (e : Error) (hphase : l.phase = .gone) (hsocket : l.socket = false)
      (hwritten : l.written = []) (hprograms : l.pool.programs = [o.connect])
      (hresult : l.pool.result 0 = some (.error e))
  /-- A session holds the socket. -/
  | holding (hphase : (l.phase = .waiting ∧ l.written = []) ∨ ∃ s, l.phase = .live s)
      (hsocket : l.socket = true)
      (hprograms : l.pool.programs = o.connect :: l.written.map (m.dialect.writeTo true))
      (hresult : l.pool.result 0 = some (.ok ()))
  /-- The socket was taken, and the task that hangs up handed over. -/
  | hungUp (hphase : l.phase = .gone) (hsocket : l.socket = false)
      (hprograms : l.pool.programs =
        o.connect :: (l.written.map (m.dialect.writeTo true) ++ [m.dialect.hangUp]))
      (hresult : l.pool.result 0 = some (.ok ()))

/-- What holds of a session at every point: what it has handed over, that nothing was done before
the connection was, and that a caller who waits makes its tasks take turns. -/
structure Sound (o : Opening m) (waits : Bool) (l : Life m) : Prop where
  standing : Standing o l
  led : l.pool.Led
  inTurn : m.takesTurns waits → l.pool.InTurn

/-- Shutting down twice is shutting down. -/
theorem shutdown_shutdown (l : Life m) : l.shutdown.shutdown = l.shutdown := by
  unfold shutdown
  cases hsocket : l.socket <;> simp [hsocket]

variable {o : Opening m} {waits : Bool} {l l' : Life m}

/-- A call of a task. -/
theorem Sound.works (h : Sound o waits l) {P : Pool SioOp SioAns (Except Error Unit)}
    (hw : l.pool.Works P) : Sound o waits { l with pool := P } := by
  have hprograms := hw.programs
  refine ⟨?_, ?_, fun hwaits => (h.inTurn hwaits).works hw⟩
  · cases h.standing with
    | opening hphase hsocket hwritten hp =>
      exact .opening hphase hsocket hwritten (hprograms.trans hp)
    | failed e hphase hsocket hwritten hp hresult =>
      exact .failed e hphase hsocket hwritten (hprograms.trans hp) (hw.result hresult)
    | holding hphase hsocket hp hresult =>
      exact .holding hphase hsocket (hprograms.trans hp) (hw.result hresult)
    | hungUp hphase hsocket hp hresult =>
      exact .hungUp hphase hsocket (hprograms.trans hp) (hw.result hresult)
  · refine h.led.works hw ?_
    cases h.standing with
    | opening _ _ _ hp => exact .inl (by rw [hp]; exact le_rfl)
    | failed e _ _ _ _ hresult => exact .inr ⟨_, hresult⟩
    | holding _ _ _ hresult => exact .inr ⟨_, hresult⟩
    | hungUp _ _ _ hresult => exact .inr ⟨_, hresult⟩

/-- A session that is being connected has handed over nothing else. -/
theorem Standing.opens (h : Standing o l) (hphase : l.phase = .connecting) :
    l.socket = false ∧ l.written = [] ∧ l.pool.programs = [o.connect] := by
  cases h with
  | opening _ hsocket hwritten hprograms => exact ⟨hsocket, hwritten, hprograms⟩
  | failed e hphase' => cases hphase.symm.trans hphase'
  | holding hphase' =>
    rcases hphase' with ⟨hw, -⟩ | ⟨s, hl⟩
    · cases hphase.symm.trans hw
    · cases hphase.symm.trans hl
  | hungUp hphase' => cases hphase.symm.trans hphase'

/-- A session that waits or is live holds its socket. -/
theorem Standing.holds (h : Standing o l)
    (hphase : l.phase = .waiting ∨ ∃ s, l.phase = .live s) :
    l.socket = true ∧
      l.pool.programs = o.connect :: l.written.map (m.dialect.writeTo true) ∧
      l.pool.result 0 = some (.ok ()) ∧ (l.phase = .waiting → l.written = []) := by
  cases h with
  | opening hphase' =>
    rcases hphase with hw | ⟨s, hl⟩ <;> rcases hphase' with hc | ha <;> simp_all
  | failed e hphase' =>
    rcases hphase with hw | ⟨s, hl⟩ <;> simp_all
  | holding hphase' hsocket hprograms hresult =>
    refine ⟨hsocket, hprograms, hresult, fun hw => ?_⟩
    rcases hphase' with ⟨-, hwritten⟩ | ⟨s, hl⟩
    · exact hwritten
    · rw [hl] at hw
      cases hw
  | hungUp hphase' =>
    rcases hphase with hw | ⟨s, hl⟩ <;> simp_all

/-- A session that waits has finished its only task. -/
theorem Standing.settled (h : Standing o l) (hphase : l.phase = .waiting) : l.pool.Settled := by
  obtain ⟨-, hprograms, hresult, hwritten⟩ := h.holds (.inl hphase)
  refine Pool.settled_of_result ?_ hresult
  rw [hprograms, hwritten hphase]
  rfl

/-- The end of a session that holds its socket. -/
theorem Sound.shutdown (h : Sound o waits l)
    (hphase : l.phase = .waiting ∨ ∃ s, l.phase = .live s)
    (hwaits : m.takesTurns waits → l.pool.Settled) :
    Sound o waits { l.shutdown with phase := .gone } := by
  obtain ⟨hsocket, hprograms, hresult, -⟩ := h.standing.holds hphase
  rw [Life.shutdown, if_pos hsocket]
  refine ⟨.hungUp rfl rfl ?_ (Pool.result_submit hresult _), h.led.submit _, fun hw =>
    (h.inTurn hw).submit (hwaits hw) _⟩
  rw [Pool.programs_submit, hprograms, List.cons_append]

/-- A live session goes on to another one. -/
theorem Sound.live (h : Sound o waits l) (hphase : l.phase = .waiting ∨ ∃ s, l.phase = .live s)
    (s : Session m.Event m.Info) (read : List UInt8) :
    Sound o waits { l with phase := .live s, read } := by
  obtain ⟨hsocket, hprograms, hresult, -⟩ := h.standing.holds hphase
  exact ⟨.holding (.inr ⟨s, rfl⟩) hsocket hprograms hresult, h.led, h.inTurn⟩

/-- A session before its first step. -/
theorem sound_init (o : Opening m) (waits : Bool) : Sound o waits (init o) :=
  ⟨.opening (.inl rfl) rfl rfl (Pool.programs_submit _), Pool.led_empty.submit _,
    fun _ => Pool.inTurn_empty.submit (fun _ ht => by cases ht) _⟩

/-- **A step.** What holds of a session holds after whatever happens next. -/
theorem Sound.step (h : Sound o waits l) (hstep : Step o waits l l') : Sound o waits l' := by
  cases hstep with
  | works hw => exact h.works hw
  | connected hphase hresult =>
    obtain ⟨-, hwritten, hprograms⟩ := h.standing.opens hphase
    refine ⟨.holding (.inl ⟨rfl, hwritten⟩) rfl ?_ hresult, h.led, h.inTurn⟩
    rw [hprograms, hwritten]
    rfl
  | unconnected hphase hresult =>
    obtain ⟨hsocket, hwritten, hprograms⟩ := h.standing.opens hphase
    exact ⟨.failed _ rfl hsocket hwritten hprograms hresult, h.led, h.inTurn⟩
  | abandonedConnecting hphase hasync =>
    obtain ⟨hsocket, hwritten, hprograms⟩ := h.standing.opens hphase
    exact ⟨.opening (.inr rfl) hsocket hwritten hprograms, h.led, h.inTurn⟩
  | confirmed hphase hopen => exact h.live (.inl hphase) _ _
  | refused hphase hopen =>
    exact h.shutdown (.inl hphase) fun _ => h.standing.settled hphase
  | abandonedWaiting hphase hasync =>
    exact h.shutdown (.inl hphase) fun _ => h.standing.settled hphase
  | called c hphase => exact h.live (.inr ⟨_, hphase⟩) _ _
  | abandonedCall hphase hasync habsorbs => exact h.live (.inr ⟨_, hphase⟩) _ _
  | wrote data hphase hwaits =>
    obtain ⟨hsocket, hprograms, hresult, -⟩ := h.standing.holds (.inr ⟨_, hphase⟩)
    refine ⟨.holding (.inr ⟨_, hphase⟩) hsocket ?_ (Pool.result_submit hresult _),
      h.led.submit _, fun hw => (h.inTurn hw).submit (hwaits hw) _⟩
    rw [Pool.programs_submit, hprograms, hsocket, List.map_append]
    rfl
  | dropped hphase hwaits => exact h.shutdown (.inr ⟨_, hphase⟩) hwaits
  | stopped hphase hwaits =>
    rw [shutdown_shutdown]
    exact h.shutdown (.inr ⟨_, hphase⟩) hwaits

/-- Every point in the life of a session. -/
theorem sound_of_reachable (h : Reachable o waits l) : Sound o waits l := by
  induction h with
  | refl => exact sound_init o waits
  | tail _ hstep ih => exact ih.step hstep

/-! ### What the box is told -/

/-- The tasks that end a session, once it is over. -/
def endingTasks (l : Life m) : List SioProgram :=
  match l.phase with
  | .gone => [m.dialect.hangUp]
  | _ => []

/-- The calls that end a session, once it is over. -/
def ending (l : Life m) : List SioOp :=
  match l.phase with
  | .gone => m.closing
  | _ => []

/-- The calls to be made behind those that open a session. -/
def script (l : Life m) : List SioOp := l.written.map m.dialect.writeCall ++ l.ending

/-- The calls of a session that is connected, behind the two that opened it. -/
structure Follows (o : Opening m) (waits : Bool) (l : Life m)
    (rest : List (Library.Event SioOp SioAns)) : Prop where
  opened : l.pool.calls = ⟨m.dialect.connectCall o.baseUrl o.bearerToken, .ok ()⟩ ::
    ⟨.emit m.dialect.start (m.startPayload o.netname o.options), .ok ()⟩ :: rest
  /-- Nothing else is said, and nothing twice. -/
  within : (rest.map Sigma.fst).Subperm l.script
  /-- In the end everything is, and the box is told to stop before the connection goes. -/
  complete : l.pool.Settled → (rest.map Sigma.fst).Perm l.script ∧
    l.ending.Sublist (l.pool.calls.map Sigma.fst)
  inOrder : m.takesTurns waits → rest.map Sigma.fst <+: l.script

/-- The tasks of a session that is connected. -/
theorem Standing.tasks (h : Standing o l) (hresult : l.pool.result 0 = some (.ok ())) :
    l.pool.programs =
      o.connect :: (l.written.map (m.dialect.writeTo true) ++ l.endingTasks) := by
  unfold endingTasks
  cases h with
  | opening hphase _ hwritten hprograms =>
    rcases hphase with hc | ha
    · rw [hprograms, hwritten, hc]
      rfl
    · rw [hprograms, hwritten, ha]
      rfl
  | failed e _ _ _ _ hresult' => cases hresult.symm.trans hresult'
  | holding hphase _ hprograms _ =>
    rcases hphase with ⟨hw, -⟩ | ⟨s, hl⟩
    · rw [hprograms, hw, List.append_nil]
    · rw [hprograms, hl, List.append_nil]
  | hungUp hphase _ hprograms _ => rw [hprograms, hphase]

/-- The tasks of a session that is connected follow its script. -/
theorem scripted_tasks (l : Life m) : ∃ scripts, List.Forall₂ Pool.Scripted
    (l.written.map (m.dialect.writeTo true) ++ l.endingTasks) scripts ∧
      scripts.flatten = l.script := by
  have hending : ∃ scripts, List.Forall₂ Pool.Scripted l.endingTasks scripts ∧
      scripts.flatten = l.ending := by
    unfold endingTasks ending
    cases l.phase with
    | gone => exact ⟨[m.closing], .cons (scripted_hangUp m) .nil, List.append_nil _⟩
    | _ => exact ⟨[], .nil, rfl⟩
  obtain ⟨scripts, hscripts, hflatten⟩ := hending
  refine ⟨l.written.map (fun data => [m.dialect.writeCall data]) ++ scripts,
    List.rel_append ?_ hscripts, ?_⟩
  · rw [List.forall₂_map_left_iff, List.forall₂_map_right_iff]
    exact List.forall₂_same.mpr fun data _ => scripted_writeTo m.dialect data
  · rw [List.flatten_append, hflatten, script, List.flatten_eq_flatMap, List.flatMap_map]
    congr 1
    exact List.map_eq_flatMap.symm

/-- The ending of a session that is over is a task of its own. -/
theorem ending_sublist (hprograms : l.pool.programs =
      o.connect :: (l.written.map (m.dialect.writeTo true) ++ l.endingTasks))
    (hsettled : l.pool.Settled) : l.ending.Sublist (l.pool.calls.map Sigma.fst) := by
  unfold ending
  cases hphase : l.phase with
  | gone =>
    refine Pool.script_sublist (i := l.written.length + 1) ?_ (scripted_hangUp m) hsettled
    rw [hprograms, endingTasks, hphase, List.getElem?_cons_succ,
      List.getElem?_append_right (by rw [List.length_map]), List.length_map, Nat.sub_self]
    rfl
  | _ => exact List.nil_sublist _

/-- What a session has said, once it is connected. -/
theorem Sound.follows (h : Sound o waits l) (hresult : l.pool.result 0 = some (.ok ())) :
    ∃ rest, Follows o waits l rest := by
  have hprograms := h.standing.tasks hresult
  obtain ⟨scripts, hscripts, hflatten⟩ := l.scripted_tasks
  obtain ⟨rest, hcalls, hperm, hturn⟩ := h.led.calls (by rw [hprograms]; simp)
  obtain ⟨left, hreach, hleft⟩ := Pool.exists_reaches (P := l.pool) (i := 0)
    (by rw [hprograms]; rfl)
  have hopened := (reaches_connect hreach).2 (hleft _ hresult)
  have hperm' := hperm.map Sigma.fst
  refine ⟨rest, by rw [hcalls, hopened]; rfl, ?_, fun hsettled => ⟨?_, ?_⟩, fun hwaits => ?_⟩
  · rw [← hflatten]
    exact hperm'.subperm.trans (Pool.later_sublist hprograms hscripts).subperm
  · rwa [Pool.later_of_settled hprograms hscripts hsettled, hflatten] at hperm'
  · exact ending_sublist hprograms hsettled
  · rw [hturn (h.inTurn hwaits), ← hflatten]
    exact (h.inTurn hwaits).later_inOrder hprograms hscripts

/-- A session that is not connected, or was abandoned, has handed over no other task than the one
that connects. -/
theorem Standing.alone (h : Standing o l)
    (halone : l.pool.result 0 ≠ some (.ok ()) ∨ l.phase = .abandoned) :
    l.written = [] ∧ l.pool.programs = [o.connect] := by
  cases h with
  | opening _ _ hwritten hprograms => exact ⟨hwritten, hprograms⟩
  | failed e _ _ hwritten hprograms _ => exact ⟨hwritten, hprograms⟩
  | holding hphase _ _ hresult =>
    rcases hphase with ⟨hw, -⟩ | ⟨s, hl⟩
    · simp [hresult, hw] at halone
    · simp [hresult, hl] at halone
  | hungUp hphase _ _ hresult => simp [hresult, hphase] at halone

/-- A session with no other task has made no other calls than those that open one. -/
theorem Sound.alone (h : Sound o waits l)
    (halone : l.pool.result 0 ≠ some (.ok ()) ∨ l.phase = .abandoned) :
    l.written = [] ∧ l.pool.calls.map Sigma.fst <+: o.calls := by
  obtain ⟨hwritten, hprograms⟩ := h.standing.alone halone
  obtain ⟨rest, hcalls, hperm, -⟩ := h.led.calls (by rw [hprograms]; exact le_rfl)
  obtain ⟨left, hreach, -⟩ := Pool.exists_reaches (P := l.pool) (i := 0)
    (by rw [hprograms]; rfl)
  have hlater : l.pool.later = [] := by rw [Pool.later, hprograms]; rfl
  rw [hlater] at hperm
  rw [hcalls, hperm.eq_nil, List.append_nil]
  exact ⟨hwritten, (reaches_connect hreach).1⟩

end Life

/-- **What a session tells the box.** For each of the four sessions, whatever it is opened with,
whatever its caller does, abandoning what is asynchronous at any point, whatever the socket answers
and in whatever order the tasks make their calls: at every point, a session that is not connected
has made at most the two calls that open one, and so has a session whose opening was abandoned while
it was being connected; that one is never stopped. When the two have gone through, the calls behind
them are one for each write, and, once the session is over, one to stop and one to disconnect: none
twice, nothing else, and all of them as soon as the tasks are finished, with the stop before the
disconnect. The calls of a blocking session, and of a caller who waits for each, are in the order of
the writes, the stop behind them.

**Proof sketch.** The connecting task is finished before another is handed over, so its calls come
first; the socket is taken once, so there is one task that hangs up. All tasks but the first make
the same calls whatever the answers, so what was done is a rearrangement of their scripts. Tasks
that are handed over one after the other's end take turns. -/
theorem life_told {m : Member} {o : Opening m} {waits : Bool} {l : Life m}
    (h : Life.Reachable o waits l) :
    (l.pool.result 0 ≠ some (.ok ()) ∨ l.phase = .abandoned →
      l.written = [] ∧ l.pool.calls.map Sigma.fst <+: o.calls) ∧
    (l.pool.result 0 = some (.ok ()) → ∃ rest, Life.Follows o waits l rest) :=
  ⟨(Life.sound_of_reachable h).alone, (Life.sound_of_reachable h).follows⟩

/-- A session of a UART net. -/
def uartOpening : Opening .asyncUart where
  baseUrl := "http://10.0.0.2:5000"
  netname := "uart0"
  options := ⟨none, none, none, none, none, none, none, none⟩
  bearerToken := some "t"
  rx := ⟨0, [(1, .connected "/dev/ttyUSB0" 115200)], none, [], by decide⟩

/-- A write that its caller abandons may be sent when the session has hung up. -/
theorem life_told_abandonedWrite : ∃ l, Life.Reachable uartOpening false l ∧
    l.phase = .gone ∧ l.pool.Settled ∧
    (∃ rest, Life.Follows uartOpening false l rest) ∧
    l.pool.calls.map Sigma.fst = uartOpening.calls ++
      (Member.asyncUart.closing ++ [Uart.dialect.writeCall [0x41]]) := by
  have hopen : Member.asyncUart.openSession uartOpening.rx "uart0" 0 = (.ok (),
      ⟨⟨1, [], none, [], by decide⟩, "uart0", ⟨"/dev/ttyUSB0", 115200, none⟩, []⟩) := by
    show AsyncSession.openLoop Uart.kind _ _ = _
    rw [AsyncSession.openLoop]
    rfl
  have hreach : Life.Reachable uartOpening false _ :=
    ((((((((((Relation.ReflTransGen.refl (a := Life.init uartOpening)
      ).tail (.works (.advance (i := 0) rfl rfl (.ok ())))
      ).tail (.works (.advance (i := 0) rfl rfl (.ok ())))
      ).tail (.connected rfl rfl)
      ).tail (.confirmed rfl hopen)
      ).tail (.wrote [0x41] rfl (by simp [Member.takesTurns, Member.isAsync]))
      ).tail (.dropped rfl (by simp [Member.takesTurns, Member.isAsync]))
      ).tail (.works (.advance (i := 2) rfl rfl (.ok ())))
      ).tail (.works (.advance (i := 2) rfl rfl (.ok ())))
      ).tail (.works (.advance (i := 1) rfl rfl (.ok ()))))
  exact ⟨_, hreach, rfl, Pool.settled_of_all rfl, (life_told hreach).2 rfl, rfl⟩

end Lager
