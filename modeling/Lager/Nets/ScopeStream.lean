import Lager.Client.Interface
import Lager.Nets.ScopeTrace

set_option relaxedAutoImplicit false
set_option autoImplicit false

/-!
# Scope streams

A scope stream is paced by credits: the daemon may send as many captures as it has been granted,
four with the subscription and one more for each capture that was read. What this side takes off the
socket and does not grant again is lost to the stream. That happens to every frame that comes before
the reply to the subscription, and to every frame that does not decode.

## Main definitions

* `Lager.Scope.stream`, `Lager.ScopeStream.nextCapture` — the calls.
* `Lager.credits` — what was granted, less what was taken.
* `Lager.StreamRun` — the calls of a stream that returned, one after the other.

## Main results

* `Lager.credits_conserved_iff` — when the credits stay four.
* `Lager.credit_lost` — they do not in general.

## Implementation notes

The loops are given a number of rounds; a call that runs out of them has not returned. Opening the
socket is one operation, and so is closing it, whose failures nobody looks at.
-/

namespace Lager

open Library

/-! ## The socket -/

/-- `Message`: a message of a WebSocket. What control frames carry is left out. -/
inductive WsMessage
  | text (s : String)
  | binary (bytes : List UInt8)
  | ping
  | pong
  | frame
  | close
  deriving DecidableEq

/-- `tungstenite::Error`: a failure of the socket, a connection that is closed, or another error
with its text. -/
inductive WsError
  | io (failure : Failure)
  | closed
  | other (e : String)
  deriving DecidableEq

/-- What a stream does: open its socket, read the clock, send a command, read a message with a
timeout, close the socket. Times are in nanoseconds. -/
inductive ScopeOp
  | openSocket (timeout : ℕ)
  | now
  | send (command : Value)
  | read (timeout : ℕ)
  | close

/-- The answers. -/
def ScopeOp.Ans : ScopeOp → Type
  | openSocket _ => Except Error Unit
  | now => ℕ
  | send _ => Except WsError Unit
  | read _ => Except WsError WsMessage
  | close => Unit

/-- A part of a call. -/
abbrev ScopeAction := Program ScopeOp ScopeOp.Ans

/-- An operation of a stream with its answer. -/
abbrev ScopeEvent := Library.Event ScopeOp ScopeOp.Ans

/-- `ws_error`. -/
def wsError (context : String) : WsError → Error
  | .io failure =>
    if failure.timedOut then .timeout (.inContext context failure.message)
    else .connection (.inContext context failure.message)
  | .closed => .stream (.streamClosed context)
  | .other e => .stream (.streamFailed context e)

/-- `daemon_reply`. -/
def daemonReply [SerdeJson] (text command : String) : Except Error Value :=
  match SerdeJson.fromSlice (utf8 text) with
  | .error e => .error (.decode (.malformedReply command e))
  | .ok message =>
    let reply := (message.get "Response").getD message
    if (reply.get "response").bind Value.asStr = some "Error" then
      let detail := ((reply.get "message").bind Value.asStr).getD "unknown daemon error"
      .error (.stream (.scopeDaemon detail))
    else .ok reply

/-- `Socket::open`. -/
def Socket.open (timeout : ℕ) : ScopeAction (Except Error Unit) :=
  @Program.perform ScopeOp ScopeOp.Ans (.openSocket timeout)

namespace Socket

/-- `Instant::now`. -/
def now : ScopeAction ℕ := @Program.perform ScopeOp ScopeOp.Ans .now

/-- `WebSocket::read`. -/
def wsRead (timeout : ℕ) : ScopeAction (Except WsError WsMessage) :=
  @Program.perform ScopeOp ScopeOp.Ans (.read timeout)

/-- `WebSocket::send`. -/
def wsSend (command : Value) : ScopeAction (Except WsError Unit) :=
  @Program.perform ScopeOp ScopeOp.Ans (.send command)

/-- `Socket::close`. -/
def close : ScopeAction Unit := @Program.perform ScopeOp ScopeOp.Ans .close

section

variable {timeout : ℕ} {command : Value}

@[simp] theorem always_now {Q : List ScopeEvent → ℕ → Prop} :
    Always now Q ↔ ∀ t : ℕ, Q [⟨.now, t⟩] t := Iff.rfl

@[simp] theorem always_wsRead {Q : List ScopeEvent → Except WsError WsMessage → Prop} :
    Always (wsRead timeout) Q ↔
      ∀ answer : Except WsError WsMessage, Q [⟨.read timeout, answer⟩] answer := Iff.rfl

@[simp] theorem always_wsSend {Q : List ScopeEvent → Except WsError Unit → Prop} :
    Always (wsSend command) Q ↔
      ∀ answer : Except WsError Unit, Q [⟨.send command, answer⟩] answer := Iff.rfl

@[simp] theorem always_open {Q : List ScopeEvent → Except Error Unit → Prop} :
    Always (Socket.open timeout) Q ↔
      ∀ answer : Except Error Unit, Q [⟨.openSocket timeout, answer⟩] answer := Iff.rfl

@[simp] theorem always_close {Q : List ScopeEvent → Unit → Prop} :
    Always close Q ↔ ∀ answer : Unit, Q [⟨.close, answer⟩] answer := Iff.rfl

end

/-- `Socket::send`. -/
def send (command : Value) : ScopeAction (Except Error Unit) := do
  match ← wsSend command with
  | .ok _ => return .ok ()
  | .error e => return .error (wsError "sending a scope command" e)

/-- `Socket::read`: the next message before the deadline that is no control frame. `none` if the
rounds it is given do not suffice. -/
def read (deadline : ℕ) (waitingFor : String) : ℕ → ScopeAction (Option (Except Error WsMessage))
  | 0 => return none
  | rounds + 1 => do
    let remaining := deadline - (← now)
    if remaining = 0 then return some (.error (.timeout (.noneInTime waitingFor)))
    else
      match ← wsRead remaining with
      | .ok .close => return some (.error (.stream (.boxClosedStream waitingFor)))
      | .ok .ping | .ok .pong | .ok .frame => read deadline waitingFor rounds
      | .ok message => return some (.ok message)
      | .error (.io failure) =>
        if failure.timedOut then read deadline waitingFor rounds
        else return some (.error (wsError waitingFor (.io failure)))
      | .error e => return some (.error (wsError waitingFor e))

/-- `Socket::reply`: the reply to a command. The captures that come before it are skipped. -/
def reply [SerdeJson] (command : String) (deadline rounds : ℕ) :
    ℕ → ScopeAction (Option (Except Error Value))
  | 0 => return none
  | messages + 1 => do
    match ← read deadline (command ++ " reply") rounds with
    | none => return none
    | some (.error err) => return some (.error err)
    | some (.ok (.text text)) =>
      match daemonReply text command with
      | .error err => return some (.error err)
      | .ok answer =>
        if (answer.get "response").bind Value.asStr = some "State" then
          reply command deadline rounds messages
        else return some (.ok answer)
    | some (.ok _) => reply command deadline rounds messages

end Socket

/-! ## The calls -/

/-- `STREAM_CREDITS`. -/
def streamCredits : ℕ := 4

/-- The command that subscribes. -/
def subscribe : Value :=
  .object [("command", .string "Subscribe"), ("credits", .number streamCredits)]

/-- The command that grants a credit. -/
def grantCredit : Value := .object [("command", .string "Credit"), ("count", .number 1)]

/-- `Scope::stream`. What it returns is the socket. -/
def Scope.stream [SerdeJson] (timeout rounds : ℕ) : ScopeAction (Option (Except Error Unit)) := do
  match ← Socket.open timeout with
  | .error err => return some (.error err)
  | .ok _ =>
    match ← Socket.send subscribe with
    | .error err => return some (.error err)
    | .ok _ =>
      match ← Socket.reply "Subscribe" ((← Socket.now) + timeout) rounds rounds with
      | none => return none
      | some (.error err) =>
        Socket.close
        return some (.error err)
      | some (.ok _) => return some (.ok ())

namespace ScopeStream

/-- The loop of `next_capture`. -/
def nextCaptureLoop [SerdeJson] (deadline rounds : ℕ) :
    ℕ → ScopeAction (Option (Except Error ScopeCapture))
  | 0 => return none
  | messages + 1 => do
    match ← Socket.read deadline "a streamed capture" rounds with
    | none => return none
    | some (.error err) => return some (.error err)
    | some (.ok (.binary frame)) =>
      match ScopeCapture.decode frame with
      | .error err => return some (.error err)
      | .ok capture =>
        match ← Socket.send grantCredit with
        | .error err => return some (.error err)
        | .ok _ => return some (.ok capture)
    | some (.ok (.text text)) =>
      match daemonReply text "a stream" with
      | .error err => return some (.error err)
      | .ok _ => nextCaptureLoop deadline rounds messages
    | some (.ok _) => nextCaptureLoop deadline rounds messages

/-- `next_capture`. -/
def nextCapture [SerdeJson] (timeout rounds : ℕ) :
    ScopeAction (Option (Except Error ScopeCapture)) := do
  nextCaptureLoop ((← Socket.now) + timeout) rounds rounds

end ScopeStream

/-! ## Credits -/

/-- The credits a command grants. -/
def granted (command : Value) : ℤ :=
  match (command.get "credits").or (command.get "count") with
  | some (.number n) => n.num
  | _ => 0

/-- The credits granted by an operation: those of a command that was sent. -/
def ScopeEvent.granted : ScopeEvent → ℤ
  | ⟨.send command, .ok _⟩ => Lager.granted command
  | _ => 0

/-- The binary frame taken off the socket by an operation. -/
def ScopeEvent.frame : ScopeEvent → Option (List UInt8)
  | ⟨.read _, .ok (.binary frame)⟩ => some frame
  | _ => none

/-- The text or the frame taken off the socket by an operation. -/
def ScopeEvent.data : ScopeEvent → Option WsMessage
  | ⟨.read _, .ok (.text text)⟩ => some (.text text)
  | ⟨.read _, .ok (.binary frame)⟩ => some (.binary frame)
  | _ => none

/-- The socket did not fail: it opened, it sent, and no read came to anything worse than its
timeout. -/
def ScopeEvent.Works : ScopeEvent → Prop
  | ⟨.openSocket _, answer⟩ => ∃ a, answer = .ok a
  | ⟨.send _, answer⟩ => ∃ a, answer = .ok a
  | ⟨.read _, answer⟩ => ∀ e, answer = .error e → ∃ failure : Failure, e = .io failure ∧
      failure.timedOut = true
  | _ => True

/-- The credits granted by some operations. -/
def grants (events : List ScopeEvent) : ℤ := (events.map ScopeEvent.granted).sum

/-- The binary frames taken off the socket by some operations. -/
def taken (events : List ScopeEvent) : List (List UInt8) := events.filterMap ScopeEvent.frame

/-- The texts and the binary frames taken off the socket by some operations. -/
def received (events : List ScopeEvent) : List WsMessage := events.filterMap ScopeEvent.data

/-- The credits left: those granted, less the frames taken. -/
def credits (events : List ScopeEvent) : ℤ := grants events - (taken events).length

/-- A frame decodes. -/
def decodes (frame : List UInt8) : Bool := (ScopeCapture.decode frame).isOk

@[simp] theorem grants_nil : grants [] = 0 := rfl

@[simp] theorem grants_append (events events' : List ScopeEvent) :
    grants (events ++ events') = grants events + grants events' := by
  simp [grants]

@[simp] theorem grants_cons (e : ScopeEvent) (events : List ScopeEvent) :
    grants (e :: events) = e.granted + grants events := by
  simp [grants]

@[simp] theorem taken_nil : taken [] = [] := rfl

@[simp] theorem taken_append (events events' : List ScopeEvent) :
    taken (events ++ events') = taken events ++ taken events' := List.filterMap_append

@[simp] theorem taken_cons (e : ScopeEvent) (events : List ScopeEvent) :
    taken (e :: events) = e.frame.toList ++ taken events := by
  unfold taken
  cases h : e.frame with
  | none => rw [List.filterMap_cons_none h]; rfl
  | some frame => rw [List.filterMap_cons_some h]; rfl

@[simp] theorem received_nil : received [] = [] := rfl

@[simp] theorem received_append (events events' : List ScopeEvent) :
    received (events ++ events') = received events ++ received events' := List.filterMap_append

@[simp] theorem received_cons (e : ScopeEvent) (events : List ScopeEvent) :
    received (e :: events) = e.data.toList ++ received events := by
  unfold received
  cases h : e.data with
  | none => rw [List.filterMap_cons_none h]; rfl
  | some message => rw [List.filterMap_cons_some h]; rfl

/-! ## What the calls do to the credits -/

/-- The frame among what a read came to. -/
def readFrame : Option (Except Error WsMessage) → List (List UInt8)
  | some (.ok (.binary frame)) => [frame]
  | _ => []

/-- The text or the frame among what a read came to. -/
def readData : Option (Except Error WsMessage) → List WsMessage
  | some (.ok (.text text)) => [.text text]
  | some (.ok (.binary frame)) => [.binary frame]
  | _ => []

/-- A read grants nothing, and the only text or frame it takes is the one it returns.

**Proof sketch.** Induction on the rounds: what a round skips is no frame. -/
theorem Socket.read_spec (deadline : ℕ) (waitingFor : String) (rounds : ℕ) :
    Always (Socket.read deadline waitingFor rounds) fun events r =>
      grants events = 0 ∧ taken events = readFrame r ∧ received events = readData r := by
  induction rounds with
  | zero => exact ⟨rfl, rfl, rfl⟩
  | succ rounds ih =>
    have hskip : ∀ (now : ℕ) (timeout : ℕ) (answer : Except WsError WsMessage),
        ScopeEvent.frame ⟨.read timeout, answer⟩ = none →
        ScopeEvent.data ⟨.read timeout, answer⟩ = none →
        Always (Socket.read deadline waitingFor rounds) fun events r =>
          grants (⟨.now, now⟩ :: ⟨.read timeout, answer⟩ :: events) = 0 ∧
            taken (⟨.now, now⟩ :: ⟨.read timeout, answer⟩ :: events) = readFrame r ∧
            received (⟨.now, now⟩ :: ⟨.read timeout, answer⟩ :: events) = readData r := by
      intro now timeout answer hframe hdata
      refine ih.mono ?_
      rintro events r ⟨hgrants, htaken, hreceived⟩
      have hclock : ScopeEvent.frame ⟨.now, now⟩ = none := rfl
      have hclock' : ScopeEvent.data ⟨.now, now⟩ = none := rfl
      simp [ScopeEvent.granted, hgrants, htaken, hreceived, hframe, hdata, hclock, hclock']
    simp only [Socket.read, always_bind, always_now]
    intro now
    split_ifs with hlate
    · exact ⟨rfl, rfl, rfl⟩
    · simp only [always_bind, always_wsRead]
      rintro ((failure | _ | e) | text | frame | _ | _ | _ | _)
      · dsimp only
        split_ifs
        · exact hskip now _ _ rfl rfl
        · exact ⟨rfl, rfl, rfl⟩
      · exact ⟨rfl, rfl, rfl⟩
      · exact ⟨rfl, rfl, rfl⟩
      · exact ⟨rfl, rfl, rfl⟩
      · exact ⟨rfl, rfl, rfl⟩
      · exact hskip now _ _ rfl rfl
      · exact hskip now _ _ rfl rfl
      · exact hskip now _ _ rfl rfl
      · exact ⟨rfl, rfl, rfl⟩

/-- Waiting for a reply grants nothing. -/
theorem Socket.reply_spec [SerdeJson] (command : String) (deadline rounds messages : ℕ) :
    Always (Socket.reply command deadline rounds messages) fun events _ => grants events = 0 := by
  induction messages with
  | zero => rfl
  | succ messages ih =>
    simp only [Socket.reply, always_bind]
    refine (Socket.read_spec deadline (command ++ " reply") rounds).mono ?_
    rintro events answer ⟨hgrants, -, -⟩
    have hagain : Always (Socket.reply command deadline rounds messages) fun events' _ =>
        grants (events ++ events') = 0 := by
      refine ih.mono ?_
      intro events' _ hrest
      simp [hgrants, hrest]
    have hdone : grants (events ++ []) = 0 := by
      simp [hgrants]
    rcases answer with _ | err | text | frame | _ | _ | _ | _
    · exact hdone
    · exact hdone
    · dsimp only
      cases daemonReply text command with
      | error err => exact hdone
      | ok answer =>
        dsimp only
        split_ifs
        · exact hagain
        · exact hdone
    all_goals exact hagain

/-- A call of `stream` that returned has granted four credits, if the socket works. -/
theorem Scope.stream_spec [SerdeJson] (timeout rounds : ℕ) :
    Always (Scope.stream timeout rounds) fun events r => r.isSome →
      (∀ e ∈ events, ScopeEvent.Works e) → grants events = 4 := by
  have hsubscribe : Lager.granted subscribe = 4 := by
    rfl
  simp only [Scope.stream, Socket.send, always_bind, Socket.always_open]
  intro opened
  cases opened with
  | error err =>
    intro _ hworks
    obtain ⟨a, ha⟩ := hworks _ List.mem_cons_self
    cases ha
  | ok _ =>
    simp only [always_bind, Socket.always_wsSend]
    intro sent
    cases sent with
    | error e =>
      intro _ hworks
      obtain ⟨a, ha⟩ := hworks _ (List.mem_cons_of_mem _ List.mem_cons_self)
      cases ha
    | ok _ =>
      simp only [always_bind, always_pure, Socket.always_now]
      intro start
      refine (Socket.reply_spec "Subscribe" (start + timeout) rounds rounds).mono ?_
      intro events answer hreply
      rcases answer with _ | err | answer
      · intro hsome
        cases hsome
      · simp only [always_bind, always_pure, Socket.always_close]
        intro _ _ _
        simp [ScopeEvent.granted, hsubscribe, hreply]
      · intro _ _
        simp [ScopeEvent.granted, hsubscribe, hreply]

/-- A call of `next_capture` that returned has granted a credit for each frame it took that decodes,
if the socket works.

**Proof sketch.** Induction on the messages the loop may take: it goes on only after one that is no
frame. -/
theorem ScopeStream.nextCaptureLoop_spec [SerdeJson] (deadline rounds messages : ℕ) :
    Always (ScopeStream.nextCaptureLoop deadline rounds messages) fun events r =>
      r.isSome → (∀ e ∈ events, ScopeEvent.Works e) →
        grants events = (taken events).countP decodes := by
  induction messages with
  | zero =>
    intro hsome
    cases hsome
  | succ messages ih =>
    simp only [ScopeStream.nextCaptureLoop, always_bind]
    refine (Socket.read_spec deadline "a streamed capture" rounds).mono ?_
    rintro events answer ⟨hgrants, htaken, -⟩
    have hagain : taken events = [] →
        Always (ScopeStream.nextCaptureLoop deadline rounds messages) fun events' r =>
          r.isSome → (∀ e ∈ events ++ events', ScopeEvent.Works e) →
            grants (events ++ events') = (taken (events ++ events')).countP decodes := by
      intro hnone
      refine ih.mono ?_
      intro events' r hrest hsome hworks
      have hsame := hrest hsome fun e he => hworks e (List.mem_append_right events he)
      simpa [hgrants, hnone] using hsame
    have hdone : taken events = [] → ∀ (r : Option (Except Error ScopeCapture)), r.isSome →
        (∀ e ∈ events ++ [], ScopeEvent.Works e) →
          grants (events ++ []) = (taken (events ++ [])).countP decodes := by
      intro hnone _ _ _
      simp [hgrants, hnone]
    rcases answer with _ | err | text | frame | _ | _ | _ | _
    · exact hdone htaken none
    · exact hdone htaken (some (.error err))
    · dsimp only
      cases daemonReply text "a stream" with
      | error err => exact hdone htaken (some (.error err))
      | ok answer => exact hagain htaken
    · dsimp only
      cases hdecode : ScopeCapture.decode frame with
      | error err =>
        intro _ _
        have hbad : decodes frame = false := by
          rw [decodes, hdecode]
          rfl
        simp [hgrants, htaken, readFrame, hbad]
      | ok capture =>
        have hgood : decodes frame = true := by
          rw [decodes, hdecode]
          rfl
        have hcredit : Lager.granted grantCredit = 1 := by
          rfl
        simp only [Socket.send, always_bind, Socket.always_wsSend]
        intro sent
        cases sent with
        | error e =>
          intro _ hworks
          obtain ⟨a, ha⟩ := hworks ⟨.send grantCredit, .error e⟩ (by simp)
          cases ha
        | ok _ =>
          intro _ _
          simp [hgrants, htaken, readFrame, hgood, ScopeEvent.granted, ScopeEvent.frame, hcredit]
    all_goals exact hagain htaken

/-- The same of `next_capture`. -/
theorem ScopeStream.nextCapture_spec [SerdeJson] (timeout rounds : ℕ) :
    Always (ScopeStream.nextCapture timeout rounds) fun events r =>
      r.isSome → (∀ e ∈ events, ScopeEvent.Works e) →
        grants events = (taken events).countP decodes := by
  simp only [ScopeStream.nextCapture, always_bind, Socket.always_now]
  intro start
  refine (ScopeStream.nextCaptureLoop_spec (start + timeout) rounds rounds).mono ?_
  intro events r hrest hsome hworks
  have hsame := hrest hsome fun e he => hworks e (List.mem_cons_of_mem _ he)
  simpa [ScopeEvent.granted, ScopeEvent.frame] using hsame

/-! ## Runs -/

/-- The calls of a stream that returned, one after the other: `stream`, and if it was successful,
calls of `next_capture`. -/
structure StreamRun [SerdeJson] (opening : List ScopeEvent) (captures : List (List ScopeEvent)) :
    Prop where
  opened : ∃ timeout rounds result, Run (Scope.stream timeout rounds) opening (some result) ∧
    (captures ≠ [] → result = .ok ())
  captured : ∀ events ∈ captures, ∃ timeout rounds result,
    Run (ScopeStream.nextCapture timeout rounds) events (some result)

/-- The socket does not fail in a run. -/
def SocketWorks (opening : List ScopeEvent) (captures : List (List ScopeEvent)) : Prop :=
  ∀ e ∈ opening ++ captures.flatten, ScopeEvent.Works e

/-- After every return the credits are four. -/
def CreditsConserved (opening : List ScopeEvent) (captures : List (List ScopeEvent)) : Prop :=
  ∀ k, credits (opening ++ (captures.take k).flatten) = 4

/-- What the calls of `next_capture` have granted: a credit for each frame that decodes. -/
theorem grants_flatten {captures : List (List ScopeEvent)}
    (h : ∀ events ∈ captures, grants events = (taken events).countP decodes) :
    grants captures.flatten = (taken captures.flatten).countP decodes := by
  induction captures with
  | nil => rfl
  | cons events captures ih =>
    obtain ⟨hfirst, hrest⟩ := List.forall_mem_cons.mp h
    simp [hfirst, ih hrest]

/-- **The credits of a stream.** If the socket does not fail, the credits are four after every
return exactly when no frame comes before the reply to the subscription, and every frame that
`next_capture` takes decodes.

**Proof sketch.** `stream` grants four, and `next_capture` one for each frame it takes that decodes.
So the credits are four less the frames that `stream` takes, less those that do not decode. -/
theorem credits_conserved_iff [SerdeJson] {opening : List ScopeEvent}
    {captures : List (List ScopeEvent)} (hrun : StreamRun opening captures)
    (hworks : SocketWorks opening captures) :
    CreditsConserved opening captures ↔
      taken opening = [] ∧ ∀ frame ∈ taken captures.flatten, decodes frame = true := by
  have hopening : grants opening = 4 := by
    obtain ⟨timeout, rounds, result, hopened, -⟩ := hrun.opened
    exact always_iff_run.mp (Scope.stream_spec timeout rounds) _ _ hopened rfl fun e he =>
      hworks e (List.mem_append_left _ he)
  have hcaptures : ∀ events ∈ captures, grants events = (taken events).countP decodes := by
    intro events hevents
    obtain ⟨timeout, rounds, result, hcaptured⟩ := hrun.captured events hevents
    exact always_iff_run.mp (ScopeStream.nextCapture_spec timeout rounds) _ _ hcaptured rfl
      fun e he => hworks e (List.mem_append_right _ (List.mem_flatten_of_mem hevents he))
  have hcredits : ∀ k, credits (opening ++ (captures.take k).flatten) =
      4 - (taken opening).length + ((taken (captures.take k).flatten).countP decodes -
        (taken (captures.take k).flatten).length) := by
    intro k
    have hgrants := @grants_flatten (captures.take k) fun events hevents =>
      hcaptures events (List.mem_of_mem_take hevents)
    simp only [credits, grants_append, taken_append, List.length_append, hopening, hgrants]
    push_cast
    ring
  unfold CreditsConserved
  constructor
  · intro hconserved
    have hfirst := hconserved 0
    have hlast := hconserved captures.length
    rw [hcredits] at hfirst hlast
    rw [List.take_length] at hlast
    simp only [List.take_zero, List.flatten_nil, taken_nil, List.countP_nil, List.length_nil]
      at hfirst
    have hall : (taken captures.flatten).countP decodes = (taken captures.flatten).length := by
      omega
    exact ⟨List.length_eq_zero_iff.mp (by omega), List.countP_eq_length.mp hall⟩
  · rintro ⟨hnone, hall⟩ k
    have hprefix : ∀ frame ∈ taken (captures.take k).flatten, decodes frame = true := by
      intro frame hframe
      refine hall frame ?_
      have hsplit : captures.flatten =
          (captures.take k).flatten ++ (captures.drop k).flatten := by
        rw [← List.flatten_append, List.take_append_drop]
      rw [hsplit, taken_append]
      exact List.mem_append_left _ hframe
    rw [hcredits, List.countP_eq_length.mpr hprefix, hnone]
    simp

/-- The reply to a subscription. -/
def subscribedText : String := "\x7b\"response\":\"Subscribed\"\x7d"

/-- A parser that knows the reply to a subscription. -/
@[reducible] def subscribedJson : SerdeJson :=
  .only (utf8 subscribedText) (.object [("response", .string "Subscribed")])

/-- A subscription with a reply at once. -/
def subscribed : List ScopeEvent :=
  [⟨.openSocket 1, .ok ()⟩, ⟨.send subscribe, .ok ()⟩, ⟨.now, (0 : ℕ)⟩, ⟨.now, (0 : ℕ)⟩,
    ⟨.read 1, .ok (.text subscribedText)⟩]

/-- A message that comes at once is read. -/
theorem run_read {message : WsMessage} (waitingFor : String) (h : readFrame
    (some (.ok message)) ≠ [] ∨ ∃ text, message = .text text) :
    Run (Socket.read 1 waitingFor 1) [⟨.now, (0 : ℕ)⟩, ⟨.read 1, .ok message⟩]
      (some (.ok message)) := by
  have hnow : Run Socket.now [⟨.now, (0 : ℕ)⟩] 0 := @run_perform ScopeOp ScopeOp.Ans .now (0 : ℕ)
  have hread : Run (Socket.wsRead 1) [⟨.read 1, .ok message⟩] (.ok message) :=
    @run_perform ScopeOp ScopeOp.Ans (.read 1) (Except.ok message)
  refine hnow.bind (hread.bind_quiet ?_)
  cases message with
  | text | binary => exact .pure _
  | ping | pong | frame | close => simp [readFrame] at h

/-- It is a run of `stream`. -/
theorem run_subscribed :
    Run (@Scope.stream subscribedJson 1 1) subscribed (some (.ok ())) := by
  have hparse : @SerdeJson.fromSlice subscribedJson (utf8 subscribedText) =
      .ok (.object [("response", .string "Subscribed")]) := if_pos rfl
  have hreply : @daemonReply subscribedJson subscribedText "Subscribe" =
      .ok (.object [("response", .string "Subscribed")]) := by
    simp [daemonReply, hparse, Value.get, Value.asStr, List.lookup_cons]
  have hopen : Run (Socket.open 1) [⟨.openSocket 1, .ok ()⟩] (.ok ()) :=
    @run_perform ScopeOp ScopeOp.Ans (.openSocket 1) (Except.ok ())
  have hsend : Run (Socket.send subscribe) [⟨.send subscribe, .ok ()⟩] (.ok ()) :=
    (@run_perform ScopeOp ScopeOp.Ans (.send subscribe) (Except.ok ())).bind (.pure _)
  have hnow : Run Socket.now [⟨.now, (0 : ℕ)⟩] 0 := @run_perform ScopeOp ScopeOp.Ans .now (0 : ℕ)
  have hread := run_read ("Subscribe" ++ " reply") (.inr ⟨subscribedText, rfl⟩)
  have hanswer : Run (@Socket.reply subscribedJson "Subscribe" 1 1 1)
      [⟨.now, (0 : ℕ)⟩, ⟨.read 1, .ok (.text subscribedText)⟩]
      (some (.ok (.object [("response", .string "Subscribed")]))) := by
    refine hread.bind_quiet ?_
    simp only [hreply]
    exact .pure _
  exact hopen.bind (hsend.bind (hnow.bind (hanswer.bind (.pure _))))

/-- A call of `next_capture` that reads a frame at once. -/
def frameCall (frame : List UInt8) : List ScopeEvent :=
  [⟨.now, (0 : ℕ)⟩, ⟨.now, (0 : ℕ)⟩, ⟨.read 1, .ok (.binary frame)⟩] ++
    if decodes frame then [⟨.send grantCredit, .ok ()⟩] else []

/-- It is a run of `next_capture`. -/
theorem run_frameCall [SerdeJson] (frame : List UInt8) : Run (ScopeStream.nextCapture 1 1)
    (frameCall frame) (some (ScopeCapture.decode frame)) := by
  have hnow : Run Socket.now [⟨.now, (0 : ℕ)⟩] 0 := @run_perform ScopeOp ScopeOp.Ans .now (0 : ℕ)
  have hread := @run_read (.binary frame) "a streamed capture" (.inl (by simp [readFrame]))
  have hsend : Run (Socket.send grantCredit) [⟨.send grantCredit, .ok ()⟩] (.ok ()) :=
    (@run_perform ScopeOp ScopeOp.Ans (.send grantCredit) (Except.ok ())).bind (.pure _)
  refine hnow.bind (hread.bind ?_)
  dsimp only
  unfold decodes
  cases ScopeCapture.decode frame with
  | error err => exact .pure _
  | ok capture => exact hsend.bind (.pure _)

/-- A subscription with one such call is a run of a stream. -/
theorem streamRun_frameCall (frame : List UInt8) :
    @StreamRun subscribedJson subscribed [frameCall frame] := by
  refine @StreamRun.mk subscribedJson _ _ ⟨1, 1, .ok (), run_subscribed, fun _ => rfl⟩ ?_
  intro events hevents
  rw [List.mem_singleton.mp hevents]
  exact ⟨1, 1, _, @run_frameCall subscribedJson frame⟩

/-- The socket works in it. -/
theorem socketWorks_frameCall (frame : List UInt8) :
    SocketWorks subscribed [frameCall frame] := by
  intro e he
  unfold frameCall at he
  split_ifs at he
  all_goals
    simp only [subscribed, List.cons_append, List.nil_append, List.append_nil, List.flatten_cons,
      List.flatten_nil, List.mem_cons, List.not_mem_nil, or_false] at he
    rcases he with rfl | rfl | rfl | rfl | rfl | rfl | rfl | rfl | rfl
    all_goals first
      | exact ⟨(), rfl⟩
      | simp [ScopeEvent.Works]

/-- A frame without channels. -/
def emptyFrame : List UInt8 := [0x4C, 0x53, 0x43, 0x50, 1, 0] ++ List.replicate 58 0

/-- The credits stay four in a run with a capture. -/
theorem credits_conserved_capture : CreditsConserved subscribed [frameCall emptyFrame] := by
  refine (@credits_conserved_iff subscribedJson _ _ (streamRun_frameCall emptyFrame)
    (socketWorks_frameCall emptyFrame)).mpr ⟨rfl, ?_⟩
  decide +kernel

/-- A frame that does not decode costs a credit. -/
theorem credit_lost : ¬ ∀ (serde : SerdeJson) (opening : List ScopeEvent)
    (captures : List (List ScopeEvent)), @StreamRun serde opening captures →
      SocketWorks opening captures → CreditsConserved opening captures := by
  intro hconserved
  have hcredits := hconserved subscribedJson subscribed _ (streamRun_frameCall [])
    (socketWorks_frameCall []) 1
  have hlost : credits (subscribed ++ [frameCall []].flatten) = 3 := by decide +kernel
  rw [show [frameCall []].take 1 = [frameCall []] from rfl, hlost] at hcredits
  cases hcredits

end Lager
