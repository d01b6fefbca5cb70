import Lager.Library.Licensed
import Lager.Library.Pacing
import Lager.Nets.ScopeStream

set_option relaxedAutoImplicit false
set_option autoImplicit false

/-!
# Scope streams under way

A scope stream has two sides and a connection between them. This side is a program; the daemon is
only known to push a capture when it has room, which the credits give it. Their steps may come in
any order, what is under way may take any time to arrive, and the connection may fail. Then there
are never more than four captures that this side has not read, and those that `next_capture`
returns are those that were pushed, in their order.

## Main definitions

* `Lager.Scope.watch` — a stream from its opening to its drop.
* `Lager.ScopeNet`, `Lager.ScopeNet.Step` — the connection, and what the two sides do to it.
* `Lager.CaptureCall` — what a call of `next_capture` can do.

## Main results

* `Lager.ScopeNet.Step.pace` — the connection is a paced channel.
* `Lager.backlog_le_credits` — no backlog grows.
* `Lager.captures_in_order` — no capture is lost, doubled or moved on the way.

## Implementation notes

The daemon is no part of this repository. What is said of it is what the comments on `stream` and
`STREAM_CREDITS` say.
-/

namespace Lager

open Library

/-! ## A stream in use -/

namespace ScopeStream

/-- Calls of `next_capture` with the timeouts given, and then the stream is dropped. -/
def captures [SerdeJson] (rounds : ℕ) :
    List ℕ → ScopeAction (List (Except Error ScopeCapture))
  | [] => do
    Socket.close
    return []
  | timeout :: timeouts => do
    match ← nextCapture timeout rounds with
    | none => return []
    | some result => return result :: (← captures rounds timeouts)

end ScopeStream

/-- A stream from its opening to its drop, with what its calls of `next_capture` returned. -/
def Scope.watch [SerdeJson] (timeout rounds : ℕ) (timeouts : List ℕ) :
    ScopeAction (List (Except Error ScopeCapture)) := do
  match ← Scope.stream timeout rounds with
  | some (.ok _) => ScopeStream.captures rounds timeouts
  | _ => return []

/-- The captures among some results. -/
def captured (results : List (Except Error ScopeCapture)) : List ScopeCapture :=
  results.filterMap Except.toOption

/-- The capture of a frame, if it decodes. -/
def decoded (frame : List UInt8) : Option ScopeCapture := (ScopeCapture.decode frame).toOption

/-! ## What this side asks for -/

/-- The credits that a command grants, once the daemon has it. -/
def credit (command : Value) : ℕ := (granted command).toNat

/-- The credits an operation asks the daemon to note, whether or not its command gets there. -/
def ScopeEvent.asks : ScopeEvent → ℕ
  | ⟨.send command, _⟩ => credit command
  | _ => 0

/-- The credits that some operations ask the daemon to note. -/
def asks (events : List ScopeEvent) : ℕ := (events.map ScopeEvent.asks).sum

@[simp] theorem asks_nil : asks [] = 0 := rfl

@[simp] theorem asks_cons (e : ScopeEvent) (events : List ScopeEvent) :
    asks (e :: events) = e.asks + asks events := by
  simp [asks]

@[simp] theorem asks_append (events events' : List ScopeEvent) :
    asks (events ++ events') = asks events + asks events' := by
  simp [asks]

/-- A read asks for nothing. -/
theorem Socket.read_asks (deadline : ℕ) (waitingFor : String) (rounds : ℕ) :
    Always (Socket.read deadline waitingFor rounds) fun events _ => asks events = 0 := by
  induction rounds with
  | zero => rfl
  | succ rounds ih =>
    have hskip : ∀ (now timeout : ℕ) (answer : Except WsError WsMessage),
        Always (Socket.read deadline waitingFor rounds) fun events _ =>
          asks (⟨.now, now⟩ :: ⟨.read timeout, answer⟩ :: events) = 0 := by
      intro now timeout answer
      refine ih.mono ?_
      intro events _ hasks
      simp [ScopeEvent.asks, hasks]
    simp only [Socket.read, always_bind, always_now]
    intro now
    split_ifs with hlate
    · rfl
    · simp only [always_bind, always_wsRead]
      rintro ((failure | _ | e) | text | frame | _ | _ | _ | _)
      · dsimp only
        split_ifs
        · exact hskip now _ _
        · rfl
      all_goals first
        | rfl
        | exact hskip now _ _

/-- Waiting for a reply asks for nothing. -/
theorem Socket.reply_asks [SerdeJson] (command : String) (deadline rounds messages : ℕ) :
    Always (Socket.reply command deadline rounds messages) fun events _ => asks events = 0 := by
  induction messages with
  | zero => rfl
  | succ messages ih =>
    simp only [Socket.reply, always_bind]
    refine (Socket.read_asks deadline (command ++ " reply") rounds).mono ?_
    intro events answer hasks
    have hagain : Always (Socket.reply command deadline rounds messages) fun events' _ =>
        asks (events ++ events') = 0 := by
      refine ih.mono ?_
      intro events' _ hrest
      simp [hasks, hrest]
    have hdone : asks (events ++ []) = 0 := by
      simp [hasks]
    rcases answer with _ | err | text | frame | _ | _ | _ | _
    · exact hdone
    · exact hdone
    · dsimp only
      cases daemonReply text command with
      | error err => exact hdone
      | ok answer =>
        dsimp only
        split_ifs
        · exact hagain
        · exact hdone
    all_goals exact hagain

/-- The subscription asks for four credits. -/
theorem credit_subscribe : credit subscribe = streamCredits := by
  rfl

/-- The command after a capture asks for one. -/
theorem credit_grantCredit : credit grantCredit = 1 := by
  rfl

/-! ## The calls -/

/-- What a call of `stream` does: its socket fails, or it subscribes and asks for nothing else. -/
inductive OpeningCall : List ScopeEvent → Prop
  | failed {events : List ScopeEvent} (hasks : asks events = 0)
      (hfailed : ∃ e ∈ events, ¬ ScopeEvent.Works e) : OpeningCall events
  | subscribed {before after : List ScopeEvent} {answer : Except WsError Unit}
      (hbefore : asks before = 0) (hafter : asks after = 0) :
      OpeningCall (before ++ ⟨.send subscribe, answer⟩ :: after)

/-- What a call of `next_capture` does: it takes no frame, or one that does not decode, or one that
it asks for a credit for. -/
inductive CaptureCall : List ScopeEvent → Option (Except Error ScopeCapture) → Prop
  | nothing {events : List ScopeEvent} {r : Option (Except Error ScopeCapture)}
      (hasks : asks events = 0) (htaken : taken events = [])
      (hr : ∀ capture, r ≠ some (.ok capture)) : CaptureCall events r
  | undecoded {events : List ScopeEvent} {frame : List UInt8} {err : Error}
      (hasks : asks events = 0) (htaken : taken events = [frame])
      (hdecode : ScopeCapture.decode frame = .error err) : CaptureCall events (some (.error err))
  | credited {events : List ScopeEvent} {frame : List UInt8} {capture : ScopeCapture}
      (hasks : asks events = 0) (htaken : taken events = [frame])
      (hdecode : ScopeCapture.decode frame = .ok capture) :
      CaptureCall (events ++ [⟨.send grantCredit, .ok ()⟩]) (some (.ok capture))
  | uncredited {events : List ScopeEvent} {frame : List UInt8} {err : Error} {e : WsError}
      (hasks : asks events = 0) (htaken : taken events = [frame]) :
      CaptureCall (events ++ [⟨.send grantCredit, .error e⟩]) (some (.error err))

/-- Operations that ask for nothing and take nothing may come before. -/
theorem CaptureCall.after {before events : List ScopeEvent}
    {r : Option (Except Error ScopeCapture)} (h : CaptureCall events r) (hasks : asks before = 0)
    (htaken : taken before = []) : CaptureCall (before ++ events) r := by
  cases h with
  | nothing hasks' htaken' hr =>
    exact .nothing (by simp [hasks, hasks']) (by simp [htaken, htaken']) hr
  | undecoded hasks' htaken' hdecode =>
    exact .undecoded (by simp [hasks, hasks']) (by simp [htaken, htaken']) hdecode
  | credited hasks' htaken' hdecode =>
    rw [← List.append_assoc]
    exact .credited (by simp [hasks, hasks']) (by simp [htaken, htaken']) hdecode
  | @uncredited _ frame _ _ hasks' htaken' =>
    rw [← List.append_assoc]
    exact @CaptureCall.uncredited _ frame _ _ (by simp [hasks, hasks']) (by simp [htaken, htaken'])

/-- The calls of `stream`. -/
theorem Scope.stream_opens [SerdeJson] (timeout rounds : ℕ) :
    Always (Scope.stream timeout rounds) fun events _ => OpeningCall events := by
  simp only [Scope.stream, Socket.send, always_bind, Socket.always_open]
  intro opened
  cases opened with
  | error err =>
    refine .failed rfl ⟨_, List.mem_cons_self, ?_⟩
    rintro ⟨a, ha⟩
    cases ha
  | ok _ =>
    simp only [always_bind, Socket.always_wsSend]
    intro sent
    cases sent with
    | error e => exact @OpeningCall.subscribed [⟨.openSocket timeout, .ok ()⟩] [] _ rfl rfl
    | ok _ =>
      simp only [always_bind, always_pure, Socket.always_now]
      intro start
      refine (Socket.reply_asks "Subscribe" (start + timeout) rounds rounds).mono ?_
      intro events answer hreply
      have hcall : ∀ closing : List ScopeEvent, asks closing = 0 → OpeningCall
          (⟨.openSocket timeout, .ok ()⟩ :: ⟨.send subscribe, .ok ()⟩ :: ⟨.now, start⟩ ::
            (events ++ closing)) := by
        intro closing hclosing
        exact @OpeningCall.subscribed [⟨.openSocket timeout, .ok ()⟩] _ _ rfl
          (by simp [ScopeEvent.asks, hreply, hclosing])
      rcases answer with _ | err | answer
      · exact hcall [] rfl
      · simp only [always_bind, always_pure, Socket.always_close]
        intro closed
        exact hcall [⟨.close, closed⟩] rfl
      · exact hcall [] rfl

/-- The calls of `next_capture`.

**Proof sketch.** Induction on the messages the loop may take. It goes on only after one that is no
frame, and a read takes at most the frame it returns. -/
theorem ScopeStream.nextCaptureLoop_call [SerdeJson] (deadline rounds messages : ℕ) :
    Always (ScopeStream.nextCaptureLoop deadline rounds messages) CaptureCall := by
  induction messages with
  | zero => exact .nothing rfl rfl (by simp)
  | succ messages ih =>
    simp only [ScopeStream.nextCaptureLoop, always_bind]
    refine ((Socket.read_spec deadline "a streamed capture" rounds).and
      (Socket.read_asks deadline "a streamed capture" rounds)).mono ?_
    rintro events answer ⟨⟨-, htaken, -⟩, hasks⟩
    have hagain : taken events = [] →
        Always (ScopeStream.nextCaptureLoop deadline rounds messages) fun events' r =>
          CaptureCall (events ++ events') r := by
      intro hnone
      refine ih.mono ?_
      intro events' r hcall
      exact hcall.after hasks hnone
    have hdone : taken events = [] → ∀ r : Option (Except Error ScopeCapture),
        (∀ capture, r ≠ some (.ok capture)) → CaptureCall (events ++ []) r := by
      intro hnone r hr
      exact .nothing (by simp [hasks]) (by simp [hnone]) hr
    rcases answer with _ | err | text | frame | _ | _ | _ | _
    · exact hdone htaken none (by simp)
    · exact hdone htaken (some (.error err)) (by simp)
    · dsimp only
      cases daemonReply text "a stream" with
      | error err => exact hdone htaken (some (.error err)) (by simp)
      | ok answer => exact hagain htaken
    · dsimp only
      cases hdecode : ScopeCapture.decode frame with
      | error err => exact .undecoded (by simp [hasks]) (by simp [htaken, readFrame]) hdecode
      | ok capture =>
        simp only [Socket.send, always_bind, Socket.always_wsSend]
        intro sent
        cases sent with
        | error e => exact .uncredited hasks htaken
        | ok _ => exact .credited hasks htaken hdecode
    all_goals exact hagain htaken

/-- The same of `next_capture`. -/
theorem ScopeStream.nextCapture_call [SerdeJson] (timeout rounds : ℕ) :
    Always (ScopeStream.nextCapture timeout rounds) CaptureCall := by
  simp only [ScopeStream.nextCapture, always_bind, Socket.always_now]
  intro start
  refine (ScopeStream.nextCaptureLoop_call (start + timeout) rounds rounds).mono ?_
  intro events r hcall
  exact @CaptureCall.after [⟨.now, start⟩] _ _ hcall rfl rfl

/-! ## What a stream keeps to -/

/-- As much as may have been asked for by now: four credits, and one for each frame taken. -/
def Within (events : List ScopeEvent) : Prop := asks events ≤ streamCredits + (taken events).length

/-- An operation keeps within that. -/
def MayAsk (past : List ScopeEvent) (e : ScopeEvent) : Prop := Within (past ++ [e])

/-- Within what may be asked for before, within it afterwards. -/
theorem Within.append {past events : List ScopeEvent} (h : Within past)
    (hevents : Licensed MayAsk past events) : Within (past ++ events) := by
  induction events generalizing past with
  | nil => simpa using h
  | cons e events ih =>
    have hlater := ih hevents.1 hevents.2
    rwa [List.append_assoc] at hlater

/-- Operations that ask for nothing are free. -/
theorem Within.licensed {past events : List ScopeEvent} (h : Within past)
    (hasks : asks events = 0) : Licensed MayAsk past events := by
  induction events generalizing past with
  | nil => trivial
  | cons e events ih =>
    rw [asks_cons, Nat.add_eq_zero_iff] at hasks
    have hfirst : Within (past ++ [e]) := by
      simp only [Within, asks_append, asks_cons, asks_nil, taken_append, List.length_append] at h ⊢
      omega
    exact ⟨hfirst, ih hfirst hasks.2⟩

/-- A call of `stream` keeps within what may be asked for. -/
theorem OpeningCall.licensed {events : List ScopeEvent} (h : OpeningCall events) :
    Licensed MayAsk [] events := by
  have hstart : Within [] := Nat.zero_le _
  cases h with
  | failed hasks _ => exact hstart.licensed hasks
  | @subscribed before after answer hbefore hafter =>
    have hsent : Within (before ++ [⟨.send subscribe, answer⟩]) := by
      simp only [Within, asks_append, asks_cons, asks_nil, hbefore, ScopeEvent.asks,
        credit_subscribe]
      omega
    exact (hstart.licensed hbefore).append ⟨hsent, hsent.licensed hafter⟩

/-- If the socket works, it asks for four credits. -/
theorem OpeningCall.asks_eq {events : List ScopeEvent} (h : OpeningCall events)
    (hworks : ∀ e ∈ events, ScopeEvent.Works e) : asks events = streamCredits := by
  cases h with
  | failed _ hfailed =>
    obtain ⟨e, he, hnot⟩ := hfailed
    exact absurd (hworks e he) hnot
  | subscribed hbefore hafter =>
    simp [hbefore, hafter, ScopeEvent.asks, credit_subscribe]

/-- A call of `next_capture` keeps within what may be asked for: it takes a frame before it asks for
a credit. -/
theorem CaptureCall.licensed {past events : List ScopeEvent}
    {r : Option (Except Error ScopeCapture)} (h : CaptureCall events r) (hpast : Within past) :
    Licensed MayAsk past events := by
  have hcredit : ∀ (before : List ScopeEvent) (frame : List UInt8) (answer : Except WsError Unit),
      asks before = 0 → taken before = [frame] →
        Licensed MayAsk past (before ++ [⟨.send grantCredit, answer⟩]) := by
    intro before frame answer hasks htaken
    refine (hpast.licensed hasks).append ⟨?_, trivial⟩
    simp only [MayAsk, Within, asks_append, asks_cons, asks_nil, taken_append, hasks, htaken,
      ScopeEvent.asks, credit_grantCredit, List.length_append, List.length_singleton] at hpast ⊢
    omega
  cases h with
  | nothing hasks _ _ => exact hpast.licensed hasks
  | undecoded hasks _ _ => exact hpast.licensed hasks
  | credited hasks htaken _ => exact hcredit _ _ _ hasks htaken
  | uncredited hasks htaken => exact hcredit _ _ _ hasks htaken

/-- What calls of `next_capture` keep to: they stay within what may be asked for, and the captures
they return are frames they took, in that order. If the socket works, they are all of those that
decode, and one credit was asked for with each. -/
structure KeepsPace (events : List ScopeEvent) (results : List (Except Error ScopeCapture)) :
    Prop where
  licensed : ∀ past, Within past → Licensed MayAsk past events
  sublist : (captured results).Sublist ((taken events).filterMap decoded)
  exact : (∀ e ∈ events, ScopeEvent.Works e) →
    captured results = (taken events).filterMap decoded ∧ asks events = (captured results).length

/-- One call. -/
theorem CaptureCall.keeps {events : List ScopeEvent} {r : Option (Except Error ScopeCapture)}
    (h : CaptureCall events r) : KeepsPace events r.toList := by
  have hlicensed : ∀ past, Within past → Licensed MayAsk past events := fun _ => h.licensed
  cases h with
  | nothing hasks htaken hr =>
    have hnone : captured r.toList = [] := by
      rcases r with _ | err | capture
      · rfl
      · rfl
      · exact absurd rfl (hr capture)
    exact ⟨hlicensed, by simp [hnone], fun _ => by simp [hnone, htaken, hasks]⟩
  | @undecoded _ frame err hasks htaken hdecode =>
    have hbad : decoded frame = none := by
      rw [decoded, hdecode]
      rfl
    have hnone : captured [.error err] = [] := rfl
    exact ⟨hlicensed, by simp [hnone], fun _ => by simp [hnone, htaken, hasks, hbad]⟩
  | @credited before frame capture hasks htaken hdecode =>
    have hgood : decoded frame = some capture := by
      rw [decoded, hdecode]
      rfl
    have hone : captured [.ok capture] = [capture] := rfl
    have hsent : ScopeEvent.frame ⟨.send grantCredit, .ok ()⟩ = none := rfl
    refine ⟨hlicensed, by simp [hone, htaken, hsent, hgood], fun _ => ?_⟩
    simp [hone, htaken, hsent, hgood, hasks, ScopeEvent.asks, credit_grantCredit]
  | @uncredited before frame err e hasks htaken =>
    have hnone : captured [.error err] = [] := rfl
    refine ⟨hlicensed, by simp [hnone], fun hworks => ?_⟩
    obtain ⟨a, ha⟩ := hworks ⟨.send grantCredit, .error e⟩ (by simp)
    cases ha

/-- One call and more of them. -/
theorem KeepsPace.append {events events' : List ScopeEvent}
    {results results' : List (Except Error ScopeCapture)} (h : KeepsPace events results)
    (h' : KeepsPace events' results') : KeepsPace (events ++ events') (results ++ results') := by
  have hsplit : captured (results ++ results') = captured results ++ captured results' :=
    List.filterMap_append
  refine ⟨fun past hpast => ?_, ?_, fun hworks => ?_⟩
  · have hfirst := h.licensed past hpast
    exact hfirst.append (h'.licensed _ (hpast.append hfirst))
  · rw [hsplit, taken_append, List.filterMap_append]
    exact h.sublist.append h'.sublist
  · obtain ⟨hresults, hasks⟩ := h.exact fun e he => hworks e (List.mem_append_left _ he)
    obtain ⟨hresults', hasks'⟩ := h'.exact fun e he => hworks e (List.mem_append_right _ he)
    rw [hsplit, taken_append, List.filterMap_append, asks_append, List.length_append]
    exact ⟨congrArg₂ _ hresults hresults', congrArg₂ _ hasks hasks'⟩

/-- The calls on a stream.

**Proof sketch.** Induction on the timeouts. -/
theorem ScopeStream.captures_keeps [SerdeJson] (rounds : ℕ) (timeouts : List ℕ) :
    Always (ScopeStream.captures rounds timeouts) KeepsPace := by
  induction timeouts with
  | nil =>
    simp only [ScopeStream.captures, always_bind, Socket.always_close]
    intro closed
    exact ⟨fun past hpast => hpast.licensed rfl, .refl _, fun _ => ⟨rfl, rfl⟩⟩
  | cons timeout timeouts ih =>
    simp only [ScopeStream.captures, always_bind]
    refine (ScopeStream.nextCapture_call timeout rounds).mono ?_
    intro events r hcall
    have hfirst := hcall.keeps
    cases r with
    | none => simpa using hfirst
    | some result =>
      simp only [always_bind, always_pure, List.append_nil]
      exact ih.mono fun events' results hrest => hfirst.append hrest

/-- **A stream of this side.** A stream is opened, and then used.

**Proof sketch.** The rule for sequencing. -/
theorem Scope.watch_keeps [SerdeJson] (timeout rounds : ℕ) (timeouts : List ℕ) :
    Always (Scope.watch timeout rounds timeouts) fun events results =>
      ∃ opening rest, events = opening ++ rest ∧
        (∃ r, Run (Scope.stream timeout rounds) opening r) ∧ OpeningCall opening ∧
          KeepsPace rest results := by
  have hopens : Always (Scope.stream timeout rounds) fun events r =>
      Run (Scope.stream timeout rounds) events r ∧ OpeningCall events :=
    (always_iff_run.mpr fun _ _ hrun => hrun).and (Scope.stream_opens timeout rounds)
  have hunused : KeepsPace [] [] := ⟨fun _ _ => trivial, .refl _, fun _ => ⟨rfl, rfl⟩⟩
  simp only [Scope.watch, always_bind]
  refine hopens.mono ?_
  rintro opening r ⟨hrun, hopening⟩
  rcases r with _ | err | _
  · exact ⟨opening, [], rfl, ⟨_, hrun⟩, hopening, hunused⟩
  · exact ⟨opening, [], rfl, ⟨_, hrun⟩, hopening, hunused⟩
  · refine (ScopeStream.captures_keeps rounds timeouts).mono ?_
    intro rest results hrest
    exact ⟨opening, rest, rfl, ⟨_, hrun⟩, hopening, hrest⟩

/-! ## The connection -/

/-- What the daemon does on a stream: it gets a command, it pushes a capture, or it sends a message
of another kind. -/
inductive DaemonEvent
  | gets (command : Value)
  | pushes (frame : List UInt8)
  | sends (message : WsMessage)

/-- What happens on a stream: an operation of this side, or of the daemon. -/
abbrev StreamEvent := ScopeEvent ⊕ DaemonEvent

/-- A stream between its sides: the commands under way to the daemon, the captures it has room to
push, and the messages under way to this side. -/
structure ScopeNet where
  commands : List Value
  room : ℕ
  messages : List WsMessage

/-- The frame a message carries. -/
def WsMessage.bytes : WsMessage → Option (List UInt8)
  | binary bytes => some bytes
  | _ => none

namespace ScopeNet

/-- A connection that was just opened. -/
def start : ScopeNet := ⟨[], 0, []⟩

/-- The captures under way. -/
def frames (net : ScopeNet) : List (List UInt8) := net.messages.filterMap WsMessage.bytes

/-- The credits under way. -/
def credits (net : ScopeNet) : ℕ := (net.commands.map credit).sum

/-- What an operation of this side does to the connection. A command whose sending fails may still
get to the daemon; messages under way may get lost when reading fails by more than its timeout. -/
inductive Client : ScopeNet → ScopeEvent → ScopeNet → Prop
  | opened (net : ScopeNet) (timeout : ℕ) (answer : Except Error Unit) :
      Client net ⟨.openSocket timeout, answer⟩ net
  | told (net : ScopeNet) (time : ℕ) : Client net ⟨.now, time⟩ net
  | sent (command : Value) (answer : Except WsError Unit) {commands : List Value} {room : ℕ}
      {messages : List WsMessage} :
      Client ⟨commands, room, messages⟩ ⟨.send command, answer⟩
        ⟨commands ++ [command], room, messages⟩
  | unsent (net : ScopeNet) (command : Value) (e : WsError) :
      Client net ⟨.send command, .error e⟩ net
  | read (timeout : ℕ) {message : WsMessage} {commands : List Value} {room : ℕ}
      {messages : List WsMessage} :
      Client ⟨commands, room, message :: messages⟩ ⟨.read timeout, .ok message⟩
        ⟨commands, room, messages⟩
  | late (net : ScopeNet) (timeout : ℕ) (failure : Failure) (h : failure.timedOut = true) :
      Client net ⟨.read timeout, .error (.io failure)⟩ net
  | broken (timeout : ℕ) (e : WsError) {commands : List Value} {room : ℕ}
      {messages messages' : List WsMessage} (h : messages'.Sublist messages)
      (hlate : ∀ failure, e = .io failure → failure.timedOut = false) :
      Client ⟨commands, room, messages⟩ ⟨.read timeout, .error e⟩ ⟨commands, room, messages'⟩
  | closed (net : ScopeNet) (u : Unit) : Client net ⟨.close, u⟩ net

/-- What an operation of the daemon does. It pushes a capture only when it has room, which it gets
from the credits. -/
inductive Daemon : ScopeNet → DaemonEvent → ScopeNet → Prop
  | gets {command : Value} {commands : List Value} {room : ℕ} {messages : List WsMessage} :
      Daemon ⟨command :: commands, room, messages⟩ (.gets command)
        ⟨commands, room + credit command, messages⟩
  | pushes (frame : List UInt8) {commands : List Value} {room : ℕ} {messages : List WsMessage} :
      Daemon ⟨commands, room + 1, messages⟩ (.pushes frame)
        ⟨commands, room, messages ++ [.binary frame]⟩
  | sends (message : WsMessage) (h : message.bytes = none) {commands : List Value} {room : ℕ}
      {messages : List WsMessage} :
      Daemon ⟨commands, room, messages⟩ (.sends message) ⟨commands, room, messages ++ [message]⟩

/-- A step of either side. -/
def Step (net : ScopeNet) : StreamEvent → ScopeNet → Prop
  | .inl e => Client net e
  | .inr e => Daemon net e

end ScopeNet

/-- The operations of this side, in what happens on a stream. -/
def clientSide (trace : List StreamEvent) : List ScopeEvent := trace.filterMap Sum.getLeft?

/-- The capture that is pushed. -/
def StreamEvent.push : StreamEvent → Option (List UInt8)
  | .inr (.pushes frame) => some frame
  | _ => none

/-- The captures pushed, in what happens on a stream. -/
def pushed (trace : List StreamEvent) : List (List UInt8) := trace.filterMap StreamEvent.push

/-! ## The connection as a paced channel -/

/-- What the connection is as a paced channel. -/
def ScopeNet.pace (net : ScopeNet) : Pace (List UInt8) :=
  ⟨net.commands.map credit, net.room, net.frames⟩

/-- What happens on it then. -/
def StreamEvent.pace : StreamEvent → PaceEvent (List UInt8)
  | .inl ⟨.send command, _⟩ => .grant (credit command)
  | .inl ⟨.read _, .ok (.binary frame)⟩ => .take frame
  | .inr (.gets _) => .arrive
  | .inr (.pushes frame) => .push frame
  | _ => .idle

/-- A step on the connection is one on the paced channel, and without losses if the socket works.

**Proof sketch.** A case for each step. Messages of other kinds are not seen on the channel. -/
theorem ScopeNet.Step.pace {net net' : ScopeNet} {e : StreamEvent} (h : ScopeNet.Step net e net') :
    Pace.Lossy net.pace e.pace net'.pace ∧
      ((∀ x, e = .inl x → x.Works) → Pace.Exact net.pace e.pace net'.pace) := by
  have hexact : Pace.Exact net.pace e.pace net'.pace → Pace.Lossy net.pace e.pace net'.pace ∧
      ((∀ x, e = .inl x → x.Works) → Pace.Exact net.pace e.pace net'.pace) :=
    fun hstep => ⟨hstep.lossy, fun _ => hstep⟩
  rcases e with e | e
  · cases h with
    | opened | told | late | closed => exact hexact (.idle _)
    | sent command answer =>
      refine hexact ?_
      simp only [ScopeNet.pace, List.map_append, List.map_singleton]
      exact .grant (credit command)
    | unsent _ command e =>
      refine ⟨⟨_, .grant (credit command), List.sublist_append_left _ _, rfl, .refl _⟩, ?_⟩
      intro hworks
      obtain ⟨a, ha⟩ := hworks _ rfl
      cases ha
    | @read timeout message =>
      refine hexact ?_
      cases message with
      | binary bytes => exact .take
      | text | ping | pong | frame | close => exact .idle _
    | @broken timeout e commands room messages messages' hsub hlate =>
      refine ⟨⟨_, .idle _, .refl _, rfl, hsub.filterMap _⟩, ?_⟩
      intro hworks
      obtain ⟨failure, rfl, hfailure⟩ := hworks _ rfl e rfl
      rw [hlate failure rfl] at hfailure
      cases hfailure
  · cases h with
    | gets => exact hexact .arrive
    | pushes frame =>
      refine hexact ?_
      simp only [ScopeNet.pace, ScopeNet.frames, List.filterMap_append]
      exact .push frame
    | sends message hbytes =>
      refine hexact ?_
      simp only [ScopeNet.pace, ScopeNet.frames, List.filterMap_append,
        List.filterMap_cons_none hbytes, List.filterMap_nil, List.append_nil]
      exact .idle _

/-- What happens on the channel is what the sides did. -/
theorem pace_trace (trace : List StreamEvent) :
    PaceEvent.granted (trace.map StreamEvent.pace) = asks (clientSide trace) ∧
      PaceEvent.taken (trace.map StreamEvent.pace) = taken (clientSide trace) ∧
      PaceEvent.pushed (trace.map StreamEvent.pace) = pushed trace := by
  induction trace with
  | nil => exact ⟨rfl, rfl, rfl⟩
  | cons e trace ih =>
    obtain ⟨hgranted, htaken, hpushed⟩ := ih
    rcases e with ⟨op, answer⟩ | e
    · have hside : clientSide (.inl ⟨op, answer⟩ :: trace) = ⟨op, answer⟩ :: clientSide trace := rfl
      have hpush : pushed (.inl ⟨op, answer⟩ :: trace) = pushed trace := rfl
      rw [hside, hpush, asks_cons, taken_cons, ← hgranted, ← htaken, ← hpushed]
      cases op with
      | openSocket timeout => exact ⟨(Nat.zero_add _).symm, rfl, rfl⟩
      | now => exact ⟨(Nat.zero_add _).symm, rfl, rfl⟩
      | send command => exact ⟨rfl, rfl, rfl⟩
      | read timeout =>
        rcases answer with e | message
        · exact ⟨(Nat.zero_add _).symm, rfl, rfl⟩
        · cases message with
          | binary bytes => exact ⟨(Nat.zero_add _).symm, rfl, rfl⟩
          | text | ping | pong | frame | close => exact ⟨(Nat.zero_add _).symm, rfl, rfl⟩
      | close => exact ⟨(Nat.zero_add _).symm, rfl, rfl⟩
    · have hside : clientSide (.inr e :: trace) = clientSide trace := rfl
      rw [hside, ← hgranted, ← htaken]
      cases e with
      | gets command => exact ⟨rfl, rfl, hpushed⟩
      | pushes frame => exact ⟨rfl, rfl, congrArg (List.cons frame) hpushed⟩
      | sends message => exact ⟨rfl, rfl, hpushed⟩

/-- An operation of this side that happened is one of this side's. -/
theorem mem_clientSide {trace : List StreamEvent} {e : ScopeEvent} :
    e ∈ clientSide trace ↔ .inl e ∈ trace := by
  simp [clientSide]

/-- What the two sides did happened on the paced channel. -/
theorem ScopeNet.lossy {trace : List StreamEvent} {net : ScopeNet}
    (h : Steps ScopeNet.Step .start trace net) :
    Steps Pace.Lossy Pace.start (trace.map StreamEvent.pace) net.pace :=
  @Steps.simulate _ _ _ _ _ _ _ _ Pace.Lossy ScopeNet.pace StreamEvent.pace h
    fun _ _ _ _ hstep => hstep.pace.1

/-- What was taken and what is under way was pushed, in that order. -/
theorem ScopeNet.bounded {trace : List StreamEvent} {net : ScopeNet}
    (h : Steps ScopeNet.Step .start trace net) :
    (taken (clientSide trace) ++ net.frames).Sublist (pushed trace) := by
  obtain ⟨-, htaken, hpushed⟩ := pace_trace trace
  have hframes := (Pace.lossy_bounded (ScopeNet.lossy h)).2
  rwa [htaken, hpushed] at hframes

/-- If the socket works, nothing is lost. -/
theorem ScopeNet.conserved {trace : List StreamEvent} {net : ScopeNet}
    (h : Steps ScopeNet.Step .start trace net)
    (hworks : ∀ e ∈ clientSide trace, ScopeEvent.Works e) :
    net.room + net.credits + (pushed trace).length = asks (clientSide trace) ∧
      pushed trace = taken (clientSide trace) ++ net.frames := by
  have hpaced : Steps Pace.Exact Pace.start (trace.map StreamEvent.pace) net.pace := by
    refine @Steps.simulate _ _ _ _ _ _ _ _ Pace.Exact ScopeNet.pace StreamEvent.pace h ?_
    intro _ e _ he hstep
    refine hstep.pace.2 ?_
    rintro x rfl
    exact hworks x (mem_clientSide.mpr he)
  obtain ⟨hgranted, htaken, hpushed⟩ := pace_trace trace
  obtain ⟨hroom, hframes⟩ := Pace.exact_conserved hpaced
  rw [hgranted, hpushed] at hroom
  rw [htaken, hpushed] at hframes
  exact ⟨by simpa [Pace.start, ScopeNet.pace, ScopeNet.credits] using hroom, hframes⟩

/-! ## A stream with one call -/

/-- A stream that is subscribed, reads a frame and is dropped. -/
def watchEvents : List ScopeEvent :=
  subscribed ++ (frameCall emptyFrame ++ [⟨.close, ()⟩])

/-- The same with the daemon, which pushes another frame meanwhile. -/
def watchTrace : List StreamEvent :=
  [.inl ⟨.openSocket 1, .ok ()⟩, .inl ⟨.send subscribe, .ok ()⟩, .inr (.gets subscribe),
    .inr (.sends (.text subscribedText)), .inl ⟨.now, (0 : ℕ)⟩, .inl ⟨.now, (0 : ℕ)⟩,
    .inl ⟨.read 1, .ok (.text subscribedText)⟩, .inr (.pushes emptyFrame),
    .inl ⟨.now, (0 : ℕ)⟩, .inl ⟨.now, (0 : ℕ)⟩, .inl ⟨.read 1, .ok (.binary emptyFrame)⟩,
    .inr (.pushes emptyFrame), .inl ⟨.send grantCredit, .ok ()⟩, .inl ⟨.close, ()⟩]

/-- The connection afterwards. -/
def watchNet : ScopeNet := ⟨[grantCredit], 2, [.binary emptyFrame]⟩

/-- The frame decodes. -/
theorem decodes_emptyFrame : decodes emptyFrame = true := by
  decide +kernel

/-- It is a run of a stream. -/
theorem run_watchEvents : Run (@Scope.watch subscribedJson 1 1 [1]) watchEvents
    [ScopeCapture.decode emptyFrame] := by
  have hclose : Run Socket.close [⟨.close, ()⟩] () := @run_perform ScopeOp ScopeOp.Ans .close ()
  have hdrop : Run (@ScopeStream.captures subscribedJson 1 []) [⟨.close, ()⟩] [] :=
    hclose.bind_quiet (.pure _)
  have hcall := @run_frameCall subscribedJson emptyFrame
  exact run_subscribed.bind (hcall.bind (hdrop.bind_quiet (.pure _)))

/-- The operations of this side are those of the run. -/
theorem clientSide_watchTrace : clientSide watchTrace = watchEvents := by
  simp only [watchEvents, frameCall, decodes_emptyFrame, if_true]
  rfl

/-- What happens is possible on the connection. -/
theorem steps_watchTrace : Steps ScopeNet.Step .start watchTrace watchNet :=
  .cons (ScopeNet.Client.opened _ 1 (.ok ())) <|
  .cons (ScopeNet.Client.sent subscribe (.ok ())) <|
  .cons ScopeNet.Daemon.gets <|
  .cons (ScopeNet.Daemon.sends (.text subscribedText) rfl) <|
  .cons (ScopeNet.Client.told _ 0) <| .cons (ScopeNet.Client.told _ 0) <|
  .cons (ScopeNet.Client.read 1) <|
  .cons (ScopeNet.Daemon.pushes emptyFrame) <|
  .cons (ScopeNet.Client.told _ 0) <| .cons (ScopeNet.Client.told _ 0) <|
  .cons (ScopeNet.Client.read 1) <|
  .cons (ScopeNet.Daemon.pushes emptyFrame) <|
  .cons (ScopeNet.Client.sent grantCredit (.ok ())) <|
  .cons (ScopeNet.Client.closed _ ()) (.nil _)

/-- The socket works in it. -/
theorem works_watchEvents : ∀ e ∈ watchEvents, ScopeEvent.Works e := by
  intro e he
  have hall := socketWorks_frameCall emptyFrame
  simp only [SocketWorks, List.flatten_cons, List.flatten_nil, List.append_nil] at hall
  rw [watchEvents, ← List.append_assoc] at he
  rcases List.mem_append.mp he with he | he
  · exact hall e he
  · rw [List.mem_singleton.mp he]
    trivial

/-! ## Whatever the order -/

section

variable {timeout rounds : ℕ} {timeouts : List ℕ} {events : List ScopeEvent}
  {results : List (Except Error ScopeCapture)} {trace : List StreamEvent} {net : ScopeNet}

/-- A stream of this side keeps within what it may ask for at every point. -/
theorem within_of_watch [SerdeJson]
    (hrun : Run (Scope.watch timeout rounds timeouts) events results) {front : List ScopeEvent}
    (hfront : front <+: events) : Within front := by
  obtain ⟨opening, rest, rfl, -, hopening, hrest⟩ :=
    always_iff_run.mp (Scope.watch_keeps timeout rounds timeouts) _ _ hrun
  have hstart : Within [] := Nat.zero_le _
  have hopen := hopening.licensed
  have hall := hopen.append (hrest.licensed _ (hstart.append hopen))
  obtain ⟨back, hback⟩ := hfront
  rw [← hback] at hall
  exact hstart.append (licensed_append.mp hall).1

/-- **No backlog.** At every point of every interleaving of a stream with the daemon, and however
its connection fails, the captures under way, those the daemon has room for and those it is about
to get credits for are no more than four.

**Proof sketch.** The connection is a paced channel with losses, and this side has asked for no more
than four credits and one for each frame it took. -/
theorem backlog_le_credits [SerdeJson]
    (hrun : Run (Scope.watch timeout rounds timeouts) events results)
    (htrace : Steps ScopeNet.Step .start trace net) (hclient : clientSide trace <+: events) :
    net.room + net.credits + net.frames.length ≤ streamCredits := by
  obtain ⟨hgranted, htaken, -⟩ := pace_trace trace
  refine Pace.backlog_le (ScopeNet.lossy htrace) ?_
  rw [hgranted, htaken]
  exact within_of_watch hrun hclient

/-- The captures of a stream that is read once. -/
theorem backlog_le_credits_watch :
    watchNet.room + watchNet.credits + watchNet.frames.length ≤ streamCredits :=
  @backlog_le_credits _ _ _ _ _ _ _ subscribedJson run_watchEvents steps_watchTrace
    (clientSide_watchTrace ▸ List.prefix_refl _)

/-- **Captures in order.** In every interleaving with the daemon the captures that a stream returned
are frames that were pushed, in that order and each at most once. If the socket works, the frames
pushed are those that `stream` took, those that `next_capture` took and those under way. The
captures returned are then all those of the second kind that decode, and what the daemon lacks of
its four credits are the frames of the first kind and those that do not decode.

**Proof sketch.** The channel keeps the order, and loses nothing if the socket works. -/
theorem captures_in_order [SerdeJson]
    (hrun : Run (Scope.watch timeout rounds timeouts) events results)
    (htrace : Steps ScopeNet.Step .start trace net) (hclient : clientSide trace = events) :
    (captured results).Sublist ((pushed trace).filterMap decoded) ∧
      ((∀ e ∈ events, ScopeEvent.Works e) → ∃ opening rest, events = opening ++ rest ∧
        (∃ r, Run (Scope.stream timeout rounds) opening r) ∧
        pushed trace = taken opening ++ taken rest ++ net.frames ∧
        captured results = (taken rest).filterMap decoded ∧
        net.room + net.credits + net.frames.length + (taken opening).length +
          (taken rest).length = streamCredits + (captured results).length) := by
  obtain ⟨opening, rest, rfl, hstream, hopening, hrest⟩ :=
    always_iff_run.mp (Scope.watch_keeps timeout rounds timeouts) _ _ hrun
  constructor
  · have hframes := ScopeNet.bounded htrace
    rw [hclient, taken_append] at hframes
    have hread : (taken rest).Sublist (pushed trace) :=
      ((List.sublist_append_right _ _).trans (List.sublist_append_left _ _)).trans hframes
    exact hrest.sublist.trans (hread.filterMap decoded)
  · intro hworks
    obtain ⟨hroom, hpushed⟩ := ScopeNet.conserved htrace (hclient ▸ hworks)
    obtain ⟨hresults, hasks⟩ := hrest.exact fun e he => hworks e (List.mem_append_right _ he)
    have hopened := hopening.asks_eq fun e he => hworks e (List.mem_append_left _ he)
    rw [hclient, asks_append] at hroom
    rw [hclient, taken_append] at hpushed
    have hlength := congrArg List.length hpushed
    simp only [List.length_append] at hlength
    exact ⟨opening, rest, rfl, hstream, hpushed, hresults, by omega⟩

/-- Those of a stream that is read once. -/
theorem captures_in_order_watch :
    (captured [ScopeCapture.decode emptyFrame]).Sublist ((pushed watchTrace).filterMap decoded) ∧
      ∃ opening rest, watchEvents = opening ++ rest ∧
        (∃ r, Run (@Scope.stream subscribedJson 1 1) opening r) ∧
        pushed watchTrace = taken opening ++ taken rest ++ watchNet.frames ∧
        captured [ScopeCapture.decode emptyFrame] = (taken rest).filterMap decoded ∧
        watchNet.room + watchNet.credits + watchNet.frames.length + (taken opening).length +
          (taken rest).length =
            streamCredits + (captured [ScopeCapture.decode emptyFrame]).length := by
  have horder := @captures_in_order _ _ _ _ _ _ _ subscribedJson run_watchEvents steps_watchTrace
    clientSide_watchTrace
  exact ⟨horder.1, horder.2 works_watchEvents⟩

end

end Lager
