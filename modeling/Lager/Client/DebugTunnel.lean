import Lager.Client.Discipline

set_option relaxedAutoImplicit false
set_option autoImplicit false

/-!
# Debug tunnels

A debug tunnel goes through the gateway of a box. A debug server that has only just started may
not listen yet, and then the gateway answers 502: that refusal, and no other, is waited out, for
some seconds. Where the other side does no tunnels, the client connects to the port itself.

## Main definitions

* `Lager.WaitOp` — the clock, and connecting to a port.
* `Lager.LagerBox.debugTunnel`, `Lager.AsyncLagerBox.debugTunnel` — the calls.
* `Lager.Clocked` — the readings are those of a clock.
* `Lager.WaitsOut` — what a call does.

## Main results

* `Lager.debugTunnel_waitsOut` — every call does that, and ends.

## Implementation notes

The loop of a call is given a number of rounds. It makes no difference from 21 on.
-/

namespace Lager

open Library

/-! ## The call -/

/-- What a call does besides the operations of a client: read the clock, sleep, and connect to a
port. Times are in nanoseconds. -/
inductive WaitOp
  | now
  | sleep (d : ℕ)
  | connect (host : String) (port : ℕ)

/-- The answers. -/
def WaitOp.Ans : WaitOp → Type
  | now => ℕ
  | sleep _ => Unit
  | connect _ _ => Except Failure Unit

/-- The operations of a call. -/
abbrev TunnelOp := Op ⊕ WaitOp

/-- The answers to the operations of a call. -/
abbrev TunnelOp.Ans : TunnelOp → Type := Sum.elim Op.Ans WaitOp.Ans

/-- An operation of a call with its answer. -/
abbrev TunnelEvent := Library.Event TunnelOp TunnelOp.Ans

/-- A part of a call. -/
abbrev TunnelAction := StateT GatewayAuth.State (Program TunnelOp TunnelOp.Ans)

/-- Something a client does, as a part of a call. -/
def Action.inTunnel {α : Type} (action : Action α) : TunnelAction α := fun s => (action.run s).inl

/-- `Instant::now`. -/
def instantNow : Program TunnelOp TunnelOp.Ans ℕ :=
  @Program.perform TunnelOp TunnelOp.Ans (.inr .now)

/-- `sleep`. -/
def sleep (d : ℕ) : Program TunnelOp TunnelOp.Ans Unit :=
  @Program.perform TunnelOp TunnelOp.Ans (.inr (.sleep d))

/-- `connect_tcp`. -/
def connectTcp (host : String) (port : ℕ) : Program TunnelOp TunnelOp.Ans (Except Failure Unit) :=
  @Program.perform TunnelOp TunnelOp.Ans (.inr (.connect host port))

section

variable {d port : ℕ} {host : String}

@[simp] theorem always_instantNow {Q : List TunnelEvent → ℕ → Prop} :
    Always instantNow Q ↔ ∀ now : ℕ, Q [⟨.inr .now, now⟩] now := Iff.rfl

@[simp] theorem always_sleep {Q : List TunnelEvent → Unit → Prop} :
    Always (sleep d) Q ↔ ∀ ans : Unit, Q [⟨.inr (.sleep d), ans⟩] ans := Iff.rfl

@[simp] theorem always_connectTcp {Q : List TunnelEvent → Except Failure Unit → Prop} :
    Always (connectTcp host port) Q ↔
      ∀ answer : Except Failure Unit, Q [⟨.inr (.connect host port), answer⟩] answer := Iff.rfl

end

/-- `NOTHING_LISTENING_WAIT`. -/
def nothingListeningWait : ℕ := 5 * 10 ^ 9

/-- `NOTHING_LISTENING_RETRY`. -/
def nothingListeningRetry : ℕ := 250 * 10 ^ 6

/-- `refusal_error`. -/
def refusalError (refusal : Refusal) (boxHost : String) (port : ℕ) : Error :=
  match refusal with
  | .notDebugPort body => .box 403 (.notTunnelled boxHost port body)
  | .nothingListening body => .box 502 (.nothingListening boxHost port body)
  | .unsupported status => .box (status.getD 0) (.noTunnels boxHost port)
  | .denied status authUrl => denialError status boxHost authUrl true

/-- `debug_port_direct`. -/
def debugPortDirect (client : Client) (port : ℕ) (refusal : Refusal) :
    TunnelAction (Except Error Unit) := do
  match ← connectTcp client.auth.boxHost port with
  | .ok _ => return .ok ()
  | .error failure =>
    if client.auth.hasStaticToken ∨ (← get).authUrl.isSome then
      return .error (refusalError refusal client.auth.boxHost port)
    else return .error (ioError failure)

/-- The loop of `debug_tunnel`: an attempt, and another one after a pause while nothing listens and
there is time. `none` if the rounds it is given do not suffice. -/
def waitOut (attempt : Action (Except Error (Except Refusal Unit))) (pause deadline : ℕ) :
    ℕ → TunnelAction (Option (Except Error (Except Refusal Unit)))
  | 0 => return none
  | rounds + 1 => do
    match ← attempt.inTunnel with
    | .ok (.error (.nothingListening body)) =>
      if (← instantNow) + pause ≤ deadline then
        sleep pause
        waitOut attempt pause deadline rounds
      else return some (.ok (.error (.nothingListening body)))
    | other => return some other

/-- `debug_tunnel`, over the `tunnel_authorized` of a client. -/
def debugTunnel (client : Client) (attempt : Action (Except Error (Except Refusal Unit)))
    (port rounds : ℕ) : TunnelAction (Option (Except Error Unit)) := do
  let deadline := (← instantNow) + nothingListeningWait
  match ← waitOut attempt nothingListeningRetry deadline rounds with
  | none => return none
  | some (.error err) => return some (.error err)
  | some (.ok (.ok _)) => return some (.ok ())
  | some (.ok (.error (.unsupported status))) =>
    some <$> debugPortDirect client port (.unsupported status)
  | some (.ok (.error refusal)) =>
    return some (.error (refusalError refusal client.auth.boxHost port))

section

variable [SerdeJson] (client : Client) (port rounds : ℕ)

/-- `LagerBox::debug_tunnel`. -/
def LagerBox.debugTunnel : TunnelAction (Option (Except Error Unit)) :=
  Lager.debugTunnel client (LagerBox.tunnelAuthorized client port) port rounds

/-- `AsyncLagerBox::debug_tunnel`. -/
def AsyncLagerBox.debugTunnel : TunnelAction (Option (Except Error Unit)) :=
  Lager.debugTunnel client (AsyncLagerBox.tunnelAuthorized client port) port rounds

/-- `debug_tunnel` of either client. -/
def Transport.debugTunnel : Transport → TunnelAction (Option (Except Error Unit))
  | blocking => LagerBox.debugTunnel client port rounds
  | async => AsyncLagerBox.debugTunnel client port rounds

end

/-! ## One attempt -/

/-- The answer to a `CONNECT`. -/
def Event.connectAnswer : Event → Option HeadAnswer
  | ⟨.exchange _, answer⟩ => some answer
  | _ => none

/-- The answers of the gateway among some events. -/
def answered (events : List Event) : List HeadAnswer := events.filterMap Event.connectAnswer

@[simp] theorem answered_append (events events' : List Event) :
    answered (events ++ events') = answered events ++ answered events' := List.filterMap_append

/-- Where nothing goes to the box, the gateway answers nothing. -/
theorem answered_of_quiet {events : List Event} (h : Quiet events) : answered events = [] := by
  refine List.filterMap_eq_nil_iff.mpr fun e he => ?_
  obtain ⟨op, ans⟩ := e
  cases op with
  | exchange r => cases h _ he
  | _ => rfl

/-- What an answer comes to when it is the last one: a denial stands. -/
def standing (auth : GatewayAuth) (sentToken : Bool) :
    Except Error (Except Refusal Unit) → Except Error (Except Refusal Unit)
  | .ok (.error (.denied status authUrl)) =>
    .error (denialError status auth.boxHost authUrl sentToken)
  | other => other

/-- What `tunnel_once` makes of an answer. -/
def Transport.readTunnel : Transport → String → ℕ → HeadAnswer → Except Error (Except Refusal Unit)
  | blocking, _, _ => LagerBox.readTunnel
  | async, host, port => AsyncLagerBox.readTunnel host port

/-- One attempt of a call: what it did, and what it came to. -/
structure TunnelAttempt where
  events : List Event
  outcome : Except Error (Except Refusal Unit)

/-- An attempt came to what the gateway answered last, after at most two `CONNECT` requests, or
there is no address to send any to. -/
def TunnelAttempt.Concludes (t : Transport) (client : Client) (a : TunnelAttempt) : Prop :=
  match hostPort client.debugBase with
  | .error err => answered a.events = [] ∧ a.outcome = .error err
  | .ok (host, servicePort) => ∃ sentToken answer,
      (answered a.events).length ≤ 2 ∧ (answered a.events).getLast? = some answer ∧
        a.outcome = standing client.auth sentToken (t.readTunnel host servicePort answer)

/-- The gateway answered last with a status. -/
def TunnelAttempt.AnsweredWith (status : ℕ) (a : TunnelAttempt) : Prop :=
  ∃ head body, (answered a.events).getLast? = some (.head head body) ∧ head.status = status

/-- A refusal because nothing listens. -/
def NothingListening (outcome : Except Error (Except Refusal Unit)) : Prop :=
  ∃ body, outcome = .ok (.error (.nothingListening body))

/-- Only 502 is classified so. -/
theorem status_of_classify {head : Head} {body bytes : List UInt8}
    (h : classify head body = .nothingListening bytes) : head.status = 502 := by
  unfold classify at h
  split at h
  · cases h
  · split_ifs at h with h₁ h₂
    exact h₂

/-- What an answer comes to is what a denial that stands does not change. -/
theorem eq_of_standing {auth : GatewayAuth} {sentToken : Bool}
    {outcome : Except Error (Except Refusal Unit)} {a : Except Refusal Unit}
    (h : standing auth sentToken outcome = .ok a) : outcome = .ok a := by
  rcases outcome with err | ⟨⟨status, authUrl⟩ | _ | _ | _⟩ | stream
  · cases h
  · cases h
  all_goals exact h

/-- An open tunnel is an answer with status 200, a refusal because nothing listens one with 502. -/
theorem Transport.status_of_readTunnel {t : Transport} {host : String} {port : ℕ}
    {answer : HeadAnswer} {a : Except Refusal Unit} (h : t.readTunnel host port answer = .ok a) :
    (a = .ok () → ∃ head body, answer = .head head body ∧ head.status = 200) ∧
      ((∃ body, a = .error (.nothingListening body)) →
        ∃ head body, answer = .head head body ∧ head.status = 502) := by
  have hrefused : ∀ head bytes, (.error (classify head bytes) : Except Refusal Unit) = a →
      (∃ body, a = .error (.nothingListening body)) → head.status = 502 := by
    rintro head bytes heq ⟨body, rfl⟩
    exact status_of_classify (Except.error.inj heq)
  have hunsupported : (a = .ok () ∨ ∃ body, a = .error (.nothingListening body)) →
      (.error (.unsupported none) : Except Refusal Unit) ≠ a := by
    rintro (rfl | ⟨body, rfl⟩) heq <;> cases heq
  rcases answer with failure | _ | _ | ⟨head, body⟩
  · cases t <;> cases h
  · have heq : (.error (.unsupported none) : Except Refusal Unit) = a := by
      cases t <;> exact Except.ok.inj h
    exact ⟨fun ha => absurd heq (hunsupported (.inl ha)), fun ha =>
      absurd heq (hunsupported (.inr ha))⟩
  · have heq : (.error (.unsupported none) : Except Refusal Unit) = a := by
      cases t <;> exact Except.ok.inj h
    exact ⟨fun ha => absurd heq (hunsupported (.inl ha)), fun ha =>
      absurd heq (hunsupported (.inr ha))⟩
  · by_cases hstatus : head.status = 200
    · have heq : (.ok () : Except Refusal Unit) = a := by
        cases t <;> simp only [readTunnel, LagerBox.readTunnel, AsyncLagerBox.readTunnel,
          if_pos hstatus] at h <;> exact Except.ok.inj h
      refine ⟨fun _ => ⟨head, body, rfl, hstatus⟩, ?_⟩
      rintro ⟨bytes, rfl⟩
      cases heq
    · obtain ⟨bytes, heq⟩ : ∃ bytes, (.error (classify head bytes) : Except Refusal Unit) = a := by
        cases t with
        | blocking =>
          simp only [readTunnel, LagerBox.readTunnel, if_neg hstatus] at h
          exact ⟨_, Except.ok.inj h⟩
        | async =>
          simp only [readTunnel, AsyncLagerBox.readTunnel, if_neg hstatus] at h
          split at h
          · exact ⟨_, Except.ok.inj h⟩
          · split_ifs at h
            exact ⟨_, Except.ok.inj h⟩
      refine ⟨?_, fun ha => ⟨head, body, rfl, hrefused head bytes heq ha⟩⟩
      rintro rfl
      cases heq

/-- An attempt that came to an open tunnel was answered with 200, and one that ended because nothing
listens with 502. -/
theorem TunnelAttempt.Concludes.answeredWith {t : Transport} {client : Client} {a : TunnelAttempt}
    (h : a.Concludes t client) :
    (a.outcome = .ok (.ok ()) → a.AnsweredWith 200) ∧
      (NothingListening a.outcome → a.AnsweredWith 502) := by
  unfold Concludes at h
  split at h
  · constructor
    · intro ha
      cases h.2.symm.trans ha
    · rintro ⟨body, ha⟩
      cases h.2.symm.trans ha
  · obtain ⟨sentToken, answer, -, hlast, houtcome⟩ := h
    constructor
    · intro ha
      have hread := eq_of_standing (houtcome.symm.trans ha)
      obtain ⟨head, body, rfl, hstatus⟩ := (Transport.status_of_readTunnel hread).1 rfl
      exact ⟨head, body, hlast, hstatus⟩
    · rintro ⟨bytes, ha⟩
      have hread := eq_of_standing (houtcome.symm.trans ha)
      obtain ⟨head, body, rfl, hstatus⟩ := (Transport.status_of_readTunnel hread).2 ⟨bytes, rfl⟩
      exact ⟨head, body, hlast, hstatus⟩

/-- A pass takes an answer for what it comes to when it is the last one. -/
theorem standing_eq (auth : GatewayAuth) (sentToken : Bool)
    (outcome : Except Error (Except Refusal Unit)) :
    standing auth sentToken outcome =
      match Attempt.ofTunnel outcome with
      | .answered a => .ok a
      | .denied status authUrl => .error (denialError status auth.boxHost authUrl sentToken)
      | .failed err => .error err := by
  rcases outcome with err | ⟨⟨status, authUrl⟩ | _ | _ | _⟩ | a <;> rfl

section

variable [SerdeJson] (auth : GatewayAuth) (accepts : ℕ → Bool)

/-- A pass over attempts that come to what the gateway answers.

**Proof sketch.** The first answer is the last one unless it is a denial with a token to try again
with. Whatever else happens goes to the store and to auth servers. -/
theorem pass_concludes {read : HeadAnswer → Except Error (Except Refusal Unit)}
    {attempt : Option String → Program Op Op.Ans (Attempt (Except Refusal Unit))}
    (hattempt : ∀ token, Always (attempt token) fun events a =>
      ∃ answer, answered events = [answer] ∧ a = Attempt.ofTunnel (read answer))
    (s : GatewayAuth.State) :
    Always ((pass auth (auth.resolveToken (refreshWith accepts)) false attempt).run s)
      fun events r => ∃ sentToken answer, (answered events).length ≤ 2 ∧
        (answered events).getLast? = some answer ∧
          r.1 = standing auth sentToken (read answer) := by
  simp only [pass, StateT.run_bind, StateT.run_monadLift, monadLift_self, always_bind, always_pure]
  refine (auth.currentToken_spec accepts s).mono fun asked now hnow => ?_
  obtain ⟨token, s₁⟩ := now
  have hasked := answered_of_quiet hnow.quiet
  refine (hattempt token).mono ?_
  rintro events a ⟨answer, hanswer, rfl⟩
  have hfirst := standing_eq auth token.isSome (read answer)
  rcases hread : Attempt.ofTunnel (read answer) with a | ⟨status, authUrl⟩ | err
  · rw [hread] at hfirst
    refine ⟨token.isSome, answer, ?_, ?_, hfirst.symm⟩ <;> simp [hasked, hanswer]
  · rw [hread] at hfirst
    simp only [StateT.run_bind, always_bind]
    refine (auth.learnAuthServer_spec authUrl s₁).mono fun learned r hlearns => ?_
    have hlearned := answered_of_quiet hlearns.quiet
    refine (tries_spec auth accepts status authUrl token r.2).mono fun tried r' htries => ?_
    have htried := answered_of_quiet htries.quiet
    obtain ⟨_ | fresh, s₃⟩ := r'
    · refine ⟨token.isSome, answer, ?_, ?_, hfirst.symm⟩ <;>
        simp [hasked, hanswer, hlearned, htried]
    · simp only [StateT.run_bind, StateT.run_monadLift, monadLift_self, always_bind, always_pure]
      refine (hattempt (some fresh)).mono ?_
      rintro events' a ⟨answer', hanswer', rfl⟩
      have hsecond := standing_eq auth true (read answer')
      rcases hread' : Attempt.ofTunnel (read answer') with a | ⟨status', authUrl'⟩ | err
      all_goals
        rw [hread'] at hsecond
        refine ⟨true, answer', ?_, ?_, hsecond.symm⟩ <;>
          simp [hasked, hanswer, hlearned, htried, hanswer']
  · rw [hread] at hfirst
    refine ⟨token.isSome, answer, ?_, ?_, hfirst.symm⟩ <;> simp [hasked, hanswer]

/-- A pass over attempts that send nothing. -/
theorem pass_unsent {attempt : Option String → Program Op Op.Ans (Attempt (Except Refusal Unit))}
    {err : Error} (hattempt : ∀ token, attempt token = pure (.failed err)) (s : GatewayAuth.State) :
    Always ((pass auth (auth.resolveToken (refreshWith accepts)) false attempt).run s)
      fun events r => answered events = [] ∧ r.1 = .error err := by
  simp only [pass, StateT.run_bind, StateT.run_monadLift, monadLift_self, always_bind, always_pure,
    hattempt, StateT.run_pure, List.append_nil]
  exact (auth.currentToken_spec accepts s).mono fun asked now hnow =>
    ⟨answered_of_quiet hnow.quiet, trivial⟩

end

/-- Every attempt concludes. -/
theorem tunnelAuthorized_concludes [SerdeJson] (t : Transport) (client : Client) (port : ℕ)
    (s : GatewayAuth.State) :
    Always ((t.pass client (.tunnelAuthorized port)).run s) fun events r =>
      TunnelAttempt.Concludes t client ⟨events, r.1⟩ := by
  rw [t.pass_eq]
  cases hhost : hostPort client.debugBase with
  | error err =>
    have hattempt : ∀ token, t.attempt client (.tunnelAuthorized port) token =
        pure (.failed err) := by
      intro token
      cases t with
      | blocking => simp only [Transport.attempt, LagerBox.tunnelOnce, hhost]; rfl
      | async => simp only [Transport.attempt, AsyncLagerBox.tunnelOnce, hhost]; rfl
    refine (pass_unsent client.auth t.accepts hattempt s).mono fun events r h => ?_
    simp only [TunnelAttempt.Concludes, hhost]
    exact h
  | ok address =>
    obtain ⟨host, servicePort⟩ := address
    have hattempt : ∀ token, Always (t.attempt client (.tunnelAuthorized port) token)
        fun events a => ∃ answer, answered events = [answer] ∧
          a = Attempt.ofTunnel (t.readTunnel host servicePort answer) := by
      intro token
      cases t with
      | blocking =>
        simp only [Transport.attempt, LagerBox.tunnelOnce, hhost]
        exact fun answer => ⟨answer, rfl, rfl⟩
      | async =>
        simp only [Transport.attempt, AsyncLagerBox.tunnelOnce, hhost]
        exact fun answer => ⟨answer, rfl, rfl⟩
    refine (pass_concludes client.auth t.accepts hattempt s).mono fun events r h => ?_
    simp only [TunnelAttempt.Concludes, hhost]
    exact h

/-! ## The loop -/

/-- The readings among some events are those of a clock that never goes back and advances in every
sleep by what it was to last, and that shows at least `t` in the beginning. -/
def Clocked : ℕ → List TunnelEvent → Prop
  | _, [] => True
  | t, ⟨.inr .now, now⟩ :: events => t ≤ now ∧ Clocked now events
  | t, ⟨.inr (.sleep d), _⟩ :: events => Clocked (t + d) events
  | t, _ :: events => Clocked t events

/-- Every sleep is one between two attempts, and follows at once on a reading of the clock that
leaves time for it. -/
def SleepsInTime (pause deadline : ℕ) : Option ℕ → List TunnelEvent → Prop
  | _, [] => True
  | _, ⟨.inr .now, now⟩ :: events => SleepsInTime pause deadline (some now) events
  | last, ⟨.inr (.sleep d), _⟩ :: events =>
    d = pause ∧ (∃ now, last = some now ∧ now + pause ≤ deadline) ∧
      SleepsInTime pause deadline none events
  | _, _ :: events => SleepsInTime pause deadline none events

/-- The operations of a client among those of a call. -/
def TunnelEvent.client? : TunnelEvent → Option Event
  | ⟨.inl op, ans⟩ => some ⟨op, ans⟩
  | _ => none

/-- The runs of the loop from a state: its attempts, and what the last one came to. -/
inductive Waited (attempt : Action (Except Error (Except Refusal Unit))) (pause deadline : ℕ) :
    GatewayAuth.State → List TunnelEvent → List TunnelAttempt →
      Except Error (Except Refusal Unit) → GatewayAuth.State → Prop
  /-- An attempt that ends in no 502 is the last one. -/
  | settled {s s' : GatewayAuth.State} {events : List Event}
      {outcome : Except Error (Except Refusal Unit)}
      (run : Run (attempt.run s) events (outcome, s')) (other : ¬ NothingListening outcome) :
      Waited attempt pause deadline s (events.map Library.Event.inl) [⟨events, outcome⟩] outcome s'
  /-- An attempt that ends in a 502 is the last one when there is no time left. -/
  | late {s s' : GatewayAuth.State} {events : List Event}
      {outcome : Except Error (Except Refusal Unit)} {now : ℕ}
      (run : Run (attempt.run s) events (outcome, s')) (listens : NothingListening outcome)
      (time : deadline < now + pause) :
      Waited attempt pause deadline s (events.map Library.Event.inl ++ [⟨.inr .now, now⟩])
        [⟨events, outcome⟩] outcome s'
  /-- There is another attempt. -/
  | again {s s₁ s' : GatewayAuth.State} {events : List Event} {rest : List TunnelEvent}
      {attempts : List TunnelAttempt} {outcome last : Except Error (Except Refusal Unit)} {now : ℕ}
      (run : Run (attempt.run s) events (outcome, s₁)) (listens : NothingListening outcome)
      (time : now + pause ≤ deadline)
      (waited : Waited attempt pause deadline s₁ rest attempts last s') :
      Waited attempt pause deadline s (events.map Library.Event.inl ++
        ⟨.inr .now, now⟩ :: ⟨.inr (.sleep pause), ()⟩ :: rest)
        (⟨events, outcome⟩ :: attempts) last s'

/-- What a client does says nothing of the clock. -/
@[simp] theorem clocked_append {t : ℕ} {events : List Event} {rest : List TunnelEvent} :
    Clocked t (events.map Library.Event.inl ++ rest) ↔ Clocked t rest := by
  induction events with
  | nil => rfl
  | cons e events ih => exact ih

/-- What a client does is no sleep. -/
theorem sleepsInTime_append {pause deadline : ℕ} {last : Option ℕ} {events : List Event}
    {rest : List TunnelEvent} (h : ∀ last, SleepsInTime pause deadline last rest) :
    SleepsInTime pause deadline last (events.map Library.Event.inl ++ rest) := by
  induction events generalizing last with
  | nil => exact h last
  | cons e events ih => exact ih

/-- Before the deadline there is time for a round. -/
theorem one_le_of_time {t pause deadline k : ℕ} (ht : t ≤ deadline)
    (h : deadline < t + pause * k) : 1 ≤ k := by
  rw [Nat.one_le_iff_ne_zero]
  rintro rfl
  rw [Nat.mul_zero, Nat.add_zero] at h
  exact absurd h (not_lt.mpr ht)

/-- The loop returns what an attempt comes to, unless that is a refusal because nothing listens. -/
theorem waitOut_settles {retry : List UInt8 →
    TunnelAction (Option (Except Error (Except Refusal Unit)))}
    {outcome : Except Error (Except Refusal Unit)} (h : ¬ NothingListening outcome) :
    (match outcome with
      | .ok (.error (.nothingListening body)) => retry body
      | other => return some other) = return some outcome := by
  rcases outcome with err | ⟨⟨status, authUrl⟩ | body | body | status⟩ | stream
  all_goals first
    | rfl
    | exact absurd ⟨body, rfl⟩ h

section

variable (attempt : Action (Except Error (Except Refusal Unit))) (pause deadline : ℕ)

/-- **The loop ends.** With a clock that shows no more than the deadline in the beginning, and that
the pauses of some rounds would take past it, there are no more attempts than that.

**Proof sketch.** Induction on the rounds the loop is given: a pause takes the clock on by what a
round counts for. -/
theorem waitOut_spec (rounds : ℕ) (s : GatewayAuth.State) :
    Always ((waitOut attempt pause deadline rounds).run s) fun events r =>
      ∀ t k, k ≤ rounds → t ≤ deadline → deadline < t + pause * k →
        Clocked t events → ∃ last attempts, r.1 = some last ∧ attempts.length ≤ k ∧
          Waited attempt pause deadline s events attempts last r.2 := by
  induction rounds generalizing s with
  | zero =>
    rw [waitOut, StateT.run_pure, always_pure]
    intro t k hk ht hdeadline
    exact absurd ((one_le_of_time ht hdeadline).trans hk) (by decide)
  | succ rounds ih =>
    rw [waitOut, StateT.run_bind, always_bind]
    show Always (attempt.run s).inl _
    rw [always_inl, always_iff_run]
    rintro events ⟨outcome, s₁⟩ hrun
    by_cases hlistens : NothingListening outcome
    · obtain ⟨body, rfl⟩ := hlistens
      have hlistens : NothingListening (.ok (.error (.nothingListening body))) := ⟨body, rfl⟩
      simp only [StateT.run_bind, StateT.run_monadLift, monadLift_self, always_bind, always_pure,
        always_instantNow]
      intro now
      by_cases htime : now + pause ≤ deadline
      · rw [if_pos htime]
        simp only [StateT.run_bind, StateT.run_monadLift, monadLift_self, always_bind, always_pure,
          always_sleep]
        rintro ⟨⟩
        refine (ih s₁).mono fun rest r hrest t k hk ht hdeadline hclock => ?_
        obtain ⟨hnow, hclock⟩ : t ≤ now ∧ Clocked (now + pause) rest :=
          clocked_append.mp hclock
        obtain ⟨k, rfl⟩ := Nat.exists_eq_succ_of_ne_zero
          (Nat.one_le_iff_ne_zero.mp (one_le_of_time ht hdeadline))
        have hleft : deadline < now + pause + pause * k := by
          rw [Nat.succ_eq_add_one, Nat.mul_add_one] at hdeadline
          omega
        obtain ⟨last, attempts, hlast, hlength, hwaited⟩ :=
          hrest (now + pause) k (Nat.le_of_succ_le_succ hk) htime hleft hclock
        exact ⟨last, ⟨events, _⟩ :: attempts, hlast, Nat.succ_le_succ hlength,
          .again hrun hlistens htime hwaited⟩
      · rw [if_neg htime, StateT.run_pure, always_pure]
        intro t k hk ht hdeadline hclock
        exact ⟨_, [⟨events, _⟩], rfl, one_le_of_time ht hdeadline,
          .late hrun hlistens (not_le.mp htime)⟩
    · rw [waitOut_settles hlistens, StateT.run_pure, always_pure]
      intro t k hk ht hdeadline hclock
      rw [List.append_nil]
      exact ⟨_, [⟨events, _⟩], rfl, one_le_of_time ht hdeadline, .settled hrun hlistens⟩

end

namespace Waited

variable {attempt : Action (Except Error (Except Refusal Unit))} {pause deadline : ℕ}
  {s s' : GatewayAuth.State} {events : List TunnelEvent} {attempts : List TunnelAttempt}
  {last : Except Error (Except Refusal Unit)}

/-- The attempts are all that a client does. -/
theorem client_events (h : Waited attempt pause deadline s events attempts last s') :
    events.filterMap TunnelEvent.client? = attempts.flatMap TunnelAttempt.events := by
  have hmap : ∀ events : List Event,
      (events.map Library.Event.inl).filterMap TunnelEvent.client? = events := by
    intro events
    rw [List.filterMap_map]
    exact List.filterMap_some
  induction h with
  | settled => simp [hmap]
  | late => simp [hmap, TunnelEvent.client?]
  | again _ _ _ _ ih =>
    rw [List.filterMap_append, hmap, List.flatMap_cons]
    exact congrArg _ ih

/-- The attempts are runs. -/
theorem runs (h : Waited attempt pause deadline s events attempts last s') :
    ∀ a ∈ attempts, ∃ s s', Run (attempt.run s) a.events (a.outcome, s') := by
  induction h with
  | settled run => exact List.forall_mem_singleton.mpr ⟨_, _, run⟩
  | late run => exact List.forall_mem_singleton.mpr ⟨_, _, run⟩
  | again run _ _ _ ih => exact List.forall_mem_cons.mpr ⟨⟨_, _, run⟩, ih⟩

/-- There is a last attempt, and the loop comes to what it came to: at once, unless that is a
502. -/
theorem getLast? (h : Waited attempt pause deadline s events attempts last s') :
    ∃ lastEvents, attempts.getLast? = some ⟨lastEvents, last⟩ ∧
      (¬ NothingListening last → lastEvents.map Library.Event.inl <:+ events) := by
  induction h with
  | settled => exact ⟨_, rfl, fun _ => List.suffix_rfl⟩
  | late _ listens => exact ⟨_, rfl, fun hother => absurd listens hother⟩
  | again _ _ _ _ ih =>
    obtain ⟨lastEvents, hlast, hends⟩ := ih
    refine ⟨lastEvents, by rw [List.getLast?_cons, hlast]; rfl, fun hother => ?_⟩
    refine (hends hother).trans ?_
    exact List.suffix_append_of_suffix ((List.suffix_cons _ _).trans (List.suffix_cons _ _))

/-- There is another attempt only after a 502. -/
theorem retried (h : Waited attempt pause deadline s events attempts last s') :
    ∀ a ∈ attempts.dropLast, NothingListening a.outcome := by
  induction h with
  | settled => exact fun a ha => absurd ha List.not_mem_nil
  | late => exact fun a ha => absurd ha List.not_mem_nil
  | again _ listens _ waited ih =>
    obtain ⟨events, hlast, -⟩ := waited.getLast?
    have hne := List.ne_nil_of_mem (List.mem_of_getLast? hlast)
    rw [List.dropLast_cons_of_ne_nil hne]
    exact List.forall_mem_cons.mpr ⟨listens, ih⟩

/-- Each of these is a run of the loop, if it is given a round for every attempt. -/
theorem run (h : Waited attempt pause deadline s events attempts last s') {rounds : ℕ}
    (hrounds : attempts.length ≤ rounds) :
    Run ((waitOut attempt pause deadline rounds).run s) events (some last, s') := by
  induction h generalizing rounds with
  | settled run other =>
    obtain ⟨rounds, rfl⟩ := Nat.exists_eq_succ_of_ne_zero (Nat.one_le_iff_ne_zero.mp hrounds)
    rw [waitOut, StateT.run_bind]
    refine run.inl.bind_quiet ?_
    rw [waitOut_settles other]
    exact .pure _
  | @late s s' events outcome now run listens time =>
    obtain ⟨rounds, rfl⟩ := Nat.exists_eq_succ_of_ne_zero (Nat.one_le_iff_ne_zero.mp hrounds)
    obtain ⟨body, rfl⟩ := listens
    rw [waitOut, StateT.run_bind]
    refine run.inl.bind (@Run.op TunnelOp TunnelOp.Ans _ (.inr .now) _ now _ _ ?_)
    show Run ((if now + pause ≤ deadline then _ else _ : TunnelAction _).run s') _ _
    rw [if_neg (not_le.mpr time)]
    exact .pure _
  | @again s s₁ s' events rest attempts outcome last now run listens time waited ih =>
    obtain ⟨rounds, rfl⟩ := Nat.exists_eq_succ_of_ne_zero
      (Nat.one_le_iff_ne_zero.mp ((Nat.le_add_left 1 _).trans hrounds))
    obtain ⟨body, rfl⟩ := listens
    rw [waitOut, StateT.run_bind]
    refine run.inl.bind (@Run.op TunnelOp TunnelOp.Ans _ (.inr .now) _ now _ _ ?_)
    show Run ((if now + pause ≤ deadline then _ else _ : TunnelAction _).run s₁) _ _
    rw [if_pos time]
    exact @Run.op TunnelOp TunnelOp.Ans _ (.inr (.sleep pause)) _ () _ _
      (ih (Nat.le_of_succ_le_succ hrounds))

/-- The loop sleeps only when there is time. -/
theorem sleeps (h : Waited attempt pause deadline s events attempts last s')
    {rest : List TunnelEvent} (hrest : ∀ now, SleepsInTime pause deadline now rest)
    (now : Option ℕ) :
    SleepsInTime pause deadline now (events ++ rest) := by
  induction h generalizing now with
  | settled => exact sleepsInTime_append hrest
  | late =>
    rw [List.append_assoc]
    exact sleepsInTime_append fun _ => hrest _
  | again _ _ time _ ih =>
    rw [List.append_assoc]
    exact sleepsInTime_append fun _ => ⟨rfl, ⟨_, rfl, time⟩, ih _⟩

end Waited

/-! ## The call -/

/-- How a call ends after its last attempt. -/
def Finishes (client : Client) (port : ℕ) (events : List TunnelEvent) (result : Except Error Unit) :
    Except Error (Except Refusal Unit) → Prop
  | .error err => result = .error err
  | .ok (.ok _) => result = .ok ()
  | .ok (.error (.unsupported status)) => ∃ answer : Except Failure Unit,
      events.getLast? = some ⟨.inr (.connect client.auth.boxHost port), answer⟩ ∧
        ((∃ failure, answer = .error failure ∧
          (result = .error (ioError failure) ∨
            result = .error (refusalError (.unsupported status) client.auth.boxHost port))) ∨
          answer = .ok () ∧ result = .ok ())
  | .ok (.error refusal) => result = .error (refusalError refusal client.auth.boxHost port)

/-- What a call does, by its attempts. There are at most 21, which are all that the client does;
each comes to what the gateway answers, and another one follows only on a 502. The call sleeps only
when there is time, and it ends as its last attempt says: at once with the error of an attempt that
fails, with a stream only after a 200 or from a connection to the port. -/
structure WaitsOut (t : Transport) (client : Client) (port start : ℕ) (events : List TunnelEvent)
    (attempts : List TunnelAttempt) (result : Except Error Unit) : Prop where
  client_events : events.filterMap TunnelEvent.client? = attempts.flatMap TunnelAttempt.events
  bounded : attempts.length ≤ 21
  concludes : ∀ a ∈ attempts, a.Concludes t client
  retried : ∀ a ∈ attempts.dropLast, NothingListening a.outcome ∧ a.AnsweredWith 502
  failed : ∀ a ∈ attempts, ∀ err, a.outcome = .error err → attempts.getLast? = some a ∧
    a.events.map Library.Event.inl <:+ events ∧ result = .error err
  opened : ∀ a ∈ attempts, a.outcome = .ok (.ok ()) → a.AnsweredWith 200
  sleeps : SleepsInTime nothingListeningRetry (start + nothingListeningWait) none events
  finishes : ∃ last, attempts.getLast? = some last ∧ Finishes client port events result last.outcome

/-- A call without a tunnel ends with a connection to the port, or with the failure of one. -/
theorem debugPortDirect_spec (client : Client) (port : ℕ) (status : Option ℕ)
    (s : GatewayAuth.State) (events : List TunnelEvent) :
    Always ((debugPortDirect client port (.unsupported status)).run s) fun tail r =>
      (∃ answer, tail = [⟨.inr (.connect client.auth.boxHost port), answer⟩]) ∧
        Finishes client port (events ++ tail) r.1 (.ok (.error (.unsupported status))) := by
  simp only [debugPortDirect, StateT.run_bind, StateT.run_monadLift, monadLift_self, always_bind,
    always_pure, always_connectTcp]
  intro answer
  have hlast : ∀ event : TunnelEvent, (events ++ [event]).getLast? = some event := fun event =>
    List.getLast?_concat
  rcases answer with failure | _
  · simp only [StateT.run_bind, StateT.run_get, pure_bind]
    split_ifs with hgated
    · rw [StateT.run_pure, always_pure]
      exact ⟨⟨_, rfl⟩, _, hlast _, .inl ⟨failure, rfl, .inr rfl⟩⟩
    · rw [StateT.run_pure, always_pure]
      exact ⟨⟨_, rfl⟩, _, hlast _, .inl ⟨failure, rfl, .inl rfl⟩⟩
  · rw [StateT.run_pure, always_pure]
    exact ⟨⟨_, rfl⟩, _, hlast _, .inr ⟨rfl, rfl⟩⟩

/-- A clock is one up to any point. -/
theorem Clocked.left {t : ℕ} {events rest : List TunnelEvent} (h : Clocked t (events ++ rest)) :
    Clocked t events := by
  induction events generalizing t with
  | nil => trivial
  | cons e events ih =>
    obtain ⟨_ | op, ans⟩ := e
    · exact ih h
    · cases op with
      | now => exact ⟨h.1, ih h.2⟩
      | sleep d => exact ih h
      | connect host port => exact ih h

/-- What a call does, by the run of its loop and what follows it. -/
theorem WaitsOut.of_waited [SerdeJson] {t : Transport} {client : Client} {port start : ℕ}
    {s s' : GatewayAuth.State} {events tail : List TunnelEvent} {attempts : List TunnelAttempt}
    {last : Except Error (Except Refusal Unit)} {result : Except Error Unit}
    (hwaited : Waited (t.pass client (.tunnelAuthorized port)) nothingListeningRetry
      (start + nothingListeningWait) s events attempts last s')
    (hlength : attempts.length ≤ 21) (hclient : tail.filterMap TunnelEvent.client? = [])
    (htail : ∀ err, last = .error err → tail = [])
    (hsleeps : ∀ now, SleepsInTime nothingListeningRetry (start + nothingListeningWait) now tail)
    (hfinishes : Finishes client port (events ++ tail) result last) :
    WaitsOut t client port start (events ++ tail) attempts result := by
  obtain ⟨lastEvents, hlast, hends⟩ := hwaited.getLast?
  have hconcludes : ∀ a ∈ attempts, a.Concludes t client := by
    intro a ha
    obtain ⟨s, s', hrun⟩ := hwaited.runs a ha
    exact always_iff_run.mp (tunnelAuthorized_concludes t client port s) _ _ hrun
  refine {
    client_events := by rw [List.filterMap_append, hclient, List.append_nil, hwaited.client_events]
    bounded := hlength
    concludes := hconcludes
    retried := fun a ha => ?_
    failed := fun a ha err herr => ?_
    opened := fun a ha => (hconcludes a ha).answeredWith.1
    sleeps := hwaited.sleeps hsleeps none
    finishes := ⟨_, hlast, hfinishes⟩ }
  · have hlistens := hwaited.retried a ha
    exact ⟨hlistens, (hconcludes a (List.dropLast_subset _ ha)).answeredWith.2 hlistens⟩
  · have hsplit : attempts.dropLast ++ [⟨lastEvents, last⟩] = attempts :=
      List.dropLast_append_getLast? _ hlast
    rw [← hsplit, List.mem_append, List.mem_singleton] at ha
    rcases ha with ha | rfl
    · obtain ⟨body, hbody⟩ := hwaited.retried a ha
      cases herr.symm.trans hbody
    · obtain rfl : last = .error err := herr
      refine ⟨hlast, ?_, hfinishes⟩
      rw [htail err rfl, List.append_nil]
      refine hends ?_
      rintro ⟨body, hbody⟩
      cases hbody

/-- **Debug tunnels.** With a clock that never goes back and advances in every sleep by what it was
to last, a call ends, and does what `WaitsOut` says.

**Proof sketch.** The loop ends by `waitOut_spec`, for 21 pauses take the clock past the deadline.
What its attempts come to is `tunnelAuthorized_concludes`. -/
theorem debugTunnel_waitsOut [SerdeJson] (t : Transport) (client : Client) (port n : ℕ)
    (s : GatewayAuth.State) :
    Always ((t.debugTunnel client port (21 + n)).run s) fun events r =>
      Clocked 0 events → ∃ result start rest attempts, r.1 = some result ∧
        events = ⟨.inr .now, start⟩ :: rest ∧
          WaitsOut t client port start rest attempts result := by
  have hcall : t.debugTunnel client port (21 + n) =
      Lager.debugTunnel client (t.pass client (.tunnelAuthorized port)) port (21 + n) := by
    cases t <;> rfl
  rw [hcall]
  simp only [Lager.debugTunnel, StateT.run_bind, StateT.run_monadLift, monadLift_self, always_bind,
    always_pure, always_instantNow]
  intro start
  refine (waitOut_spec (t.pass client (.tunnelAuthorized port)) nothingListeningRetry
    (start + nothingListeningWait) (21 + n) s).mono fun rest r hspec => ?_
  have hloop : ∀ tail, Clocked 0 (⟨.inr .now, start⟩ :: (rest ++ tail)) → ∃ last attempts,
      r.1 = some last ∧ attempts.length ≤ 21 ∧
        Waited (t.pass client (.tunnelAuthorized port)) nothingListeningRetry
          (start + nothingListeningWait) s rest attempts last r.2 := by
    intro tail hclock
    have htime : start + nothingListeningWait < start + nothingListeningRetry * 21 :=
      Nat.add_lt_add_left (by decide) start
    exact hspec start 21 (Nat.le_add_right 21 n) (Nat.le_add_right _ _) htime hclock.2.left
  obtain ⟨outcome, s'⟩ := r
  -- Where nothing follows the loop, it is the loop that settles the call.
  have hend : ∀ last result, outcome = some last →
      (∀ events, Finishes client port events result last) →
        Clocked 0 (⟨.inr .now, start⟩ :: (rest ++ [])) →
          ∃ result' start' rest' attempts, some result = some result' ∧
            (⟨.inr .now, start⟩ :: (rest ++ []) : List TunnelEvent) =
              ⟨.inr .now, start'⟩ :: rest' ∧
                WaitsOut t client port start' rest' attempts result' := by
    rintro last result rfl hfinishes hclock
    obtain ⟨last', attempts, hlast, hlength, hwaited⟩ := hloop [] hclock
    obtain rfl := Option.some.inj hlast
    exact ⟨result, start, rest ++ [], attempts, rfl, rfl,
      .of_waited hwaited hlength rfl (fun _ _ => rfl) (fun _ => trivial) (hfinishes _)⟩
  rcases outcome with _ | err | ⟨⟨status, authUrl⟩ | body | body | status⟩ | stream
  · intro hclock
    obtain ⟨last, -, hlast, -⟩ := hloop [] hclock
    cases hlast
  · exact hend _ _ rfl fun _ => rfl
  · exact hend _ _ rfl fun _ => rfl
  · exact hend _ _ rfl fun _ => rfl
  · exact hend _ _ rfl fun _ => rfl
  · rw [StateT.run_map, always_map]
    refine (debugPortDirect_spec client port status s' rest).mono fun tail r hdirect hclock => ?_
    obtain ⟨⟨answer, rfl⟩, hfinishes⟩ := hdirect
    obtain ⟨last, attempts, hlast, hlength, hwaited⟩ := hloop _ hclock
    obtain rfl := Option.some.inj hlast
    have hdoes : WaitsOut t client port start
        (rest ++ [⟨.inr (.connect client.auth.boxHost port), answer⟩]) attempts r.1 :=
      WaitsOut.of_waited hwaited hlength rfl (fun _ herr => by cases herr) (fun _ => trivial)
        hfinishes
    exact ⟨r.1, start, _, attempts, rfl, rfl, hdoes⟩
  · exact hend _ _ rfl fun _ => rfl

/-! ## A run on fixed answers -/

/-- The client of a user with a pinned token. -/
def pinnedClient : Client := ⟨"http://box:9000", "http://box:8765", 30, ⟨"box", some "pin"⟩⟩

/-- A `CONNECT` of that client, and the status it is answered with. -/
def connectedWith (status : ℕ) : Event :=
  ⟨.exchange ⟨"box", 8765, connectRequest 2331 "box" (some "pin"), some "pin"⟩,
    .head ⟨status, none, 0, false, false⟩ (.ok [])⟩

/-- The loop of a call with a debug server that listens from the second attempt on. -/
def startedLate (now : ℕ) : List TunnelEvent :=
  [(connectedWith 502).inl, ⟨.inr .now, now⟩, ⟨.inr (.sleep nothingListeningRetry), ()⟩,
    (connectedWith 200).inl]

/-- A call to that debug server reads a clock at 3 and at 5, sleeps and has its tunnel. -/
theorem debugTunnel_waitsOut_startedLate :
    letI := nullParser
    Run ((Transport.blocking.debugTunnel pinnedClient 2331 21).run ⟨none, none⟩)
        (⟨.inr .now, (3 : ℕ)⟩ :: startedLate 5) (some (.ok ()), ⟨none, none⟩) ∧
      Clocked 0 (⟨.inr .now, (3 : ℕ)⟩ :: startedLate 5) ∧
      ∃ attempts, WaitsOut .blocking pinnedClient 2331 3 (startedLate 5) attempts (.ok ()) := by
  let _ := nullParser
  have hrefused : Run ((LagerBox.tunnelAuthorized pinnedClient 2331).run ⟨none, none⟩)
      [connectedWith 502] (.ok (.error (.nothingListening [])), ⟨none, none⟩) := .op _ (.pure _)
  have hopened : Run ((LagerBox.tunnelAuthorized pinnedClient 2331).run ⟨none, none⟩)
      [connectedWith 200] (.ok (.ok ()), ⟨none, none⟩) := .op _ (.pure _)
  have hlistens : ¬ NothingListening (.ok (.ok ())) := by
    rintro ⟨body, hbody⟩
    cases hbody
  have htime : 5 + nothingListeningRetry ≤ 3 + nothingListeningWait := by decide
  have hwaited : Waited (LagerBox.tunnelAuthorized pinnedClient 2331) nothingListeningRetry
      (3 + nothingListeningWait) ⟨none, none⟩ (startedLate 5)
      [⟨[connectedWith 502], .ok (.error (.nothingListening []))⟩,
        ⟨[connectedWith 200], .ok (.ok ())⟩] (.ok (.ok ())) ⟨none, none⟩ :=
    .again hrefused ⟨[], rfl⟩ htime (.settled hopened hlistens)
  have hloop : Run ((waitOut (LagerBox.tunnelAuthorized pinnedClient 2331) nothingListeningRetry
      (3 + nothingListeningWait) 21).run ⟨none, none⟩) (startedLate 5)
      (some (.ok (.ok ())), ⟨none, none⟩) := hwaited.run (by decide)
  have hrun : Run ((Transport.blocking.debugTunnel pinnedClient 2331 21).run ⟨none, none⟩)
      (⟨.inr .now, (3 : ℕ)⟩ :: startedLate 5) (some (.ok ()), ⟨none, none⟩) := by
    refine @Run.op TunnelOp TunnelOp.Ans _ (.inr .now) _ (3 : ℕ) _ _ ?_
    exact hloop.bind_quiet (.pure _)
  have hclock : Clocked 0 (⟨.inr .now, (3 : ℕ)⟩ :: startedLate 5) := by
    refine ⟨by decide, ?_⟩
    exact ⟨(by decide : 3 ≤ 5), trivial⟩
  obtain ⟨result, start, rest, attempts, hresult, hevents, hdoes⟩ :=
    always_iff_run.mp (debugTunnel_waitsOut .blocking pinnedClient 2331 0 ⟨none, none⟩) _ _ hrun
      hclock
  injection hevents with hstart hrest
  injection hstart with _ hstart
  obtain rfl := Option.some.inj hresult
  subst hrest hstart
  exact ⟨hrun, hclock, attempts, hdoes⟩

end Lager
