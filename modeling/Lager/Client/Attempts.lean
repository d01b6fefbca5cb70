import Lager.Client.Calls

set_option relaxedAutoImplicit false
set_option autoImplicit false

/-!
# What one attempt of a pass does

An attempt sends one request with the token it was given, unless the address of the debug service
is of no use, and it reads a gateway denial off the answer. Some passes read the body of the
answer before they look for a denial, and then a body that fails to arrive is what they report.

## Main definitions

* `Lager.Transport.bodyLost` — whether a pass reports that the body of an answer failed to arrive.
* `Lager.Attempt.Reads` — an attempt came to what the answer says.
* `Lager.Attempt.Sends`, `Lager.Attempt.Refrains` — the two kinds of attempts.
* `Lager.Transport.reaches` — whether the attempts of a pass have an address to send to.

## Main results

* `Lager.Transport.attempt_spec` — every attempt is of one kind or the other.
* `Lager.Transport.pass_eq` — every pass of either client is a `Lager.pass`.
-/

namespace Lager

open Library

/-- The failure of reading a body. -/
def bodyFailure : Except Failure (List UInt8) → Option Failure
  | .error failure => some failure
  | .ok _ => none

/-- The failure of reading the body of an answer. -/
def Event.bodyFailure : Event → Option Failure
  | ⟨.request _, .ok resp⟩ => Lager.bodyFailure resp.body
  | ⟨.exchange _, .head _ body⟩ => Lager.bodyFailure body
  | _ => none

/-- Whether a pass reports that the body of an answer failed to arrive, whatever its head says: the
raw requests always do, the JSON requests and the tunnels of the async client when it times
out. -/
def Transport.bodyLost : Transport → Pass → Event → Bool
  | _, .execute _, e | _, .executeDebug _, e => e.bodyFailure.any Failure.timedOut
  | _, .executeRaw _, e => e.bodyFailure.isSome
  | .blocking, .tunnelAuthorized _, _ => false
  | .async, .tunnelAuthorized _, e => e.bodyFailure.any Failure.timedOut
  | _, .streamDebug _, _ => false

/-- Whether the debug service has an address to connect to. -/
def usable (base : String) : Bool :=
  match hostPort base with
  | .ok _ => true
  | .error _ => false

/-- Whether the attempts of a pass have an address to send to. An async stream needs plain HTTP. -/
def Transport.reaches : Transport → Client → Pass → Bool
  | _, client, .tunnelAuthorized _ => usable client.debugBase
  | .async, client, .streamDebug _ =>
    decide ("http://".toList <+: client.debugBase.toList) && usable client.debugBase
  | _, _, _ => true

namespace Attempt

variable {α : Type}

/-- An attempt came to what the answer says: a denial exactly when the answer is one, unless its
body was lost. -/
def Reads (lost : Event → Bool) (e : Event) : Attempt α → Prop
  | answered _ => e.denial = none
  | denied status authUrl => e.denial = some (status, authUrl) ∧ lost e = false
  | failed err => err.isDenial = false ∧ (e.denial = none ∨ lost e = true)

/-- An attempt that sends one request, with the token it is given. -/
def Sends (lost : Event → Bool) (attempt : Option String → Program Op Op.Ans (Attempt α)) : Prop :=
  ∀ token, Always (attempt token) fun events a =>
    ∃ e : Event, events = [e] ∧ e.bearer = some token ∧ a.Reads lost e

/-- An attempt that sends nothing and fails. -/
def Refrains (attempt : Option String → Program Op Op.Ans (Attempt α)) : Prop :=
  ∃ err : Error, err.isDenial = false ∧ ∀ token, attempt token = pure (.failed err)

/-- What an attempt does, by whether it has an address to send to. -/
def Does (lost : Event → Bool) (attempt : Option String → Program Op Op.Ans (Attempt α)) :
    Bool → Prop
  | true => Sends lost attempt
  | false => Refrains attempt

/-- An attempt is of one kind or the other. -/
theorem Does.kind {lost : Event → Bool} {attempt : Option String → Program Op Op.Ans (Attempt α)}
    {reaches : Bool} (h : Does lost attempt reaches) : Refrains attempt ∨ Sends lost attempt := by
  cases reaches
  · exact .inl h
  · exact .inr h

/-- An attempt through the HTTP library sends. -/
theorem Sends.request {lost : Event → Bool} {r : Option String → Request}
    {read : Except Failure Response → Attempt α} (hr : ∀ token, (r token).bearer = token)
    (hread : ∀ r answer, (read answer).Reads lost ⟨.request r, answer⟩) :
    Sends lost fun token => read <$> request (r token) := by
  intro token
  rw [always_map, always_request]
  intro answer
  refine ⟨⟨.request (r token), answer⟩, rfl, ?_, hread _ answer⟩
  show some (r token).bearer = some token
  rw [hr]

/-- An attempt on a socket of its own sends. -/
theorem Sends.exchange {lost : Event → Bool} {r : Option String → Exchange}
    {read : HeadAnswer → Attempt α} (hr : ∀ token, (r token).bearer = token)
    (hread : ∀ r answer, (read answer).Reads lost ⟨.exchange r, answer⟩) :
    Sends lost fun token => read <$> exchange (r token) := by
  intro token
  rw [always_map, always_exchange]
  intro answer
  refine ⟨⟨.exchange (r token), answer⟩, rfl, ?_, hread _ answer⟩
  show some (r token).bearer = some token
  rw [hr]

/-- No attempt of either kind fails with an error that asks for a sign-in. -/
theorem never_authRequired {lost : Event → Bool}
    {attempt : Option String → Program Op Op.Ans (Attempt α)}
    (h : Refrains attempt ∨ Sends lost attempt) (token : Option String) :
    Always (attempt token) fun _ a => ∀ b u m, a ≠ .failed (.authRequired b u m) := by
  rcases h with ⟨err, herr, h⟩ | h
  · rw [h token, always_pure]
    rintro b u m heq
    cases heq
    cases herr
  · refine (h token).mono ?_
    rintro events a ⟨e, -, -, hreads⟩ b u m rfl
    cases hreads.1

end Attempt

/-! ## Reading the answers -/

section

variable {status : ℕ} {resp : Response} {r : Request} {failure : Failure} {err : Error}

/-- Only an error status is a denial. -/
theorem not_isDenial_of_lt (h : status < 400) : isDenial status = false := by
  have h₁ : status ≠ 401 := by omega
  have h₂ : status ≠ 403 := by omega
  have h₃ : status ≠ 503 := by omega
  simp [isDenial, h₁, h₂, h₃]

/-- Whether an answer through the HTTP library is a denial is in its head. -/
theorem denial_request (r : Request) (resp : Response) :
    Event.denial ⟨.request r, .ok resp⟩ = (gatewayDenial resp).map fun url => (resp.status, url) :=
  rfl

/-- Whether an answer on a socket of its own is a denial is in its head. -/
theorem denial_exchange (r : Exchange) (head : Head) (body : Except Failure (List UInt8)) :
    Event.denial ⟨.exchange r, .head head body⟩ = head.denial.map fun url => (head.status, url) :=
  rfl

/-- A body that is no JSON is an error of its own only when the status is none. -/
theorem unparsed_error {e : String} (h : unparsed status e = .error err) :
    err.isDenial = false ∧ status < 400 := by
  unfold unparsed at h
  split_ifs at h with hlt
  obtain rfl := Except.error.inj h
  exact ⟨rfl, hlt⟩

/-- The last check of `send_once` lets a denial through, and makes no other. -/
theorem reads_checkBody {lost : Event → Bool} (hkept : lost ⟨.request r, .ok resp⟩ = false)
    (body : Value) :
    (Attempt.ofSend (checkBody resp.status (gatewayDenial resp) body)).Reads lost
      ⟨.request r, .ok resp⟩ := by
  rcases hg : gatewayDenial resp with _ | url
  · have hdenial : Event.denial ⟨.request r, .ok resp⟩ = none := by rw [denial_request, hg]; rfl
    unfold checkBody
    cases body with
    | null =>
      dsimp only
      split_ifs
      · exact ⟨rfl, .inl hdenial⟩
      · exact hdenial
    | _ => exact hdenial
  · exact ⟨by rw [denial_request, hg]; rfl, hkept⟩

/-- A client turns a response into JSON: it reports a body that times out, and one that is no JSON
where the status is no error. -/
structure ReadsJson (jsonBody : Response → Except Error Value) : Prop where
  error : ∀ resp err, jsonBody resp = .error err → err.isDenial = false ∧
    (resp.status < 400 ∨ (bodyFailure resp.body).any Failure.timedOut = true)
  ok : ∀ resp body, jsonBody resp = .ok body →
    (bodyFailure resp.body).any Failure.timedOut = false

/-- The JSON body of a response: the clients differ in the texts of their errors. -/
def parsedBody [SerdeJson] (text : String → String) (late : Failure → Error) (resp : Response) :
    Except Error Value :=
  match resp.body with
  | .ok bytes =>
    match SerdeJson.fromSlice bytes with
    | .ok body => .ok body
    | .error e => unparsed resp.status (text e)
  | .error e => if e.timedOut then .error (late e) else unparsed resp.status e.message

/-- The body as the blocking client reads it. -/
theorem LagerBox.jsonBody_eq [SerdeJson] :
    LagerBox.jsonBody = parsedBody id fun e => .timeout (.readingTimedOut e.message) := rfl

/-- The body as the async client reads it. -/
theorem AsyncLagerBox.jsonBody_eq [SerdeJson] : AsyncLagerBox.jsonBody =
    parsedBody SerdeJson.reqwestText fun e => .timeout (.text e.message) := rfl

/-- A body is turned into JSON whatever the texts are, if a late one is no denial. -/
theorem readsJson_parsedBody [SerdeJson] (text : String → String) {late : Failure → Error}
    (hlate : ∀ e, (late e).isDenial = false) : ReadsJson (parsedBody text late) where
  error resp err h := by
    unfold parsedBody at h
    split at h
    · split at h
      · cases h
      · exact (unparsed_error h).imp_right .inl
    · split at h
      · cases h
        exact ⟨hlate _, .inr (by simp_all [bodyFailure])⟩
      · exact (unparsed_error h).imp_right .inl
  ok resp body h := by
    unfold parsedBody at h
    split at h
    · simp [bodyFailure, *]
    · split_ifs at h with htime
      simp [bodyFailure, *]

/-- The blocking client turns a response into JSON. -/
theorem LagerBox.readsJson [SerdeJson] : ReadsJson LagerBox.jsonBody := by
  rw [LagerBox.jsonBody_eq]
  exact readsJson_parsedBody _ fun _ => rfl

/-- The async client does. -/
theorem AsyncLagerBox.readsJson [SerdeJson] : ReadsJson AsyncLagerBox.jsonBody := by
  rw [AsyncLagerBox.jsonBody_eq]
  exact readsJson_parsedBody _ fun _ => rfl

/-- A JSON request of either client comes to what the answer says. -/
theorem ReadsJson.reads {jsonBody : Response → Except Error Value} (h : ReadsJson jsonBody)
    (r : Request) (resp : Response) :
    (Attempt.ofSend (match jsonBody resp with
      | .error err => .error err
      | .ok body => checkBody resp.status (gatewayDenial resp) body)).Reads
        (fun e => e.bodyFailure.any Failure.timedOut) ⟨.request r, .ok resp⟩ := by
  rcases hj : jsonBody resp with err | body
  · obtain ⟨hnot, hlt | hlost⟩ := h.error resp err hj
    · refine ⟨hnot, .inl ?_⟩
      rw [denial_request, gatewayDenial, not_isDenial_of_lt hlt]
      rfl
    · exact ⟨hnot, .inr hlost⟩
  · exact reads_checkBody (h.ok resp body hj) body

/-- A raw request comes to what the answer says. Either client reports a body that fails to arrive,
as an error of its own. -/
theorem reads_raw {resp : Response} {e : Failure → Error}
    (he : ∀ failure, (e failure).isDenial = false) (r : Request) :
    (Attempt.ofSend (match resp.body with
      | .error failure => .error (e failure)
      | .ok bytes => .ok (resp.status, gatewayDenial resp, bytes))).Reads
        (fun e => e.bodyFailure.isSome) ⟨.request r, .ok resp⟩ := by
  obtain ⟨status, http10, headers, failure | bytes⟩ := resp
  · exact ⟨he failure, .inr rfl⟩
  · dsimp only
    rcases hg : gatewayDenial ⟨status, http10, headers, .ok bytes⟩ with _ | url
    · show Event.denial _ = none
      rw [denial_request, hg]
      rfl
    · exact ⟨by rw [denial_request, hg]; rfl, rfl⟩

/-- Classifying a refusal finds the denials. -/
theorem reads_classify {lost : Event → Bool} {r : Exchange} {head : Head}
    {body : Except Failure (List UInt8)} (hkept : lost ⟨.exchange r, .head head body⟩ = false)
    (bytes : List UInt8) :
    (Attempt.ofTunnel
      (.ok (.error (classify head bytes)) : Except Error (Except Refusal Unit))).Reads
      lost ⟨.exchange r, .head head body⟩ := by
  unfold classify
  rcases hd : head.denial with _ | url
  · have hdenial : Event.denial ⟨.exchange r, .head head body⟩ = none := by
      rw [denial_exchange, hd]; rfl
    dsimp only
    split_ifs <;> exact hdenial
  · exact ⟨by rw [denial_exchange, hd]; rfl, hkept⟩

/-- A status of 200 is no denial. -/
theorem denial_of_ok {r : Exchange} {head : Head} {body : Except Failure (List UInt8)}
    (h : head.status = 200) : Event.denial ⟨.exchange r, .head head body⟩ = none := by
  rw [denial_exchange, Head.denial, h]
  rfl

end

/-! ## The attempts of the clients -/

/-- The errors of the blocking client's HTTP library ask for no sign-in. -/
@[simp] theorem LagerBox.isDenial_transportError (failure : Failure) :
    (LagerBox.transportError failure).isDenial = false := by
  unfold LagerBox.transportError
  dsimp only
  split_ifs <;> rfl

/-- The errors of the async client's HTTP library ask for no sign-in. -/
@[simp] theorem AsyncLagerBox.isDenial_transportError (failure : Failure) :
    (AsyncLagerBox.transportError failure).isDenial = false := by
  unfold AsyncLagerBox.transportError
  split_ifs <;> rfl

/-- The errors of a socket ask for no sign-in. -/
@[simp] theorem isDenial_ioError (failure : Failure) : (ioError failure).isDenial = false := by
  unfold ioError
  split_ifs <;> rfl

/-- The errors the debug service reports ask for no sign-in. -/
@[simp] theorem isDenial_debugError (status : ℕ) (body : Value) :
    (debugError status body).isDenial = false := by
  unfold debugError
  dsimp only
  split_ifs <;> rfl

/-- An address the debug service cannot be at is no denial. -/
theorem isDenial_hostPort {base : String} {err : Error} (h : hostPort base = .error err) :
    err.isDenial = false := by
  unfold hostPort at h
  dsimp only at h
  split at h
  · cases h
    rfl
  · split at h
    · cases h
      rfl
    · cases h

/-- A blocking `tunnel_once` comes to what the answer says. -/
theorem LagerBox.reads_readTunnel (r : Exchange) (answer : HeadAnswer) :
    (Attempt.ofTunnel (LagerBox.readTunnel answer)).Reads (fun _ => false)
      ⟨.exchange r, answer⟩ := by
  rcases answer with failure | _ | _ | ⟨head, body⟩
  · exact ⟨isDenial_ioError failure, .inl rfl⟩
  · exact rfl
  · exact rfl
  · unfold LagerBox.readTunnel
    dsimp only
    split_ifs with hstatus
    · exact denial_of_ok hstatus
    · exact reads_classify rfl _

/-- An async `tunnel_once` comes to what the answer says, unless the body of a refusal times out. -/
theorem AsyncLagerBox.reads_readTunnel (host : String) (port : ℕ) (r : Exchange)
    (answer : HeadAnswer) :
    (Attempt.ofTunnel (AsyncLagerBox.readTunnel host port answer)).Reads
      (fun e => e.bodyFailure.any Failure.timedOut) ⟨.exchange r, answer⟩ := by
  rcases answer with failure | _ | _ | ⟨head, failure | bytes⟩
  · exact ⟨isDenial_ioError failure, .inl rfl⟩
  · exact rfl
  · exact rfl
  · unfold AsyncLagerBox.readTunnel
    dsimp only
    split_ifs with hstatus htime
    · exact denial_of_ok hstatus
    · exact ⟨rfl, .inr htime⟩
    · exact reads_classify (by simpa [Event.bodyFailure, bodyFailure] using htime) _
  · unfold AsyncLagerBox.readTunnel
    dsimp only
    split_ifs with hstatus
    · exact denial_of_ok hstatus
    · exact reads_classify rfl _

variable (client : Client)

/-- A raw request of the blocking client. -/
theorem LagerBox.sends_sendRawOnce (req : RawRequest) :
    Attempt.Sends (fun e => e.bodyFailure.isSome) fun token =>
      Attempt.ofSend <$> LagerBox.sendRawOnce client req token := by
  simp only [LagerBox.sendRawOnce, Functor.map_map]
  refine Attempt.Sends.request (fun _ => rfl) fun r answer => ?_
  rcases answer with failure | resp
  · exact ⟨LagerBox.isDenial_transportError failure, .inl rfl⟩
  · exact reads_raw (fun _ => rfl) r

/-- A raw request of the async client. -/
theorem AsyncLagerBox.sends_sendRawOnce (req : RawRequest) :
    Attempt.Sends (fun e => e.bodyFailure.isSome) fun token =>
      Attempt.ofSend <$> AsyncLagerBox.sendRawOnce client req token := by
  simp only [AsyncLagerBox.sendRawOnce, Functor.map_map]
  refine Attempt.Sends.request (fun _ => rfl) fun r answer => ?_
  rcases answer with failure | resp
  · exact ⟨AsyncLagerBox.isDenial_transportError failure, .inl rfl⟩
  · exact reads_raw AsyncLagerBox.isDenial_transportError r

/-- A blocking attempt at a tunnel. -/
theorem LagerBox.tunnelOnce_spec (port : ℕ) :
    Attempt.Does (fun _ => false)
      (fun token => Attempt.ofTunnel <$> LagerBox.tunnelOnce client port token)
      (usable client.debugBase) := by
  unfold LagerBox.tunnelOnce usable
  rcases h : hostPort client.debugBase with err | ⟨host, servicePort⟩
  · exact ⟨err, isDenial_hostPort h, fun _ => rfl⟩
  · simp only [Functor.map_map]
    exact Attempt.Sends.exchange (fun _ => rfl) LagerBox.reads_readTunnel

/-- An async attempt at a tunnel. -/
theorem AsyncLagerBox.tunnelOnce_spec (port : ℕ) :
    Attempt.Does (fun e => e.bodyFailure.any Failure.timedOut)
      (fun token => Attempt.ofTunnel <$> AsyncLagerBox.tunnelOnce client port token)
      (usable client.debugBase) := by
  unfold AsyncLagerBox.tunnelOnce usable
  rcases h : hostPort client.debugBase with err | ⟨host, servicePort⟩
  · exact ⟨err, isDenial_hostPort h, fun _ => rfl⟩
  · simp only [Functor.map_map]
    exact Attempt.Sends.exchange (fun _ => rfl) (AsyncLagerBox.reads_readTunnel host servicePort)

section

variable [SerdeJson]

/-- A blocking `stream_debug_once` comes to what the answer says. -/
theorem LagerBox.reads_readStream (r : Request) (answer : Except Failure Response) :
    (LagerBox.readStream answer).Reads (fun _ => false) ⟨.request r, answer⟩ := by
  rcases answer with failure | resp
  · exact ⟨rfl, .inl rfl⟩
  · unfold LagerBox.readStream
    dsimp only
    split_ifs with hstatus
    · rcases hg : gatewayDenial resp with _ | url
      · exact ⟨isDenial_debugError _ _, .inl (by rw [denial_request, hg]; rfl)⟩
      · exact ⟨by rw [denial_request, hg]; rfl, rfl⟩
    · show Event.denial _ = none
      rw [denial_request, gatewayDenial, not_isDenial_of_lt (by omega)]
      rfl

/-- An async `stream_debug_once` comes to what the answer says. -/
theorem AsyncLagerBox.reads_readStream (host : String) (port : ℕ) (r : Exchange)
    (answer : HeadAnswer) :
    (AsyncLagerBox.readStream host port answer).Reads (fun _ => false) ⟨.exchange r, answer⟩ := by
  rcases answer with failure | _ | _ | ⟨head, body⟩
  · exact ⟨isDenial_ioError failure, .inl rfl⟩
  · exact ⟨rfl, .inl rfl⟩
  · exact ⟨rfl, .inl rfl⟩
  · unfold AsyncLagerBox.readStream
    dsimp only
    by_cases hstatus : head.status = 200
    · rw [if_pos hstatus]
      exact denial_of_ok hstatus
    · rw [if_neg hstatus]
      rcases hd : head.denial with _ | url
      · have hdenial : Event.denial ⟨.exchange r, .head head body⟩ = none := by
          rw [denial_exchange, hd]; rfl
        simp only [parseDebug, if_neg hstatus]
        exact ⟨isDenial_debugError _ _, .inl hdenial⟩
      · exact ⟨by rw [denial_exchange, hd]; rfl, rfl⟩

/-- A JSON request of the blocking client. -/
theorem LagerBox.sends_sendOnce (base : String) (req : HttpRequest) :
    Attempt.Sends (fun e => e.bodyFailure.any Failure.timedOut) fun token =>
      Attempt.ofSend <$> LagerBox.sendOnce client base req token := by
  simp only [LagerBox.sendOnce, Functor.map_map]
  refine Attempt.Sends.request (fun _ => rfl) fun r answer => ?_
  rcases answer with failure | resp
  · exact ⟨LagerBox.isDenial_transportError failure, .inl rfl⟩
  · exact LagerBox.readsJson.reads r resp

/-- A JSON request of the async client. -/
theorem AsyncLagerBox.sends_sendOnce (base : String) (req : HttpRequest) :
    Attempt.Sends (fun e => e.bodyFailure.any Failure.timedOut) fun token =>
      Attempt.ofSend <$> AsyncLagerBox.sendOnce client base req token := by
  simp only [AsyncLagerBox.sendOnce, Functor.map_map]
  refine Attempt.Sends.request (fun _ => rfl) fun r answer => ?_
  rcases answer with failure | resp
  · exact ⟨AsyncLagerBox.isDenial_transportError failure, .inl rfl⟩
  · exact AsyncLagerBox.readsJson.reads r resp

/-- A blocking attempt at an RTT stream. -/
theorem LagerBox.sends_streamAttempt (req : HttpRequest) :
    Attempt.Sends (fun _ => false) (LagerBox.streamAttempt client req) :=
  Attempt.Sends.request (fun _ => rfl) LagerBox.reads_readStream

/-- An async attempt at an RTT stream. -/
theorem AsyncLagerBox.streamAttempt_spec (req : HttpRequest) :
    Attempt.Does (fun _ => false) (AsyncLagerBox.streamAttempt client req)
      (Transport.async.reaches client (.streamDebug req)) := by
  unfold AsyncLagerBox.streamAttempt Transport.reaches usable
  by_cases hplain : "http://".toList <+: client.debugBase.toList
  · simp only [if_pos hplain, decide_eq_true hplain, Bool.true_and]
    rcases h : hostPort client.debugBase with err | ⟨host, port⟩
    · exact ⟨err, isDenial_hostPort h, fun _ => rfl⟩
    · exact Attempt.Sends.exchange (fun _ => rfl) (AsyncLagerBox.reads_readStream host port)
  · simp only [if_neg hplain, decide_eq_false hplain, Bool.false_and]
    exact ⟨_, rfl, fun _ => rfl⟩

end

namespace Transport

variable [SerdeJson] (t : Transport)

/-- **What an attempt does.** Without an address to send to it sends nothing and fails. With one it
sends one request, with the token it is given, and comes to what the answer says. -/
theorem attempt_spec (p : Pass) :
    Attempt.Does (t.bodyLost p) (t.attempt client p) (t.reaches client p) := by
  rcases t with _ | _
  · rcases p with req | req | req | port | req
    · exact LagerBox.sends_sendOnce client client.base req
    · exact LagerBox.sends_sendOnce client client.debugBase req
    · exact LagerBox.sends_sendRawOnce client req
    · exact LagerBox.tunnelOnce_spec client port
    · exact LagerBox.sends_streamAttempt client req
  · rcases p with req | req | req | port | req
    · exact AsyncLagerBox.sends_sendOnce client client.base req
    · exact AsyncLagerBox.sends_sendOnce client client.debugBase req
    · exact AsyncLagerBox.sends_sendRawOnce client req
    · exact AsyncLagerBox.tunnelOnce_spec client port
    · exact AsyncLagerBox.streamAttempt_spec client req

/-- **The passes of the clients.** Every pass of either client is a `Lager.pass` over its
attempts.

**Proof sketch.** `with_gateway_auth` and `tunnel_authorized` are that for any request they are
given. `stream_debug` takes every error that asks for a sign-in for a denial, and is a pass because
its attempts fail with no such error. -/
theorem pass_eq (p : Pass) :
    t.pass client p =
      Lager.pass client.auth (client.auth.resolveToken (refreshWith t.accepts)) p.learnsAgain
        (t.attempt client p) := by
  have hnever := Attempt.never_authRequired (t.attempt_spec client p).kind
  -- The two clients have the same passes.
  rcases t with _ | _
  all_goals
    rcases p with req | req | req | port | req
    · exact withGatewayAuth_eq_pass _ _ _
    · exact withGatewayAuth_eq_pass _ _ _
    · exact withGatewayAuth_eq_pass _ _ _
    · exact tunnelAuthorized_eq_pass _ _ _
    · exact streamDebug_eq_pass _ _ _ hnever

end Transport

end Lager
