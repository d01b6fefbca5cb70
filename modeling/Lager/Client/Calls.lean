import Lager.Client.Requests

set_option relaxedAutoImplicit false
set_option autoImplicit false

/-!
# The calls of the two clients

What a caller can do that goes to the box, in the blocking client and in the async one. Each call
is a pass, or asks for the token to attach; `bearer_token` does both.

## Main definitions

* The methods of `Lager.LagerBox` and of `Lager.AsyncLagerBox`.
* `Lager.Transport` — one of the two clients.
* `Lager.Pass`, `Lager.Transport.pass` — the passes of either client.
* `Lager.ClientCall`, `Lager.Transport.call` — the calls of either client.
* `Lager.Transport.attempt` — one attempt of a pass.
-/

namespace Lager

open Library

variable [SerdeJson]

/-! ## Parts the clients share -/

/-- `get_json`, over the `execute` of a client. -/
def getJson (execute : HttpRequest → Action (Except Error (ℕ × Value))) (path : String) :
    Action (Except Error Value) := do
  match ← execute ⟨.get, path, none, .default⟩ with
  | .error err => return .error err
  | .ok (status, body) =>
    if status = 200 then return .ok body
    else
      let message := ((body.get "error").bind Value.asStr).getD "request failed"
      return .error (.box status (.text message))

/-- `health`, over the `execute` of a client. -/
def health (execute : HttpRequest → Action (Except Error (ℕ × Value))) :
    Action (Except Error Unit) := do
  match ← getJson execute "/health" with
  | .error err => return .error err
  | .ok body =>
    match SerdeJson.health body with
    | .ok _ => return .ok ()
    | .error e => return .error (.decode (.text e))

/-- The end of `bearer_token`: no token to be had. -/
def noToken (auth : GatewayAuth) : Action (Except Error (Option String)) := do
  match (← get).authUrl with
  | none => return .ok none
  | some authUrl =>
    return .error (.authRequired auth.boxHost authUrl (.requiresSignIn auth.boxHost))

/-- `bearer_token`, over the `current_token` and the `health` of a client. -/
def bearerToken (auth : GatewayAuth) (currentToken : Action (Option String))
    (health : Action (Except Error Unit)) : Action (Except Error (Option String)) := do
  match ← currentToken with
  | some token => return .ok (some token)
  | none =>
    if (← get).authUrl.isNone then
      match ← health with
      | .error err => return .error err
      | .ok _ =>
        match ← currentToken with
        | some token => return .ok (some token)
        | none => noToken auth
    else noToken auth

/-! ## The blocking client -/

namespace LagerBox

variable (client : Client)

/-- `current_token`. -/
def currentToken : Action (Option String) :=
  client.auth.currentToken client.auth.resolveTokenBlocking

/-- `execute_at`. -/
def executeAt (base : String) (req : HttpRequest) : Action (Except Error (ℕ × Value)) :=
  withGatewayAuth client.auth client.auth.resolveTokenBlocking (sendOnce client base req)

/-- `execute`. -/
def execute (req : HttpRequest) : Action (Except Error (ℕ × Value)) :=
  executeAt client client.base req

/-- `execute_debug`. -/
def executeDebug (req : HttpRequest) : Action (Except Error (ℕ × Value)) :=
  executeAt client client.debugBase req

/-- `execute_raw`. -/
def executeRaw (req : RawRequest) : Action (Except Error (ℕ × List UInt8)) :=
  withGatewayAuth client.auth client.auth.resolveTokenBlocking (sendRawOnce client req)

/-- `tunnel_authorized`. -/
def tunnelAuthorized (port : ℕ) : Action (Except Error (Except Refusal Unit)) :=
  Lager.tunnelAuthorized client.auth client.auth.resolveTokenBlocking (tunnelOnce client port)

/-- `stream_debug_once`. -/
def streamDebugOnce (req : HttpRequest) (token : Option String) :
    Action (Except Error RttStream) :=
  Lager.streamDebugOnce client.auth (streamAttempt client req) token

/-- `stream_debug`. -/
def streamDebug (req : HttpRequest) : Action (Except Error RttStream) :=
  Lager.streamDebug client.auth client.auth.resolveTokenBlocking (streamDebugOnce client req)

/-- `bearer_token`. -/
def bearerToken : Action (Except Error (Option String)) :=
  Lager.bearerToken client.auth (currentToken client) (health (execute client))

end LagerBox

/-! ## The async client -/

namespace AsyncLagerBox

variable (client : Client)

/-- `current_token`. -/
def currentToken : Action (Option String) :=
  client.auth.currentToken client.auth.resolveTokenAsync

/-- `execute_at`. -/
def executeAt (base : String) (req : HttpRequest) : Action (Except Error (ℕ × Value)) :=
  withGatewayAuth client.auth client.auth.resolveTokenAsync (sendOnce client base req)

/-- `execute`. -/
def execute (req : HttpRequest) : Action (Except Error (ℕ × Value)) :=
  executeAt client client.base req

/-- `execute_debug`. -/
def executeDebug (req : HttpRequest) : Action (Except Error (ℕ × Value)) :=
  executeAt client client.debugBase req

/-- `execute_raw`. -/
def executeRaw (req : RawRequest) : Action (Except Error (ℕ × List UInt8)) :=
  withGatewayAuth client.auth client.auth.resolveTokenAsync (sendRawOnce client req)

/-- `tunnel_authorized`. -/
def tunnelAuthorized (port : ℕ) : Action (Except Error (Except Refusal Unit)) :=
  Lager.tunnelAuthorized client.auth client.auth.resolveTokenAsync (tunnelOnce client port)

/-- `stream_debug_once`. -/
def streamDebugOnce (req : HttpRequest) (token : Option String) :
    Action (Except Error RttStream) :=
  Lager.streamDebugOnce client.auth (streamAttempt client req) token

/-- `stream_debug`. -/
def streamDebug (req : HttpRequest) : Action (Except Error RttStream) :=
  Lager.streamDebug client.auth client.auth.resolveTokenAsync (streamDebugOnce client req)

/-- `bearer_token`. -/
def bearerToken : Action (Except Error (Option String)) :=
  Lager.bearerToken client.auth (currentToken client) (health (execute client))

end AsyncLagerBox

/-! ## Either client -/

/-- One of the two clients. -/
inductive Transport
  | blocking
  | async
  deriving DecidableEq, Repr

/-- A pass: a JSON request to the box or its debug service, a raw request, an attempt at a debug
tunnel, or the opening of an RTT stream. -/
inductive Pass
  | execute (req : HttpRequest)
  | executeDebug (req : HttpRequest)
  | executeRaw (req : RawRequest)
  | tunnelAuthorized (port : ℕ)
  | streamDebug (req : HttpRequest)

/-- What a pass returns. -/
def Pass.Result : Pass → Type
  | execute _ | executeDebug _ => ℕ × Value
  | executeRaw _ => ℕ × List UInt8
  | tunnelAuthorized _ => Except Refusal Unit
  | streamDebug _ => RttStream

/-- A call: a pass, a request for the token to attach, as the Socket.IO sessions make it, or
`bearer_token`. -/
inductive ClientCall
  | pass (p : Pass)
  | currentToken
  | bearerToken

namespace Transport

variable (t : Transport) (client : Client)

/-- The statuses of a refresh a client accepts. -/
def accepts : Transport → ℕ → Bool
  | blocking => acceptsBlocking
  | async => acceptsAsync

/-- `current_token`. -/
def currentToken : Transport → Client → Action (Option String)
  | blocking => LagerBox.currentToken
  | async => AsyncLagerBox.currentToken

/-- `bearer_token`. -/
def bearerToken : Transport → Client → Action (Except Error (Option String))
  | blocking => LagerBox.bearerToken
  | async => AsyncLagerBox.bearerToken

/-- The passes of a client. -/
def pass : Transport → Client → (p : Pass) → Action (Except Error p.Result)
  | blocking, client, .execute req => LagerBox.execute client req
  | blocking, client, .executeDebug req => LagerBox.executeDebug client req
  | blocking, client, .executeRaw req => LagerBox.executeRaw client req
  | blocking, client, .tunnelAuthorized port => LagerBox.tunnelAuthorized client port
  | blocking, client, .streamDebug req => LagerBox.streamDebug client req
  | async, client, .execute req => AsyncLagerBox.execute client req
  | async, client, .executeDebug req => AsyncLagerBox.executeDebug client req
  | async, client, .executeRaw req => AsyncLagerBox.executeRaw client req
  | async, client, .tunnelAuthorized port => AsyncLagerBox.tunnelAuthorized client port
  | async, client, .streamDebug req => AsyncLagerBox.streamDebug client req

/-- The calls of a client, whatever they return. -/
def call : ClientCall → Action Unit
  | .pass p => do let _ ← t.pass client p
  | .currentToken => do let _ ← t.currentToken client
  | .bearerToken => do let _ ← t.bearerToken client

/-- One attempt of a pass. -/
def attempt : Transport → Client → (p : Pass) →
    Option String → Program Op Op.Ans (Attempt p.Result)
  | blocking, client, .execute req, token =>
    Attempt.ofSend <$> LagerBox.sendOnce client client.base req token
  | blocking, client, .executeDebug req, token =>
    Attempt.ofSend <$> LagerBox.sendOnce client client.debugBase req token
  | blocking, client, .executeRaw req, token =>
    Attempt.ofSend <$> LagerBox.sendRawOnce client req token
  | blocking, client, .tunnelAuthorized port, token =>
    Attempt.ofTunnel <$> LagerBox.tunnelOnce client port token
  | blocking, client, .streamDebug req, token => LagerBox.streamAttempt client req token
  | async, client, .execute req, token =>
    Attempt.ofSend <$> AsyncLagerBox.sendOnce client client.base req token
  | async, client, .executeDebug req, token =>
    Attempt.ofSend <$> AsyncLagerBox.sendOnce client client.debugBase req token
  | async, client, .executeRaw req, token =>
    Attempt.ofSend <$> AsyncLagerBox.sendRawOnce client req token
  | async, client, .tunnelAuthorized port, token =>
    Attempt.ofTunnel <$> AsyncLagerBox.tunnelOnce client port token
  | async, client, .streamDebug req, token => AsyncLagerBox.streamAttempt client req token

end Transport

/-- Whether a pass learns the auth server of a second denial. -/
def Pass.learnsAgain : Pass → Bool
  | streamDebug _ => true
  | _ => false

end Lager
