import Lager.Client.Passes

set_option relaxedAutoImplicit false
set_option autoImplicit false

/-!
# The requests of the two clients

What `LagerBox` and `AsyncLagerBox` send to a box, and what they make of the answers: one JSON
request, one raw request, one `CONNECT` for a debug tunnel, one request for an RTT stream.

## Main definitions

* `Lager.Client` — what both clients consist of.
* `Lager.LagerBox.sendOnce`, `Lager.LagerBox.sendRawOnce`, `Lager.LagerBox.tunnelOnce`,
  `Lager.LagerBox.streamAttempt` — the requests of the blocking client.
* The same of `Lager.AsyncLagerBox`.

## Implementation notes

An open tunnel is nothing more than that here, and a stream is how its body will be decoded:
the bytes that follow a head are not part of these operations.
-/

namespace Lager

open Library

/-- `LagerBox` and `AsyncLagerBox`, without their HTTP libraries. -/
structure Client where
  base : String
  debugBase : String
  defaultTimeout : ℕ
  auth : GatewayAuth
  deriving DecidableEq, Repr

/-- How the body of an RTT stream will be decoded: its framing and its length, as far as the client
takes them from the head. -/
structure RttStream where
  chunked : Bool
  length : Option ℕ
  deriving DecidableEq, Repr

/-! ## Shared parts -/

/-- `host_port`: split a base URL into host and port. -/
def hostPort (base : String) : Except Error (String × ℕ) :=
  let rest := ((splitOnce "://".toList base.toList).map Prod.snd).getD base.toList
  let rest := (rest.splitOn '/').headD rest
  match rsplitOnce ':' rest with
  | none => .error (.config (.noPort base))
  | some (host, port) =>
    match fromStrRadix 10 (2 ^ 16) port with
    | none => .error (.config (.badPort base))
    | some port => .ok (String.ofList (trimEndMatches ']' (trimStartMatches '[' host)), port)

/-- The `Authorization` line of a request head. -/
def authorizationLine : Option String → String
  | some token => "Authorization: Bearer " ++ token ++ "\r\n"
  | none => ""

/-- `connect_request`. -/
def connectRequest (port : ℕ) (boxHost : String) (token : Option String) : String :=
  "CONNECT " ++ toString port ++ " HTTP/1.1\r\nHost: " ++ boxHost ++ ":" ++ toString port ++
    "\r\n" ++ authorizationLine token ++ "\r\n"

/-- `io_error`. -/
def ioError (failure : Failure) : Error :=
  if failure.timedOut then .timeout (.text failure.message)
  else .connection (.text failure.message)

/-- `classify`. -/
def classify (head : Head) (body : List UInt8) : Refusal :=
  match head.denial with
  | some authUrl => .denied head.status authUrl
  | none =>
    if head.status = 403 then .notDebugPort body
    else if head.status = 502 then .nothingListening body
    else .unsupported (some head.status)

/-- The error `parse_debug` makes of a refusal. -/
def debugError (status : ℕ) (body : Value) : Error :=
  let message := (((body.get "error").bind Value.asStr).or
    ((body.get "message").bind Value.asStr)).getD "debug service request failed"
  if status = 503 ∧ contains "busy".toList message.toList then .probeBusy (.text message)
  else if status = 403 then .safetyRefused (.text message)
  else .box status (.text message)

/-- `parse_debug`. -/
def parseDebug (status : ℕ) (body : Value) : Except Error Value :=
  if status = 200 then .ok body else .error (debugError status body)

/-- The body of a response as JSON, when it failed to be read or parsed: an error, or no body for a
status that is an error anyway. -/
def unparsed (status : ℕ) (e : String) : Except Error Value :=
  if status < 400 then .error (.decode (.nonJsonResponse e)) else .ok .null

/-- The last check of `send_once`: an error that is no denial must have a JSON body. -/
def checkBody (status : ℕ) (gateway : Option String) (body : Value) :
    Except Error (ℕ × Option String × Value) :=
  match gateway, body with
  | none, .null =>
    if 400 ≤ status then .error (.box status (.nonJsonBody status))
    else .ok (status, gateway, body)
  | _, _ => .ok (status, gateway, body)

/-! ## The blocking client -/

namespace LagerBox

variable [SerdeJson] (client : Client)

/-- `transport_error`. -/
def transportError (failure : Failure) : Error :=
  let lower := toAsciiLowercase failure.message.toList
  if failure.timedOut || contains "timed out".toList lower || contains "timeout".toList lower then
    .timeout (.text failure.message)
  else .connection (.text failure.message)

/-- The JSON body of a response. -/
def jsonBody (resp : Response) : Except Error Value :=
  match resp.body with
  | .ok bytes =>
    match SerdeJson.fromSlice bytes with
    | .ok body => .ok body
    | .error e => unparsed resp.status e
  | .error e =>
    if e.timedOut then .error (.timeout (.readingTimedOut e.message))
    else unparsed resp.status e.message

/-- What `send_once` makes of an answer. -/
def readSent (answer : Except Failure Response) : Except Error (ℕ × Option String × Value) :=
  match answer with
  | .error e => .error (transportError e)
  | .ok resp =>
    match jsonBody resp with
    | .error err => .error err
    | .ok body => checkBody resp.status (gatewayDenial resp) body

/-- `send_once`. Only a POST or a PUT has a body. -/
def sendOnce (base : String) (req : HttpRequest) (token : Option String) :
    Program Op Op.Ans (Except Error (ℕ × Option String × Value)) :=
  let body := match req.method with
    | .post | .put => req.body.map Payload.json
    | _ => none
  readSent <$> request
    ⟨req.method, base ++ req.path, token, body, req.timeout.limit client.defaultTimeout⟩

/-- What `send_raw_once` makes of an answer. -/
def readRaw (answer : Except Failure Response) :
    Except Error (ℕ × Option String × List UInt8) :=
  match answer with
  | .error e => .error (transportError e)
  | .ok resp =>
    match resp.body with
    | .error e => .error (.connection (.readingFailed e.message))
    | .ok bytes => .ok (resp.status, gatewayDenial resp, bytes)

/-- `send_raw_once`. -/
def sendRawOnce (req : RawRequest) (token : Option String) :
    Program Op Op.Ans (Except Error (ℕ × Option String × List UInt8)) :=
  readRaw <$> request ⟨req.method, client.base ++ req.path, token,
    req.body.map fun b => .raw b.1 b.2, req.timeout.limit client.defaultTimeout⟩

/-- What `tunnel_once` makes of an answer. -/
def readTunnel (answer : HeadAnswer) : Except Error (Except Refusal Unit) :=
  match answer with
  | .failed failure => .error (ioError failure)
  | .closed | .garbled => .ok (.error (.unsupported none))
  | .head head body =>
    if head.status = 200 then .ok (.ok ())
    else .ok (.error (classify head (body.toOption.getD [])))

/-- `tunnel_once`. -/
def tunnelOnce (port : ℕ) (token : Option String) :
    Program Op Op.Ans (Except Error (Except Refusal Unit)) :=
  match hostPort client.debugBase with
  | .error err => return .error err
  | .ok (host, servicePort) => readTunnel <$> exchange
      ⟨host, servicePort, connectRequest port client.auth.boxHost token, token⟩

/-- What `stream_debug_once` makes of an answer. -/
def readStream (answer : Except Failure Response) : Attempt RttStream :=
  match answer with
  | .error e => .failed (.connection (.text e.message))
  | .ok resp =>
    if 400 ≤ resp.status then
      match gatewayDenial resp with
      | some authUrl => .denied resp.status authUrl
      | none =>
        let body := (resp.body.toOption.bind fun bytes => (SerdeJson.fromSlice bytes).toOption).getD
          .null
        .failed (debugError resp.status body)
    else
      let handFramed := resp.http10 &&
        ((resp.header "transfer-encoding").bind headerToStr).any fun te =>
          eqIgnoreAsciiCase (trim te) "chunked".toList
      .answered ⟨handFramed, none⟩

/-- `stream_debug_once`, up to the handling of a denial. -/
def streamAttempt (req : HttpRequest) (token : Option String) :
    Program Op Op.Ans (Attempt RttStream) :=
  readStream <$> request ⟨.post, client.debugBase ++ req.path, token, req.body.map Payload.json,
    req.timeout.limit client.defaultTimeout⟩

end LagerBox

/-! ## The async client -/

namespace AsyncLagerBox

variable [SerdeJson] (client : Client)

/-- `transport_error`. -/
def transportError (failure : Failure) : Error :=
  if failure.timedOut then .timeout (.text failure.message)
  else .connection (.text failure.message)

/-- The JSON body of a response. -/
def jsonBody (resp : Response) : Except Error Value :=
  match resp.body with
  | .ok bytes =>
    match SerdeJson.fromSlice bytes with
    | .ok body => .ok body
    | .error e => unparsed resp.status (SerdeJson.reqwestText e)
  | .error e =>
    if e.timedOut then .error (.timeout (.text e.message)) else unparsed resp.status e.message

/-- What `send_once` makes of an answer. -/
def readSent (answer : Except Failure Response) : Except Error (ℕ × Option String × Value) :=
  match answer with
  | .error e => .error (transportError e)
  | .ok resp =>
    match jsonBody resp with
    | .error err => .error err
    | .ok body => checkBody resp.status (gatewayDenial resp) body

/-- `send_once`. -/
def sendOnce (base : String) (req : HttpRequest) (token : Option String) :
    Program Op Op.Ans (Except Error (ℕ × Option String × Value)) :=
  readSent <$> request ⟨req.method, base ++ req.path, token, req.body.map Payload.json,
    req.timeout.limit client.defaultTimeout⟩

/-- What `send_raw_once` makes of an answer. -/
def readRaw (answer : Except Failure Response) :
    Except Error (ℕ × Option String × List UInt8) :=
  match answer with
  | .error e => .error (transportError e)
  | .ok resp =>
    match resp.body with
    | .error e => .error (transportError e)
    | .ok bytes => .ok (resp.status, gatewayDenial resp, bytes)

/-- `send_raw_once`. -/
def sendRawOnce (req : RawRequest) (token : Option String) :
    Program Op Op.Ans (Except Error (ℕ × Option String × List UInt8)) :=
  readRaw <$> request ⟨req.method, client.base ++ req.path, token,
    req.body.map fun b => .raw b.1 b.2, req.timeout.limit client.defaultTimeout⟩

/-- What `tunnel_once` makes of an answer. The body of a refusal is read under the timeout of the
handshake. -/
def readTunnel (host : String) (port : ℕ) (answer : HeadAnswer) :
    Except Error (Except Refusal Unit) :=
  match answer with
  | .failed failure => .error (ioError failure)
  | .closed | .garbled => .ok (.error (.unsupported none))
  | .head head body =>
    if head.status = 200 then .ok (.ok ())
    else
      match body with
      | .ok body => .ok (.error (classify head body))
      | .error failure =>
        if failure.timedOut then .error (.timeout (.noAnswer host port))
        else .ok (.error (classify head []))

/-- `tunnel_once`. -/
def tunnelOnce (port : ℕ) (token : Option String) :
    Program Op Op.Ans (Except Error (Except Refusal Unit)) :=
  match hostPort client.debugBase with
  | .error err => return .error err
  | .ok (host, servicePort) => readTunnel host servicePort <$> exchange
      ⟨host, servicePort, connectRequest port client.auth.boxHost token, token⟩

/-- The request of `stream_debug_once`, head and body. -/
def streamRequest (authority path body : String) (token : Option String) : String :=
  "POST " ++ path ++ " HTTP/1.1\r\nHost: " ++ authority ++
    "\r\nContent-Type: application/json\r\nContent-Length: " ++ toString body.utf8ByteSize ++
    "\r\nConnection: close\r\n" ++ authorizationLine token ++ "\r\n" ++ body

/-- What `stream_debug_once` makes of an answer. -/
def readStream (host : String) (port : ℕ) (answer : HeadAnswer) : Attempt RttStream :=
  match answer with
  | .failed failure => .failed (ioError failure)
  | .closed => .failed (.connection (.closedBeforeAnswering host port))
  | .garbled => .failed (.decode (.notHttp host port))
  | .head head body =>
    if head.status = 200 then
      .answered ⟨head.chunked, if head.hasContentLength then some head.contentLength else none⟩
    else
      match head.denial with
      | some authUrl => .denied head.status authUrl
      | none =>
        let refusal := (body.toOption.bind fun bytes => (SerdeJson.fromSlice bytes).toOption).getD
          .null
        match parseDebug head.status refusal with
        | .error err => .failed err
        | .ok _ => .failed (.box head.status (.text "RTT stream refused"))

/-- `stream_debug_once`, up to the handling of a denial. -/
def streamAttempt (req : HttpRequest) (token : Option String) :
    Program Op Op.Ans (Attempt RttStream) :=
  if "http://".toList <+: client.debugBase.toList then
    match hostPort client.debugBase with
    | .error err => return .failed err
    | .ok (host, port) =>
      let authority := String.ofList (client.debugBase.toList.drop "http://".toList.length)
      let body := (req.body.map SerdeJson.toText).getD ""
      readStream host port <$>
        exchange ⟨host, port, streamRequest authority req.path body token, token⟩
  else return .failed (.config (.needsPlainHttp client.debugBase))

end AsyncLagerBox

end Lager
