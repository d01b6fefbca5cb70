import Lager.Client.Lock
import Lager.Client.Traffic
import Lager.Wire.BusData
import Lager.Wire.Routes

set_option relaxedAutoImplicit false
set_option autoImplicit false

/-!
# Reading the answers of routes

A route that is not a command has a parser of its own, which sees the status and the body of an
answer. The routes of the box itself are read through the JSON client, the admin routes from the
bytes of a body. In the end a test on the error tells a route that is missing from one that refuses.

## Main definitions

* `Lager.parseSafetyLimits`, `Lager.parseNetsState`, `Lager.parseUartSessions`,
  `Lager.parseReleaseUartSession` — the parsers behind the JSON client.
* `Lager.Parse.complete`, `Lager.routeMissing`, the parsers in `Lager.ops` — the admin routes.
* `Lager.RouteParser` — the parsers of JSON answers.
* `Lager.Reads` — how a client reads the answers of a route.

## Main results

* `Lager.readsAlike_iff` — the two ways to read a JSON answer agree unless the body of an error is
  null.
* `Lager.refusal_iff` — a refusal is reported with its message unless the message of a 404 or a 405
  has the words of an error that is no JSON.
-/

namespace Lager

open Library Deserialize

/-! ## The parsers behind the JSON client -/

namespace lenient

/-- `opt_f64`. -/
def optF64 : Deserialize (Option F64) := fun v => some (asF64 v)

/-- `opt_bool`. -/
def optBool : Deserialize (Option Bool) := fun v => some (asBool v)

end lenient

/-- `NetState`. -/
structure NetState where
  name : String
  role : String
  state : Option String
  reason : Option String
  reasonCode : Option String
  enabled : Option Bool
  extra : Map

namespace NetState

/-- The names of the fields that are not flattened. -/
def names : List String := ["name", "role", "state", "reason", "reason_code", "enabled"]

/-- `Deserialize`. A struct with a flattened field is read from objects only. -/
def fromValue : Deserialize NetState
  | .object fields => do
    let name ← (fields.lookup "name").bind string
    let role ← field string "" (fields.lookup "role")
    let state ← field (option string) none (fields.lookup "state")
    let reason ← field (option string) none (fields.lookup "reason")
    let reasonCode ← field (option string) none (fields.lookup "reason_code")
    let enabled ← field lenient.optBool none (fields.lookup "enabled")
    return ⟨name, role, state, reason, reasonCode, enabled,
      fields.filter fun field => field.1 ∉ names⟩
  | _ => none

end NetState

/-- `UartSession`. -/
structure UartSession where
  netname : Option String
  devicePath : Option String
  sid : Option String
  heartbeatAgeSeconds : Option F64
  clientConnected : Option Bool
  readerAlive : Option Bool

namespace UartSession

/-- The names of the fields. -/
def names : List String :=
  ["netname", "device_path", "sid", "heartbeat_age_seconds", "client_connected", "reader_alive"]

/-- `Deserialize`. -/
def fromValue : Deserialize UartSession := fun v => do
  let get ← structFields names v
  let netname ← field (option string) none (get "netname")
  let devicePath ← field (option string) none (get "device_path")
  let sid ← field (option string) none (get "sid")
  let heartbeatAgeSeconds ← field lenient.optF64 none (get "heartbeat_age_seconds")
  let clientConnected ← field lenient.optBool none (get "client_connected")
  let readerAlive ← field lenient.optBool none (get "reader_alive")
  return ⟨netname, devicePath, sid, heartbeatAgeSeconds, clientConnected, readerAlive⟩

end UartSession

/-- `from_value`, with the text of its error. -/
def shaped {α : Type} (d : Deserialize α) (what : String) (v : Value) : Except Error α :=
  match d v with
  | some a => .ok a
  | none => .error (.decode (.unexpectedShape what))

/-- `body_error`. -/
def bodyError (status : ℕ) (body : Value) (fallback : String) : Error :=
  .box status (.text (((body.get "error").bind Value.asStr).getD fallback))

/-- `parse_safety_limits`. -/
def parseSafetyLimits (status : ℕ) (body : Value) : Except Error (Option SafetyLimits) :=
  if status = 200 then
    match body.get "safety_limits" with
    | none | some .null => .ok none
    | some limits => (shaped SafetyLimits.fromValue "invalid safety_limits shape" limits).map some
  else .error (bodyError status body "safety-limits request failed")

/-- `safety_limits_unsupported`. -/
def safetyLimitsUnsupported : Error := .unsupportedByBox (.text
  "this box does not serve PUT /nets/<name>/safety-limits (requires box software >= 0.35.0)")

/-- `parse_nets_state`. -/
def parseNetsState (status : ℕ) (body : Value) : Except Error (List NetState) :=
  if status ≠ 200 then .error (bodyError status body "nets/state request failed")
  else shaped (vec NetState.fromValue) "invalid nets/state shape" body

/-- `nets_state_unsupported`. -/
def netsStateUnsupported : Error := .unsupportedByBox (.text
  "this box does not serve GET /nets/state (requires box software >= 0.34.0)")

/-- `parse_uart_sessions`. -/
def parseUartSessions (status : ℕ) (body : Value) : Except Error (List UartSession) :=
  if status ≠ 200 then .error (bodyError status body "uart/sessions request failed")
  else shaped (vec UartSession.fromValue) "invalid uart/sessions shape"
    ((body.get "sessions").getD .null)

/-- `parse_release_uart_session`. -/
def parseReleaseUartSession (status : ℕ) (body : Value) : Except Error (List String) :=
  if status ≠ 200 then .error (bodyError status body "uart session release failed")
  else shaped (vec string) "invalid uart session release shape"
    ((body.get "released").getD .null)

/-- `uart_sessions_unsupported`. -/
def uartSessionsUnsupported : Error := .unsupportedByBox (.text
  "this box does not serve /uart/sessions (requires box software >= 0.46.0)")

/-! ## The parsers of the admin routes -/

namespace ops

/-- `refusal`. -/
def refusal (status : ℕ) (body : Value) : Error :=
  let message := (((body.get "error").bind Value.asStr).map Message.text).getD (.httpStatus status)
  if status = 501 then .unsupportedByBox message else .box status message

/-- `ok`. -/
def ok (status : ℕ) (body : Value) : Except Error Value :=
  if 200 ≤ status ∧ status < 300 then .ok body else .error (refusal status body)

/-- `parse_unit`. -/
def parseUnit (status : ℕ) (body : Value) : Except Error Unit := (ok status body).map fun _ => ()

/-- `parse_as`. -/
def parseAs {α : Type} (d : Deserialize α) (status : ℕ) (body : Value) : Except Error α := do
  shaped d "unexpected response shape" (← ok status body)

/-- The list in a field of an object, as `DriverList` and `Packages` are read. -/
def listField {α : Type} (name : String) (d : Deserialize α) : Deserialize (List α) := fun v => do
  field (vec d) [] ((← structFields [name] v) name)

/-- `parse_drivers`, over how a driver is read. -/
def parseDrivers {α : Type} (driver : Deserialize α) : ℕ → Value → Except Error (List α) :=
  parseAs (listField "drivers" driver)

/-- The parser of `reinstall_driver_deps`. -/
def parsePackages : ℕ → Value → Except Error (List String) := parseAs (listField "packages" string)

/-- `parse_manifest`. -/
def parseManifest (status : ℕ) (body : Value) : Except Error Map := do
  match ← ok status body with
  | .object document => .ok document
  | _ => .error (.decode (.text "bench manifest is not a JSON object"))

/-- `parse_file`. -/
def parseFile [SerdeJson] (status : ℕ) (bytes : List UInt8) : Except Error (List UInt8) :=
  if 200 ≤ status ∧ status < 300 then .ok bytes
  else
    match SerdeJson.fromSlice bytes with
    | .ok body => .error (refusal status body)
    | .error _ => .error (.box status (.nonJsonBody status))

end ops

/-- `Parse`. -/
inductive Parse (α : Type)
  | json (parse : ℕ → Value → Except Error α)
  | bytes (parse : ℕ → List UInt8 → Except Error α)

/-- `AdminOp`. -/
structure AdminOp (α : Type) where
  req : RawRequest
  parse : Parse α
  unsupported : String

/-- `Parse::complete`. -/
def Parse.complete [SerdeJson] {α : Type} (self : Parse α) (status : ℕ) (bytes : List UInt8) :
    Except Error α :=
  match self with
  | .bytes parse => parse status bytes
  | .json parse =>
    match SerdeJson.fromSlice bytes with
    | .ok body => parse status body
    | .error e =>
      if status < 400 then .error (.decode (.nonJsonResponse e))
      else .error (.box status (.nonJsonBody status))

/-- `route_missing`. -/
def routeMissing (unsupported : String) (err : Error) : Error :=
  if isRouteMissing err then .unsupportedByBox (.text unsupported) else err

/-- `ops::delete_net`. -/
def ops.deleteNet [SerdeJson] (name : String) (role : Option String) : AdminOp Unit :=
  ⟨Lager.deleteNet name role, .json ops.parseUnit,
    "this box does not serve net changes over HTTP (PUT/DELETE /nets)"⟩

/-! ## The routes -/

section

variable {α : Type}

/-- What a method of the JSON client makes of an answer. -/
def readRoute (parse : ℕ → Value → Except Error α) (unsupported : Error)
    (answer : Except Error (ℕ × Value)) : Except Error α :=
  (answer.bind fun (status, body) => parse status body).mapError (mapRouteMissing unsupported)

/-- What `run_admin` makes of an answer. -/
def readAdmin [SerdeJson] (parse : Parse α) (unsupported : String)
    (answer : Except Error (ℕ × List UInt8)) : Except Error α :=
  (answer.bind fun (status, bytes) => parse.complete status bytes).mapError
    (routeMissing unsupported)

namespace LagerBox

/-- `set_safety_limits`. -/
def setSafetyLimits (name : String) (limits : SafetyLimits) :
    Routine (Except Error (Option SafetyLimits)) :=
  readRoute parseSafetyLimits safetyLimitsUnsupported <$>
    Routine.execute (safetyLimitsSet name limits)

/-- `nets_state`. -/
def netsState : Routine (Except Error (List NetState)) :=
  readRoute parseNetsState netsStateUnsupported <$>
    Routine.execute ⟨.get, "/nets/state", none, .after (secs 15)⟩

/-- `uart_sessions`. -/
def uartSessions : Routine (Except Error (List UartSession)) :=
  readRoute parseUartSessions uartSessionsUnsupported <$>
    Routine.execute (Lager.get "/uart/sessions")

/-- `release_uart_session`. -/
def releaseUartSession (name : String) : Routine (Except Error (List String)) :=
  readRoute parseReleaseUartSession uartSessionsUnsupported <$>
    Routine.execute (Lager.releaseUartSession name)

end LagerBox

end

/-- The parsers of the admin routes for a JSON answer. -/
inductive AdminParser : {α : Type} → (ℕ → Value → Except Error α) → Prop
  | unit : AdminParser ops.parseUnit
  | typed {α : Type} (d : Deserialize α) : AdminParser (ops.parseAs d)
  | drivers {α : Type} (driver : Deserialize α) : AdminParser (ops.parseDrivers driver)
  | packages : AdminParser ops.parsePackages
  | manifest : AdminParser ops.parseManifest

/-- The parsers of JSON answers that take the body of every error for a refusal. Those of commands
read an envelope instead. -/
inductive RouteParser : {α : Type} → (ℕ → Value → Except Error α) → Prop
  | admin {α : Type} {parse : ℕ → Value → Except Error α} (h : AdminParser parse) :
      RouteParser parse
  | lock : RouteParser parseLock
  | safetyLimits : RouteParser parseSafetyLimits
  | netsState : RouteParser parseNetsState
  | uartSessions : RouteParser parseUartSessions
  | releaseUartSession : RouteParser parseReleaseUartSession

/-! ## From a response to what a route reads -/

/-- What `with_gateway_auth` returns for an answer that is no denial. -/
def undenied {α : Type} : Except Error (ℕ × Option String × α) → Except Error (ℕ × α) :=
  Except.map fun (status, _, body) => (status, body)

namespace Transport

variable [SerdeJson]

/-- What `send_once` makes of an answer. -/
def readSent : Transport → Except Failure Response → Except Error (ℕ × Option String × Value)
  | blocking => LagerBox.readSent
  | async => AsyncLagerBox.readSent

/-- What `send_raw_once` makes of an answer. -/
def readRaw : Transport → Except Failure Response → Except Error (ℕ × Option String × List UInt8)
  | blocking => LagerBox.readRaw
  | async => AsyncLagerBox.readRaw

end Transport

/-- A result is what is made of the answer to a request. -/
def Says {α : Type} (read : Except Failure Response → Except Error (ℕ × Option String × α))
    (e : Event) (result : Except Error (ℕ × α)) : Prop :=
  ∃ r answer, e = ⟨.request r, answer⟩ ∧ result = undenied (read answer)

section

variable {err : Error}

end

namespace Transport

variable {t : Transport} {answer : Except Failure Response} {err : Error}

end Transport

/-! ## The routes as clients read them -/

/-- How a client reads the answers of a route. -/
inductive Reads [SerdeJson] (t : Transport) : {α : Type} → (Response → Except Error α) → Prop
  | admin {α : Type} {parse : ℕ → Value → Except Error α} (h : AdminParser parse)
      (unsupported : String) :
      Reads t fun resp => readAdmin (.json parse) unsupported (undenied (t.readRaw (.ok resp)))
  | file (unsupported : String) :
      Reads t fun resp =>
        readAdmin (.bytes ops.parseFile) unsupported (undenied (t.readRaw (.ok resp)))
  | lock : Reads t fun resp => LagerBox.readLock (undenied (t.readSent (.ok resp)))
  | safetyLimits : Reads t fun resp =>
      readRoute parseSafetyLimits safetyLimitsUnsupported (undenied (t.readSent (.ok resp)))
  | netsState : Reads t fun resp =>
      readRoute parseNetsState netsStateUnsupported (undenied (t.readSent (.ok resp)))
  | uartSessions : Reads t fun resp =>
      readRoute parseUartSessions uartSessionsUnsupported (undenied (t.readSent (.ok resp)))
  | releaseUartSession : Reads t fun resp =>
      readRoute parseReleaseUartSession uartSessionsUnsupported (undenied (t.readSent (.ok resp)))

section

variable [SerdeJson] {t : Transport} {resp : Response} {bytes : List UInt8} {body : Value}
  {unsupported : String}

/-- A body that is JSON is read by either JSON client, unless it is the null of an error. -/
theorem undenied_readSent (hbody : resp.body = .ok bytes)
    (hjson : SerdeJson.fromSlice bytes = .ok body) (hnull : ¬ (400 ≤ resp.status ∧ body = .null)) :
    undenied (t.readSent (.ok resp)) = .ok (resp.status, body) := by
  have hcheck : checkBody resp.status (gatewayDenial resp) body =
      .ok (resp.status, gatewayDenial resp, body) := by
    unfold checkBody
    split
    · exact if_neg fun hstatus => hnull ⟨hstatus, rfl⟩
    · rfl
  cases t
  · have hread : LagerBox.jsonBody resp = .ok body := by simp only [LagerBox.jsonBody, hbody, hjson]
    simp only [Transport.readSent, LagerBox.readSent, hread, hcheck]
    rfl
  · have hread : AsyncLagerBox.jsonBody resp = .ok body := by
      simp only [AsyncLagerBox.jsonBody, hbody, hjson]
    simp only [Transport.readSent, AsyncLagerBox.readSent, hread, hcheck]
    rfl

omit [SerdeJson] in
/-- The bytes of a body are read by either client. -/
theorem undenied_readRaw (hbody : resp.body = .ok bytes) :
    undenied (t.readRaw (.ok resp)) = .ok (resp.status, bytes) := by
  cases t
  · simp only [Transport.readRaw, LagerBox.readRaw, hbody]
    rfl
  · simp only [Transport.readRaw, AsyncLagerBox.readRaw, hbody]
    rfl

/-- A null in the body of an error is read as a body that is no JSON. -/
theorem undenied_readSent_null (hbody : resp.body = .ok bytes) (hgate : gatewayDenial resp = none)
    (hjson : SerdeJson.fromSlice bytes = .ok .null) (hstatus : 400 ≤ resp.status) :
    undenied (LagerBox.readSent (.ok resp)) =
      .error (.box resp.status (.nonJsonBody resp.status)) := by
  have hread : LagerBox.jsonBody resp = .ok .null := by simp only [LagerBox.jsonBody, hbody, hjson]
  simp only [LagerBox.readSent, hread, hgate, checkBody, if_pos hstatus]
  rfl

/-- A body that is no JSON is read by the JSON client as it is by the admin routes. -/
theorem undenied_readSent_error {e : String} (hbody : resp.body = .ok bytes)
    (hgate : gatewayDenial resp = none) (hjson : SerdeJson.fromSlice bytes = .error e) :
    undenied (LagerBox.readSent (.ok resp)) =
      if resp.status < 400 then .error (.decode (.nonJsonResponse e))
      else .error (.box resp.status (.nonJsonBody resp.status)) := by
  have hread : LagerBox.jsonBody resp = unparsed resp.status e := by
    simp only [LagerBox.jsonBody, hbody, hjson]
  simp only [LagerBox.readSent, hread, unparsed, hgate]
  split_ifs with hstatus
  · rfl
  · simp only [checkBody, if_pos (Nat.le_of_not_lt hstatus)]
    rfl

end

/-! ## What the parsers make of an error -/

section

variable {α : Type} {parse : ℕ → Value → Except Error α} {status : ℕ}

/-- The parsers of the admin routes refuse an error. -/
theorem AdminParser.error (h : AdminParser parse) (hstatus : 400 ≤ status) (body : Value) :
    parse status body = .error (ops.refusal status body) := by
  have hok : ops.ok status body = .error (ops.refusal status body) := if_neg (by omega)
  cases h with
  | unit => simp only [ops.parseUnit, hok]; rfl
  | typed d => simp only [ops.parseAs, hok]; rfl
  | drivers driver => simp only [ops.parseDrivers, ops.parseAs, hok]; rfl
  | packages => simp only [ops.parsePackages, ops.parseAs, hok]; rfl
  | manifest => simp only [ops.parseManifest, hok]; rfl

/-- A body says a message, or there is another text for it. -/
def messageOf (body : Value) (fallback : Message) : Message :=
  (((body.get "error").bind Value.asStr).map Message.text).getD fallback

/-- The error of a body says its message. -/
theorem bodyError_eq (body : Value) (fallback : String) :
    bodyError status body fallback = .box status (messageOf body (.text fallback)) := by
  rw [bodyError, messageOf]
  cases (body.get "error").bind Value.asStr <;> rfl

/-- What every parser makes of an error: the message of the box, or a text that does not speak of a
route. -/
theorem RouteParser.error (h : RouteParser parse) (hstatus : 400 ≤ status) (body : Value) :
    ∃ fallback : Message, fallback.speaksOfRoute = false ∧
      (parse status body = .error (.box status (messageOf body fallback)) ∨
        status = 501 ∧
          parse status body = .error (.unsupportedByBox (messageOf body fallback))) := by
  have hnot : status ≠ 200 := by omega
  cases h with
  | admin h =>
    refine ⟨.httpStatus status, rfl, ?_⟩
    rw [h.error hstatus, ops.refusal]
    by_cases hunsupported : status = 501
    · exact .inr ⟨hunsupported, by rw [if_pos hunsupported]; rfl⟩
    · exact .inl (by rw [if_neg hunsupported]; rfl)
  | lock =>
    refine ⟨.text "lock request failed", by decide +kernel, .inl ?_⟩
    rw [← bodyError_eq, parseLock, if_neg hnot]
    rfl
  | safetyLimits =>
    refine ⟨.text "safety-limits request failed", by decide +kernel, .inl ?_⟩
    rw [← bodyError_eq, parseSafetyLimits, if_neg hnot]
  | netsState =>
    refine ⟨.text "nets/state request failed", by decide +kernel, .inl ?_⟩
    rw [← bodyError_eq, parseNetsState, if_pos hnot]
  | uartSessions =>
    refine ⟨.text "uart/sessions request failed", by decide +kernel, .inl ?_⟩
    rw [← bodyError_eq, parseUartSessions, if_pos hnot]
  | releaseUartSession =>
    refine ⟨.text "uart session release failed", by decide +kernel, .inl ?_⟩
    rw [← bodyError_eq, parseReleaseUartSession, if_pos hnot]

end

/-! ## The test for a missing route -/

section

variable {status : ℕ} {message : Message} {unsupported : String}

/-- An error that does not speak of a route is kept. -/
theorem routeMissing_of_not (h : message.speaksOfRoute = false) :
    routeMissing unsupported (.box status message) = .box status message := by
  rw [routeMissing, isRouteMissing, h, Bool.and_false]
  rfl

/-- A body that is no JSON speaks of a missing route where the status does. -/
theorem routeMissing_nonJsonBody :
    routeMissing unsupported (.box status (.nonJsonBody status)) =
      if status = 404 ∨ status = 405 then .unsupportedByBox (.text unsupported)
      else .box status (.nonJsonBody status) := by
  simp [routeMissing, isRouteMissing, Message.speaksOfRoute]

end

/-! ## The two ways to read a JSON answer -/

/-- What the JSON client makes of a null in the body of an error is not what a parser does. -/
theorem readsAlike_null [SerdeJson] {α : Type} {parse : ℕ → Value → Except Error α}
    (hparse : RouteParser parse) (unsupported : String) {status : ℕ} (hstatus : 400 ≤ status) :
    (Except.error (.box status (.nonJsonBody status))).mapError (routeMissing unsupported) ≠
      (parse status .null).mapError (routeMissing unsupported) := by
  obtain ⟨fallback, hfallback, hparsed⟩ := hparse.error hstatus .null
  have hmessage : messageOf .null fallback = fallback := rfl
  have hne : fallback ≠ .nonJsonBody status := by
    rintro rfl
    cases hfallback
  rw [hmessage] at hparsed
  intro heq
  rcases hparsed with hparsed | ⟨rfl, hparsed⟩
  · rw [hparsed] at heq
    have herr := Except.error.inj heq
    rw [routeMissing_nonJsonBody, routeMissing_of_not hfallback] at herr
    split_ifs at herr
    exact hne (Error.box.inj herr).2.symm
  · rw [hparsed] at heq
    have herr := Except.error.inj heq
    rw [routeMissing_nonJsonBody, if_neg (by decide)] at herr
    cases herr

/-- The two ways to read a JSON answer: a method of the JSON client and an admin operation with the
same parser come to the same. -/
def ReadAlike [SerdeJson] {α : Type} (parse : ℕ → Value → Except Error α) (unsupported : String)
    (resp : Response) : Prop :=
  readRoute parse (.unsupportedByBox (.text unsupported))
      (undenied (LagerBox.readSent (.ok resp))) =
    readAdmin (.json parse) unsupported (undenied (LagerBox.readRaw (.ok resp)))

section

variable [SerdeJson] {α : Type} {resp : Response} {bytes : List UInt8}

/-- What an admin operation makes of a response without a denial. -/
theorem readAdmin_eq (parse : ℕ → Value → Except Error α) (unsupported : String)
    (hbody : resp.body = .ok bytes) :
    readAdmin (.json parse) unsupported (undenied (LagerBox.readRaw (.ok resp))) =
      ((Parse.json parse).complete resp.status bytes).mapError (routeMissing unsupported) := by
  have hraw : undenied (LagerBox.readRaw (.ok resp)) = .ok (resp.status, bytes) :=
    @undenied_readRaw .blocking resp bytes hbody
  rw [hraw]
  rfl

/-- Whatever the parser, an answer that is no null in the body of an error is read alike. -/
theorem readAlike_of_not_null (parse : ℕ → Value → Except Error α) (unsupported : String)
    (hbody : resp.body = .ok bytes) (hgate : gatewayDenial resp = none)
    (hnull : ¬ (400 ≤ resp.status ∧ SerdeJson.fromSlice bytes = .ok .null)) :
    ReadAlike parse unsupported resp := by
  rw [ReadAlike, readAdmin_eq parse unsupported hbody, Parse.complete]
  cases hjson : SerdeJson.fromSlice bytes with
  | error e =>
    rw [undenied_readSent_error hbody hgate hjson]
    split_ifs <;> rfl
  | ok body =>
    have hsent : undenied (LagerBox.readSent (.ok resp)) = .ok (resp.status, body) := by
      refine @undenied_readSent _ .blocking resp bytes body hbody hjson ?_
      rintro ⟨hstatus, rfl⟩
      exact hnull ⟨hstatus, hjson⟩
    rw [hsent]
    rfl

end

/-- **A JSON answer is read alike, unless it is the null of an error.** For a response without a
denial, the method of a JSON client and an admin operation with the same parser, whichever it is,
come to the same, unless the status is an error and the body is null; and with the parsers that take
the body of every error for a refusal, they then do not.

**Proof sketch.** Both hand the status and the body to the parser, and make the same errors of a
body that is no JSON. The JSON client takes a null in the body of an error for one that is no JSON,
which speaks of a missing route; the admin operation hands it to the parser, and none of these
parsers makes an error of it that speaks of a route. -/
theorem readsAlike_iff [SerdeJson] {α : Type} (parse : ℕ → Value → Except Error α)
    (unsupported : String) {resp : Response} {bytes : List UInt8} (hbody : resp.body = .ok bytes)
    (hgate : gatewayDenial resp = none) :
    (¬ (400 ≤ resp.status ∧ SerdeJson.fromSlice bytes = .ok .null) →
        ReadAlike parse unsupported resp) ∧
      (RouteParser parse → (ReadAlike parse unsupported resp ↔
        ¬ (400 ≤ resp.status ∧ SerdeJson.fromSlice bytes = .ok .null))) := by
  have hforward := readAlike_of_not_null parse unsupported hbody hgate
  refine ⟨hforward, fun hparse => ⟨fun halike hnull => ?_, hforward⟩⟩
  obtain ⟨hstatus, hjson⟩ := hnull
  rw [ReadAlike, readAdmin_eq parse unsupported hbody, Parse.complete, hjson,
    undenied_readSent_null hbody hgate hjson hstatus] at halike
  exact readsAlike_null hparse unsupported hstatus halike

/-- An error whose body is JSON is read alike. -/
theorem readsAlike_iff_example :
    letI := SerdeJson.only (utf8 "[]") (.array [])
    let resp : Response := ⟨404, false, [], .ok (utf8 "[]")⟩
    readRoute parseLock (.unsupportedByBox (.text "no locks"))
        (undenied (LagerBox.readSent (.ok resp))) =
      readAdmin (.json parseLock) "no locks" (undenied (LagerBox.readRaw (.ok resp))) := by
  let _ := SerdeJson.only (utf8 "[]") (.array [])
  refine ((readsAlike_iff parseLock "no locks" rfl (by decide)).2 .lock).mpr ?_
  rintro ⟨-, hnull⟩
  have hbody : SerdeJson.fromSlice (utf8 "[]") = .ok (Value.array []) := if_pos rfl
  rw [hbody] at hnull
  cases hnull

/-- A null in the body of a 404 is a missing route to the JSON client, and an error of the box to an
admin operation. -/
theorem null_read_apart :
    letI := SerdeJson.only (utf8 "null") .null
    let resp : Response := ⟨404, false, [], .ok (utf8 "null")⟩
    readRoute ops.parseUnit (.unsupportedByBox (.text "no nets"))
        (undenied (LagerBox.readSent (.ok resp))) ≠
      readAdmin (.json ops.parseUnit) "no nets" (undenied (LagerBox.readRaw (.ok resp))) := by
  decide +kernel

/-! ## Refusals -/

section

variable {status : ℕ} {m : String}

/-- The refusal of a route is kept unless it has the words of an error that is no JSON. -/
theorem mapRouteMissing_refusal_iff {message : Message} (hm : m ≠ "Not found") :
    mapRouteMissing (.unsupportedByBox message) (.box status (.text m)) = .box status (.text m) ↔
      ¬ ((status = 404 ∨ status = 405) ∧ contains "non-JSON".toList m.toList = true) := by
  have hmissing : isRouteMissing (.box status (.text m)) = true ↔
      (status = 404 ∨ status = 405) ∧ contains "non-JSON".toList m.toList = true := by
    simp [isRouteMissing, Message.speaksOfRoute, hm]
  rw [mapRouteMissing, ← hmissing]
  split_ifs with h
  · exact iff_of_false (by simp) fun hnot => hnot h
  · exact iff_of_true rfl h

variable {body : Value}

/-- What every parser makes of a refusal. -/
theorem RouteParser.refusal {α : Type} {parse : ℕ → Value → Except Error α}
    (h : RouteParser parse) (hstatus : 400 ≤ status) (hserved : status ≠ 501)
    (hbody : body.get "error" = some (.string m)) :
    parse status body = .error (.box status (.text m)) := by
  obtain ⟨fallback, -, hparsed⟩ := h.error hstatus body
  have hmessage : messageOf body fallback = .text m := by
    rw [messageOf, hbody]
    rfl
  rcases hparsed with hparsed | ⟨hunserved, -⟩
  · rw [hparsed, hmessage]
  · exact absurd hunserved hserved

/-- What is made of a refusal when a file is asked for. -/
theorem parseFile_refusal [SerdeJson] {bytes : List UInt8} (hstatus : 400 ≤ status)
    (hserved : status ≠ 501) (hjson : SerdeJson.fromSlice bytes = .ok body)
    (hbody : body.get "error" = some (.string m)) :
    ops.parseFile status bytes = .error (.box status (.text m)) := by
  rw [ops.parseFile, if_neg (by omega), hjson]
  simp only [ops.refusal, hbody, if_neg hserved]
  rfl

end

/-- **A refusal is no missing route, unless its message has the words of an error that is no JSON.**
For an error with a message of the box other than that of a missing route, every route reports that
message, unless the status is 404 or 405 and the message contains `non-JSON`.

**Proof sketch.** Every parser makes the same error of the answer, with the message of the box. The
test for a missing route looks at the status and the message of that error only. -/
theorem refusal_iff [SerdeJson] {t : Transport} {α : Type} {read : Response → Except Error α}
    (hread : Reads t read) {resp : Response} {bytes : List UInt8} {body : Value} {m : String}
    (hbody : resp.body = .ok bytes) (hjson : SerdeJson.fromSlice bytes = .ok body)
    (hmessage : body.get "error" = some (.string m)) (hstatus : 400 ≤ resp.status)
    (hserved : resp.status ≠ 501) (hm : m ≠ "Not found") :
    read resp = .error (.box resp.status (.text m)) ↔
      ¬ ((resp.status = 404 ∨ resp.status = 405) ∧
        contains "non-JSON".toList m.toList = true) := by
  have hraw : undenied (t.readRaw (.ok resp)) = .ok (resp.status, bytes) := undenied_readRaw hbody
  have hsent : undenied (t.readSent (.ok resp)) = .ok (resp.status, body) := by
    refine undenied_readSent hbody hjson ?_
    rintro ⟨-, rfl⟩
    cases hmessage
  -- Every route ends with the same test on the same error.
  have hroute : ∀ {β : Type} {outcome : Except Error β} {message : Message},
      outcome = (.error (.box resp.status (.text m))) →
      (outcome.mapError (mapRouteMissing (.unsupportedByBox message)) =
          .error (.box resp.status (.text m)) ↔
        ¬ ((resp.status = 404 ∨ resp.status = 405) ∧
          contains "non-JSON".toList m.toList = true)) := by
    rintro β outcome message rfl
    rw [← mapRouteMissing_refusal_iff hm]
    exact ⟨Except.error.inj, congrArg _⟩
  have hparser : ∀ {β : Type} {parse : ℕ → Value → Except Error β}, RouteParser parse →
      parse resp.status body = .error (.box resp.status (.text m)) :=
    fun h => h.refusal hstatus hserved hmessage
  cases hread with
  | admin h unsupported =>
    dsimp only
    rw [hraw]
    refine hroute ?_
    show (Parse.json _).complete resp.status bytes = _
    rw [Parse.complete, hjson]
    exact hparser (.admin h)
  | file unsupported =>
    dsimp only
    rw [hraw]
    exact hroute (parseFile_refusal hstatus hserved hjson hmessage)
  | lock =>
    dsimp only
    rw [hsent]
    exact hroute (hparser .lock)
  | safetyLimits =>
    dsimp only
    rw [hsent]
    exact hroute (hparser .safetyLimits)
  | netsState =>
    dsimp only
    rw [hsent]
    exact hroute (hparser .netsState)
  | uartSessions =>
    dsimp only
    rw [hsent]
    exact hroute (hparser .uartSessions)
  | releaseUartSession =>
    dsimp only
    rw [hsent]
    exact hroute (hparser .releaseUartSession)

/-- What a box that is locked for somebody else answers. -/
def lockedText : List UInt8 := utf8 "\x7b\"error\": \"locked\"\x7d"

/-- The parser of bodies on that answer. -/
abbrev lockedBody : SerdeJson := SerdeJson.only lockedText (.object [("error", .string "locked")])

/-- A box that is locked for somebody else is reported as such. -/
theorem refusal_iff_example :
    letI := lockedBody
    let resp : Response := ⟨409, false, [], .ok lockedText⟩
    LagerBox.readLock (undenied (Transport.blocking.readSent (.ok resp))) =
      .error (.box 409 (.text "locked")) := by
  let _ := lockedBody
  exact (refusal_iff .lock rfl (if_pos rfl) rfl (by decide) (by decide) (by decide)).mpr
    (by decide +kernel)

/-- The refusal to delete a net that is not there. -/
def unknownText : List UInt8 := utf8 "\x7b\"error\": \"no net 'non-JSON'\"\x7d"

/-- The parser of bodies on that refusal. -/
abbrev unknownNet : SerdeJson :=
  SerdeJson.only unknownText (.object [("error", .string "no net 'non-JSON'")])

/-- The refusal to delete a net is taken for a missing route because of the name of the net. -/
theorem refusal_taken_for_missing :
    letI := unknownNet
    readAdmin (ops.deleteNet "non-JSON" none).parse (ops.deleteNet "non-JSON" none).unsupported
      (undenied (Transport.blocking.readRaw (.ok ⟨404, false, [], .ok unknownText⟩))) ≠
        .error (.box 404 (.text "no net 'non-JSON'")) := by
  decide +kernel

end Lager
