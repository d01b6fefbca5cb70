import Mathlib.Data.List.Basic

set_option relaxedAutoImplicit false
set_option autoImplicit false

/-!
# The crate's error type

`Error` has the variants of the crate's `Error` enum with the data each carries. A text that
the crate puts together is kept as the template it comes from with the values filled in
(`Message`), so that statements about which error comes out need not compare strings; a text
the box or a library supplies is kept as it is.

## Main definitions

* `Lager.Message` — the texts of errors.
* `Lager.Error` — the errors.
-/

namespace Lager

/-- The text of an error: supplied from outside, or one of the crate's templates. -/
inductive Message
  /-- A text from the box, the system or a library. -/
  | text (s : String)
  /-- `box did not confirm {label} session for '{netname}' within {timeout:?}` -/
  | notConfirmed (label netname : String) (timeout : ℕ)
  /-- `{label} session closed unexpectedly` -/
  | closedUnexpectedly (label : String)
  /-- `'{needle}' did not appear on {label} '{netname}' within {timeout:?}` -/
  | didNotAppear (needle : List UInt8) (label netname : String) (timeout : ℕ)
  /-- `your session was rejected by box {box_host}` -/
  | sessionRejected (boxHost : String)
  /-- `box {box_host} requires sign-in` -/
  | requiresSignIn (boxHost : String)
  /-- `you are not authorized to use box {box_host} (your account has no access grant for it; ask
  your admin)` -/
  | notAuthorized (boxHost : String)
  /-- `box {box_host} could not verify authorization: its auth server is unreachable. Try again
  shortly` -/
  | couldNotVerify (boxHost : String)
  /-- `reading the response timed out: {e}` -/
  | readingTimedOut (e : String)
  /-- `reading the response failed: {e}` -/
  | readingFailed (e : String)
  /-- `non-JSON response: {e}` -/
  | nonJsonResponse (e : String)
  /-- `HTTP {status} (non-JSON body)` -/
  | nonJsonBody (status : ℕ)
  /-- `invalid box host '{host}'` -/
  | invalidBoxHost (host : String)
  /-- `no port in debug-service URL '{base}'` -/
  | noPort (base : String)
  /-- `bad port in debug-service URL '{base}'` -/
  | badPort (base : String)
  /-- `the async RTT stream needs a plain http:// debug-service address, not '{debug_base}'` -/
  | needsPlainHttp (debugBase : String)
  /-- `RTT stream via {host}:{port}: closed before answering` -/
  | closedBeforeAnswering (host : String) (port : ℕ)
  /-- `RTT stream via {host}:{port}: not an HTTP response` -/
  | notHttp (host : String) (port : ℕ)
  /-- `debug tunnel via {host}:{port}: no answer` -/
  | noAnswer (host : String) (port : ℕ)
  /-- `the gateway of box {box_host} does not tunnel port {port} ({body}): gateways tunnel only the
  debug ports (GDB 2331-2342, OpenOCD 4444-4447 and 6666-6669, RTT 9090-9097)` -/
  | notTunnelled (boxHost : String) (port : ℕ) (body : List UInt8)
  /-- `nothing is listening on port {port} on box {box_host} ({body}): start the debug server first
  (DebugNet::connect)` -/
  | nothingListening (boxHost : String) (port : ℕ) (body : List UInt8)
  /-- `port {port} on box {box_host} is reachable only through its gateway, and that gateway does
  not support debug tunnels yet; ask the box's administrator to update it` -/
  | noTunnels (boxHost : String) (port : ℕ)
  /-- `LSCP frame: frame too short: need {need} bytes, got {got}` -/
  | frameTooShort (need got : ℕ)
  /-- `LSCP frame: bad magic 0x{magic:08x}, expected 0x5043534c` -/
  | badMagic (magic : ℕ)
  /-- `LSCP frame: unsupported LSCP version {version}, this crate reads 1` -/
  | unsupportedVersion (version : ℕ)
  /-- `LSCP frame: channel code {code} names no channel A to Z` -/
  | noSuchChannel (code : ℕ)
  /-- `{context}: {e}` -/
  | inContext (context e : String)
  /-- `no {waiting_for} from the scope in time` -/
  | noneInTime (waitingFor : String)
  /-- `the box closed the scope stream while waiting for {waiting_for}` -/
  | boxClosedStream (waitingFor : String)
  /-- `the scope stream closed during {context}` -/
  | streamClosed (context : String)
  /-- `scope stream error during {context}: {other}` -/
  | streamFailed (context e : String)
  /-- `malformed {command} reply: {e}` -/
  | malformedReply (command e : String)
  /-- `scope daemon: {detail}` -/
  | scopeDaemon (detail : String)
  /-- `net '{name}' exists but is not a debug net` -/
  | notDebugNet (name : String)
  /-- `debug net '{name}' not found on this box` -/
  | noDebugNet (name : String)
  /-- `the box debug service does not support '{feature}' (box software {since})` -/
  | featureMissing (feature since : String)
  /-- `invalid hex data from the box: '{s}'` -/
  | invalidHex (s : List Char)
  /-- The text of an error of the library that reads a type from a JSON value, left out. -/
  | unreadable
  /-- `invalid lock state: {e}`, without the text of the library. -/
  | invalidLockState
  /-- `LSCP frame: payload length mismatch: expected {expected} bytes, got {got}` -/
  | payloadMismatch (expected got : ℕ)
  /-- `{what}, got {value:?}`, without the value. -/
  | unexpectedValue (what : String)
  /-- `{what}: {element:?}`, without the element. -/
  | unexpectedElement (what : String)
  /-- `{what}: {e}`, without the text of the library. -/
  | unexpectedShape (what : String)
  /-- `HTTP {status}` -/
  | httpStatus (status : ℕ)
  deriving DecidableEq, Repr

/-- `Error`. -/
inductive Error
  /-- The box could not be reached. -/
  | connection (message : Message)
  /-- The request timed out on the client's side. -/
  | timeout (message : Message)
  /-- The box reported failure. -/
  | box (status : ℕ) (message : Message)
  /-- The debug probe stayed busy. -/
  | probeBusy (message : Message)
  /-- The net's safety settings refused. -/
  | safetyRefused (message : Message)
  /-- The box image does not serve the endpoint. -/
  | unsupportedByBox (message : Message)
  /-- The response could not be parsed. -/
  | decode (message : Message)
  /-- The gateway wants a sign-in. -/
  | authRequired (boxHost authUrl : String) (message : Message)
  /-- A configuration problem on the client's side. -/
  | config (message : Message)
  /-- A streaming session failed. -/
  | stream (message : Message)
  /-- A flash ran and programmed nothing. -/
  | flashFailed (error : String) (output : List String)
  /-- Another UART session holds the net or its device. -/
  | uartInUse (message : Message) (heldBy : Option String)
  deriving DecidableEq, Repr

end Lager
