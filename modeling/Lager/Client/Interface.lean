import Lager.Error
import Lager.Library.Program
import Lager.Library.Shared
import Lager.Rust.Json
import Lager.Rust.Text

set_option relaxedAutoImplicit false
set_option autoImplicit false

/-!
# What a client does to its surroundings

A client reads and writes the token store, asks the clock, sends requests to the box and asks an
auth server to refresh a session. These are the operations of its programs; everything outside
the client, other clients of the store included, is in the answers.

## Main definitions

* `Lager.Request`, `Lager.Response` — a request through the HTTP library, and its answer.
* `Lager.Exchange`, `Lager.HeadAnswer` — a request on a socket of its own, and its answer.
* `Lager.Op`, `Lager.Op.Ans` — the operations.
* `Lager.Event.bearer`, `Lager.Event.denial` — which token a request to the box carried, and
  whether the answer was a gateway denial.
* `Lager.StoreRun` — the loads and saves are those of one store.

## Implementation notes

An operation stands for the attempt: whatever goes wrong from the building of the request on is a
failure in the answer. A `Lager.Op.request` is one call of the HTTP library, with the redirects it
follows on its own, or none at all if the library refuses to build it: how many messages go over the
wire is not counted here. The bytes of a response head are parsed on the other side of the
interface.
-/

namespace Lager

open Library

/-! ## Requests and answers -/

/-- `Method`. -/
inductive Method
  | get
  | post
  | put
  | delete
  deriving DecidableEq, Repr

/-- `Timeout`, in nanoseconds. -/
inductive Timeout
  | default
  | after (d : ℕ)
  | unbounded
  deriving DecidableEq, Repr

/-- The timeout a request gets from a client with a default. -/
def Timeout.limit (defaultTimeout : ℕ) : Timeout → Option ℕ
  | default => some defaultTimeout
  | after d => some d
  | unbounded => none

/-- The body of a request: JSON, or bytes with their media type. -/
inductive Payload
  | json (value : Value)
  | raw (contentType : String) (bytes : List UInt8)

/-- `HttpRequest`. -/
structure HttpRequest where
  method : Method
  path : String
  body : Option Value
  timeout : Timeout

/-- `RawRequest`; its body is a `Payload.raw`. -/
structure RawRequest where
  method : Method
  path : String
  body : Option (String × List UInt8)
  timeout : Timeout

/-- A request as it goes to the HTTP library. `bearer` is the token of its `Authorization`
header. -/
structure Request where
  method : Method
  url : String
  bearer : Option String
  body : Option Payload
  timeout : Option ℕ

/-- A failure of the network or of the HTTP library: whether it is a timeout, and its text. -/
structure Failure where
  timedOut : Bool
  message : String
  deriving DecidableEq, Repr

/-- The answer to a request: the head, with the names of headers in lower case, and what reading the
body to its end comes to. -/
structure Response where
  status : ℕ
  http10 : Bool
  headers : List (String × List UInt8)
  body : Except Failure (List UInt8)

/-- `Head`: the parts of a parsed response head. -/
structure Head where
  status : ℕ
  discovery : Option String
  contentLength : ℕ
  hasContentLength : Bool
  chunked : Bool
  deriving DecidableEq, Repr

/-- A request on a socket of its own: where it connects, what it writes, and the token in that. -/
structure Exchange where
  host : String
  port : ℕ
  text : String
  bearer : Option String
  deriving DecidableEq, Repr

/-- The answer to a request on a socket of its own. -/
inductive HeadAnswer
  /-- Connecting, writing or reading the head failed. -/
  | failed (failure : Failure)
  /-- The peer hung up, or sent no end of the head within the limit. -/
  | closed
  /-- What came is no HTTP response. -/
  | garbled
  /-- A response head, and what reading the start of a refusal's body comes to. -/
  | head (head : Head) (body : Except Failure (List UInt8))

/-! ## Operations -/

/-- The operations of a client. -/
inductive Op
  /-- `load_store`. -/
  | loadStore
  /-- `save_store`. -/
  | saveStore (store : Value)
  /-- `now_epoch`. -/
  | nowEpoch
  /-- `POST {auth_url}/api/auth/refresh`, with a `Cookie` header. -/
  | refresh (authUrl cookies : String)
  /-- A request to the box, through the HTTP library. -/
  | request (r : Request)
  /-- A request to the box, on a socket of its own. -/
  | exchange (r : Exchange)

/-- The answers of the operations. -/
def Op.Ans : Op → Type
  | loadStore => Value
  | saveStore _ => Unit
  | nowEpoch => ℚ
  | refresh _ _ => Except Failure Response
  | request _ => Except Failure Response
  | exchange _ => HeadAnswer

/-- `load_store`. -/
def loadStore : Program Op Op.Ans Value := Program.perform Op.loadStore

/-- `save_store`. -/
def saveStore (store : Value) : Program Op Op.Ans Unit := Program.perform (Op.saveStore store)

/-- `now_epoch`. -/
def nowEpoch : Program Op Op.Ans ℚ := Program.perform Op.nowEpoch

/-- Ask an auth server for a refresh. -/
def askRefresh (authUrl cookies : String) : Program Op Op.Ans (Except Failure Response) :=
  Program.perform (Op.refresh authUrl cookies)

/-- Send a request to the box through the HTTP library. -/
def request (r : Request) : Program Op Op.Ans (Except Failure Response) :=
  Program.perform (Op.request r)

/-- Send a request to the box on a socket of its own. -/
def exchange (r : Exchange) : Program Op Op.Ans HeadAnswer := Program.perform (Op.exchange r)

/-- An operation of a client with its answer. -/
abbrev Event := Library.Event Op Op.Ans

section

variable {store : Value} {authUrl cookies : String} {r : Request} {e : Exchange}

@[simp] theorem always_loadStore {Q : List Event → Value → Prop} :
    Always loadStore Q ↔ ∀ store, Q [⟨.loadStore, store⟩] store := Iff.rfl

@[simp] theorem always_saveStore {Q : List Event → Unit → Prop} :
    Always (saveStore store) Q ↔ ∀ ans, Q [⟨.saveStore store, ans⟩] ans := Iff.rfl

@[simp] theorem always_nowEpoch {Q : List Event → ℚ → Prop} :
    Always nowEpoch Q ↔ ∀ now, Q [⟨.nowEpoch, now⟩] now := Iff.rfl

@[simp] theorem always_askRefresh {Q : List Event → Except Failure Response → Prop} :
    Always (askRefresh authUrl cookies) Q ↔
      ∀ answer, Q [⟨.refresh authUrl cookies, answer⟩] answer := Iff.rfl

@[simp] theorem always_request {Q : List Event → Except Failure Response → Prop} :
    Always (request r) Q ↔ ∀ answer, Q [⟨.request r, answer⟩] answer := Iff.rfl

@[simp] theorem always_exchange {Q : List Event → HeadAnswer → Prop} :
    Always (exchange e) Q ↔ ∀ answer, Q [⟨.exchange e, answer⟩] answer := Iff.rfl

end

/-! ## Gateway denials -/

/-- The header that carries the auth server of a denial. -/
def discoveryHeader : String := "x-gateway-auth-url"

/-- `is_denial`. -/
def isDenial (status : ℕ) : Bool := status == 401 || status == 403 || status == 503

/-- `HeaderValue::to_str`: the value of a header, if it is visible ASCII. -/
def headerToStr (value : List UInt8) : Option (List Char) :=
  if value.all fun b => b == 9 || (32 ≤ b && b < 127) then some (value.map asciiChar) else none

/-- `HeaderMap::get`: the first header of a name. -/
def Response.header (name : String) (resp : Response) : Option (List UInt8) :=
  resp.headers.lookup name

/-- `gateway_denial`: the auth server a gateway denial names. -/
def gatewayDenial (resp : Response) : Option String :=
  if isDenial resp.status then
    ((resp.header discoveryHeader).bind headerToStr).map String.ofList
  else none

/-- The auth server a denial on a socket of its own names. -/
def Head.denial (head : Head) : Option String :=
  if isDenial head.status then head.discovery else none

namespace Event

/-- The token of a request to the box; `none` for what is no request to the box. -/
def bearer : Event → Option (Option String)
  | ⟨.request r, _⟩ => some r.bearer
  | ⟨.exchange r, _⟩ => some r.bearer
  | _ => none

/-- The status and the auth server of a gateway denial. -/
def denial : Event → Option (ℕ × String)
  | ⟨.request _, .ok resp⟩ => (gatewayDenial resp).map fun url => (resp.status, url)
  | ⟨.exchange _, .head head _⟩ => head.denial.map fun url => (head.status, url)
  | _ => none

/-- A request to the box asks no auth server for a refresh. -/
theorem ne_refresh_of_bearer {e : Event} {token : Option String} (h : e.bearer = some token)
    (authUrl cookies : String) : e.1 ≠ .refresh authUrl cookies := by
  obtain ⟨op, ans⟩ := e
  rintro rfl
  cases h

/-- A request to the box does not write the store. -/
theorem ne_saveStore_of_bearer {e : Event} {token : Option String} (h : e.bearer = some token)
    (store : Value) : e.1 ≠ .saveStore store := by
  obtain ⟨op, ans⟩ := e
  rintro rfl
  cases h

end Event

/-! ## The store behind the events -/

/-- The access to the store in an event. -/
def Event.access : Event → Option (Access Value)
  | ⟨.loadStore, store⟩ => some (.read store)
  | ⟨.saveStore store, _⟩ => some (.write store)
  | _ => none

/-- The loads and saves among some events are those of one store: a load gives what it holds, a save
replaces it. -/
def StoreRun (store : Value) (events : List Event) (store' : Value) : Prop :=
  CellRun store (events.filterMap Event.access) store'

/-- A store that is not written stays as it is. -/
theorem StoreRun.unchanged {store store' : Value} {events : List Event}
    (h : StoreRun store events store') (hsave : ∀ e ∈ events, ∀ new, e.1 ≠ .saveStore new) :
    store' = store := by
  refine CellRun.unchanged h fun new hnew => ?_
  obtain ⟨⟨op, ans⟩, he, haccess⟩ := List.mem_filterMap.mp hnew
  cases op with
  | saveStore store => exact hsave _ he store rfl
  | _ => cases haccess

/-- A load gives what the store holds. -/
theorem StoreRun.of_load {store loaded store' : Value} {events : List Event}
    (h : StoreRun store (⟨.loadStore, loaded⟩ :: events) store') :
    loaded = store ∧ StoreRun store events store' :=
  CellRun.of_read h

end Lager
