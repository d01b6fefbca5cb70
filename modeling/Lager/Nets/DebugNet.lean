import Lager.Library.Stateful
import Lager.Nets.Debug

set_option relaxedAutoImplicit false
set_option autoImplicit false

/-!
# Debug nets

The handle of a debug net, the same for both clients. An operation takes the saved record of the net
from a cache that all clones of the handle share, or reads it from the box and keeps it there, and
sends its request to the debug service. What an older box would take for something else is sent only
to a service that lists the feature.

## Main definitions

* `Lager.DebugNet.netRecord`, `Lager.DebugNet.call` — the record and the request of an operation.
* `Lager.DebugOp`, `Lager.DebugOp.run` — the operations.
* `Lager.DebugNet.Ran` — the runs of an operation.

## Main results

* `Lager.DebugOp.run_spec` — the runs of an operation are these.
* `Lager.DebugNet.Ran.unsent_or_sent` — an operation sends its request last, or fails before.

## Implementation notes

`rtt_interactive` goes neither through the cache nor to the debug service and is left out. Reading a
firmware file comes before everything else; what it comes to is given.
-/

namespace Lager

open Library Stateful

/-! ## The record of a net -/

/-- What `get_json` makes of an answer. -/
def readJson (answer : Except Error (ℕ × Value)) : Except Error Value := do
  let (status, body) ← answer
  if status = 200 then return body
  else throw (.box status (.text (((body.get "error").bind Value.asStr).getD "request failed")))

/-- `get_json`. -/
def Routine.getJson (path : String) : Routine (Except Error Value) :=
  readJson <$> Routine.execute (get path)

/-- `nets_list_values`. -/
def netsListValues : Value → List Value
  | .array records => records
  | .object fields =>
    match fields.lookup "nets" with
    | some (.array records) => records
    | _ => []
  | _ => []

/-- `nets_raw`. -/
def netsRaw : Routine (Except Error (List Value)) := do
  match ← Routine.getJson "/nets/list" with
  | .ok body => return .ok (netsListValues body)
  | .error primary =>
    match ← Routine.getJson "/uart/nets/list" with
    | .ok body => return .ok (netsListValues body)
    | .error _ => return .error primary

/-- The loop of `find_debug_record`. -/
def findDebugRecord (name : String) (wrongRole : Bool) : List Value → Except Error Value
  | [] => .error (.box 404 (if wrongRole then .notDebugNet name else .noDebugNet name))
  | record :: records =>
    if (record.get "name").bind Value.asStr = some name then
      if (record.get "role").bind Value.asStr = some "debug" then .ok record
      else findDebugRecord name true records
    else findDebugRecord name wrongRole records

/-- `debug_net_record`. -/
def debugNetRecord (name : String) : Routine (Except Error Value) := do
  match ← netsRaw with
  | .error err => return .error err
  | .ok records => return findDebugRecord name false records

/-- A part of an operation. The state is the cached record. -/
abbrev DebugAction := Stateful Error (Option Value) Pass Pass.Ans

namespace DebugNet

/-- `net_record`. -/
def netRecord (name : String) : DebugAction Value := do
  match ← load with
  | some record => return record
  | none =>
    let record ← ofProgram (debugNetRecord name)
    store (some record)
    return record

/-- `call`. -/
def call (req : DebugRequest) : DebugAction Value := do
  let (path, body, timeout) := req
  let answer ← perform (Routine.executeDebug (debugRequest path body timeout))
  let result := answer.bind fun (status, resp) => parseDebug status resp
  match result with
  | .error _ => store none
  | .ok _ => pure ()
  ofResult result

/-- The check that precedes an operation: the debug service lists a feature. -/
def checkFeature (feature since : String) : DebugAction Unit := do
  let (status, health) ← ofProgram (Routine.executeDebug debugHealthRequest)
  ofResult (requireDebugFeature status health feature since)

/-- What most operations do: take the record, send a request with it, read the answer. -/
def requested {α : Type} (name : String) (build : Value → DebugRequest)
    (read : Value → Except Error α) : DebugAction α := do
  let net ← netRecord name
  let resp ← call (build net)
  ofResult (read resp)

variable (name : String)

/-- `connect_with`. -/
def connectWith (opts : ConnectOptions) : DebugAction DebugConnection := do
  if ops.needsTransportFeature opts then checkFeature "connect_transport" ">= 0.62.0"
  requested name (ops.connect · opts) (fromValue DebugConnection.fromValue)

/-- `disconnect`. -/
def disconnect (keepRunning : Bool) : DebugAction Unit :=
  requested name (ops.disconnect · keepRunning) fun _ => .ok ()

/-- `reset`. -/
def reset (halt : Bool) : DebugAction DebugOutput :=
  requested name (ops.reset · halt) (fromValue DebugOutput.fromValue)

/-- `halt`. -/
def halt : DebugAction DebugOutput := do
  checkFeature "halt" ">= 0.60.0"
  requested name ops.halt (fromValue DebugOutput.fromValue)

/-- `erase_with`. -/
def eraseWith [SerdeInt] (opts : EraseOptions) : DebugAction EraseReport :=
  requested name (ops.erase · opts) (fromValue EraseReport.fromValue)

/-- `erase_range_with`. -/
def eraseRangeWith [SerdeInt] (start size : UInt64) (opts : EraseOptions) :
    DebugAction EraseReport := do
  checkFeature "erase_range" ">= 0.50.0"
  requested name (ops.eraseRange · start size opts) (fromValue EraseReport.fromValue)

/-- `flash_bytes_with`. -/
def flashBytesWith [SerdeJson] (contents : List UInt8) (kind : FirmwareKind)
    (address : Option UInt32) (opts : FlashOptions) : DebugAction FlashReport := do
  let net ← netRecord name
  let resp ← call (ops.flash net contents kind address opts)
  let report := parseFlash resp
  match report with
  | .error _ => store none
  | .ok _ => pure ()
  ofResult report

/-- `flash_with` and `flash_bin`, by what reading the file comes to. -/
def flashFile [SerdeJson] (firmware : Except Error (List UInt8 × FirmwareKind))
    (address : Option UInt32) (opts : FlashOptions) : DebugAction FlashReport := do
  let (contents, kind) ← ofResult firmware
  flashBytesWith name contents kind address opts

/-- `read_memory_inner`. -/
def readMemoryInner (address : UInt64) (length : ℕ) (noReset : Bool) :
    DebugAction (List UInt8) :=
  requested name (ops.readMemory · address length noReset) debugMemoryBytes

/-- `info_inner`. -/
def infoInner (probe : Bool) : DebugAction DebugInfo :=
  requested name (ops.info · probe) (fromValue DebugInfo.fromValue)

/-- `status_inner`. -/
def statusInner (probe : Bool) : DebugAction DebugStatus :=
  requested name (ops.status · probe) (fromValue DebugStatus.fromValue)

/-- `rtt_with`. -/
def rttWith (opts : RttOptions) : DebugAction RttStream := do
  let net ← netRecord name
  ofProgram (Routine.streamDebug
    (debugRequest "/debug/rtt" (ops.rttBody net opts) .unbounded))

end DebugNet

/-! ## The operations -/

/-- An operation of a debug net with its arguments. -/
inductive DebugOp
  | connectWith (opts : ConnectOptions)
  | disconnect (keepRunning : Bool)
  | reset (halt : Bool)
  | halt
  | eraseWith (opts : EraseOptions)
  | eraseRangeWith (start size : UInt64) (opts : EraseOptions)
  | flashBytesWith (contents : List UInt8) (kind : FirmwareKind) (address : Option UInt32)
      (opts : FlashOptions)
  | flashFile (firmware : Except Error (List UInt8 × FirmwareKind)) (address : Option UInt32)
      (opts : FlashOptions)
  | readMemoryInner (address : UInt64) (length : ℕ) (noReset : Bool)
  | infoInner (probe : Bool)
  | statusInner (probe : Bool)
  | rttWith (opts : RttOptions)

namespace DebugOp

/-- What an operation returns. -/
def Result : DebugOp → Type
  | connectWith _ => DebugConnection
  | disconnect _ => Unit
  | reset _ | halt => DebugOutput
  | eraseWith _ | eraseRangeWith .. => EraseReport
  | flashBytesWith .. | flashFile .. => FlashReport
  | readMemoryInner .. => List UInt8
  | infoInner _ => DebugInfo
  | statusInner _ => DebugStatus
  | rttWith _ => RttStream

/-- What an operation does. -/
def run [SerdeJson] [SerdeInt] (name : String) : (op : DebugOp) → DebugAction op.Result
  | connectWith opts => DebugNet.connectWith name opts
  | disconnect keepRunning => DebugNet.disconnect name keepRunning
  | reset halted => DebugNet.reset name halted
  | halt => DebugNet.halt name
  | eraseWith opts => DebugNet.eraseWith name opts
  | eraseRangeWith start size opts => DebugNet.eraseRangeWith name start size opts
  | flashBytesWith contents kind address opts =>
    DebugNet.flashBytesWith name contents kind address opts
  | flashFile firmware address opts => DebugNet.flashFile name firmware address opts
  | readMemoryInner address length noReset => DebugNet.readMemoryInner name address length noReset
  | infoInner probe => DebugNet.infoInner name probe
  | statusInner probe => DebugNet.statusInner name probe
  | rttWith opts => DebugNet.rttWith name opts

end DebugOp

/-! ## What the parts do -/

/-- Reading the record of a net from the box: the list of nets, and the older one if that fails. -/
def Fetches (events : List PassEvent) : Prop :=
  ∃ (answer : Except Error (ℕ × Value)) (rest : List PassEvent),
    events = ⟨.execute (get "/nets/list"), answer⟩ :: rest ∧
      ∀ e ∈ rest, ∃ answer : Except Error (ℕ × Value),
        e = ⟨.execute (get "/uart/nets/list"), answer⟩

/-- `debug_net_record` reads the list of nets. -/
theorem debugNetRecord_spec (name : String) :
    Always (debugNetRecord name) fun events _ => Fetches events := by
  simp only [debugNetRecord, netsRaw, Routine.getJson, always_bind, always_map,
    Routine.always_execute]
  intro answer
  cases readJson answer with
  | ok body => exact ⟨answer, [], rfl, List.forall_mem_nil _⟩
  | error primary =>
    simp only [always_bind, always_map, Routine.always_execute]
    intro answer'
    cases readJson answer' with
    | ok body => exact ⟨answer, _, rfl, List.forall_mem_singleton.mpr ⟨answer', rfl⟩⟩
    | error err => exact ⟨answer, _, rfl, List.forall_mem_singleton.mpr ⟨answer', rfl⟩⟩

namespace DebugNet

/-- How a record was had: from the cache, or from the box. -/
def Had (cache : Option Value) (events : List PassEvent) (net : Value) : Prop :=
  cache = some net ∧ events = [] ∨ cache = none ∧ Fetches events

/-- `net_record` has a record and caches it, or the box has none. -/
theorem netRecord_spec (name : String) (cache : Option Value) :
    (netRecord name).Does cache fun events r cache' =>
      (∃ net, r = .ok net ∧ cache' = some net ∧ Had cache events net) ∨
        ∃ err, r = .error err ∧ cache' = none ∧ cache = none ∧ Fetches events := by
  unfold netRecord
  rw [does_bind, does_load]
  cases cache with
  | some net =>
    have hhad : Had (some net) [] net := .inl ⟨rfl, rfl⟩
    exact .inl ⟨net, rfl, rfl, hhad⟩
  | none =>
    simp only [does_bind, does_ofProgram, does_store, does_pure]
    refine (debugNetRecord_spec name).mono ?_
    rintro events (err | net) hfetches
    · exact .inr ⟨err, rfl, trivial, trivial, hfetches⟩
    · have hhad : Had none events net := .inr ⟨rfl, hfetches⟩
      simpa using hhad

/-- A request to the debug service with its answer. -/
def called (req : HttpRequest) (answer : Except Error (ℕ × Value)) : PassEvent :=
  ⟨.executeDebug req, answer⟩

/-- What the debug service says it has. -/
def asked (answer : Except Error (ℕ × Value)) : PassEvent := called debugHealthRequest answer

/-- What `call` makes of an answer. -/
def readCall (answer : Except Error (ℕ × Value)) : Except Error Value :=
  answer.bind fun (status, resp) => parseDebug status resp

/-- A call goes well only with a status of 200. -/
theorem readCall_ok {answer : Except Error (ℕ × Value)} {resp : Value}
    (h : readCall answer = .ok resp) : answer = .ok (200, resp) := by
  rcases answer with err | ⟨status, body⟩
  · cases h
  · replace h : parseDebug status body = .ok resp := h
    unfold parseDebug at h
    split_ifs at h with hstatus
    cases h
    rw [hstatus]

/-- The request of a call. -/
def toHttp (req : DebugRequest) : HttpRequest :=
  debugRequest req.1 req.2.1 req.2.2

/-- `call` sends its request. A failure empties the cache. -/
theorem call_spec (req : DebugRequest) (cache : Option Value) :
    (call req).Does cache fun events r cache' =>
      ∃ answer : Except Error (ℕ × Value),
        events = [called (toHttp req) answer] ∧ r = readCall answer ∧
          cache' = if (readCall answer).isOk then cache else none := by
  unfold call
  simp only [does_bind, does_perform, Routine.always_executeDebug]
  intro answer
  cases hread : readCall answer with
  | error err =>
    simp only [readCall] at hread
    simp only [hread, does_bind, does_store, does_ofResult]
    exact ⟨answer, rfl, by rw [readCall, hread], by rw [readCall, hread]; rfl⟩
  | ok resp =>
    simp only [readCall] at hread
    simp only [hread, does_ofResult]
    exact ⟨answer, rfl, by rw [readCall, hread], by rw [readCall, hread]; rfl⟩

/-- The checks before an operation passed: the service has listed the feature, if there is one. -/
def Passed (feature : Option String) (checks : List PassEvent) : Prop :=
  match feature with
  | none => checks = []
  | some feature => ∃ body, checks = [asked (.ok (200, body))] ∧ Lists feature body

/-- A check passes only when the service answers that it has the feature. -/
theorem checkFeature_spec (feature since : String) (cache : Option Value) :
    (checkFeature feature since).Does cache fun events r cache' => cache' = cache ∧
      ((r = .ok () ∧ Passed (some feature) events) ∨
        ∃ answer err, r = .error err ∧ events = [asked answer]) := by
  unfold checkFeature
  simp only [does_bind, does_ofProgram, Routine.always_executeDebug]
  rintro (err | ⟨status, body⟩)
  · exact ⟨trivial, .inr ⟨.error err, err, rfl, rfl⟩⟩
  · simp only [does_ofResult]
    cases hcheck : requireDebugFeature status body feature since with
    | error err => exact ⟨trivial, .inr ⟨.ok (status, body), err, rfl, rfl⟩⟩
    | ok _ =>
      obtain ⟨rfl, hlists⟩ := lists_of_requireDebugFeature hcheck
      exact ⟨trivial, .inl ⟨rfl, body, rfl, hlists⟩⟩

/-! ## The runs of an operation -/

/-- The runs of an operation from a cached record: the feature it asks for, the pass it makes with a
record, and the answers after which it fails but keeps the record. -/
inductive Ran {α : Type} (feature : Option String) (request : Value → Option Pass)
    (Keeps : PassEvent → Prop) (cache : Option Value) :
    List PassEvent → Except Error α → Option Value → Prop
  /-- There is nothing to send. -/
  | unsent {checks : List PassEvent} {err : Error} (hpassed : Passed feature checks) :
      Ran feature request Keeps cache checks (.error err) cache
  /-- The service does not have the feature. -/
  | refused {answer : Except Error (ℕ × Value)} {err : Error} (hfeature : feature ≠ none) :
      Ran feature request Keeps cache [asked answer] (.error err) cache
  /-- The box has no record. -/
  | noRecord {checks fetched : List PassEvent} {err : Error} (hpassed : Passed feature checks)
      (hcache : cache = none) (hfetched : Fetches fetched) :
      Ran feature request Keeps cache (checks ++ fetched) (.error err) none
  /-- The operation fails and drops the record. -/
  | dropped {checks fetched : List PassEvent} {net : Value} {e : PassEvent} {err : Error}
      (hpassed : Passed feature checks) (hhad : Had cache fetched net)
      (hrequest : request net = some e.1) (hkeeps : ¬ Keeps e) :
      Ran feature request Keeps cache (checks ++ (fetched ++ [e])) (.error err) none
  /-- The operation keeps the record. -/
  | kept {checks fetched : List PassEvent} {net : Value} {e : PassEvent} {r : Except Error α}
      (hpassed : Passed feature checks) (hhad : Had cache fetched net)
      (hrequest : request net = some e.1) (hkeeps : (∃ err, r = .error err) ↔ Keeps e) :
      Ran feature request Keeps cache (checks ++ (fetched ++ [e])) r (some net)

/-- A pass that only prepares an operation: it asks the service what it has, or the box for its
nets. -/
inductive Prepares : Pass → Prop
  | health : Prepares (.executeDebug debugHealthRequest)
  | nets (path : String) : Prepares (.execute (get path))

/-- Reading the record from the box only prepares. -/
theorem prepares_of_fetches {events : List PassEvent} (h : Fetches events) :
    ∀ e ∈ events, Prepares e.1 := by
  obtain ⟨answer, rest, rfl, hrest⟩ := h
  refine List.forall_mem_cons.mpr ⟨.nets _, fun e he => ?_⟩
  obtain ⟨answer, rfl⟩ := hrest e he
  exact .nets _

/-- Having a record only prepares. -/
theorem Had.prepares {cache : Option Value} {events : List PassEvent} {net : Value}
    (h : Had cache events net) : ∀ e ∈ events, Prepares e.1 := by
  rcases h with ⟨-, rfl⟩ | ⟨-, hfetches⟩
  · exact List.forall_mem_nil _
  · exact prepares_of_fetches hfetches

/-- The checks before an operation only prepare. -/
theorem Passed.prepares {feature : Option String} {checks : List PassEvent}
    (h : Passed feature checks) : ∀ e ∈ checks, Prepares e.1 := by
  cases feature with
  | none =>
    cases h
    exact List.forall_mem_nil _
  | some feature =>
    obtain ⟨body, rfl, -⟩ := h
    exact List.forall_mem_singleton.mpr .health

/-- What does more than prepare an operation is its last pass. -/
theorem eq_of_not_prepares {feature : Option String} {cache : Option Value}
    {checks fetched front back : List PassEvent} {net : Value} {e last : PassEvent}
    (hpassed : Passed feature checks) (hhad : Had cache fetched net)
    (hsplit : checks ++ (fetched ++ [last]) = front ++ e :: back) (hnot : ¬ Prepares e.1) :
    front = checks ++ fetched ∧ e = last := by
  have hearlier : e ∉ checks ++ fetched := by
    intro he
    rcases List.mem_append.mp he with he | he
    · exact hnot (hpassed.prepares e he)
    · exact hnot (hhad.prepares e he)
  rw [← List.append_assoc] at hsplit
  rcases List.eq_nil_or_concat' back with rfl | ⟨back, other, rfl⟩
  · obtain ⟨rfl, heq⟩ := List.append_inj' hsplit rfl
    exact ⟨rfl, (List.cons.inj heq).1.symm⟩
  · rw [← List.cons_append, ← List.append_assoc] at hsplit
    obtain ⟨hbefore, -⟩ := List.append_inj' hsplit rfl
    rw [hbefore] at hearlier
    exact absurd (List.mem_append_right _ List.mem_cons_self) hearlier

/-- An operation fails before it sends its request, or sends it last. Then it drops its record or
keeps it. -/
theorem Ran.unsent_or_sent {α : Type} {feature : Option String} {request : Value → Option Pass}
    {Keeps : PassEvent → Prop} {cache cache' : Option Value} {events : List PassEvent}
    {r : Except Error α} (h : Ran feature request Keeps cache events r cache') :
    ((∀ e ∈ events, Prepares e.1) ∧ ∃ err, r = .error err) ∨
      ∃ checks fetched net last, Passed feature checks ∧ Had cache fetched net ∧
        request net = some last.1 ∧ events = checks ++ (fetched ++ [last]) ∧
          ((∃ err, r = .error err) ∧ cache' = none ∧ ¬ Keeps last ∨
            ((∃ err, r = .error err) ↔ Keeps last) ∧ cache' = some net) := by
  cases h with
  | unsent hpassed => exact .inl ⟨hpassed.prepares, _, rfl⟩
  | refused hfeature => exact .inl ⟨List.forall_mem_singleton.mpr .health, _, rfl⟩
  | noRecord hpassed hcache hfetched =>
    refine .inl ⟨List.forall_mem_append.mpr ⟨hpassed.prepares, ?_⟩, _, rfl⟩
    exact prepares_of_fetches hfetched
  | dropped hpassed hhad hrequest hkeeps =>
    exact .inr ⟨_, _, _, _, hpassed, hhad, hrequest, rfl, .inl ⟨⟨_, rfl⟩, rfl, hkeeps⟩⟩
  | kept hpassed hhad hrequest hkeeps =>
    exact .inr ⟨_, _, _, _, hpassed, hhad, hrequest, rfl, .inr ⟨hkeeps, rfl⟩⟩

section

variable {α : Type} {request : Value → Option Pass} {Keeps : PassEvent → Prop}

/-- An operation that asks for a feature before everything else. -/
theorem ran_checkFeature {p : DebugAction α} {cache : Option Value}
    (h : p.Does cache (Ran none request Keeps cache)) (feature since : String) :
    (checkFeature feature since >>= fun _ => p).Does cache
      (Ran (some feature) request Keeps cache) := by
  rw [does_bind]
  refine (checkFeature_spec feature since cache).mono ?_
  rintro checks r _ ⟨rfl, ⟨rfl, hpassed⟩ | ⟨answer, err, rfl, rfl⟩⟩
  · refine h.mono fun events r cache' hran => ?_
    cases hran with
    | unsent hnone =>
      cases hnone
      exact .unsent (by simpa using hpassed)
    | refused hfeature => exact absurd rfl hfeature
    | noRecord hnone hcache hfetched =>
      cases hnone
      exact .noRecord hpassed hcache hfetched
    | dropped hnone hhad hrequest hkeeps =>
      cases hnone
      exact .dropped hpassed hhad hrequest hkeeps
    | kept hnone hhad hrequest hkeeps =>
      cases hnone
      exact .kept hpassed hhad hrequest hkeeps
  · exact .refused (by simp)

/-- An operation that sends a request with its record, and keeps the record if the answer cannot be
read. -/
theorem ran_requested {build : Value → DebugRequest} {read : Value → Except Error α}
    (hkeeps : ∀ req answer, Keeps (called req answer) ↔
      ∃ resp err, answer = .ok (200, resp) ∧ read resp = .error err)
    (name : String) (cache : Option Value) :
    (requested name build read).Does cache
      (Ran none (fun net => some (.executeDebug (toHttp (build net)))) Keeps cache) := by
  unfold requested
  simp only [does_bind]
  refine (netRecord_spec name cache).mono ?_
  rintro fetched r cache' (⟨net, rfl, rfl, hhad⟩ | ⟨err, rfl, rfl, hcache, hfetched⟩)
  · refine (call_spec (build net) (some net)).mono ?_
    rintro events r cache' ⟨answer, rfl, rfl, rfl⟩
    cases hread : readCall answer with
    | error err =>
      have hnot : ¬ Keeps (called (toHttp (build net)) answer) := by
        rw [hkeeps]
        rintro ⟨resp, err, rfl, -⟩
        cases hread
      exact @Ran.dropped α none _ Keeps cache [] fetched net _ err rfl hhad rfl hnot
    | ok resp =>
      obtain rfl := readCall_ok hread
      have hr : (∃ err, read resp = .error err) ↔
          Keeps (called (toHttp (build net)) (.ok (200, resp))) := by
        rw [hkeeps]
        simp
      simp only [does_ofResult, List.append_nil]
      exact @Ran.kept α none _ Keeps cache [] fetched net _ _ rfl hhad rfl hr
  · exact @Ran.noRecord α none _ Keeps cache [] fetched err rfl hcache hfetched

end

end DebugNet

namespace DebugOp

/-- The feature that an operation asks the debug service for. -/
def feature : DebugOp → Option String
  | connectWith opts => if ops.needsTransportFeature opts then some "connect_transport" else none
  | halt => some "halt"
  | eraseRangeWith .. => some "erase_range"
  | _ => none

/-- The request of an operation that has a record. -/
def request (net : Value) : DebugOp → Option DebugRequest
  | connectWith opts => some (ops.connect net opts)
  | disconnect keepRunning => some (ops.disconnect net keepRunning)
  | reset halted => some (ops.reset net halted)
  | halt => some (ops.halt net)
  | eraseWith opts => some (ops.erase net opts)
  | eraseRangeWith start size opts => some (ops.eraseRange net start size opts)
  | flashBytesWith contents kind address opts => some (ops.flash net contents kind address opts)
  | flashFile firmware address opts => firmware.toOption.map fun (contents, kind) =>
      ops.flash net contents kind address opts
  | readMemoryInner address length noReset => some (ops.readMemory net address length noReset)
  | infoInner probe => some (ops.info net probe)
  | statusInner probe => some (ops.status net probe)
  | rttWith opts => some ("/debug/rtt", ops.rttBody net opts, .unbounded)

/-- The body of a request is the record with the parameters of the operation. -/
theorem request_body {op : DebugOp} {net : Value} {req : DebugRequest}
    (h : op.request net = some req) :
    ∃ extra, Map.Sorted extra ∧ req.2.1 = debugBody net extra := by
  cases op with
  | connectWith opts =>
    cases h
    exact ⟨_, ops.sorted_connectParams opts, rfl⟩
  | disconnect | reset =>
    cases h
    exact ⟨_, List.pairwise_singleton _ _, rfl⟩
  | halt =>
    cases h
    exact ⟨[], Map.sorted_nil, rfl⟩
  | eraseWith opts =>
    cases h
    exact ⟨_, ops.sorted_eraseParams opts Map.sorted_nil, rfl⟩
  | eraseRangeWith start size opts =>
    cases h
    refine ⟨_, ops.sorted_eraseParams opts ?_, rfl⟩
    exact Map.sorted_of_keys ["erase_size", "erase_start"] rfl (by decide)
  | flashBytesWith contents kind address opts =>
    cases h
    have hpayload := ops.sorted_flashPayload contents kind address
    exact ⟨_, ((hpayload.setSome _ _).setSome _ _).setSome _ _, rfl⟩
  | flashFile firmware address opts =>
    cases firmware with
    | error err => cases h
    | ok firmware =>
      cases h
      have hpayload := ops.sorted_flashPayload firmware.1 firmware.2 address
      exact ⟨_, ((hpayload.setSome _ _).setSome _ _).setSome _ _, rfl⟩
  | readMemoryInner address length noReset =>
    cases h
    refine ⟨_, Map.Sorted.setSome ?_ _ _, rfl⟩
    exact Map.sorted_of_keys ["length", "start_addr"] rfl (by decide)
  | infoInner probe | statusInner probe =>
    cases h
    refine ⟨ops.probeParams probe, ?_, rfl⟩
    cases probe
    · exact Map.sorted_nil
    · exact List.pairwise_singleton _ _
  | rttWith opts =>
    cases h
    refine ⟨_, ((Map.Sorted.setSome ?_ _ _).setSome _ _).setSome _ _, rfl⟩
    exact Map.sorted_of_keys ["channel", "timeout"] rfl (by decide)

/-- The pass of an operation that has a record. -/
def pass (op : DebugOp) (net : Value) : Option Pass :=
  (op.request net).map fun req =>
    match op with
    | rttWith _ => .streamDebug (DebugNet.toHttp req)
    | _ => .executeDebug (DebugNet.toHttp req)

/-- An operation cannot read what it is to return from the body of an answer. A disconnect reads
nothing, and a flash drops its record. -/
def Unreadable [SerdeInt] : DebugOp → Value → Prop
  | connectWith _, body => DebugConnection.fromValue body = none
  | reset _, body | halt, body => DebugOutput.fromValue body = none
  | eraseWith _, body | eraseRangeWith .., body => EraseReport.fromValue body = none
  | readMemoryInner .., body => ∃ err, debugMemoryBytes body = .error err
  | infoInner _, body => DebugInfo.fromValue body = none
  | statusInner _, body => DebugStatus.fromValue body = none
  | disconnect _, _ | flashBytesWith .., _ | flashFile .., _ | rttWith _, _ => False

/-- After an answer an operation fails but keeps its record: the answer is a success that cannot be
read, or the RTT stream could not be opened. -/
def Keeps [SerdeInt] (op : DebugOp) : PassEvent → Prop
  | ⟨.executeDebug _, .ok (status, body)⟩ => status = 200 ∧ op.Unreadable body
  | ⟨.streamDebug _, .error _⟩ => True
  | _ => False

/-- After a request to the debug service an operation keeps its record when the answer is a success
that it cannot read. -/
theorem keeps_called [SerdeInt] {op : DebugOp} (req : HttpRequest)
    (answer : Except Error (ℕ × Value)) :
    op.Keeps (DebugNet.called req answer) ↔
      ∃ resp, answer = .ok (200, resp) ∧ op.Unreadable resp := by
  rcases answer with err | ⟨status, body⟩
  · simp [DebugNet.called, Keeps]
  · show status = 200 ∧ op.Unreadable body ↔ _
    constructor
    · rintro ⟨rfl, hbody⟩
      exact ⟨body, rfl, hbody⟩
    · rintro ⟨resp, heq, hresp⟩
      cases heq
      exact ⟨rfl, hresp⟩

/-- A flash drops its record also when nothing was programmed. -/
theorem ran_flash [SerdeJson] (name : String) (contents : List UInt8) (kind : FirmwareKind)
    (address : Option UInt32) (opts : FlashOptions) (cache : Option Value)
    {Keeps : PassEvent → Prop} (hkeeps : ∀ req answer, ¬ Keeps (DebugNet.called req answer)) :
    (DebugNet.flashBytesWith name contents kind address opts).Does cache
      (DebugNet.Ran none (flashBytesWith contents kind address opts).pass Keeps cache) := by
  unfold DebugNet.flashBytesWith
  simp only [does_bind]
  refine (DebugNet.netRecord_spec name cache).mono ?_
  rintro fetched r cache' (⟨net, rfl, rfl, hhad⟩ | ⟨err, rfl, rfl, hcache, hfetched⟩)
  · refine (DebugNet.call_spec _ (some net)).mono ?_
    rintro events r cache' ⟨answer, rfl, rfl, rfl⟩
    have hnot := hkeeps (DebugNet.toHttp (ops.flash net contents kind address opts)) answer
    cases hread : DebugNet.readCall answer with
    | error err =>
      exact @DebugNet.Ran.dropped _ none _ Keeps cache [] fetched net _ err rfl hhad rfl hnot
    | ok resp =>
      cases hreport : parseFlash resp with
      | error err =>
        simp only [does_bind, does_store, does_ofResult, List.append_nil, hreport]
        exact @DebugNet.Ran.dropped _ none _ Keeps cache [] fetched net _ err rfl hhad rfl hnot
      | ok report =>
        simp only [does_ofResult, List.append_nil, hreport]
        have hr : (∃ err, (.ok report : Except Error FlashReport) = .error err) ↔
            Keeps (DebugNet.called (DebugNet.toHttp (ops.flash net contents kind address opts))
              answer) := by
          simp [hnot]
        exact @DebugNet.Ran.kept _ none _ Keeps cache [] fetched net _ _ rfl hhad rfl hr
  · exact @DebugNet.Ran.noRecord _ none _ Keeps cache [] fetched err rfl hcache hfetched

/-- The opening of an RTT stream keeps the record whatever comes of it. -/
theorem ran_rtt [SerdeInt] (name : String) (opts : RttOptions) (cache : Option Value) :
    (DebugNet.rttWith name opts).Does cache
      (DebugNet.Ran none (rttWith opts).pass (rttWith opts).Keeps cache) := by
  unfold DebugNet.rttWith
  simp only [does_bind]
  refine (DebugNet.netRecord_spec name cache).mono ?_
  rintro fetched r cache' (⟨net, rfl, rfl, hhad⟩ | ⟨err, rfl, rfl, hcache, hfetched⟩)
  · simp only [does_ofProgram, Routine.always_streamDebug]
    intro answer
    have hr : (∃ err, answer = .error err) ↔ (rttWith opts).Keeps ⟨.streamDebug
        (debugRequest "/debug/rtt" (ops.rttBody net opts) .unbounded), answer⟩ := by
      cases answer with
      | error err => exact iff_of_true ⟨err, rfl⟩ trivial
      | ok stream => simp [Keeps]
    exact @DebugNet.Ran.kept _ none _ _ cache [] fetched net _ _ rfl hhad rfl hr
  · exact @DebugNet.Ran.noRecord _ none _ _ cache [] fetched err rfl hcache hfetched

/-- **The runs of an operation.** -/
theorem run_spec [SerdeJson] [SerdeInt] (name : String) (op : DebugOp) (cache : Option Value) :
    (op.run name).Does cache (DebugNet.Ran op.feature op.pass op.Keeps cache) := by
  have hread : ∀ {α : Type} {read : Value → Except Error α}
      (h : ∀ body, op.Unreadable body ↔ ∃ err, read body = .error err)
      (build : Value → DebugRequest), (DebugNet.requested name build read).Does cache
        (DebugNet.Ran none (fun net => some (.executeDebug (DebugNet.toHttp (build net))))
          op.Keeps cache) := by
    intro α read h build
    refine DebugNet.ran_requested (fun req answer => ?_) name cache
    simp [keeps_called, h]
  have hdropped (h : ∀ body, ¬ op.Unreadable body) (req : HttpRequest)
      (answer : Except Error (ℕ × Value)) : ¬ op.Keeps (DebugNet.called req answer) := by
    simp [keeps_called, h]
  cases op with
  | connectWith opts =>
    have hran := hread (fromValue_error DebugConnection.fromValue) (ops.connect · opts)
    cases hneeds : ops.needsTransportFeature opts with
    | false =>
      have hfeature : (connectWith opts).feature = none := by simp [feature, hneeds]
      rw [hfeature]
      show (DebugNet.connectWith name opts).Does _ _
      unfold DebugNet.connectWith
      rw [hneeds]
      exact hran
    | true =>
      have hfeature : (connectWith opts).feature = some "connect_transport" := by
        simp [feature, hneeds]
      rw [hfeature]
      show (DebugNet.connectWith name opts).Does _ _
      unfold DebugNet.connectWith
      rw [hneeds]
      exact DebugNet.ran_checkFeature hran _ _
  | disconnect keepRunning => exact hread (fun _ => by simp [Unreadable]) _
  | reset halted => exact hread (fromValue_error DebugOutput.fromValue) _
  | halt => exact DebugNet.ran_checkFeature (hread (fromValue_error DebugOutput.fromValue) _) _ _
  | eraseWith opts => exact hread (fromValue_error EraseReport.fromValue) _
  | eraseRangeWith start size opts =>
    exact DebugNet.ran_checkFeature (hread (fromValue_error EraseReport.fromValue) _) _ _
  | flashBytesWith contents kind address opts =>
    exact ran_flash name contents kind address opts cache (hdropped fun _ => id)
  | flashFile firmware address opts =>
    cases firmware with
    | error err => exact .unsent rfl
    | ok firmware =>
      obtain ⟨contents, kind⟩ := firmware
      exact ran_flash name contents kind address opts cache (hdropped fun _ => id)
  | readMemoryInner address length noReset => exact hread (fun _ => Iff.rfl) _
  | infoInner probe => exact hread (fromValue_error DebugInfo.fromValue) _
  | statusInner probe => exact hread (fromValue_error DebugStatus.fromValue) _
  | rttWith opts => exact ran_rtt name opts cache

end DebugOp

end Lager
