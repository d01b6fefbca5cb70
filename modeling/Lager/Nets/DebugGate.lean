import Lager.Client.Traffic
import Lager.Nets.DebugNet

set_option relaxedAutoImplicit false
set_option autoImplicit false

/-!
# What a debug service must have

An older debug service ignores what it does not know: it erases the whole chip when it is to erase a
range of it. The requests that it would take for others are sent only to a service that has said it
has the feature.

## Main definitions

* `Lager.gate` — the feature that a request needs.
* `Lager.Demands`, `Lager.Grants` — an event is a request that needs a feature, or the answer of a
  service that has it.
* `Lager.Gated` — no request goes to a service that has not said it has the feature.

## Main results

* `Lager.DebugOp.gate_request` — the request of an operation needs the feature that the operation
  asks for.
* `Lager.DebugNet.Ran.granted` — the passes of an operation keep to that.
* `Lager.debugNet_gated` — and so does what goes to the box, with either client.
-/

namespace Lager

open Library Stateful

/-! ## Features -/

/-- The feature that a request needs. -/
def gate (path : String) (body : Value) : Option String :=
  if path = "/debug/erase" ∧ (body.get "erase_start").isSome then some "erase_range"
  else if path = "/debug/halt" then some "halt"
  else if path = "/debug/connect" ∧ (body.get "transport").bind Value.asStr = some "JTAG" then
    some "connect_transport"
  else none

/-- The feature that a pass needs. -/
def Pass.gate : Pass → Option String
  | .executeDebug req | .streamDebug req => req.body.bind (Lager.gate req.path)
  | _ => none

/-- The erasure of a range says where it starts. -/
theorem ops.get_eraseRange (net : Value) (start size : UInt64) (opts : EraseOptions) :
    (eraseRange net start size opts).2.1.get "erase_start" = some (uint start.toNat) := by
  have hsorted : Map.Sorted [("erase_size", uint size.toNat), ("erase_start", uint start.toNat)] :=
    Map.sorted_of_keys ["erase_size", "erase_start"] rfl (by decide)
  show (debugBody net (eraseParams opts _)).get "erase_start" = _
  rw [get_debugBody (sorted_eraseParams opts hsorted)]
  simp [eraseParams, Map.lookup_setSome, Map.lookup_cons]

/-- The erasure of a chip does not. -/
theorem ops.get_erase (net : Value) (opts : EraseOptions) :
    (erase net opts).2.1.get "erase_start" = none := by
  show (debugBody net (eraseParams opts [])).get "erase_start" = _
  rw [get_debugBody (sorted_eraseParams opts Map.sorted_nil)]
  simp [eraseParams, Map.lookup_setSome]

/-- A connection says how the probe is to be used, if that is given. -/
theorem ops.get_connect (net : Value) (opts : ConnectOptions) :
    (connect net opts).2.1.get "transport" = opts.transport.map fun t => .string t.asStr := by
  show (debugBody net (connectParams opts)).get "transport" = _
  rw [get_debugBody (sorted_connectParams opts)]
  simp [connectParams, Map.lookup_setSome, Map.lookup_cons]

/-- The request of an operation needs the feature that the operation asks for. -/
theorem DebugOp.gate_request {op : DebugOp} {net : Value} {req : DebugRequest}
    (h : op.request net = some req) : gate req.1 req.2.1 = op.feature := by
  cases op with
  | connectWith opts =>
    cases h
    obtain ⟨_, _, _, _, _, _, _, _, _, _, transport⟩ := opts
    unfold gate
    rw [ops.get_connect]
    rcases transport with _ | _ | _ <;>
      simp [ops.connect, DebugTransport.asStr, Value.asStr, feature, ops.needsTransportFeature]
  | eraseWith opts =>
    cases h
    unfold gate
    rw [ops.get_erase]
    simp [ops.erase, feature]
  | eraseRangeWith start size opts =>
    cases h
    unfold gate
    rw [ops.get_eraseRange]
    simp [ops.eraseRange, feature]
  | flashFile firmware address opts =>
    cases firmware with
    | error err => cases h
    | ok firmware =>
      cases h
      rfl
  | _ =>
    cases h
    rfl

/-- The pass of an operation needs that feature. -/
theorem DebugOp.gate_pass {op : DebugOp} {net : Value} {p : Pass} (h : op.pass net = some p) :
    p.gate = op.feature := by
  obtain ⟨req, hreq, rfl⟩ := Option.map_eq_some_iff.mp h
  rw [← gate_request hreq]
  cases op <;> rfl

/-! ## The passes of an operation -/

/-- The service has said that it has a feature. -/
def Granted (feature : String) (passes : List PassEvent) : Prop :=
  ∃ body, DebugNet.asked (.ok (200, body)) ∈ passes ∧ Lists feature body

namespace DebugNet

/-- What only prepares an operation needs no feature. -/
theorem Prepares.gate {p : Pass} (h : Prepares p) : p.gate = none := by
  cases h <;> rfl

/-- The checks that passed have had the service say that it has the feature. -/
theorem Passed.granted {feature : String} {checks : List PassEvent}
    (h : Passed (some feature) checks) : Granted feature checks := by
  obtain ⟨body, rfl, hlists⟩ := h
  exact ⟨body, List.mem_cons_self, hlists⟩

variable {op : DebugOp} {cache cache' : Option Value} {Keeps : PassEvent → Prop}
  {passes : List PassEvent} {r : Except Error op.Result}

/-- An operation prepares, and makes its request. -/
theorem Ran.makes (h : Ran op.feature op.pass Keeps cache passes r cache') :
    ∀ e ∈ passes, Prepares e.1 ∨ ∃ net, op.pass net = some e.1 := by
  intro e he
  rcases h.unsent_or_sent with ⟨hprepares, -⟩ |
    ⟨checks, fetched, net, last, hpassed, hhad, hrequest, rfl, -⟩
  · exact .inl (hprepares e he)
  · simp only [List.mem_append, List.mem_singleton] at he
    rcases he with he | he | rfl
    · exact .inl (hpassed.prepares e he)
    · exact .inl (hhad.prepares e he)
    · exact .inr ⟨net, hrequest⟩

/-- A pass that needs a feature is made after the service has said that it has it. -/
theorem Ran.granted (h : Ran op.feature op.pass Keeps cache passes r cache')
    {front back : List PassEvent} {e : PassEvent} {feature : String}
    (hsplit : passes = front ++ e :: back) (hgate : e.1.gate = some feature) :
    Granted feature front := by
  have hnot : ¬ Prepares e.1 := by
    intro hprepares
    simp [hprepares.gate] at hgate
  rcases h.unsent_or_sent with ⟨hprepares, -⟩ |
    ⟨checks, fetched, net, last, hpassed, hhad, hrequest, hpasses, -⟩
  · exact absurd (hprepares e (by simp [hsplit])) hnot
  · obtain ⟨rfl, rfl⟩ := eq_of_not_prepares hpassed hhad (hpasses.symm.trans hsplit) hnot
    rw [← DebugOp.gate_pass hrequest, hgate] at hpassed
    obtain ⟨body, hbody, hlists⟩ := hpassed.granted
    exact ⟨body, List.mem_append_left _ hbody, hlists⟩

/-- An operation that asks for a feature fails unless the service says that it has it. -/
theorem Ran.failed (h : Ran op.feature op.pass Keeps cache passes r cache') {feature : String}
    (hfeature : op.feature = some feature) (hnot : ¬ Granted feature passes) :
    ∃ err, r = .error err := by
  rcases h.unsent_or_sent with ⟨-, hfailed⟩ | ⟨checks, fetched, net, last, hpassed, -, -, rfl, -⟩
  · exact hfailed
  · rw [hfeature] at hpassed
    obtain ⟨body, hbody, hlists⟩ := hpassed.granted
    exact absurd ⟨body, List.mem_append_left _ hbody, hlists⟩ hnot

end DebugNet

/-! ## What goes to the box -/

/-- Where the requests go that need a feature. -/
def gatedPaths : List (String × String) :=
  [("/debug/erase", "erase_range"), ("/debug/halt", "halt"),
    ("/debug/connect", "connect_transport")]

/-- An event is a request to the debug service that needs a feature. On a socket of its own every
request to one of the paths counts. -/
def Demands (client : Client) (feature : String) (e : Event) : Prop :=
  (∃ r path body, e.1 = .request r ∧ r.url = client.debugBase ++ path ∧
    r.body = some (.json body) ∧ gate path body = some feature) ∨
  ∃ r path, e.1 = .exchange r ∧ (path, feature) ∈ gatedPaths ∧
    ("POST " ++ path ++ " ").toList <+: r.text.toList

/-- An event is an answer of the debug service to `/health`, with status 200 and a list of features
that has the feature. -/
def Grants [SerdeJson] (client : Client) (feature : String) (e : Event) : Prop :=
  ∃ r resp bytes body, e = ⟨.request r, .ok resp⟩ ∧ r.method = .get ∧
    r.url = client.debugBase ++ "/health" ∧ resp.status = 200 ∧ resp.body = .ok bytes ∧
      SerdeJson.fromSlice bytes = .ok body ∧ Lists feature body

/-- A call sends no request that needs a feature to a service that has not said it has it. -/
structure Gated [SerdeJson] (client : Client) (op : DebugOp) (events : List Event)
    (r : Except Error op.Result) : Prop where
  own : ∀ e ∈ events, ∀ feature, Demands client feature e → op.feature = some feature
  granted : ∀ front e back feature, events = front ++ e :: back → Demands client feature e →
    ∃ e' ∈ front, Grants client feature e'
  refused : ∀ feature, op.feature = some feature → (∀ e ∈ events, ¬ Grants client feature e) →
    (∃ err, r = .error err) ∧ ∀ e ∈ events, ∀ feature, ¬ Demands client feature e

/-- The request of an operation is a JSON request, or the opening of an RTT stream. -/
theorem DebugOp.kind_of_pass {op : DebugOp} {net : Value} {p : Pass} (h : op.pass net = some p) :
    (∃ req, p = .executeDebug req) ∨ ∃ req, p = .streamDebug req ∧ req.path = "/debug/rtt" := by
  obtain ⟨req, hreq, rfl⟩ := Option.map_eq_some_iff.mp h
  cases op with
  | rttWith opts =>
    cases hreq
    exact .inr ⟨_, rfl, rfl⟩
  | _ => exact .inl ⟨_, rfl⟩

/-- The path of a request ends at the first space. -/
theorem path_before_space {path path' rest : List Char} (h : ' ' ∉ path) (h' : ' ' ∉ path')
    (hfront : path ++ [' '] <+: path' ++ ' ' :: rest) : path = path' := by
  obtain ⟨back, hback⟩ := hfront
  rw [List.append_assoc, List.singleton_append] at hback
  have hcut : cut ' ' (path ++ ' ' :: back) = some (path, back) := cut_append_cons h
  rw [hback, cut_append_cons h'] at hcut
  exact (Prod.mk.inj (Option.some.inj hcut)).1.symm

/-- The opening of an RTT stream goes to none of the paths. -/
theorem not_prefix_streamRequest {path feature authority body : String} {token : Option String}
    (hpath : (path, feature) ∈ gatedPaths) :
    ¬ ("POST " ++ path ++ " ").toList <+:
      (AsyncLagerBox.streamRequest authority "/debug/rtt" body token).toList := by
  intro hprefix
  have hspace : ∀ p ∈ gatedPaths, ' ' ∉ p.1.toList := by decide
  have hrtt : ∀ p ∈ gatedPaths, p.1.toList ≠ "/debug/rtt".toList := by decide
  delta AsyncLagerBox.streamRequest at hprefix
  simp only [String.toList_append, List.append_assoc] at hprefix
  have hbehind := (List.prefix_append_right_inj _).mp hprefix
  exact hrtt _ hpath (path_before_space (hspace _ hpath) (by decide) hbehind)

/-- Something that needs a feature is a request to the box. -/
theorem bearer_of_demands {client : Client} {feature : String} {e : Event}
    (h : Demands client feature e) : e.bearer ≠ none := by
  obtain ⟨op, answer⟩ := e
  rcases h with ⟨r, path, body, rfl, -⟩ | ⟨r, path, rfl, -⟩
  · simp [Event.bearer]
  · simp [Event.bearer]

/-- A JSON request that needs a feature is for a request with the same path and body. -/
theorem gate_of_asks {client : Client} {req : HttpRequest} {feature : String} {e : Event}
    (hdemands : Demands client feature e) (hasks : Asks client.debugBase req e) :
    req.body.bind (gate req.path) = some feature := by
  obtain ⟨r, hr, -, hurl, hbody⟩ := hasks
  rcases hdemands with ⟨r', path, body, hr', hurl', hbody', hgate⟩ | ⟨r', path, hr', -⟩
  · obtain rfl := Op.request.inj (hr.symm.trans hr')
    obtain rfl := (String.append_right_inj _).mp (hurl.symm.trans hurl')
    rw [hbody'] at hbody
    rcases hbody with hnone | hsome
    · cases hnone
    · obtain ⟨body', hreq, hjson⟩ := Option.map_eq_some_iff.mp hsome.symm
      obtain rfl := Payload.json.inj hjson
      rw [hreq]
      exact hgate
  · cases hr.symm.trans hr'

/-- A request that needs a feature is sent only in a pass that does. -/
theorem gate_of_demands [SerdeJson] {client : Client} {op : DebugOp} {p : PassEvent}
    (hp : DebugNet.Prepares p.1 ∨ ∃ net, op.pass net = some p.1) {events : List Event}
    (hdid : Did client p events) {e : Event} (he : e ∈ events) {feature : String}
    (hdemands : Demands client feature e) : p.1.gate = some feature := by
  have hsends : ∀ {Sends : Event → Prop}, OnlySends Sends events → Sends e := by
    intro Sends honly
    exact (honly e he).resolve_left (bearer_of_demands hdemands)
  obtain ⟨p, answer⟩ := p
  dsimp only at hp
  rcases hp with hprepares | ⟨net, hpass⟩
  · cases hprepares with
    | health => exact gate_of_asks hdemands (hsends hdid.1)
    | nets path =>
      obtain ⟨r, hr, -, -, hbody⟩ := hsends hdid.1
      rcases hdemands with ⟨r', path', body, hr', -, hbody', -⟩ | ⟨r', path', hr', -⟩
      · obtain rfl := Op.request.inj (hr.symm.trans hr')
        rw [hbody'] at hbody
        rcases hbody with hnone | hnone
        · cases hnone
        · cases hnone
      · cases hr.symm.trans hr'
  · rcases DebugOp.kind_of_pass hpass with ⟨req, rfl⟩ | ⟨req, rfl, hpath⟩
    · exact gate_of_asks hdemands (hsends hdid.1)
    · rcases hsends hdid with hasks | ⟨r, authority, body, hr, htext⟩
      · have hgate := gate_of_asks hdemands hasks
        exact hgate
      · rcases hdemands with ⟨r', path, body', hr', -⟩ | ⟨r', path, hr', hmem, hprefix⟩
        · cases hr.symm.trans hr'
        · obtain rfl := Op.exchange.inj (hr.symm.trans hr')
          rw [htext, hpath] at hprefix
          exact absurd hprefix (not_prefix_streamRequest hmem)

/-- What the service has said in a pass is in its answer. -/
theorem exists_grants [SerdeJson] {client : Client} {feature : String} {passes : List PassEvent}
    {parts : List (List Event)} (h : List.Forall₂ (Did client) passes parts)
    (hgranted : Granted feature passes) : ∃ e ∈ parts.flatten, Grants client feature e := by
  obtain ⟨body, hbody, hlists⟩ := hgranted
  obtain ⟨part, hdid, hmem⟩ := exists_part_of_mem h hbody
  obtain ⟨e, he, ⟨r, hr, hmethod, hurl, -⟩, r', resp, rfl, hstatus, hread⟩ :=
    hdid.2 (200, body) rfl
  obtain rfl := Op.request.inj hr
  obtain ⟨bytes, hbytes, hjson⟩ := hread (by omega)
  exact ⟨_, hmem _ he, r', resp, bytes, body, rfl, hmethod, hurl, hstatus, hbytes, hjson, hlists⟩

/-- **Features.** For every operation of a debug net with any arguments, whatever is in the cache,
with either client, and whatever the box and its debug service answer: the erasure of a range, a
halt or a connection over JTAG is sent only after the service has answered `/health` in the same
call with status 200 and a list of features that has the one it needs. Otherwise the call fails, and
nothing of that kind is sent.

**Proof sketch.** A request that needs a feature belongs to a pass that does. Before such a pass
there is one in which the service has listed the feature, and so the answer to it is before the
request. -/
theorem debugNet_gated [SerdeJson] [SerdeInt] (t : Transport) (client : Client) (name : String)
    (op : DebugOp) (cache : Option Value) (s : GatewayAuth.State) :
    Always ((t.carryOut client ((op.run name).run.run cache)).run s) fun events r =>
      Gated client op events r.1.1 := by
  refine (t.carryOut_did client ((op.run name).run.run cache) s).mono ?_
  rintro events r ⟨passes, parts, hrun, hparts, rfl⟩
  have hran := does_iff_run.mp (op.run_spec name cache) passes r.1.1 r.1.2 hrun
  have hdemands : ∀ front e back feature, parts.flatten = front ++ e :: back →
      Demands client feature e → op.feature = some feature ∧
        ∃ e' ∈ front, Grants client feature e' := by
    intro front e back feature hsplit hdemands
    obtain ⟨earlier, p, later, partsBefore, before, after, rfl, hbefore, hdid, rfl⟩ :=
      split_flatten hparts hsplit
    have hgate := gate_of_demands (hran.makes p (by simp)) hdid (by simp) hdemands
    obtain ⟨e', he', hgrants⟩ := exists_grants hbefore (hran.granted rfl hgate)
    refine ⟨?_, e', List.mem_append_left _ he', hgrants⟩
    rcases hran.makes p (by simp) with hprepares | ⟨net, hpass⟩
    · simp [hprepares.gate] at hgate
    · rw [← DebugOp.gate_pass hpass, hgate]
  refine ⟨?_, ?_, ?_⟩
  · intro e he feature hneeds
    obtain ⟨front, back, hsplit⟩ := List.append_of_mem he
    exact (hdemands front e back feature hsplit hneeds).1
  · intro front e back feature hsplit hneeds
    exact (hdemands front e back feature hsplit hneeds).2
  · intro feature hfeature hnot
    constructor
    · refine hran.failed hfeature fun hgranted => ?_
      obtain ⟨e, he, hgrants⟩ := exists_grants hparts hgranted
      exact hnot e he hgrants
    · intro e he feature' hneeds
      obtain ⟨front, back, hsplit⟩ := List.append_of_mem he
      obtain ⟨hown, e', he', hgrants⟩ := hdemands front e back feature' hsplit hneeds
      obtain rfl := Option.some.inj (hown.symm.trans hfeature)
      exact hnot e' (by simp [hsplit, he']) hgrants

end Lager
