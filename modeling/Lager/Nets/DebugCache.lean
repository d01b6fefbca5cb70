import Lager.Nets.DebugNet

set_option relaxedAutoImplicit false
set_option autoImplicit false

/-!
# The cached record of a debug net

The record in the cache of a handle may be out of date: a net can be saved again while the handle
lives. An operation that fails with it is to drop it, so that the next one asks the box. All but two
kinds of failures do that.

## Main definitions

* `Lager.DebugStep`, `Lager.History` — operations on a handle and its clones, one at a time.
* `Lager.DebugStep.Invalidates` — an operation that fails with its record drops it.
* `Lager.DebugStep.Rereads` — an operation asks the box for its record.

## Main results

* `Lager.DebugStep.invalidates_iff` — an operation invalidates the cache unless its answer is one
  after which it keeps the record.
* `Lager.cache_invalidated_iff` — the same along a history, and what the next operation does.
-/

namespace Lager

open Library Stateful

/-! ## Histories -/

/-- The record in a request to the debug service. -/
def Pass.record : Pass → Option Value
  | .executeDebug req | .streamDebug req => req.body.bind (Value.get "net")
  | _ => none

/-- An operation on a handle: the cache before it, what it did, what it returned, and the cache it
left. -/
structure DebugStep where
  op : DebugOp
  before : Option Value
  events : List PassEvent
  result : Except Error op.Result
  after : Option Value

namespace DebugStep

/-- The operation did that. -/
def Runs [SerdeJson] [SerdeInt] (name : String) (s : DebugStep) : Prop :=
  Run (((s.op.run name).run).run s.before) s.events (s.result, s.after)

/-- The operation used its record in a request to the debug service. -/
def Used (s : DebugStep) : Prop := ∃ e ∈ s.events, e.1.record.isSome

/-- The operation failed. -/
def Failed (s : DebugStep) : Prop := ∃ err, s.result = .error err

/-- An operation that used its record and failed has emptied the cache. -/
def Invalidates (s : DebugStep) : Prop := s.Used → s.Failed → s.after = none

/-- The operation asks the box for the record before it uses one. -/
def Rereads (s : DebugStep) : Prop :=
  ∀ front e back, s.events = front ++ e :: back → e.1.record.isSome →
    ∃ answer : Except Error (ℕ × Value), ⟨.execute (get "/nets/list"), answer⟩ ∈ front

/-- The operation got an answer after which it fails and keeps its record. -/
def KeepsRecord [SerdeInt] (s : DebugStep) : Prop :=
  ∃ e ∈ s.events, e.1.record.isSome ∧ s.op.Keeps e

end DebugStep

/-- Operations on a handle and its clones, one at a time. The cache is shared, so each one finds it
as the one before has left it. -/
inductive History [SerdeJson] [SerdeInt] (name : String) : Option Value → List DebugStep → Prop
  | nil (cache : Option Value) : History name cache []
  | cons {cache : Option Value} {s : DebugStep} {steps : List DebugStep} (before : s.before = cache)
      (runs : s.Runs name) (rest : History name s.after steps) : History name cache (s :: steps)

/-! ## One operation -/

/-- What only prepares an operation carries no record. -/
theorem DebugNet.Prepares.record {p : Pass} (h : Prepares p) : p.record = none := by
  cases h <;> rfl

/-- What carries the record does more than prepare an operation. -/
theorem Pass.not_prepares {p : Pass} (h : p.record.isSome = true) : ¬ DebugNet.Prepares p := by
  intro hprepares
  simp [hprepares.record] at h

/-- The request of an operation carries its record. -/
theorem DebugOp.record_pass {op : DebugOp} {net : Value} {p : Pass} (h : op.pass net = some p) :
    p.record.isSome = true := by
  obtain ⟨req, hreq, rfl⟩ := Option.map_eq_some_iff.mp h
  obtain ⟨extra, hsorted, hbody⟩ := request_body hreq
  have hget : (req.2.1.get "net").isSome = true := by
    rw [hbody, get_debugBody hsorted]
    cases extra.lookup "net" <;> rfl
  cases op <;> exact hget

namespace DebugStep

variable [SerdeJson] [SerdeInt] {name : String} {s : DebugStep}

/-- What an operation did is one of the runs of an operation. -/
theorem Runs.ran (h : s.Runs name) :
    DebugNet.Ran s.op.feature s.op.pass s.op.Keeps s.before s.events s.result s.after :=
  does_iff_run.mp (s.op.run_spec name s.before) _ _ _ h

/-- **Invalidation.** An operation that fails with its record empties the cache, unless its answer
is one after which it keeps the record.

**Proof sketch.** Only the last event can carry the record. When the operation drops the record
there, the answer is none of those; when it keeps it, it fails exactly after those. -/
theorem invalidates_iff (h : s.Runs name) : s.Invalidates ↔ ¬ s.KeepsRecord := by
  rcases h.ran.unsent_or_sent with ⟨hprepares, -⟩ |
    ⟨checks, fetched, net, last, hpassed, hhad, hrequest, hevents, hend⟩
  · refine iff_of_true ?_ ?_
    · rintro ⟨e, he, hrecord⟩
      exact absurd (hprepares e he) (Pass.not_prepares hrecord)
    · rintro ⟨e, he, hrecord, -⟩
      exact Pass.not_prepares hrecord (hprepares e he)
  · have hlast : last ∈ s.events := by simp [hevents]
    have hrecord := DebugOp.record_pass hrequest
    have honly : ∀ e ∈ s.events, e.1.record.isSome → e = last := by
      intro e he hsome
      obtain ⟨front, back, hsplit⟩ := List.append_of_mem he
      exact (DebugNet.eq_of_not_prepares hpassed hhad (hevents.symm.trans hsplit)
        (Pass.not_prepares hsome)).2
    rcases hend with ⟨-, hafter, hkeeps⟩ | ⟨hkeeps, hafter⟩
    · refine iff_of_true (fun _ _ => hafter) ?_
      rintro ⟨e, he, hsome, hkeep⟩
      rw [honly e he hsome] at hkeep
      exact hkeeps hkeep
    · constructor
      · rintro hinvalidates ⟨e, he, hsome, hkeep⟩
        rw [honly e he hsome] at hkeep
        have hempty := hinvalidates ⟨last, hlast, hrecord⟩ (hkeeps.mpr hkeep)
        cases hafter.symm.trans hempty
      · intro hnot _ hfailed
        exact absurd ⟨last, hlast, hrecord, hkeeps.mp hfailed⟩ hnot

/-- An operation that finds the cache empty asks the box for its record. -/
theorem rereads_of_empty (h : s.Runs name) (hempty : s.before = none) : s.Rereads := by
  intro front e back hsplit hrecord
  rcases h.ran.unsent_or_sent with ⟨hprepares, -⟩ |
    ⟨checks, fetched, net, last, hpassed, hhad, -, hevents, -⟩
  · exact absurd (hprepares e (by simp [hsplit])) (Pass.not_prepares hrecord)
  · obtain ⟨rfl, -⟩ := DebugNet.eq_of_not_prepares hpassed hhad (hevents.symm.trans hsplit)
      (Pass.not_prepares hrecord)
    rcases hhad with ⟨hcache, -⟩ | ⟨-, answer, rest, rfl, -⟩
    · cases hempty.symm.trans hcache
    · exact ⟨answer, by simp⟩

end DebugStep

/-! ## Histories -/

section

variable [SerdeJson] [SerdeInt] {name : String} {cache : Option Value} {steps : List DebugStep}

/-- Every step of a history is a run of its operation. -/
theorem History.runs (h : History name cache steps) : ∀ s ∈ steps, s.Runs name := by
  induction h with
  | nil cache => exact List.forall_mem_nil _
  | cons _ hruns _ ih => exact List.forall_mem_cons.mpr ⟨hruns, ih⟩

/-- A step finds the cache as the one before has left it. -/
theorem History.before_eq (h : History name cache steps) {front back : List DebugStep}
    {s next : DebugStep} (hsteps : steps = front ++ s :: next :: back) : next.before = s.after := by
  induction h generalizing front with
  | nil cache => simp at hsteps
  | cons _ _ hrest ih =>
    cases front with
    | nil =>
      obtain ⟨rfl, rfl⟩ := List.cons.inj hsteps
      cases hrest with
      | cons hbefore => exact hbefore
    | cons first front => exact ih (List.cons.inj hsteps).2

end

/-- In a history, an operation that used its record and failed leaves an empty cache, and the next
one asks the box before it uses a record. -/
def CacheInvalidated (steps : List DebugStep) : Prop :=
  (∀ s ∈ steps, s.Invalidates) ∧
    ∀ front s next back, steps = front ++ s :: next :: back → s.Used → s.Failed → next.Rereads

/-- **The cache along a history.** Take any operations on a handle and its clones, one at a time,
whatever the box and its debug service answer. The cache is invalidated by those that fail exactly
when none of them got an answer after which it fails and keeps the record: a success that it cannot
read, unless it is a flash, or an RTT stream that could not be opened.

**Proof sketch.** Each operation by itself invalidates the cache or keeps its record. One that finds
the cache empty asks the box. -/
theorem cache_invalidated_iff [SerdeJson] [SerdeInt] {name : String} {cache : Option Value}
    {steps : List DebugStep} (h : History name cache steps) :
    CacheInvalidated steps ↔ ∀ s ∈ steps, ¬ s.KeepsRecord := by
  constructor
  · rintro ⟨hinvalidates, -⟩ s hs
    exact (DebugStep.invalidates_iff (h.runs s hs)).mp (hinvalidates s hs)
  · intro hnot
    have hinvalidates : ∀ s ∈ steps, s.Invalidates := by
      intro s hs
      exact (DebugStep.invalidates_iff (h.runs s hs)).mpr (hnot s hs)
    refine ⟨hinvalidates, fun front s next back hsteps hused hfailed => ?_⟩
    have hs : s ∈ steps := by simp [hsteps]
    have hnext : next ∈ steps := by simp [hsteps]
    have hempty := hinvalidates s hs hused hfailed
    exact DebugStep.rereads_of_empty (h.runs next hnext) ((h.before_eq hsteps).trans hempty)

/-- The library reads the naturals below `2^64`. -/
@[reducible] def SerdeInt.exact : SerdeInt where
  u64
    | .number n => if n.den = 1 ∧ 0 ≤ n.num ∧ n.num < 2 ^ 64 then some n.num.toNat else none
    | _ => none

/-- The record of a debug net. -/
def probeRecord : Value := .object [("name", .string "debug1"), ("role", .string "debug")]

/-- The box lists it. -/
def listed : PassEvent := ⟨.execute (get "/nets/list"), .ok (200, .array [probeRecord])⟩

/-- The record is read from that box. -/
theorem run_netRecord : Run ((DebugNet.netRecord "debug1").run.run none) [listed]
    (.ok probeRecord, some probeRecord) := by
  have hexecute : Run (Routine.execute (get "/nets/list")) [listed]
      (.ok (200, .array [probeRecord])) :=
    @run_perform Pass Pass.Ans (.execute (get "/nets/list")) (Except.ok (200, .array [probeRecord]))
  have hget : Run (Routine.getJson "/nets/list") [listed] (.ok (.array [probeRecord])) :=
    hexecute.bind_quiet (.pure _)
  have hraw : Run netsRaw [listed] (.ok [probeRecord]) := hget.bind_quiet (.pure _)
  have hfind : findDebugRecord "debug1" false [probeRecord] = .ok probeRecord := by
    simp [findDebugRecord, probeRecord, Value.get, Value.asStr, List.lookup_cons]
  have hrecord : Run (debugNetRecord "debug1") [listed] (.ok probeRecord) := by
    rw [← hfind]
    exact hraw.bind_quiet (.pure _)
  have hread : Run (debugNetRecord "debug1" >>= fun r => pure (r, (none : Option Value))) [listed]
      (.ok probeRecord, none) := hrecord.bind_quiet (.pure _)
  exact hread.bind_quiet (.pure _)

/-- A disconnect that the debug service does not answer. -/
def unansweredDisconnect : DebugStep where
  op := .disconnect false
  before := none
  events := [listed, DebugNet.called (DebugNet.toHttp (ops.disconnect probeRecord false))
    (.error (.timeout (.text "timed out")))]
  result := .error (.timeout (.text "timed out"))
  after := none

/-- It is a history of a handle. -/
theorem history_unansweredDisconnect [SerdeJson] [SerdeInt] :
    History "debug1" none [unansweredDisconnect] := by
  have hcall : Run (Routine.executeDebug (DebugNet.toHttp (ops.disconnect probeRecord false)))
      [DebugNet.called (DebugNet.toHttp (ops.disconnect probeRecord false))
        (.error (.timeout (.text "timed out")))] (.error (.timeout (.text "timed out"))) :=
    @run_perform Pass Pass.Ans (.executeDebug _) (Except.error (.timeout (.text "timed out")))
  have hruns : unansweredDisconnect.Runs "debug1" :=
    run_netRecord.bind ((hcall.bind_quiet (.pure _) : Run _ _ _).bind_quiet (.pure _))
  exact .cons rfl hruns (.nil none)

/-- The cache is invalidated by it. -/
theorem cache_invalidated_disconnect : CacheInvalidated [unansweredDisconnect] := by
  let _ := SerdeJson.only [110, 117, 108, 108] .null
  let _ := SerdeInt.exact
  refine (cache_invalidated_iff history_unansweredDisconnect).mpr fun s hs => ?_
  obtain rfl := List.mem_singleton.mp hs
  rintro ⟨e, he, -, hkeeps⟩
  rcases List.mem_cons.mp he with rfl | he
  · exact hkeeps
  · rw [List.mem_singleton.mp he] at hkeeps
    exact hkeeps

/-- An RTT stream that the debug service refuses to open. -/
def refusedRtt : DebugStep where
  op := .rttWith ⟨0, none, none, none, none⟩
  before := none
  events := [listed, ⟨.streamDebug (DebugNet.toHttp ("/debug/rtt",
    ops.rttBody probeRecord ⟨0, none, none, none, none⟩, .unbounded)),
      .error (.box 404 (.text "probe not found"))⟩]
  result := .error (.box 404 (.text "probe not found"))
  after := some probeRecord

/-- The record stays in the cache when the debug service refuses to open an RTT stream. -/
theorem cache_kept_rtt :
    letI := SerdeJson.only [110, 117, 108, 108] .null
    letI := SerdeInt.exact
    ¬ ∀ name steps, History name none steps → CacheInvalidated steps := by
  let _ := SerdeJson.only [110, 117, 108, 108] .null
  let _ := SerdeInt.exact
  intro hall
  have hstream : Run (Routine.streamDebug _) [⟨.streamDebug (DebugNet.toHttp ("/debug/rtt",
      ops.rttBody probeRecord ⟨0, none, none, none, none⟩, .unbounded)),
        .error (.box 404 (.text "probe not found"))⟩]
      (.error (.box 404 (.text "probe not found"))) :=
    @run_perform Pass Pass.Ans (.streamDebug _) (Except.error (.box 404 (.text "probe not found")))
  have hruns : refusedRtt.Runs "debug1" := run_netRecord.bind (hstream.bind_quiet (.pure _))
  have hinvalidated := hall "debug1" [refusedRtt] (.cons rfl hruns (.nil _))
  have hused : refusedRtt.Used := by
    refine ⟨_, List.mem_cons_of_mem _ List.mem_cons_self, ?_⟩
    exact @DebugOp.record_pass refusedRtt.op probeRecord _ rfl
  cases hinvalidated.1 refusedRtt List.mem_cons_self hused ⟨_, rfl⟩

end Lager
