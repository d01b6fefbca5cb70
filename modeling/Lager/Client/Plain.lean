import Lager.Client.Runs

set_option relaxedAutoImplicit false
set_option autoImplicit false

/-!
# Plain boxes

A box without a gateway never sends a denial. A client without a pinned token whose store has no
auth server for the box then does the same whatever else the store holds: no session in it reaches
the box, and the store is not written.

## Main definitions

* `Lager.Answer`, `Lager.Event.answer` — what the box answers.

## Main results

* `Lager.plain_boxes_unaffected` — two runs with the same answers from two stores without an auth
  server for the box.
-/

namespace Lager

open Library GatewayAuth

/-! ## Answers -/

/-- An answer of the box: to a request through the HTTP library, or on a socket of its own. -/
inductive Answer
  | response (answer : Except Failure Response)
  | onSocket (answer : HeadAnswer)

/-- The answer of the box in an event, if it is a request to the box. -/
def Event.answer : Event → Option Answer
  | ⟨.request _, answer⟩ => some (.response answer)
  | ⟨.exchange _, answer⟩ => some (.onSocket answer)
  | _ => none

/-- The status and the auth server of a gateway denial. -/
def Answer.denial : Answer → Option (ℕ × String)
  | .response (.ok resp) => (gatewayDenial resp).map fun url => (resp.status, url)
  | .onSocket (.head head _) => head.denial.map fun url => (head.status, url)
  | _ => none

/-- Whether an event is a denial is in the answer of the box. -/
theorem denial_eq_answer (e : Event) : e.denial = e.answer.bind Answer.denial := by
  obtain ⟨op, ans⟩ := e
  cases op with
  | request r => cases ans <;> rfl
  | exchange r => cases ans <;> rfl
  | _ => rfl

/-- Where no answer is a denial, no event is. -/
theorem denial_of_answers {events : List Event}
    (h : ∀ a ∈ events.filterMap Event.answer, a.denial = none) : ∀ e ∈ events, e.denial = none := by
  intro e he
  rw [denial_eq_answer]
  rcases ha : e.answer with _ | a
  · rfl
  · exact h a (List.mem_filterMap.mpr ⟨e, he, ha⟩)

/-- The requests to the box are the events with an answer of the box. -/
theorem isSome_answer {e : Event} {token : Option String} (h : e.bearer = some token) :
    e.answer.isSome = true := by
  obtain ⟨op, ans⟩ := e
  cases op <;> first | rfl | cases h

/-- An event is determined by its operation and the answer of the box. -/
theorem answer_inj (o : Op) (a b : o.Ans) (k : Answer) (ha : Event.answer ⟨o, a⟩ = some k)
    (hb : Event.answer ⟨o, b⟩ = some k) : a = b := by
  cases o <;> cases ha <;> cases hb <;> rfl

/-! ## Calls without a token -/

section

variable [SerdeJson] {t : Transport} {client : Client} {s : GatewayAuth.State} {events : List Event}

/-- A pass of a client that knows nothing, to a box that does not deny it, sends its request without
a token and does nothing else. -/
theorem PassRun.plain {α : Type} {auth : GatewayAuth} {accepts : ℕ → Bool} {lost : Event → Bool}
    {learnsAgain : Bool} {r : Except Error α} (hpinned : auth.staticToken = none)
    (h : PassRun auth accepts lost learnsAgain ⟨none, none⟩ events r s)
    (hdenial : ∀ e ∈ events, e.denial = none) :
    (∀ e ∈ events, e.bearer = some none) ∧ s = ⟨none, none⟩ := by
  cases h with
  | unsent now herr =>
    obtain ⟨rfl, -, rfl⟩ := now.plain hpinned rfl
    exact ⟨List.forall_mem_nil _, rfl⟩
  | settled now bearer settles =>
    obtain ⟨rfl, rfl, rfl⟩ := now.plain hpinned rfl
    exact ⟨by simpa using bearer, rfl⟩
  | refused now bearer denial kept learns tries =>
    rw [hdenial _ (by simp)] at denial
    cases denial
  | settledAgain now bearer denial kept learns tries bearer' settles =>
    rw [hdenial _ (by simp)] at denial
    cases denial
  | refusedAgain now bearer denial kept learns tries bearer' denial' kept' learns' =>
    rw [hdenial _ (by simp)] at denial
    cases denial

/-- A call of a client that knows nothing, to a box that does not deny it, sends its requests
without a token and does nothing else. -/
theorem CallRun.plain {c : ClientCall} (hpinned : client.auth.staticToken = none)
    (h : CallRun t client ⟨none, none⟩ c events s) (hdenial : ∀ e ∈ events, e.denial = none) :
    (∀ e ∈ events, e.bearer = some none) ∧ s = ⟨none, none⟩ := by
  cases h with
  | pass run => exact run.plain hpinned hdenial
  | currentToken now =>
    obtain ⟨rfl, -, rfl⟩ := now.plain hpinned rfl
    exact ⟨List.forall_mem_nil _, rfl⟩
  | bearerKnown now =>
    obtain ⟨rfl, -, rfl⟩ := now.plain hpinned rfl
    exact ⟨List.forall_mem_nil _, rfl⟩
  | bearerFailed now unknown run =>
    obtain ⟨rfl, -, rfl⟩ := now.plain hpinned rfl
    exact run.plain hpinned hdenial
  | bearerAnswered now unknown run again =>
    obtain ⟨rfl, -, rfl⟩ := now.plain hpinned rfl
    obtain ⟨hbearer, rfl⟩ := run.plain hpinned fun e he => hdenial e (by simp [he])
    obtain ⟨rfl, -, rfl⟩ := again.plain hpinned rfl
    exact ⟨by simpa using hbearer, rfl⟩

/-! ## Runs without a token -/

/-- A run of a client that knows nothing, with a box that does not deny it. -/
theorem Transport.Runs.plain {history : List Step} (hpinned : client.auth.staticToken = none)
    (h : t.Runs client ⟨none, none⟩ history s)
    (hdenial : ∀ e ∈ trace history, e.denial = none) :
    ∀ e ∈ trace history, e.bearer = some none := by
  generalize hs : (⟨none, none⟩ : GatewayAuth.State) = start at h
  induction h with
  | nil start => exact List.forall_mem_nil _
  | @cons start s' s'' c events history call rest ih =>
    subst hs
    rw [trace_cons] at hdenial ⊢
    obtain ⟨hcall, hrest⟩ := List.forall_mem_append.mp hdenial
    have hrun := always_iff_run.mp (t.call_spec client c ⟨none, none⟩) events ((), s') call
    obtain ⟨hbearer, hs'⟩ := hrun.plain hpinned hcall
    exact List.forall_mem_append.mpr ⟨hbearer, ih hrest hs'.symm⟩

/-- Two runs of the same calls with the same answers, by a client that knows nothing and is not
denied, are the same.

**Proof sketch.** By induction on the first run. A call performs nothing but requests, so it is
determined by the answers, and it leaves the client as it was. -/
theorem Transport.Runs.same {history history' : List Step} {s' : GatewayAuth.State}
    (hpinned : client.auth.staticToken = none)
    (h : t.Runs client ⟨none, none⟩ history s) (h' : t.Runs client ⟨none, none⟩ history' s')
    (hcalls : history.map Step.call = history'.map Step.call)
    (hanswers : (trace history).filterMap Event.answer = (trace history').filterMap Event.answer)
    (hdenial : ∀ e ∈ trace history, e.denial = none)
    (hdenial' : ∀ e ∈ trace history', e.denial = none) : trace history = trace history' := by
  generalize hs : (⟨none, none⟩ : GatewayAuth.State) = start at h
  induction h generalizing history' with
  | nil start =>
    rw [List.map_nil, eq_comm, List.map_eq_nil_iff] at hcalls
    rw [hcalls]
  | @cons start s₁ s₂ c events history call rest ih =>
    subst hs
    cases h' with
    | nil => cases hcalls
    | @cons _ s₁' _ c' events' history' call' rest' =>
      obtain ⟨rfl, hlaterCalls⟩ := List.cons.inj hcalls
      simp only [trace_cons, List.filterMap_append] at *
      obtain ⟨hcall, hrest⟩ := List.forall_mem_append.mp hdenial
      obtain ⟨hcall', hrest'⟩ := List.forall_mem_append.mp hdenial'
      have hspec := always_iff_run.mp (t.call_spec client c ⟨none, none⟩)
      obtain ⟨hbearer, hs₁⟩ := (hspec events ((), s₁) call).plain hpinned hcall
      obtain ⟨hbearer', hs₁'⟩ := (hspec events' ((), s₁') call').plain hpinned hcall'
      dsimp only at hs₁ hs₁'
      subst hs₁ hs₁'
      obtain ⟨rfl, -, hlater⟩ := call.determined answer_inj call'
        (fun e he => isSome_answer (hbearer e he)) (fun e he => isSome_answer (hbearer' e he))
        hanswers
      rw [ih rest' hlaterCalls hlater hrest hrest' rfl]

end

/-! ## Two runs -/

section

variable [SerdeJson] {t : Transport} {base debugBase : String} {timeout : ℕ}
  {builderToken env : Option String} {store store' : Value} {built : List Event}
  {history : List Step}

/-- Building a client and a run of it, with a store that nobody else writes: the events of the
building and of the run, and what the store holds before and after. -/
inductive OwnRun (t : Transport) (base debugBase : String) (timeout : ℕ)
    (builderToken env : Option String) : Value → List Event → List Step → Value → Prop
  | intro {store store' : Value} {built : List Event} {auth : GatewayAuth}
      {s₀ s : GatewayAuth.State}
      {history : List Step} (new : Run (GatewayAuth.new base builderToken env) built (auth, s₀))
      (runs : t.Runs ⟨base, debugBase, timeout, auth⟩ s₀ history s)
      (stored : StoreRun store (built ++ trace history) store') :
      OwnRun t base debugBase timeout builderToken env store built history store'

/-- A client built without a pinned token from a store without an auth server for its box knows
nothing. -/
theorem OwnRun.start
    (h : OwnRun t base debugBase timeout builderToken env store built history store')
    (hpinned : (builderToken.or env).filter (fun token => trim token.toList ≠ []) = none)
    (hunknown : boxAuthUrl (hostOf base) store = none) :
    built = [⟨.loadStore, store⟩] ∧ StoreRun store (trace history) store' ∧
      ∃ s, t.Runs ⟨base, debugBase, timeout, ⟨hostOf base, none⟩⟩ ⟨none, none⟩ history s := by
  obtain ⟨new, runs, stored⟩ := h
  obtain ⟨loaded, rfl, hbuilt⟩ :=
    always_iff_run.mp (GatewayAuth.new_spec base builderToken env) _ _ new
  obtain ⟨rfl, stored⟩ := stored.of_load
  obtain ⟨rfl, rfl⟩ := Prod.mk.inj hbuilt
  rw [hunknown] at runs
  simp only [ne_eq, decide_not] at hpinned runs
  rw [hpinned] at runs
  exact ⟨rfl, stored, _, runs⟩

/-- **Plain boxes are unaffected.** Build a client without a pinned token twice, with two stores
that have no auth server for its box and are otherwise arbitrary, and make the same calls. If the
box gives the same answers, none of them a denial, the requests are the same; none carries a token,
no auth server is asked for anything, and each store is left as it was.

**Proof sketch.** Both clients start out knowing nothing, and a client that knows nothing and is not
denied only sends its requests. Hence the two runs are the same, and neither writes. -/
theorem plain_boxes_unaffected {store₁ store₂ store₁' store₂' : Value} {built₁ built₂ : List Event}
    {history₁ history₂ : List Step}
    (hpinned : (builderToken.or env).filter (fun token => trim token.toList ≠ []) = none)
    (hunknown₁ : boxAuthUrl (hostOf base) store₁ = none)
    (hunknown₂ : boxAuthUrl (hostOf base) store₂ = none)
    (h₁ : OwnRun t base debugBase timeout builderToken env store₁ built₁ history₁ store₁')
    (h₂ : OwnRun t base debugBase timeout builderToken env store₂ built₂ history₂ store₂')
    (hcalls : history₁.map Step.call = history₂.map Step.call)
    (hanswers : (trace history₁).filterMap Event.answer = (trace history₂).filterMap Event.answer)
    (hplain : ∀ a ∈ (trace history₁).filterMap Event.answer, a.denial = none) :
    (sent (trace history₁)).map Sigma.fst = (sent (trace history₂)).map Sigma.fst ∧
      (∀ e ∈ (built₁ ++ trace history₁) ++ (built₂ ++ trace history₂),
        (∀ token, e.bearer = some token → token = none) ∧
          ∀ authUrl cookies, e.1 ≠ .refresh authUrl cookies) ∧
      store₁' = store₁ ∧ store₂' = store₂ := by
  obtain ⟨rfl, hstore₁, s₁, hruns₁⟩ := h₁.start hpinned hunknown₁
  obtain ⟨rfl, hstore₂, s₂, hruns₂⟩ := h₂.start hpinned hunknown₂
  have hdenial₁ := denial_of_answers hplain
  rw [hanswers] at hplain
  have hdenial₂ := denial_of_answers hplain
  have hbearer₁ := hruns₁.plain rfl hdenial₁
  have hbearer₂ := hruns₂.plain rfl hdenial₂
  have hsame := hruns₁.same rfl hruns₂ hcalls hanswers hdenial₁ hdenial₂
  refine ⟨by rw [hsame], fun e he => ?_, ?_, ?_⟩
  · have hrequest : ∀ e : Event, e.bearer = some none →
        (∀ token, e.bearer = some token → token = none) ∧
          ∀ authUrl cookies, e.1 ≠ .refresh authUrl cookies := fun e h =>
      ⟨fun token htoken => Option.some.inj (htoken.symm.trans h), Event.ne_refresh_of_bearer h⟩
    simp only [List.mem_append, List.mem_singleton] at he
    rcases he with (rfl | he) | (rfl | he)
    · exact ⟨nofun, nofun⟩
    · exact hrequest e (hbearer₁ e he)
    · exact ⟨nofun, nofun⟩
    · exact hrequest e (hbearer₂ e he)
  · exact hstore₁.unchanged fun e he => Event.ne_saveStore_of_bearer (hbearer₁ e he)
  · exact hstore₂.unchanged fun e he => Event.ne_saveStore_of_bearer (hbearer₂ e he)

end

/-- A store that holds a session of an auth server, and no auth server for any box. -/
def sessionStore : Value :=
  .object [("authServers", .object [("http://a", .object [("accessToken", .string "t")])])]

/-- A client asks for the health of a plain box, once with an empty store and once with a store that
holds a session. -/
theorem plain_boxes_unaffected_session :
    letI := nullParser
    (sent (trace [plainHealth])).map Sigma.fst = (sent (trace [plainHealth])).map Sigma.fst ∧
      (∀ e ∈ ([⟨.loadStore, .object []⟩] ++ trace [plainHealth]) ++
          ([⟨.loadStore, sessionStore⟩] ++ trace [plainHealth]),
        (∀ token, e.bearer = some token → token = none) ∧
          ∀ authUrl cookies, e.1 ≠ .refresh authUrl cookies) ∧
      Value.object [] = .object [] ∧ sessionStore = sessionStore := by
  let _ := nullParser
  have hrun : Transport.blocking.Runs ⟨"http://box:9000", "http://box:8765", 30, ⟨"box", none⟩⟩
      ⟨none, none⟩ [plainHealth] ⟨none, none⟩ := .cons (.op _ (.pure _)) (.nil _)
  have hempty : OwnRun .blocking "http://box:9000" "http://box:8765" 30 none none (.object [])
      [⟨.loadStore, .object []⟩] [plainHealth] (.object []) :=
    .intro (.op _ (.pure _)) hrun (.read (.nil _))
  have hsession : OwnRun .blocking "http://box:9000" "http://box:8765" 30 none none sessionStore
      [⟨.loadStore, sessionStore⟩] [plainHealth] sessionStore :=
    .intro (.op _ (.pure _)) hrun (.read (.nil _))
  have hanswer : ∀ a ∈ (trace [plainHealth]).filterMap Event.answer, a.denial = none :=
    List.forall_mem_cons.mpr ⟨by decide, List.forall_mem_nil _⟩
  exact plain_boxes_unaffected rfl rfl rfl hempty hsession rfl rfl hanswer

end Lager
