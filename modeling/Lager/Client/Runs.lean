import Lager.Client.Discipline

set_option relaxedAutoImplicit false
set_option autoImplicit false

/-!
# Runs of a client

A client is used call after call. A run is the list of the calls with the state before each and its
events; nothing relates the answers of one call to those of another.

## Main definitions

* `Lager.Transport.Runs` — the runs of a client from a state.
* `Lager.trace` — the events of a run.
* `Lager.CallRun` — the runs of one call, in terms of passes and of asking for the current token.

## Main results

* `Lager.Transport.call_spec` — the runs of a call are these.
-/

namespace Lager

open Library GatewayAuth

/-! ## Building a client -/

/-- Building a client reads the store once. The token of the builder goes before that of the
environment, and a blank one is none. -/
theorem GatewayAuth.new_spec (baseUrl : String) (builderToken env : Option String) :
    Always (GatewayAuth.new baseUrl builderToken env) fun events r => ∃ store,
      events = [⟨.loadStore, store⟩] ∧
        r = (⟨hostOf baseUrl, (builderToken.or env).filter fun t => trim t.toList ≠ []⟩,
          ⟨boxAuthUrl (hostOf baseUrl) store, none⟩) := by
  simp only [GatewayAuth.new, always_bind, always_loadStore, always_pure]
  exact fun store => ⟨store, rfl, rfl⟩

/-! ## Runs -/

/-- A call in a run: the state before it, and its events. -/
structure Step where
  before : GatewayAuth.State
  call : ClientCall
  events : List Event

/-- The events of a run. -/
def trace (history : List Step) : List Event := history.flatMap Step.events

/-- The events of a run that starts with a call. -/
@[simp] theorem trace_cons (step : Step) (history : List Step) :
    trace (step :: history) = step.events ++ trace history := List.flatMap_cons

variable [SerdeJson]

/-- The runs of a client: calls one after another. -/
inductive Transport.Runs (t : Transport) (client : Client) :
    GatewayAuth.State → List Step → GatewayAuth.State → Prop
  | nil (s : GatewayAuth.State) : Runs t client s [] s
  | cons {s s' s'' : GatewayAuth.State} {c : ClientCall} {events : List Event} {history : List Step}
      (call : Run ((t.call client c).run s) events ((), s')) (rest : Runs t client s' history s'') :
      Runs t client s (⟨s, c, events⟩ :: history) s''

/-- What holds of every run of every call holds of every call in a run. -/
theorem Transport.Runs.always {t : Transport} {client : Client} {s s' : GatewayAuth.State}
    {history : List Step} (h : t.Runs client s history s') {P : Step → Prop}
    (hcall : ∀ s c, Always ((t.call client c).run s) fun events _ => P ⟨s, c, events⟩) :
    ∀ step ∈ history, P step := by
  induction h with
  | nil s => exact List.forall_mem_nil _
  | cons call rest ih =>
    refine List.forall_mem_cons.mpr ⟨?_, ih⟩
    exact always_iff_run.mp (hcall _ _) _ _ call

/-! ## The runs of a call -/

/-- The request of `bearer_token` to learn whether the box is gated. -/
def healthRequest : HttpRequest := ⟨.get, "/health", none, .default⟩

/-- A client without a token asks for the health of a box that answers `ok`. -/
def plainHealth : Step :=
  ⟨⟨none, none⟩, .pass (.execute healthRequest),
    [⟨.request ⟨.get, "http://box:9000/health", none, none, some 30⟩,
      .ok ⟨200, false, [], .ok [111, 107]⟩⟩]⟩

/-- The runs of a call from a state. -/
inductive CallRun (t : Transport) (client : Client) (s : GatewayAuth.State) :
    ClientCall → List Event → GatewayAuth.State → Prop
  /-- A pass. -/
  | pass {p : Pass} {events : List Event} {r : Except Error p.Result} {s' : GatewayAuth.State}
      (run : PassRun client.auth t.accepts (t.bodyLost p) p.learnsAgain s events r s') :
      CallRun t client s (.pass p) events s'
  /-- The current token. -/
  | currentToken {events : List Event} {token : Option String} {s' : GatewayAuth.State}
      (now : client.auth.TokenNow t.accepts s events token s') :
      CallRun t client s .currentToken events s'
  /-- `bearer_token`, from what the client knows. -/
  | bearerKnown {events : List Event} {token : Option String} {s' : GatewayAuth.State}
      (now : client.auth.TokenNow t.accepts s events token s') :
      CallRun t client s .bearerToken events s'
  /-- `bearer_token`, when the box does not answer. -/
  | bearerFailed {asked events : List Event} {s₁ s' : GatewayAuth.State}
      {r : Except Error (ℕ × Value)}
      (now : client.auth.TokenNow t.accepts s asked none s₁) (unknown : s₁.authUrl = none)
      (run : PassRun client.auth t.accepts (t.bodyLost (.execute healthRequest)) false s₁ events r
        s') :
      CallRun t client s .bearerToken (asked ++ events) s'
  /-- `bearer_token`, when the box answers. -/
  | bearerAnswered {asked events asked' : List Event} {token : Option String}
      {s₁ s₂ s' : GatewayAuth.State} {r : Except Error (ℕ × Value)}
      (now : client.auth.TokenNow t.accepts s asked none s₁) (unknown : s₁.authUrl = none)
      (run : PassRun client.auth t.accepts (t.bodyLost (.execute healthRequest)) false s₁ events r
        s₂)
      (again : client.auth.TokenNow t.accepts s₂ asked' token s') :
      CallRun t client s .bearerToken (asked ++ (events ++ asked')) s'

namespace Transport

variable (t : Transport) (client : Client)

/-- `current_token` of either client. -/
theorem currentToken_eq :
    t.currentToken client =
      client.auth.currentToken (client.auth.resolveToken (refreshWith t.accepts)) := by
  cases t <;> rfl

/-- `bearer_token` of either client. -/
theorem bearerToken_eq :
    t.bearerToken client = Lager.bearerToken client.auth (t.currentToken client)
      (health fun req => t.pass client (.execute req)) := by
  cases t <;> rfl

end Transport

/-- `health` is one request and what comes back decoded: nothing is done after it. -/
theorem health_spec {execute : HttpRequest → Action (Except Error (ℕ × Value))}
    {s : GatewayAuth.State}
    {P : List Event → Except Error (ℕ × Value) → GatewayAuth.State → Prop}
    (h : Always ((execute healthRequest).run s) fun events r => P events r.1 r.2) :
    Always ((health execute).run s) fun events r => ∃ a, P events a r.2 := by
  simp only [health, getJson, StateT.run_bind, always_bind]
  refine h.mono fun events r hr => ?_
  obtain ⟨err | ⟨status, body⟩, s'⟩ := r
  · exact ⟨_, by simpa using hr⟩
  · dsimp only
    split_ifs
    · simp only [StateT.run_pure, always_pure]
      split <;> exact ⟨_, by simpa using hr⟩
    · exact ⟨_, by simpa using hr⟩

omit [SerdeJson] in
/-- The end of `bearer_token` does nothing. -/
theorem noToken_spec (auth : GatewayAuth) (s : GatewayAuth.State) :
    Always ((noToken auth).run s) fun events r => events = [] ∧ r.2 = s := by
  simp only [noToken, StateT.run_bind, StateT.run_get, pure_bind]
  split <;> exact ⟨rfl, rfl⟩

namespace Transport

variable (t : Transport) (client : Client)

/-- The runs of `bearer_token`. -/
theorem bearerToken_spec (s : GatewayAuth.State) :
    Always ((t.bearerToken client).run s) fun events r =>
      CallRun t client s .bearerToken events r.2 := by
  rw [t.bearerToken_eq client, t.currentToken_eq client]
  simp only [Lager.bearerToken, StateT.run_bind, always_bind]
  refine (client.auth.currentToken_spec t.accepts s).mono fun asked r hnow => ?_
  obtain ⟨_ | token, s₁⟩ := r
  · simp only [StateT.run_bind, StateT.run_get, pure_bind]
    split_ifs with hunknown
    · have hnone : s₁.authUrl = none := by simpa using hunknown
      simp only [StateT.run_bind, always_bind]
      refine (health_spec (t.pass_spec client (.execute healthRequest) s₁)).mono ?_
      rintro events ⟨err | _, s₂⟩ ⟨a, hpass⟩
      · simpa using CallRun.bearerFailed hnow hnone hpass
      · simp only [StateT.run_bind, always_bind]
        refine (client.auth.currentToken_spec t.accepts s₂).mono fun asked' r hagain => ?_
        obtain ⟨_ | token, s'⟩ := r
        · refine (noToken_spec client.auth s').mono fun none r hend => ?_
          obtain ⟨rfl, rfl⟩ := hend
          simpa using CallRun.bearerAnswered hnow hnone hpass hagain
        · simpa using CallRun.bearerAnswered hnow hnone hpass hagain
    · refine (noToken_spec client.auth s₁).mono fun none r hend => ?_
      obtain ⟨rfl, rfl⟩ := hend
      simpa using CallRun.bearerKnown hnow
  · simpa using CallRun.bearerKnown hnow

/-- **The runs of a call.** Every run of a call of either client is one of `CallRun`. -/
theorem call_spec (c : ClientCall) (s : GatewayAuth.State) :
    Always ((t.call client c).run s) fun events r => CallRun t client s c events r.2 := by
  rcases c with p | _ | _
  · simp only [call, StateT.run_bind, always_bind]
    refine (t.pass_spec client p s).mono fun events r h => ?_
    simpa using CallRun.pass h
  · simp only [call, StateT.run_bind, always_bind, t.currentToken_eq client]
    refine (client.auth.currentToken_spec t.accepts s).mono fun events r h => ?_
    simpa using CallRun.currentToken h
  · simp only [call, StateT.run_bind, always_bind]
    refine (t.bearerToken_spec client s).mono fun events r h => ?_
    simpa using h

end Transport

end Lager
