import Lager.Client.Runs

set_option relaxedAutoImplicit false
set_option autoImplicit false

/-!
# Pinned tokens

A token from the builder or from the environment is pinned: it goes with every request, a denial
changes nothing about it, and nobody is asked for another. With a blank one the client is without.
A pass sends one request, or none where it needs an address of the debug service to open a socket of
its own and there is none: for a tunnel with either client, for an RTT stream with the async one.

## Main definitions

* `Lager.PinnedTo` — the events of a client that goes by a pinned token alone.

## Main results

* `Lager.pinned_token` — so are the events of every run of a client with a pinned token, and each of
  its passes sends one request, if it reaches as far.
-/

namespace Lager

open Library GatewayAuth

variable {α : Type}

/-- An event of a client that goes by a pinned token alone: a request to the box carries it, no auth
server is asked for anything, and the store is not written. -/
structure PinnedTo (token : String) (e : Event) : Prop where
  bearer : ∀ sent, e.bearer = some sent → sent = some token
  noRefresh : ∀ authUrl cookies, e.1 ≠ .refresh authUrl cookies
  noSave : ∀ store, e.1 ≠ .saveStore store

/-- A request with the token is such an event. -/
theorem PinnedTo.of_bearer {token : String} {e : Event} (h : e.bearer = some (some token)) :
    PinnedTo token e where
  bearer _ hsent := Option.some.inj (hsent.symm.trans h)
  noRefresh := Event.ne_refresh_of_bearer h
  noSave := Event.ne_saveStore_of_bearer h

/-! ## Passes with a pinned token -/

section

variable [SerdeJson] {auth : GatewayAuth} {accepts : ℕ → Bool} {lost : Event → Bool}
  {learnsAgain : Bool} {s s' : GatewayAuth.State} {events : List Event} {r : Except Error α}
  {pin : String}

/-- A pass with a pinned token sends at most one request, with that token, and does nothing else. -/
theorem PassRun.pinned (hpin : auth.staticToken = some pin)
    (h : PassRun auth accepts lost learnsAgain s events r s') :
    events = [] ∨ ∃ e, events = [e] ∧ e.bearer = some (some pin) := by
  cases h with
  | unsent now herr => exact .inl (now.pinned pin hpin).2.1
  | @settled asked token s₁ e _ now bearer settles =>
    obtain ⟨rfl, rfl, -⟩ := now.pinned pin hpin
    exact .inr ⟨e, rfl, bearer⟩
  | @refused asked learned tried token s₁ s₂ s₃ e status url now bearer denial kept learns tries =>
    obtain ⟨rfl, rfl, -⟩ := now.pinned pin hpin
    obtain rfl : learned = [] := by
      rcases learns.events with hnil | ⟨hnone, -⟩
      · exact hnil
      · rw [hpin] at hnone
        cases hnone
    obtain rfl : tried = [] := by
      unfold Tries at tries
      rw [if_neg (by simp [hpin])] at tries
      exact tries.2.1
    exact .inr ⟨e, rfl, bearer⟩
  | settledAgain now bearer denial kept learns tries bearer' settles =>
    have hnone := tries.fresh.2.1
    rw [hpin] at hnone
    cases hnone
  | refusedAgain now bearer denial kept learns tries bearer' denial' kept' learns' =>
    have hnone := tries.fresh.2.1
    rw [hpin] at hnone
    cases hnone

/-- A pass with an address to send to sends a request. -/
theorem pass_sends {attempt : Option String → Program Op Op.Ans (Attempt α)}
    (h : Attempt.Sends lost attempt) (auth : GatewayAuth) (accepts : ℕ → Bool)
    (s : GatewayAuth.State) :
    Always ((pass auth (auth.resolveToken (refreshWith accepts)) learnsAgain attempt).run s)
      fun events _ => sent events ≠ [] := by
  simp only [pass, StateT.run_bind, StateT.run_monadLift, monadLift_self, always_bind, always_pure]
  refine (auth.currentToken_spec accepts s).mono fun asked now _ => ?_
  refine (h now.1).mono ?_
  rintro events a ⟨e, rfl, hbearer, -⟩
  refine Always.of_forall fun rest _ => ?_
  rw [sent_append, List.append_nil, List.singleton_append, sent_cons hbearer]
  exact List.append_ne_nil_of_right_ne_nil _ (List.cons_ne_nil _ _)

/-- A pass without an address to send to sends none. -/
theorem pass_refrains {attempt : Option String → Program Op Op.Ans (Attempt α)}
    (h : Attempt.Refrains attempt) (auth : GatewayAuth) (accepts : ℕ → Bool)
    (s : GatewayAuth.State) :
    Always ((pass auth (auth.resolveToken (refreshWith accepts)) learnsAgain attempt).run s)
      fun events _ => sent events = [] := by
  obtain ⟨err, -, hnone⟩ := h
  simp only [pass, hnone, StateT.run_bind, StateT.run_monadLift, monadLift_self, always_bind,
    always_pure]
  refine (auth.currentToken_spec accepts s).mono fun asked now hnow => ?_
  simpa using sent_of_quiet hnow.quiet

end

/-! ## Calls with a pinned token -/

section

variable [SerdeJson] {t : Transport} {client : Client} {pin : String}

/-- A call with a pinned token sends that token, and does nothing else. -/
theorem CallRun.pinned {s s' : GatewayAuth.State} {c : ClientCall} {events : List Event}
    (hpin : client.auth.staticToken = some pin) (h : CallRun t client s c events s') :
    ∀ e ∈ events, PinnedTo pin e := by
  cases h with
  | pass run =>
    rcases run.pinned hpin with rfl | ⟨e, rfl, hbearer⟩
    · exact List.forall_mem_nil _
    · intro e' he'
      obtain rfl := List.mem_singleton.mp he'
      exact .of_bearer hbearer
  | currentToken now =>
    rw [(now.pinned pin hpin).2.1]
    exact List.forall_mem_nil _
  | bearerKnown now =>
    rw [(now.pinned pin hpin).2.1]
    exact List.forall_mem_nil _
  | bearerFailed now unknown run => cases (now.pinned pin hpin).1
  | bearerAnswered now unknown run again => cases (now.pinned pin hpin).1

/-- A pass with a pinned token sends one request, if there is an address to send it to. -/
theorem pass_sends_once (t : Transport) (hpin : client.auth.staticToken = some pin) (p : Pass)
    (s : GatewayAuth.State) :
    Always ((t.pass client p).run s) fun events _ =>
      (sent events).length = if t.reaches client p then 1 else 0 := by
  have hattempt := t.attempt_spec client p
  cases hreaches : t.reaches client p
  · rw [hreaches] at hattempt
    rw [t.pass_eq client p]
    refine (pass_refrains hattempt client.auth t.accepts s).mono fun events _ hnone => ?_
    rw [hnone]
    rfl
  · rw [hreaches] at hattempt
    have hsends : Always ((t.pass client p).run s) fun events _ => sent events ≠ [] := by
      rw [t.pass_eq client p]
      exact pass_sends hattempt client.auth t.accepts s
    refine ((t.pass_spec client p s).and hsends).mono ?_
    rintro events r ⟨hrun, hne⟩
    rcases hrun.pinned hpin with rfl | ⟨e, rfl, hbearer⟩
    · exact absurd rfl hne
    · rw [sent_cons hbearer]
      rfl

/-- **Pinned tokens.** Build either client with a token that is not blank, from the builder or, if
that gives none, from the environment, and make any calls, whatever the box, the store, the clock
and the auth servers answer. Every request carries that token, no auth server is asked for anything
and the store is never written. Each pass sends exactly one request: it makes one call of the HTTP
library or one attempt on a socket. Only where the debug service has no address, a pass of
`debug_tunnel` sends none, and neither does one that opens an RTT stream in the async client, which
wants plain HTTP besides; any other pass to the debug service hands its request to the HTTP library
there too. -/
theorem pinned_token (t : Transport) (base debugBase : String) (timeout : ℕ)
    {builderToken env : Option String} (htoken : builderToken.or env = some pin)
    (hblank : trim pin.toList ≠ []) {built : List Event} {auth : GatewayAuth}
    {s₀ s : GatewayAuth.State}
    (hnew : Run (GatewayAuth.new base builderToken env) built (auth, s₀)) {history : List Step}
    (h : t.Runs ⟨base, debugBase, timeout, auth⟩ s₀ history s) :
    (∀ e ∈ built ++ trace history, PinnedTo pin e) ∧
      ∀ step ∈ history, ∀ p, step.call = .pass p → (sent step.events).length =
        if t.reaches ⟨base, debugBase, timeout, auth⟩ p then 1 else 0 := by
  obtain ⟨store, rfl, hbuilt⟩ :=
    always_iff_run.mp (GatewayAuth.new_spec base builderToken env) _ _ hnew
  have hpin : auth.staticToken = some pin := by
    rw [(Prod.mk.inj hbuilt).1, htoken]
    simp [Option.filter, hblank]
  have hpinned : ∀ step ∈ history, ∀ e ∈ step.events, PinnedTo pin e :=
    h.always fun s c => (t.call_spec _ c s).mono fun events r hcall => hcall.pinned hpin
  constructor
  · intro e he
    rcases List.mem_append.mp he with hload | htrace
    · obtain rfl := List.mem_singleton.mp hload
      exact ⟨fun _ h => (by cases h), fun _ _ h => (by cases h), fun _ h => (by cases h)⟩
    · obtain ⟨step, hstep, he⟩ := List.mem_flatMap.mp htrace
      exact hpinned step hstep e he
  · refine h.always fun s c => ?_
    rcases c with p | _ | _
    · simp only [Transport.call, StateT.run_bind, always_bind]
      refine (pass_sends_once t hpin p s).mono fun events r hone => ?_
      intro p' hp'
      cases hp'
      simpa using hone
    · exact Always.of_forall fun events _ p hp => by cases hp
    · exact Always.of_forall fun events _ p hp => by cases hp

end

/-! ## Runs on fixed answers -/

/-- A client with a pinned token asks for the health of its box and is denied with a 401. -/
def deniedHealth : Step :=
  ⟨⟨none, none⟩, .pass (.execute healthRequest),
    [⟨.request ⟨.get, "http://box:9000/health", some "pin", none, some 30⟩, .ok ⟨401, false,
      [("x-gateway-auth-url", [104, 116, 116, 112, 58, 47, 47, 97])], .ok []⟩⟩]⟩

/-- The client that is denied sent its token, once, and did nothing else. -/
theorem pinned_token_denied :
    letI := nullParser
    (∀ e ∈ [⟨.loadStore, .object []⟩] ++ trace [deniedHealth], PinnedTo "pin" e) ∧
      ∀ step ∈ [deniedHealth], ∀ p, step.call = .pass p → (sent step.events).length =
        if Transport.blocking.reaches
          ⟨"http://box:9000", "http://box:8765", 30, ⟨"box", some "pin"⟩⟩ p then 1 else 0 := by
  let _ := nullParser
  have hnew : Run (GatewayAuth.new "http://box:9000" (some "pin") none) [⟨.loadStore, .object []⟩]
      (⟨"box", some "pin"⟩, ⟨none, none⟩) := .op _ (.pure _)
  have hrun : Transport.blocking.Runs
      ⟨"http://box:9000", "http://box:8765", 30, ⟨"box", some "pin"⟩⟩ ⟨none, none⟩ [deniedHealth]
      ⟨some "http://a", none⟩ := .cons (.op _ (.pure _)) (.nil _)
  exact pinned_token .blocking "http://box:9000" "http://box:8765" 30 rfl (by decide) hnew hrun

/-- A blank token of the builder hides that of the environment, and requests go without one. A pass
for a tunnel sends nothing where the debug service has no address. -/
theorem pinned_token_exceptions :
    letI := nullParser
    (Run (GatewayAuth.new "http://box:9000" (some " ") (some "pin")) [⟨.loadStore, .object []⟩]
        (⟨"box", none⟩, ⟨none, none⟩) ∧
      Transport.blocking.Runs ⟨"http://box:9000", "http://box:8765", 30, ⟨"box", none⟩⟩ ⟨none, none⟩
        [plainHealth] ⟨none, none⟩ ∧
      ¬ ∀ e ∈ trace [plainHealth], PinnedTo "pin" e) ∧
    (Run (GatewayAuth.new "http://box:9000" (some "pin") none) [⟨.loadStore, .object []⟩]
        (⟨"box", some "pin"⟩, ⟨none, none⟩) ∧
      Transport.blocking.Runs ⟨"http://box:9000", "http://box:99999", 30, ⟨"box", some "pin"⟩⟩
        ⟨none, none⟩ [⟨⟨none, none⟩, .pass (.tunnelAuthorized 2331), []⟩] ⟨none, none⟩ ∧
      (sent []).length ≠ 1) := by
  let _ := nullParser
  refine ⟨⟨.op _ (.pure _), .cons (.op _ (.pure _)) (.nil _), fun hall => ?_⟩,
    ⟨.op _ (.pure _), .cons (.pure _) (.nil _), by decide⟩⟩
  have hpinned := (hall _ List.mem_cons_self).bearer none rfl
  cases hpinned

end Lager
