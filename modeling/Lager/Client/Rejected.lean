import Lager.Client.CurrentServer

set_option relaxedAutoImplicit false
set_option autoImplicit false

/-!
# Rejected tokens

After a 401 a client resolves a token again, and is told which one the gateway has just rejected. A
stored token is compared with that one. The token an auth server gives in a refresh is not: when
it gives the rejected token again, the client caches it and sends it again.

## Main definitions

* `Lager.NotReturned` — resolving a token returns the rejected one only if it was refreshed to it.
* `Lager.NotResent` — a request repeats a rejected token only if it was refreshed to it.

## Main results

* `Lager.rejected_token_resent_iff` — a rejected token is returned, and sent again in the same call,
  exactly when an auth server hands it back in between.
* `Lager.rejected_token_resent` — it can be.
-/

namespace Lager

open Library GatewayAuth

/-! ## Where rejected tokens come from -/

section

variable [SerdeJson] {accepts : ℕ → Bool}

/-- A resolved token is the one to avoid exactly when a refresh gave it. -/
theorem GatewayAuth.Resolved.eq_avoid_iff {auth : GatewayAuth} {url token : String}
    {s s' : GatewayAuth.State} {events : List Event} {r : Option String}
    (h : auth.Resolved accepts url (some token) s events r s') :
    r = some token ↔ token ∈ refreshedTokens accepts events := by
  constructor
  · intro hr
    obtain ⟨store, rest, rfl, ⟨-, havoid, -⟩ | ⟨-, hgiven⟩⟩ := h.source token hr
    · exact absurd rfl havoid
    · rw [refreshedTokens_load]
      exact hgiven
  · exact h.refreshed token

/-- The token to try again with is the rejected one exactly when a refresh gave it. -/
theorem Tries.eq_rejected_iff {auth : GatewayAuth} {status : ℕ} {url token : String}
    {s s' : GatewayAuth.State} {events : List Event} {fresh : Option String}
    (h : Tries auth accepts status url (some token) s events fresh s') :
    fresh = some token ↔ token ∈ refreshedTokens accepts events := by
  unfold Tries at h
  split_ifs at h
  · exact h.eq_avoid_iff
  · obtain ⟨rfl, rfl, -⟩ := h
    simp

/-- Learning an auth server refreshes nothing. -/
theorem GatewayAuth.Learns.refreshedTokens_eq {auth : GatewayAuth} {url : String}
    {s s' : GatewayAuth.State} {events : List Event} (h : auth.Learns url s events s') :
    refreshedTokens accepts events = [] := by
  rcases h.events with rfl | ⟨-, store, rfl | ⟨store', -, rfl⟩⟩ <;> rfl

/-- Nor does learning from a second denial. -/
theorem LearnsAgain.refreshedTokens_eq {auth : GatewayAuth} {learnsAgain : Bool} {url : String}
    {s s' : GatewayAuth.State} {events : List Event}
    (h : LearnsAgain auth learnsAgain url s events s') : refreshedTokens accepts events = [] := by
  unfold LearnsAgain at h
  split_ifs at h
  · exact h.refreshedTokens_eq
  · rw [h.1]
    rfl

/-- A request to the box refreshes nothing. -/
theorem refreshed_of_bearer {e : Event} {token : Option String} (h : e.bearer = some token) :
    e.refreshed accepts = none := by
  obtain ⟨op, ans⟩ := e
  cases op <;> first | rfl | cases h

/-- The tokens refreshes give after a request are those they give in what follows it. -/
theorem refreshedTokens_request {e : Event} {token : Option String} (h : e.bearer = some token)
    (events : List Event) :
    refreshedTokens accepts (e :: events) = refreshedTokens accepts events := by
  rw [refreshedTokens_cons, refreshed_of_bearer h]
  rfl

end

/-- The requests after a quiet stretch start where it ends. -/
theorem request_cases {asked rest front back : List Event} {e x : Event} {token : Option String}
    (hquiet : Quiet asked) (h : asked ++ e :: rest = front ++ x :: back)
    (hx : x.bearer = some token) :
    x = e ∧ back = rest ∨ ∃ front', rest = front' ++ x :: back := by
  rcases split_append h with ⟨back', hpast⟩ | ⟨front', -, hevents⟩
  · have hnone := hquiet x (by simp [hpast])
    rw [hx] at hnone
    cases hnone
  · rcases front' with _ | ⟨y, front'⟩
    · obtain ⟨rfl, rfl⟩ := List.cons.inj hevents
      exact .inl ⟨rfl, rfl⟩
    · exact .inr ⟨front', (List.cons.inj hevents).2⟩

/-- There are no requests in a quiet stretch. -/
theorem Quiet.not_request {events front back : List Event} {x : Event} {token : Option String}
    (hquiet : Quiet events) (h : events = front ++ x :: back) : x.bearer ≠ some token := by
  intro hx
  have hnone := hquiet x (by simp [h])
  rw [hx] at hnone
  cases hnone

/-! ## Resolution and retry -/

section

variable [SerdeJson]

/-- Resolving a token returns the one to avoid exactly when an answer to a refresh gave it. -/
def NotReturned (accepts : ℕ → Bool) (avoid : String) (events : List Event) (r : Option String) :
    Prop :=
  r ≠ some avoid ↔ avoid ∉ refreshedTokens accepts events

/-- After the gateway has rejected a token with a 401, no request carries it again exactly when no
answer to a refresh since then gave it. -/
def NotResent (accepts : ℕ → Bool) (events : List Event) : Prop :=
  ∀ front e back token url, events = front ++ e :: back → e.bearer = some (some token) →
    e.denial = some (401, url) →
    ((∀ e' ∈ back, e'.bearer ≠ some (some token)) ↔ token ∉ refreshedTokens accepts back)

variable {auth : GatewayAuth} {accepts : ℕ → Bool} {lost : Event → Bool}

/-- In a stretch of events without requests and refreshes, nothing is sent or refreshed. -/
theorem resent_quiet {back : List Event} (hquiet : Quiet back)
    (hnone : refreshedTokens accepts back = []) (token : String) :
    (∀ e' ∈ back, e'.bearer ≠ some (some token)) ↔ token ∉ refreshedTokens accepts back := by
  rw [hnone]
  refine iff_of_true (fun e' he' hbearer => ?_) List.not_mem_nil
  rw [hquiet e' he'] at hbearer
  cases hbearer

/-- After a denial without a second request, nothing is refreshed to the rejected token. -/
theorem resent_refused {status : ℕ} {url token : String} {s₁ s₂ s₃ : GatewayAuth.State}
    {learned tried : List Event} (learns : auth.Learns url s₁ learned s₂)
    (tries : Tries auth accepts status url (some token) s₂ tried none s₃) :
    (∀ e' ∈ learned ++ tried, e'.bearer ≠ some (some token)) ↔
      token ∉ refreshedTokens accepts (learned ++ tried) := by
  have hquiet : Quiet (learned ++ tried) := quiet_append.mpr ⟨learns.quiet, tries.quiet⟩
  rw [refreshedTokens_append, learns.refreshedTokens_eq, List.nil_append, ← tries.eq_rejected_iff]
  refine iff_of_true (fun e' he' hbearer => ?_) (by simp)
  rw [hquiet e' he'] at hbearer
  cases hbearer

/-- A second request repeats the rejected token exactly when a refresh gave it. -/
theorem resent_tried {status : ℕ} {url token fresh : String} {s₁ s₂ s₃ : GatewayAuth.State}
    {learned tried learned' : List Event} {e' : Event} (learns : auth.Learns url s₁ learned s₂)
    (tries : Tries auth accepts status url (some token) s₂ tried (some fresh) s₃)
    (bearer' : e'.bearer = some (some fresh)) (hquiet' : Quiet learned')
    (hnone' : refreshedTokens accepts learned' = []) :
    (∀ x ∈ learned ++ (tried ++ e' :: learned'), x.bearer ≠ some (some token)) ↔
      token ∉ refreshedTokens accepts (learned ++ (tried ++ e' :: learned')) := by
  have htokens : refreshedTokens accepts (learned ++ (tried ++ e' :: learned')) =
      refreshedTokens accepts tried := by
    rw [refreshedTokens_append, refreshedTokens_append, refreshedTokens_request bearer',
      learns.refreshedTokens_eq, hnone', List.nil_append, List.append_nil]
  rw [htokens, ← tries.eq_rejected_iff]
  constructor
  · rintro h ⟨⟩
    exact h e' (by simp) bearer'
  · intro hne x hx hbearer
    have hquiet : ∀ {events : List Event}, Quiet events → x ∉ events := by
      intro events hq hmem
      rw [hq x hmem] at hbearer
      cases hbearer
    have hxe : x = e' := by
      simpa [hquiet learns.quiet, hquiet tries.quiet, hquiet hquiet'] using hx
    rw [hxe, bearer'] at hbearer
    exact hne (Option.some.inj hbearer)

/-- In a run of a pass, a rejected token is sent again exactly when it was handed back. -/
theorem PassRun.notResent {α : Type} {learnsAgain : Bool} {s s' : GatewayAuth.State}
    {events : List Event} {r : Except Error α}
    (h : PassRun auth accepts lost learnsAgain s events r s') : NotResent accepts events := by
  intro front x back token url heq hx hdenial
  cases h with
  | unsent now herr => exact absurd hx (now.quiet.not_request heq)
  | settled now bearer settles =>
    rcases request_cases now.quiet heq hx with ⟨-, rfl⟩ | ⟨front', hrest⟩
    · exact resent_quiet quiet_nil rfl token
    · simp at hrest
  | refused now bearer denial kept learns tries =>
    rcases request_cases now.quiet heq hx with ⟨rfl, rfl⟩ | ⟨front', hrest⟩
    · obtain rfl : _ = some token := Option.some.inj (bearer.symm.trans hx)
      exact resent_refused learns tries
    · exact absurd hx (Quiet.not_request (quiet_append.mpr ⟨learns.quiet, tries.quiet⟩) hrest)
  | settledAgain now bearer denial kept learns tries bearer' settles =>
    rcases request_cases now.quiet heq hx with ⟨rfl, rfl⟩ | ⟨front', hrest⟩
    · obtain rfl : _ = some token := Option.some.inj (bearer.symm.trans hx)
      exact resent_tried learns tries bearer' quiet_nil rfl
    · rw [← List.append_assoc] at hrest
      rcases request_cases (quiet_append.mpr ⟨learns.quiet, tries.quiet⟩) hrest hx with
        ⟨-, rfl⟩ | ⟨front'', hrest'⟩
      · exact resent_quiet quiet_nil rfl token
      · simp at hrest'
  | refusedAgain now bearer denial kept learns tries bearer' denial' kept' learns' =>
    rcases request_cases now.quiet heq hx with ⟨rfl, rfl⟩ | ⟨front', hrest⟩
    · obtain rfl : _ = some token := Option.some.inj (bearer.symm.trans hx)
      exact resent_tried learns tries bearer' learns'.quiet learns'.refreshedTokens_eq
    · rw [← List.append_assoc] at hrest
      rcases request_cases (quiet_append.mpr ⟨learns.quiet, tries.quiet⟩) hrest hx with
        ⟨-, rfl⟩ | ⟨front'', hrest'⟩
      · exact resent_quiet learns'.quiet learns'.refreshedTokens_eq token
      · exact absurd hx (learns'.quiet.not_request hrest')

/-- **When a rejected token is sent again.** Whatever the store, the clock and the auth servers
answer: `resolve_token_blocking` and `resolve_token_async` return the token they are to avoid
exactly when an accepted answer to their refresh gives that token; and in every pass of either
client, after a 401 for a request with some token, a request carries that token again exactly when
an accepted answer to a refresh since then gave it.

**Proof sketch.** A stored token is returned only if it is not the one to avoid, so the one to
avoid can only be from the refresh, and what the refresh gives is returned. The second request of a
pass carries what was resolved with the token of the first to be avoided. -/
theorem rejected_token_resent_iff :
    (∀ (auth : GatewayAuth) (authUrl avoid : String) (s : GatewayAuth.State),
      Always ((auth.resolveTokenBlocking authUrl (some avoid)).run s) fun events r =>
        NotReturned acceptsBlocking avoid events r.1) ∧
    (∀ (auth : GatewayAuth) (authUrl avoid : String) (s : GatewayAuth.State),
      Always ((auth.resolveTokenAsync authUrl (some avoid)).run s) fun events r =>
        NotReturned acceptsAsync avoid events r.1) ∧
    ∀ (t : Transport) (client : Client) (p : Pass) (s : GatewayAuth.State),
      Always ((t.pass client p).run s) fun events _ => NotResent t.accepts events := by
  refine ⟨fun auth authUrl avoid s => ?_, fun auth authUrl avoid s => ?_, fun t client p s => ?_⟩
  · refine (auth.resolveToken_spec acceptsBlocking authUrl (some avoid) s).mono fun events r h => ?_
    exact not_congr h.eq_avoid_iff
  · refine (auth.resolveToken_spec acceptsAsync authUrl (some avoid) s).mono fun events r h => ?_
    exact not_congr h.eq_avoid_iff
  · exact (t.pass_spec client p s).mono fun events r h => h.notResent

end

/-- A client with a session it can refresh gets the token `t` from its auth server, is rejected by
the gateway with a 401, gets `t` in the next refresh too, and sends it again. -/
def handedBack : List Event :=
  [⟨.loadStore, signedIn⟩, ⟨.refresh "http://a" "c=1", .ok ⟨200, false, [], .ok refreshed⟩⟩,
    ⟨.loadStore, signedIn⟩, ⟨.saveStore signedInAgain, ()⟩,
    ⟨askHealth (some "t"), .ok (gatewayDenies 401 97)⟩, ⟨.loadStore, signedInAgain⟩,
    ⟨.refresh "http://a" "c=1", .ok ⟨200, false, [], .ok refreshed⟩⟩, ⟨.loadStore, signedInAgain⟩,
    ⟨.saveStore signedInAgain, ()⟩, ⟨askHealth (some "t"), .ok (gatewayDenies 401 97)⟩]

/-- A rejected token can be returned, and sent again. -/
theorem rejected_token_resent :
    letI := refreshParser
    (¬ ∀ events r, Run ((GatewayAuth.resolveTokenBlocking ⟨"box", none⟩ "http://a" (some "t")).run
        ⟨some "http://a", none⟩) events r → r.1 ≠ some "t") ∧
    ¬ ∀ events r, Run ((Transport.blocking.pass unpinned (.execute healthRequest)).run
        ⟨some "http://a", none⟩) events r →
      ∀ (front : List Event) (e : Event) (back : List Event) (token url : String),
        events = front ++ e :: back → e.bearer = some (some token) →
        e.denial = some (401, url) → ∀ e' : Event, e' ∈ back → e'.bearer ≠ some (some token) := by
  let _ := refreshParser
  constructor
  · intro hall
    have hrun : Run ((GatewayAuth.resolveTokenBlocking ⟨"box", none⟩ "http://a" (some "t")).run
        ⟨some "http://a", none⟩)
        [⟨.loadStore, signedIn⟩, ⟨.refresh "http://a" "c=1", .ok ⟨200, false, [], .ok refreshed⟩⟩,
          ⟨.loadStore, signedIn⟩, ⟨.saveStore signedInAgain, ()⟩]
        (some "t", ⟨some "http://a", some "t"⟩) :=
      .op _ (.op _ (.op _ (.op _ (.pure _))))
    exact hall _ _ hrun rfl
  · intro hall
    have hrun : Run ((Transport.blocking.pass unpinned (.execute healthRequest)).run
        ⟨some "http://a", none⟩) handedBack
        (.error (denialError 401 "box" "http://a" true), ⟨some "http://a", some "t"⟩) :=
      .op _ (.op _ (.op _ (.op _ (.op _ (.op _ (.op _ (.op _ (.op _ (.op _ (.pure _))))))))))
    have hdenial : Event.denial ⟨askHealth (some "t"), .ok (gatewayDenies 401 97)⟩ =
        some (401, "http://a") := by decide
    exact hall _ _ hrun (handedBack.take 4) _ (handedBack.drop 5) "t" "http://a" rfl rfl hdenial
      ⟨askHealth (some "t"), .ok (gatewayDenies 401 97)⟩ (by simp [handedBack]) rfl

end Lager
