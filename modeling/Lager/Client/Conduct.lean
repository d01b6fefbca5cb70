import Lager.Client.CurrentServer
import Lager.Library.Licensed

set_option relaxedAutoImplicit false
set_option autoImplicit false

/-!
# What a client may do

What a client does in a call, what happened in the call before allows. A request carries the pinned
token, or one that a reading of the clock or an answer to a refresh vouches for. A refresh goes to
the auth server the client knew or was named, with the cookies of a session just loaded. And what is
saved is the store just loaded, with one entry changed: the auth server of the box, or a refreshed
session.

## Main definitions

* `Lager.Vouched` — a token that was checked, or came from a refresh.
* `Lager.Knows` — an auth server that was known, or named by a denial.
* `Lager.Changes` — the changes a client makes to the store.
* `Lager.May` — what a client may do after what happened before.

## Main results

* `Lager.Transport.call_licensed` — every call of either client keeps to that.
* `Lager.no_stale_token` — so no request carries a stale token.
-/

namespace Lager

open Library GatewayAuth

variable {α : Type}

/-! ## The rule -/

/-- An auth server that was known before, or that a denial among the events named. -/
def Knows (known : Option String) (past : List Event) (authUrl : String) : Prop :=
  known = some authUrl ∨ ∃ e ∈ past, ∃ status, e.denial = some (status, authUrl)

section

variable [SerdeJson] (auth : GatewayAuth) (accepts : ℕ → Bool) (known : Option String)

/-- A token is vouched for: it was fresh at a reading of the clock, or it is from an answer to a
refresh. -/
def Vouched (past : List Event) (token : String) : Prop :=
  (∃ now, (⟨.nowEpoch, now⟩ : Event) ∈ past ∧ tokenIsFresh now token) ∨
    token ∈ refreshedTokens accepts past

/-- The tokens a request may carry: the pinned one if there is one; otherwise none, or one vouched
for. -/
structure Bears (past : List Event) (token : Option String) : Prop where
  pinned : ∀ t, auth.staticToken = some t → token = some t
  vouched : auth.staticToken = none → ∀ t, token = some t → Vouched accepts past t

/-- The changes a client makes to the store: an auth server that a denial named is recorded for its
box, or a session refreshed by an answer. -/
inductive Changes (past : List Event) (store : Value) : Value → Prop
  /-- The auth server of the box. -/
  | learned {e : Event} {status : ℕ} {authUrl : String} {store' : Value} (he : e ∈ past)
      (named : e.denial = some (status, authUrl)) (unpinned : auth.staticToken = none)
      (changed : learnBox auth.boxHost authUrl store = some store') : Changes past store store'
  /-- A session. -/
  | refreshed {authUrl cookies : String} {resp : Response} {outcome : RefreshOutcome}
      (asked : (⟨.refresh authUrl cookies, .ok resp⟩ : Event) ∈ past)
      (answered : refreshOutcome accepts resp = some outcome) :
      Changes past store (applyRefresh authUrl outcome store)

/-- What a client may do in a call, after what happened in it before. -/
def May (past : List Event) : Event → Prop
  | ⟨.loadStore, _⟩ | ⟨.nowEpoch, _⟩ => True
  | ⟨.saveStore store', _⟩ =>
    ∃ before store, past = before ++ [⟨.loadStore, store⟩] ∧ Changes auth accepts past store store'
  | ⟨.refresh authUrl cookies, _⟩ => Knows known past authUrl ∧
    ∃ store, (⟨.loadStore, store⟩ : Event) ∈ past ∧ (storeEntry authUrl store).2 ≠ [] ∧
      cookies = cookieHeader (storeEntry authUrl store).2
  | ⟨.request r, _⟩ => Bears auth accepts past r.bearer
  | ⟨.exchange r, _⟩ => Bears auth accepts past r.bearer

end

/-! ## More may be done when more has happened -/

section

variable [SerdeJson] {auth : GatewayAuth} {accepts : ℕ → Bool} {known known' : Option String}
  {past past' events : List Event} {authUrl token : String}

omit [SerdeJson] in
/-- What was known is known later. -/
theorem Knows.mono (h : Knows known past authUrl) (hpast : past ⊆ past')
    (hknown : ∀ url, known = some url → Knows known' past' url) : Knows known' past' authUrl := by
  rcases h with h | ⟨e, he, status, hdenial⟩
  · exact hknown authUrl h
  · exact .inr ⟨e, hpast he, status, hdenial⟩

omit [SerdeJson] in
/-- What was known is known after more. -/
theorem Knows.append (h : Knows known past authUrl) (events : List Event) :
    Knows known (past ++ events) authUrl :=
  h.mono (List.subset_append_left _ _) fun _ h => .inl h

/-- A token vouched for is so later. -/
theorem Vouched.mono (h : Vouched accepts past token) (hpast : past ⊆ past') :
    Vouched accepts past' token := by
  rcases h with ⟨now, hnow, hfresh⟩ | h
  · exact .inl ⟨now, hpast hnow, hfresh⟩
  · exact .inr (List.filterMap_subset _ hpast h)

/-- A token a request may carry it may carry later. -/
theorem Bears.mono {token : Option String} (h : Bears auth accepts past token)
    (hpast : past ⊆ past') : Bears auth accepts past' token :=
  ⟨h.pinned, fun hnone t ht => (h.vouched hnone t ht).mono hpast⟩

/-- A request may carry what it carries. -/
theorem may_of_bearer {e : Event} {token : Option String} (hbearer : e.bearer = some token)
    (h : Bears auth accepts past token) : May auth accepts known past e := by
  obtain ⟨op, ans⟩ := e
  cases op <;> cases hbearer <;> exact h

/-- What a request carries it may carry. -/
theorem bears_of_may {e : Event} {token : Option String} (hbearer : e.bearer = some token)
    (h : May auth accepts known past e) : Bears auth accepts past token := by
  obtain ⟨op, ans⟩ := e
  cases op with
  | request r => exact Option.some.inj hbearer ▸ h
  | exchange r => exact Option.some.inj hbearer ▸ h
  | _ => cases hbearer

/-- Reading the clock is always allowed. -/
theorem licensed_clock (h : events = [] ∨ ∃ now, events = [⟨.nowEpoch, now⟩]) :
    Licensed (May auth accepts known) past events := by
  rcases h with rfl | ⟨now, rfl⟩
  · trivial
  · exact ⟨trivial, trivial⟩

end

/-! ## Tokens -/

section

variable [SerdeJson] (auth : GatewayAuth) (accepts : ℕ → Bool) (known : Option String)

/-- What asking for a token does from a state, after what happened before: the auth server stays,
and the token may be carried. -/
structure Asked (past : List Event) (s : GatewayAuth.State) (events : List Event)
    (token : Option String) (s' : GatewayAuth.State) : Prop where
  licensed : Licensed (May auth accepts known) past events
  authUrl : s'.authUrl = s.authUrl
  bears : Bears auth accepts events token

/-- A cached token was just found fresh. -/
theorem cachedToken_asked (past : List Event) (s : GatewayAuth.State) :
    Always (auth.cachedToken.run s) fun events r =>
      Asked auth accepts known past s events r.1 r.2 := by
  obtain ⟨boxHost, _ | pinned⟩ := auth
  · obtain ⟨authUrl, _ | token⟩ := s
    · exact ⟨trivial, rfl, by simp, by simp⟩
    · simp only [cachedToken, StateT.run_bind, StateT.run_get, pure_bind, StateT.run_monadLift,
        monadLift_self, always_bind, always_pure, always_nowEpoch]
      intro now
      split_ifs with hfresh
      · refine ⟨⟨trivial, trivial⟩, rfl, by simp, fun _ t ht => ?_⟩
        cases ht
        exact .inl ⟨now, by simp, hfresh⟩
      · exact ⟨⟨trivial, trivial⟩, rfl, by simp, by simp⟩
  · exact ⟨trivial, rfl, fun t ht => ht, by simp⟩

/-- Writing a refreshed session back is allowed after the refresh. -/
theorem recordRefresh_licensed {past : List Event} {authUrl cookies : String} {resp : Response}
    {outcome : RefreshOutcome} (asked : (⟨.refresh authUrl cookies, .ok resp⟩ : Event) ∈ past)
    (answered : refreshOutcome accepts resp = some outcome) :
    Always (recordRefresh authUrl outcome) fun events _ =>
      Licensed (May auth accepts known) past events := by
  refine (recordRefresh_spec authUrl outcome).mono fun events _ h => ?_
  obtain ⟨store, rfl⟩ := h
  refine ⟨trivial, ⟨past, store, rfl, ?_⟩, trivial⟩
  exact .refreshed (List.mem_append_left _ asked) answered

/-- A resolved token is fresh, or from a refresh of the session that was loaded. -/
theorem resolveToken_asked (hpinned : auth.staticToken = none) {past : List Event}
    {authUrl : String} (hknows : Knows known past authUrl) (avoid : Option String)
    (s : GatewayAuth.State) :
    Always ((auth.resolveToken (refreshWith accepts) authUrl avoid).run s) fun events r =>
      Asked auth accepts known past s events r.1 r.2 := by
  have hbears : ∀ {events : List Event} {token : Option String},
      (∀ t, token = some t → Vouched accepts events t) → Bears auth accepts events token :=
    fun h => ⟨by simp [hpinned], fun _ => h⟩
  simp only [resolveToken, StateT.run_bind, StateT.run_monadLift, monadLift_self, always_bind,
    always_pure, always_loadStore]
  intro store
  refine (usableOrRefresh_spec (storeEntry authUrl store).1 avoid).mono fun events usable h => ?_
  have hclock : ∀ past, Licensed (May auth accepts known) past events :=
    fun past => licensed_clock h.clock
  rcases hu : usable.1 with _ | token
  · simp only [h.refresh hu, Bool.not_true, Bool.false_or]
    split_ifs with hcookies
    · refine ⟨?_, rfl, hbears (by simp)⟩
      simpa using ⟨trivial, hclock _⟩
    · simp only [StateT.run_bind, StateT.run_monadLift, monadLift_self, always_bind, always_pure]
      refine (refreshWith_spec accepts authUrl _).mono fun asked outcome h' => ?_
      obtain ⟨answer, rfl, hok, hsome⟩ := h'
      have hrefresh : May auth accepts known (past ++ ⟨.loadStore, store⟩ :: events)
          ⟨.refresh authUrl (cookieHeader (storeEntry authUrl store).2), answer⟩ :=
        ⟨hknows.append _, store, by simp, by simpa using hcookies, rfl⟩
      rcases outcome with _ | outcome
      · refine ⟨?_, rfl, hbears (by simp)⟩
        simpa using ⟨trivial, hclock _, hrefresh⟩
      · obtain ⟨resp, rfl⟩ := hsome outcome rfl
        simp only [StateT.run_bind, StateT.run_monadLift, monadLift_self, always_bind,
          always_pure, StateT.run_pure]
        have hasked : (⟨.refresh authUrl (cookieHeader (storeEntry authUrl store).2), .ok resp⟩ :
            Event) ∈ past ++ ⟨.loadStore, store⟩ ::
              (events ++ [⟨.refresh authUrl (cookieHeader (storeEntry authUrl store).2),
                .ok resp⟩]) := by simp
        refine (recordRefresh_licensed auth accepts known hasked (hok resp rfl)).mono
          fun saved _ hsaved => ?_
        refine (auth.cacheToken_spec outcome.accessToken s).mono fun cached r hcache => ?_
        obtain ⟨rfl, hurl, -⟩ := hcache
        have hgives : Event.refreshed accepts
            ⟨.refresh authUrl (cookieHeader (storeEntry authUrl store).2), .ok resp⟩ =
              some outcome.accessToken := by rw [Event.refreshed, hok resp rfl]; rfl
        refine ⟨?_, hurl, hbears ?_⟩
        · simpa using ⟨trivial, hclock _, hrefresh, by simpa using hsaved⟩
        · rintro t ⟨⟩
          exact .inr (by simp [hgives])
  · simp only [StateT.run_bind, always_bind, StateT.run_pure, always_pure]
    refine (auth.cacheToken_spec token s).mono fun events' r h' => ?_
    obtain ⟨rfl, hurl, -⟩ := h'
    obtain ⟨-, now, rfl, hfresh⟩ := h.chosen token hu
    refine ⟨by simpa using ⟨trivial, trivial⟩, hurl, hbears ?_⟩
    rintro t ⟨⟩
    exact .inl ⟨now, by simp, hfresh⟩

/-- Where the auth server of a state is from. -/
def Tracks (past : List Event) (s : GatewayAuth.State) : Prop :=
  ∀ authUrl, s.authUrl = some authUrl → Knows known past authUrl

variable {known} in
omit [SerdeJson] in
/-- The auth server of a state that has not changed. -/
theorem Tracks.append {past : List Event} {s s' : GatewayAuth.State} (h : Tracks known past s)
    (events : List Event) (hurl : s'.authUrl = s.authUrl) : Tracks known (past ++ events) s' :=
  fun u hu => (h u (hurl ▸ hu)).append events

/-- The current token is fresh, or from a refresh. -/
theorem currentToken_asked {past : List Event} {s : GatewayAuth.State} (h : Tracks known past s) :
    Always ((auth.currentToken (auth.resolveToken (refreshWith accepts))).run s) fun events r =>
      Asked auth accepts known past s events r.1 r.2 := by
  simp only [currentToken, StateT.run_bind, always_bind]
  refine ((cachedToken_asked auth accepts known past s).and (auth.cachedToken_spec s)).mono ?_
  rintro events ⟨_ | token, s'⟩ ⟨hcached, hspec⟩
  · have hnone : auth.staticToken = none := by
      by_contra hsome
      obtain ⟨t, ht⟩ := Option.ne_none_iff_exists'.mp hsome
      simpa using (hspec.pinned t ht).1
    have hurl' : s'.authUrl = s.authUrl := hcached.authUrl
    have hquits : Asked auth accepts known past s (events ++ []) none s' := by
      rw [List.append_nil]
      exact hcached
    simp only [wantsStoreToken, hnone, StateT.run_bind, StateT.run_get, pure_bind,
      StateT.run_pure, Option.isNone_none, Bool.true_and]
    rcases hurl : s'.authUrl with _ | url
    · exact hquits
    · simp only [Option.isSome_some, if_true, StateT.run_bind, StateT.run_get, pure_bind, hurl]
      have hknows : Knows known (past ++ events) url := h.append events hurl' url hurl
      refine (resolveToken_asked auth accepts known hnone hknows none s').mono fun back r hr => ?_
      exact ⟨hcached.licensed.append hr.licensed, hr.authUrl.trans hurl',
        hr.bears.mono (List.subset_append_right _ _)⟩
  · simpa using hcached

/-! ## Passes -/

/-- Learning an auth server that a denial named is allowed. -/
theorem learnAuthServer_licensed {past : List Event} {e : Event} {status : ℕ} {authUrl : String}
    (he : e ∈ past) (named : e.denial = some (status, authUrl)) (s : GatewayAuth.State) :
    Always ((auth.learnAuthServer authUrl).run s) fun events r =>
      Licensed (May auth accepts known) past events ∧ Tracks known (past ++ events) r.2 := by
  refine (auth.learnAuthServer_spec authUrl s).mono fun events r h => ⟨?_, ?_⟩
  · rcases h.events with rfl | ⟨hnone, store, rfl | ⟨store', hlearn, rfl⟩⟩
    · trivial
    · exact ⟨trivial, trivial⟩
    · refine ⟨trivial, ⟨past, store, rfl, ?_⟩, trivial⟩
      exact .learned (List.mem_append_left _ he) named hnone hlearn
  · intro u hu
    rw [h.state, Option.some.injEq] at hu
    exact .inr ⟨e, List.mem_append_left _ he, status, hu ▸ named⟩

/-- Resolving the token for another try is allowed. -/
theorem retryToken_asked {past : List Event} {status : ℕ} {authUrl : String}
    (hknows : Knows known past authUrl) (token : Option String) (s : GatewayAuth.State) :
    Always ((retryToken auth (auth.resolveToken (refreshWith accepts)) status authUrl token).run s)
      fun events r => Licensed (May auth accepts known) past events ∧ r.2.authUrl = s.authUrl ∧
        ∀ t, r.1 = some t → Bears auth accepts events (some t) := by
  unfold retryToken
  split_ifs with h
  · have hnone : auth.staticToken = none := by
      have hpinned := h.2
      rw [hasStaticToken, Bool.not_eq_true, Option.isSome_eq_false_iff, Option.isNone_iff_eq_none]
        at hpinned
      exact hpinned
    refine (resolveToken_asked auth accepts known hnone hknows token s).mono fun events r hr => ?_
    exact ⟨hr.licensed, hr.authUrl, fun t ht => ht ▸ hr.bears⟩
  · exact ⟨trivial, rfl, fun t ht => by cases ht⟩

/-- **What a pass may do.** A pass over attempts that send at most one request keeps to the rule.

**Proof sketch.** Along the pass: the first request carries the current token; a denial names the
auth server that is learned, and that a token is resolved for; the second request carries that
token. -/
theorem pass_licensed {lost : Event → Bool}
    {attempt : Option String → Program Op Op.Ans (Attempt α)}
    (hattempt : Attempt.Refrains attempt ∨ Attempt.Sends lost attempt) (learnsAgain : Bool)
    {past : List Event} {s : GatewayAuth.State} (h : Tracks known past s) :
    Always ((pass auth (auth.resolveToken (refreshWith accepts)) learnsAgain attempt).run s)
      fun events r => Licensed (May auth accepts known) past events ∧
        Tracks known (past ++ events) r.2 := by
  simp only [pass, StateT.run_bind, StateT.run_monadLift, monadLift_self, always_bind, always_pure]
  refine (currentToken_asked auth accepts known h).mono ?_
  rintro asked ⟨token, s₁⟩ hasked
  have hs₁ : Tracks known (past ++ asked) s₁ := h.append asked hasked.authUrl
  rcases hattempt with ⟨err, -, hnone⟩ | hsends
  · simp only [hnone, always_pure, StateT.run_pure, List.append_nil]
    exact ⟨hasked.licensed, hs₁⟩
  refine (hsends token).mono ?_
  rintro events a ⟨e, rfl, hbearer, hreads⟩
  -- The first request, and what is left after it if it settles the pass.
  have hmay : Licensed (May auth accepts known) past (asked ++ [e]) :=
    hasked.licensed.append
      ⟨may_of_bearer hbearer (hasked.bears.mono (List.subset_append_right _ _)), trivial⟩
  have hsettled : Tracks known (past ++ (asked ++ [e])) s₁ := by
    rw [← List.append_assoc]
    exact hs₁.append [e] rfl
  rcases a with a | ⟨status, authUrl⟩ | err
  · simpa using And.intro hmay hsettled
  · obtain ⟨hdenial, -⟩ := hreads
    have hmem : e ∈ past ++ (asked ++ [e]) := by simp
    simp only [StateT.run_bind, always_bind]
    refine (learnAuthServer_licensed auth accepts known hmem hdenial s₁).mono fun learned r hl => ?_
    obtain ⟨hlearned, hs₂⟩ := hl
    have hknows : Knows known (past ++ (asked ++ [e] ++ learned)) authUrl :=
      .inr ⟨e, by simp, status, hdenial⟩
    refine (retryToken_asked auth accepts known hknows token r.2).mono fun tried r' htries => ?_
    obtain ⟨htried, hurl, hfresh⟩ := htries
    have hdenied := (hmay.append hlearned).append htried
    have hs₃ := hs₂.append tried hurl
    obtain ⟨_ | fresh, s₃⟩ := r'
    · simpa using And.intro hdenied hs₃
    · simp only [StateT.run_bind, StateT.run_monadLift, monadLift_self, always_bind, always_pure]
      refine (hsends (some fresh)).mono ?_
      rintro events a ⟨e', rfl, hbearer', hreads'⟩
      have hagain : Licensed (May auth accepts known) past
          (asked ++ [e] ++ learned ++ tried ++ [e']) :=
        hdenied.append
          ⟨may_of_bearer hbearer' ((hfresh fresh rfl).mono fun x hx => by simp [hx]), trivial⟩
      have hs₄ : Tracks known _ s₃ := hs₃.append [e'] rfl
      rcases a with a | ⟨status', authUrl'⟩ | err
      · simpa using And.intro hagain hs₄
      · cases learnsAgain
        · simpa using And.intro hagain hs₄
        · simp only [if_true, StateT.run_bind, always_bind]
          have hmem' : e' ∈ past ++ (asked ++ [e] ++ learned ++ tried ++ [e']) := by simp
          refine (learnAuthServer_licensed auth accepts known hmem' hreads'.1 s₃).mono
            fun learned' r hl' => ?_
          simpa using And.intro (hagain.append hl'.1) hl'.2
      · simpa using And.intro hagain hs₄
  · simpa using And.intro hmay hsettled

end

/-! ## Calls and runs -/

namespace Transport

variable [SerdeJson] (t : Transport) (client : Client) {known : Option String} {past : List Event}
  {s s' : GatewayAuth.State}

/-- What a pass of either client may do. -/
theorem pass_licensed (p : Pass) (h : Tracks known past s) :
    Always ((t.pass client p).run s) fun events r =>
      Licensed (May client.auth t.accepts known) past events ∧
        Tracks known (past ++ events) r.2 := by
  rw [t.pass_eq client p]
  exact Lager.pass_licensed client.auth t.accepts known (t.attempt_spec client p).kind
    p.learnsAgain h

/-- What asking for the current token may do. -/
theorem currentToken_licensed (h : Tracks known past s) :
    Always ((t.currentToken client).run s) fun events r =>
      Licensed (May client.auth t.accepts known) past events ∧
        Tracks known (past ++ events) r.2 := by
  rw [t.currentToken_eq client]
  refine (currentToken_asked client.auth t.accepts known h).mono fun events r hr => ?_
  exact ⟨hr.licensed, h.append events hr.authUrl⟩

/-- What `bearer_token` may do: it may ask for the health of the box in between. -/
theorem bearerToken_licensed (h : Tracks known past s) :
    Always ((t.bearerToken client).run s) fun events r =>
      Licensed (May client.auth t.accepts known) past events ∧
        Tracks known (past ++ events) r.2 := by
  rw [t.bearerToken_eq client]
  simp only [Lager.bearerToken, StateT.run_bind, always_bind]
  refine (t.currentToken_licensed client h).mono ?_
  rintro asked ⟨_ | token, s₁⟩ ⟨hasked, hs₁⟩
  · simp only [StateT.run_bind, StateT.run_get, pure_bind]
    split_ifs
    · simp only [StateT.run_bind, always_bind]
      have hhealth := @health_spec _ (fun req => t.pass client (.execute req)) s₁
        (fun events _ s₂ => Licensed (May client.auth t.accepts known) (past ++ asked) events ∧
          Tracks known (past ++ asked ++ events) s₂)
        (t.pass_licensed client (.execute healthRequest) hs₁)
      refine hhealth.mono ?_
      rintro events ⟨err | _, s₂⟩ ⟨-, hpass, hs₂⟩
      · simpa using And.intro (hasked.append hpass) (by simpa using hs₂)
      · have hpassed := hasked.append hpass
        simp only [StateT.run_bind, always_bind]
        rw [List.append_assoc] at hs₂
        refine (t.currentToken_licensed client hs₂).mono ?_
        rintro asked' ⟨_ | token, s₃⟩ ⟨hasked', hs₃⟩
        · refine (noToken_spec client.auth s₃).mono ?_
          rintro none r ⟨rfl, rfl⟩
          simpa using And.intro (hpassed.append hasked') hs₃
        · simpa using And.intro (hpassed.append hasked') hs₃
    · refine (noToken_spec client.auth s₁).mono ?_
      rintro none r ⟨rfl, rfl⟩
      simpa using And.intro hasked hs₁
  · simpa using And.intro hasked hs₁

/-- **What a call may do.** Every call of either client keeps to the rule, and knows afterwards the
auth server it knew before or was named. -/
theorem call_licensed (c : ClientCall) (h : Tracks known past s) :
    Always ((t.call client c).run s) fun events r =>
      Licensed (May client.auth t.accepts known) past events ∧
        Tracks known (past ++ events) r.2 := by
  rcases c with p | _ | _
  · simp only [call, StateT.run_bind, always_bind]
    refine (t.pass_licensed client p h).mono fun events r hr => ?_
    simpa using hr
  · simp only [call, StateT.run_bind, always_bind]
    refine (t.currentToken_licensed client h).mono fun events r hr => ?_
    simpa using hr
  · simp only [call, StateT.run_bind, always_bind]
    refine (t.bearerToken_licensed client h).mono fun events r hr => ?_
    simpa using hr

/-- What a client may do in a run: what it may in each call. -/
theorem Runs.licensed {t : Transport} {client : Client} {history : List Step}
    (h : t.Runs client s history s') (htracks : Tracks known past s) :
    Licensed (May client.auth t.accepts known) past (trace history) := by
  induction h generalizing past with
  | nil s => trivial
  | @cons s s₁ s' c events history call rest ih =>
    obtain ⟨hevents, hs₁⟩ := always_iff_run.mp (t.call_licensed client c htracks) _ _ call
    rw [trace_cons]
    exact hevents.append (ih hs₁)

end Transport

/-- **No stale token is sent.** In every call of a run, each request with a token carries the pinned
token, or one that was found fresh at a reading of the clock earlier in that call, or one that came
with the answer to a refresh earlier in that call.

**Proof sketch.** The rule for requests, at each request of each call. -/
theorem no_stale_token [SerdeJson] (t : Transport) (client : Client) (s s' : GatewayAuth.State)
    (history : List Step) (h : t.Runs client s history s') :
    ∀ step ∈ history, ∀ front e back token, step.events = front ++ e :: back →
      e.bearer = some (some token) →
      client.auth.staticToken = some token ∨ Vouched t.accepts front token := by
  refine h.always fun s c => ?_
  have htracks : Tracks s.authUrl [] s := fun url hurl => .inl hurl
  refine (t.call_licensed client c htracks).mono fun events _ hcall => ?_
  intro front e back token heq hbearer
  have hbears := bears_of_may hbearer (licensed_iff.mp hcall.1 front e back heq)
  rcases hpinned : client.auth.staticToken with _ | pinned
  · exact .inr (hbears.vouched hpinned token rfl)
  · exact .inl (hbears.pinned pinned hpinned).symm

/-- A client that is denied, and refreshes its session, sends the token from the refresh. -/
theorem no_stale_token_signIn :
    letI := refreshParser
    Vouched Transport.blocking.accepts (gated.take 7) "t" := by
  let _ := refreshParser
  have hrun : Transport.blocking.Runs unpinned ⟨none, none⟩
      [⟨⟨none, none⟩, .pass (.execute healthRequest), gated⟩] ⟨some "http://a", some "t"⟩ :=
    .cons (.op _ (.op _ (.op _ (.op _ (.op _ (.op _ (.op _ (.op _ (.pure _))))))))) (.nil _)
  have hall := no_stale_token .blocking unpinned _ _ _ hrun _ (List.mem_singleton.mpr rfl)
    (gated.take 7) ⟨askHealth (some "t"), .ok ⟨200, false, [], .ok [111, 107]⟩⟩ [] "t" rfl rfl
  exact hall.resolve_left (by simp [unpinned])

end Lager
