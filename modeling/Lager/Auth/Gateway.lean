import Lager.Auth.Store
import Lager.Client.Interface

set_option relaxedAutoImplicit false
set_option autoImplicit false

/-!
# Gateway auth

The bearer token of one client: pinned by the builder or the environment, or taken from the token
store for the auth server the gateway of its box names, with a refresh when it has expired.

## Main definitions

* `Lager.GatewayAuth`, `Lager.GatewayAuth.State` — what a client knows of its gateway, the
  part behind the mutex apart.
* `Lager.GatewayAuth.learnAuthServer`, `Lager.GatewayAuth.cachedToken` — discovery and cache.
* `Lager.GatewayAuth.resolveTokenBlocking`, `Lager.GatewayAuth.resolveTokenAsync` — a token
  from the store, refreshed if need be.
* `Lager.denialError` — the error of a gateway denial.
-/

namespace Lager

open Library

/-! ## Denials -/

/-- `denial_error`. -/
def denialError (status : ℕ) (boxHost authUrl : String) (sentToken : Bool) : Error :=
  if status = 401 then
    .authRequired boxHost authUrl
      (if sentToken then .sessionRejected boxHost else .requiresSignIn boxHost)
  else if status = 403 then .box status (.notAuthorized boxHost)
  else .box status (.couldNotVerify boxHost)

/-- Only a denial with 401 is turned into an error that asks for a sign-in. -/
theorem denialError_of_ne {status : ℕ} (h : status ≠ 401) (boxHost authUrl : String)
    (sentToken : Bool) (b u : String) (m : Message) :
    denialError status boxHost authUrl sentToken ≠ .authRequired b u m := by
  rw [denialError, if_neg h]
  split_ifs <;> simp

/-- Whether an error is that of a gateway denial. -/
def Error.isDenial : Error → Bool
  | .authRequired .. => true
  | .box _ (.notAuthorized _) => true
  | .box _ (.couldNotVerify _) => true
  | _ => false

/-- The error of a gateway denial is one. -/
@[simp] theorem isDenial_denialError (status : ℕ) (boxHost authUrl : String) (sentToken : Bool) :
    (denialError status boxHost authUrl sentToken).isDenial = true := by
  unfold denialError
  split_ifs <;> rfl

/-! ## State -/

/-- `GatewayAuth`, without its mutex: the host of the box, and the pinned token. -/
structure GatewayAuth where
  boxHost : String
  staticToken : Option String
  deriving DecidableEq, Repr

namespace GatewayAuth

/-- `State`: the auth server of the box, and the token taken from the store. -/
structure State where
  authUrl : Option String
  token : Option String
  deriving DecidableEq, Repr

end GatewayAuth

/-- What a client does: a program that reads and writes what is behind the mutex. -/
abbrev Action := StateT GatewayAuth.State (Program Op Op.Ans)

/-- `host_of`. -/
def hostOf (baseUrl : String) : String :=
  let rest := ((splitOnce "://".toList baseUrl.toList).map Prod.snd).getD baseUrl.toList
  let rest := (rest.splitOn '/').headD rest
  String.ofList (((rsplitOnce ':' rest).map Prod.fst).getD rest)

/-! ## The auth server and the store -/

/-- Record the auth server of a box in the store. -/
def recordBox (boxHost authUrl : String) : Program Op Op.Ans Unit := do
  let store ← loadStore
  match learnBox boxHost authUrl store with
  | some store => saveStore store
  | none => return ()

/-- Record a refreshed session in the store. -/
def recordRefresh (authUrl : String) (outcome : RefreshOutcome) : Program Op Op.Ans Unit := do
  let store ← loadStore
  saveStore (applyRefresh authUrl outcome store)

namespace GatewayAuth

/-- `GatewayAuth::new`; `env` is the token in the environment, if there is one. -/
def new (baseUrl : String) (builderToken env : Option String) :
    Program Op Op.Ans (GatewayAuth × State) := do
  let boxHost := hostOf baseUrl
  let staticToken := (builderToken.or env).filter fun t => trim t.toList ≠ []
  let store ← loadStore
  return (⟨boxHost, staticToken⟩, ⟨boxAuthUrl boxHost store, none⟩)

variable (auth : GatewayAuth)

/-- `learn_auth_server`. A client with a pinned token does not touch the store. -/
def learnAuthServer (authUrl : String) : Action Unit := do
  let state ← get
  if state.authUrl = some authUrl then return ()
  else
    set { state with authUrl := some authUrl }
    if auth.staticToken.isSome then return ()
    else recordBox auth.boxHost authUrl

/-- `wants_store_token`. -/
def wantsStoreToken : Action Bool := do
  let state ← get
  return auth.staticToken.isNone && state.authUrl.isSome

/-- `has_static_token`. -/
def hasStaticToken : Bool := auth.staticToken.isSome

/-- `cache_token`. -/
def cacheToken (token : String) : Action Unit := do
  let state ← get
  if auth.staticToken.isNone then set { state with token := some token }
  else return ()

/-- `cached_token`: the pinned token, or a cached one that is still fresh. Clears a stale one. -/
def cachedToken [SerdeJson] : Action (Option String) := do
  match auth.staticToken with
  | some token => return some token
  | none =>
    let state ← get
    match state.token with
    | some token =>
      let now ← nowEpoch
      if tokenIsFresh now token then return some token
      else
        set { state with token := none }
        return none
    | none => return none

end GatewayAuth

/-! ## Token resolution -/

/-- `usable_or_refresh`. -/
def usableOrRefresh [SerdeJson] (stored avoid : Option String) :
    Program Op Op.Ans (Option String × Bool) := do
  match stored with
  | some token =>
    if some token = avoid then return (none, true)
    else
      let now ← nowEpoch
      if tokenIsFresh now token then return (some token, false) else return (none, true)
  | none => return (none, true)

/-- What a refresh came to, if the status of its answer is accepted. -/
def refreshOutcome [SerdeJson] (accepts : ℕ → Bool) (resp : Response) : Option RefreshOutcome :=
  if accepts resp.status then do
    let setCookies := ((resp.headers.filter fun h => h.1 == "set-cookie").filterMap
      fun h => headerToStr h.2).filterMap parseSetCookie
    let bytes ← resp.body.toOption
    let body ← (SerdeJson.fromSlice bytes).toOption
    let accessToken ← (body.get "accessToken").bind Value.asStr
    return ⟨accessToken, setCookies⟩
  else none

/-- `refresh_blocking` and `refresh_async`: they differ in the statuses they accept. -/
def refreshWith [SerdeJson] (accepts : ℕ → Bool) (authUrl : String) (cookies : Map) :
    Program Op Op.Ans (Option RefreshOutcome) := do
  let answer ← askRefresh authUrl (cookieHeader cookies)
  match answer with
  | .ok resp => return refreshOutcome accepts resp
  | .error _ => return none

/-- The statuses `refresh_blocking` accepts. -/
def acceptsBlocking (status : ℕ) : Bool := status < 400

/-- The statuses `refresh_async` accepts. -/
def acceptsAsync (status : ℕ) : Bool := 200 ≤ status && status < 300

/-- `refresh_blocking`. -/
def refreshBlocking [SerdeJson] := refreshWith acceptsBlocking

/-- `refresh_async`. -/
def refreshAsync [SerdeJson] := refreshWith acceptsAsync

namespace GatewayAuth

variable (auth : GatewayAuth)

/-- `resolve_token_blocking` and `resolve_token_async`: a usable token for an auth server from the
store, refreshed if need be. `avoid` is a token the gateway just rejected. -/
def resolveToken [SerdeJson]
    (refresh : String → Map → Program Op Op.Ans (Option RefreshOutcome))
    (authUrl : String) (avoid : Option String) : Action (Option String) := do
  let store ← loadStore
  let entry := storeEntry authUrl store
  let usable ← usableOrRefresh entry.1 avoid
  match usable.1 with
  | some token =>
    auth.cacheToken token
    return some token
  | none =>
    if !usable.2 || entry.2.isEmpty then return none
    else
      match ← refresh authUrl entry.2 with
      | none => return none
      | some outcome =>
        recordRefresh authUrl outcome
        auth.cacheToken outcome.accessToken
        return some outcome.accessToken

/-- `resolve_token_blocking`. -/
def resolveTokenBlocking [SerdeJson] := auth.resolveToken refreshBlocking

/-- `resolve_token_async`. -/
def resolveTokenAsync [SerdeJson] := auth.resolveToken refreshAsync

/-- `current_token` of either client: the token to attach right now. -/
def currentToken [SerdeJson]
    (resolve : String → Option String → Action (Option String)) : Action (Option String) := do
  match ← auth.cachedToken with
  | some token => return some token
  | none =>
    if ← auth.wantsStoreToken then
      match (← get).authUrl with
      | some authUrl => resolve authUrl none
      | none => return none
    else return none

end GatewayAuth

/-! ## What the operations do

Each in terms of the events of a run, the state before and the state after. -/

/-- The token an accepted answer to a refresh gives. -/
def Event.refreshed [SerdeJson] (accepts : ℕ → Bool) : Event → Option String
  | ⟨.refresh _ _, .ok resp⟩ => (refreshOutcome accepts resp).map RefreshOutcome.accessToken
  | _ => none

/-- The tokens the accepted answers to refreshes give. -/
def refreshedTokens [SerdeJson] (accepts : ℕ → Bool) (events : List Event) : List String :=
  events.filterMap (Event.refreshed accepts)

@[simp] theorem refreshedTokens_append [SerdeJson] (accepts : ℕ → Bool)
    (events events' : List Event) : refreshedTokens accepts (events ++ events') =
      refreshedTokens accepts events ++ refreshedTokens accepts events' :=
  List.filterMap_append

/-- The tokens of an event and more. -/
theorem refreshedTokens_cons [SerdeJson] (accepts : ℕ → Bool) (e : Event) (events : List Event) :
    refreshedTokens accepts (e :: events) =
      (e.refreshed accepts).toList ++ refreshedTokens accepts events := by
  rw [refreshedTokens, List.filterMap_cons]
  cases e.refreshed accepts <;> rfl

@[simp] theorem refreshedTokens_nil [SerdeJson] (accepts : ℕ → Bool) :
    refreshedTokens accepts [] = [] := rfl

/-- A refresh gives what its answer gives. -/
@[simp] theorem refreshedTokens_refresh [SerdeJson] (accepts : ℕ → Bool) (authUrl cookies : String)
    (answer : Except Failure Response) (events : List Event) :
    refreshedTokens accepts (⟨.refresh authUrl cookies, answer⟩ :: events) =
      (Event.refreshed accepts ⟨.refresh authUrl cookies, answer⟩).toList ++
        refreshedTokens accepts events :=
  refreshedTokens_cons accepts _ events

/-- A load of the store gives none. -/
@[simp] theorem refreshedTokens_load [SerdeJson] (accepts : ℕ → Bool) (store : Op.loadStore.Ans)
    (events : List Event) : refreshedTokens accepts (⟨.loadStore, store⟩ :: events) =
      refreshedTokens accepts events := rfl

/-- Nor does a save. -/
@[simp] theorem refreshedTokens_save [SerdeJson] (accepts : ℕ → Bool) (store : Value)
    (ans : Unit) (events : List Event) :
    refreshedTokens accepts (⟨.saveStore store, ans⟩ :: events) =
      refreshedTokens accepts events := rfl

/-- No request to the box. -/
def Quiet (events : List Event) : Prop := ∀ e ∈ events, e.bearer = none

@[simp] theorem quiet_nil : Quiet [] := List.forall_mem_nil _

@[simp] theorem quiet_cons {e : Event} {events : List Event} :
    Quiet (e :: events) ↔ e.bearer = none ∧ Quiet events := List.forall_mem_cons

@[simp] theorem quiet_append {events events' : List Event} :
    Quiet (events ++ events') ↔ Quiet events ∧ Quiet events' := List.forall_mem_append

/-- A token was had from the session of an auth server in the store: read from it, or in a refresh
with its cookies whose status was accepted. -/
def Obtained [SerdeJson] (accepts : ℕ → Bool) (authUrl token : String) (events : List Event) :
    Prop :=
  ∃ store, (⟨.loadStore, store⟩ : Event) ∈ events ∧
    ((storeEntry authUrl store).1 = some token ∨
      ∃ resp setCookies,
        (⟨.refresh authUrl (cookieHeader (storeEntry authUrl store).2), .ok resp⟩ : Event)
          ∈ events ∧
        refreshOutcome accepts resp = some ⟨token, setCookies⟩)

/-- What was had in some events was had in more. -/
theorem Obtained.mono [SerdeJson] {accepts : ℕ → Bool} {authUrl token : String}
    {events events' : List Event} (h : Obtained accepts authUrl token events)
    (hsub : ∀ e ∈ events, e ∈ events') : Obtained accepts authUrl token events' := by
  obtain ⟨store, hload, htoken⟩ := h
  refine ⟨store, hsub _ hload, htoken.imp_right ?_⟩
  rintro ⟨resp, setCookies, hrefresh, hout⟩
  exact ⟨resp, setCookies, hsub _ hrefresh, hout⟩

/-- The answers let a token be resolved for an auth server: the store has a fresh one, other than
the one to avoid, when its freshness is checked; or a refresh is answered with one. -/
def Resolvable [SerdeJson] (accepts : ℕ → Bool) (authUrl : String) (avoid : Option String)
    (events : List Event) : Prop :=
  (∃ store now token, [⟨.loadStore, store⟩, ⟨.nowEpoch, now⟩] <:+: events ∧
    (storeEntry authUrl store).1 = some token ∧ some token ≠ avoid ∧ tokenIsFresh now token) ∨
  ∃ cookies resp, (⟨.refresh authUrl cookies, .ok resp⟩ : Event) ∈ events ∧
    (refreshOutcome accepts resp).isSome

/-- `recordBox` loads the store and saves it if the auth server is new to it. -/
theorem recordBox_spec (boxHost authUrl : String) :
    Always (recordBox boxHost authUrl) fun events _ =>
      ∃ store, learnBox boxHost authUrl store = none ∧ events = [⟨.loadStore, store⟩] ∨
        ∃ store', learnBox boxHost authUrl store = some store' ∧
          events = [⟨.loadStore, store⟩, ⟨.saveStore store', ()⟩] := by
  rw [recordBox, always_bind, always_loadStore]
  intro store
  rcases hl : learnBox boxHost authUrl store with _ | store'
  · exact ⟨store, .inl ⟨hl, rfl⟩⟩
  · exact fun _ => ⟨store, .inr ⟨store', hl, rfl⟩⟩

namespace GatewayAuth

variable (auth : GatewayAuth)

/-- What learning an auth server does. -/
structure Learns (authUrl : String) (s : State) (events : List Event) (s' : State) : Prop where
  state : s' = { s with authUrl := some authUrl }
  events : events = [] ∨ auth.staticToken = none ∧ ∃ store, events = [⟨.loadStore, store⟩] ∨
    ∃ store', learnBox auth.boxHost authUrl store = some store' ∧
      events = [⟨.loadStore, store⟩, ⟨.saveStore store', ()⟩]

/-- `learn_auth_server` learns. -/
theorem learnAuthServer_spec (authUrl : String) (s : State) :
    Always ((auth.learnAuthServer authUrl).run s) fun events r =>
      auth.Learns authUrl s events r.2 := by
  simp only [learnAuthServer, StateT.run_bind, StateT.run_get, pure_bind]
  split_ifs with hsame hpinned
  · exact ⟨by rw [← hsame], .inl rfl⟩
  · exact ⟨rfl, .inl rfl⟩
  · have hnone : auth.staticToken = none := by simpa using hpinned
    simp only [StateT.run_bind, StateT.run_set, pure_bind, StateT.run_monadLift, always_bind,
      always_pure]
    refine (recordBox_spec auth.boxHost authUrl).mono fun events _ h => ⟨rfl, .inr ⟨hnone, ?_⟩⟩
    obtain ⟨store, h⟩ := h
    exact ⟨store, by simpa using h.imp_left And.right⟩

/-- What asking for the cached token does. -/
structure Cached (s : State) (events : List Event) (token : Option String) (s' : State) : Prop where
  quiet : Quiet events
  authUrl : s'.authUrl = s.authUrl
  pinned : ∀ t, auth.staticToken = some t → token = some t ∧ events = [] ∧ s' = s
  cached : auth.staticToken = none → s'.token = token
  origin : auth.staticToken = none → token = none ∨ token = s.token
  empty : s.token = none → events = []

/-- `cached_token` gives the pinned token, or what is cached and fresh. -/
theorem cachedToken_spec [SerdeJson] (s : State) :
    Always (auth.cachedToken.run s) fun events r => auth.Cached s events r.1 r.2 := by
  obtain ⟨boxHost, _ | pinned⟩ := auth
  · obtain ⟨authUrl, _ | token⟩ := s
    · constructor <;> simp
    · simp only [cachedToken, StateT.run_bind, StateT.run_get, pure_bind, StateT.run_monadLift,
        monadLift_self, always_bind, always_pure, always_nowEpoch]
      intro now
      split_ifs
      · constructor <;> simp [Event.bearer]
      · constructor <;> simp [Event.bearer]
  · constructor <;> simp

/-- What looking for a usable stored token does. -/
structure Checked [SerdeJson] (stored avoid : Option String) (events : List Event)
    (usable : Option String × Bool) : Prop where
  clock : events = [] ∨ ∃ now, events = [⟨.nowEpoch, now⟩]
  isStored : ∀ token, usable.1 = some token → stored = some token
  refresh : usable.1 = none → usable.2 = true
  fresh : ∀ token now, stored = some token → some token ≠ avoid → tokenIsFresh now token →
    events = [⟨.nowEpoch, now⟩] → usable.1 ≠ none
  chosen : ∀ token, usable.1 = some token →
    some token ≠ avoid ∧ ∃ now, events = [⟨.nowEpoch, now⟩] ∧ tokenIsFresh now token

/-- The check refreshes nothing. -/
theorem Checked.not_refreshed [SerdeJson] {stored avoid : Option String} {events : List Event}
    {usable : Option String × Bool} (h : Checked stored avoid events usable) (accepts : ℕ → Bool) :
    refreshedTokens accepts events = [] := by
  rcases h.clock with rfl | ⟨now, rfl⟩ <;> rfl

/-- `usable_or_refresh` uses a stored token that is fresh and not to be avoided. -/
theorem usableOrRefresh_spec [SerdeJson] (stored avoid : Option String) :
    Always (usableOrRefresh stored avoid) (Checked stored avoid) := by
  rcases stored with _ | token
  · constructor <;> simp
  · simp only [usableOrRefresh]
    split_ifs with havoid
    · constructor <;> simp [havoid]
    · simp only [always_bind, always_nowEpoch]
      intro now
      split_ifs with hfresh
      · refine ⟨.inr ⟨now, rfl⟩, fun t ht => ht, by simp, fun _ _ _ _ _ _ => by simp, ?_⟩
        rintro t ⟨⟩
        exact ⟨havoid, now, rfl, hfresh⟩
      · refine ⟨.inr ⟨now, rfl⟩, by simp, by simp, fun t now' ht _ hfresh' hevents => ?_, by simp⟩
        obtain rfl : token = t := by simpa using ht
        have hnow : now = now' := event_inj (List.cons.inj hevents).1
        exact absurd (hnow ▸ hfresh') hfresh

/-- A refresh asks once, and comes to what its answer says. -/
theorem refreshWith_spec [SerdeJson] (accepts : ℕ → Bool) (authUrl : String) (cookies : Map) :
    Always (refreshWith accepts authUrl cookies) fun events outcome =>
      ∃ answer, events = [⟨.refresh authUrl (cookieHeader cookies), answer⟩] ∧
        (∀ resp, answer = .ok resp → refreshOutcome accepts resp = outcome) ∧
        ∀ o, outcome = some o → ∃ resp, answer = .ok resp := by
  simp only [refreshWith, always_bind, always_askRefresh]
  intro answer
  rcases answer with failure | resp
  · refine ⟨.error failure, rfl, ?_, ?_⟩ <;> intro _ h <;> cases h
  · exact ⟨.ok resp, rfl, fun resp' h => by cases h; rfl, fun _ _ => ⟨resp, rfl⟩⟩

/-- `recordRefresh` loads the store and saves it. -/
theorem recordRefresh_spec (authUrl : String) (outcome : RefreshOutcome) :
    Always (recordRefresh authUrl outcome) fun events _ => ∃ store,
      events = [⟨.loadStore, store⟩, ⟨.saveStore (applyRefresh authUrl outcome store), ()⟩] := by
  simp only [recordRefresh, always_bind, always_loadStore]
  exact fun store _ => ⟨store, rfl⟩

/-- The store and the clock are not asked anything between the first load and the check, so the
check is the one the resolution makes. -/
theorem stored_of_infix {store store' : Value} {now : ℚ} {events : List Event}
    (h : ([⟨.loadStore, store'⟩, ⟨.nowEpoch, now⟩] : List Event) <:+: ⟨.loadStore, store⟩ :: events)
    (hnone : ∀ store, (⟨.loadStore, store⟩ : Event) ∉ events) :
    store' = store ∧ ∃ rest, events = ⟨.nowEpoch, now⟩ :: rest := by
  rcases List.infix_cons_iff.mp h with hfront | hwithin
  · obtain ⟨hstore, hrest⟩ := List.cons_prefix_cons.mp hfront
    obtain ⟨rest, hrest⟩ := hrest
    exact ⟨event_inj hstore, rest, hrest.symm⟩
  · exact absurd (hwithin.subset List.mem_cons_self) (hnone store')

/-- Where no stored token is usable and no refresh is answered with one, the answers let none be
resolved. -/
theorem Checked.not_resolvable [SerdeJson] {authUrl : String} {avoid : Option String}
    {store : Value} {events : List Event} {usable : Option String × Bool}
    (h : Checked (storeEntry authUrl store).1 avoid events usable) (hu : usable.1 = none)
    (accepts : ℕ → Bool) (rest : List Event)
    (hrest : ∀ e ∈ rest, ∃ url cookies answer, e = ⟨.refresh url cookies, answer⟩ ∧
      ∀ resp, answer = .ok resp → refreshOutcome accepts resp = none) :
    ¬ Resolvable accepts authUrl avoid (⟨.loadStore, store⟩ :: (events ++ rest)) := by
  have hop : ∀ e ∈ events ++ rest, (∃ now, e = ⟨.nowEpoch, now⟩) ∨ e ∈ rest := by
    intro e he
    rcases List.mem_append.mp he with he | he
    · rcases h.clock with rfl | ⟨now, rfl⟩
      · simp at he
      · exact .inl ⟨now, List.mem_singleton.mp he⟩
    · exact .inr he
  rintro (⟨store', now, token, hwithin, hstored, havoid, hfresh⟩ | ⟨cookies, resp, hmem, hsome⟩)
  · obtain ⟨rfl, tail, htail⟩ := stored_of_infix hwithin fun store'' hmem => by
      rcases hop _ hmem with ⟨now, he⟩ | he
      · cases he
      · obtain ⟨url, cookies, answer, he, -⟩ := hrest _ he
        cases he
    rcases h.clock with rfl | ⟨now', rfl⟩
    · rw [List.nil_append] at htail
      obtain ⟨url, cookies, answer, he, -⟩ := hrest ⟨.nowEpoch, now⟩ (by simp [htail])
      cases he
    · obtain rfl : now' = now := event_inj (List.cons.inj htail).1
      exact h.fresh token now' hstored havoid hfresh rfl hu
  · rcases List.mem_cons.mp hmem with he | he
    · cases he
    · rcases hop _ he with ⟨now, he⟩ | he
      · cases he
      · obtain ⟨url, cookies', answer, he, hnone⟩ := hrest _ he
        cases he
        simp [hnone resp rfl] at hsome

/-- Where a resolved token comes from: it is the fresh token of the stored session and not the one
to avoid, or the stored session has cookies and a refresh gave it. -/
def Source [SerdeJson] (accepts : ℕ → Bool) (url : String) (avoid : Option String) (token : String)
    (events : List Event) : Prop :=
  ∃ store rest, events = ⟨.loadStore, store⟩ :: rest ∧
    ((storeEntry url store).1 = some token ∧ some token ≠ avoid ∧
        (∃ now, (⟨.nowEpoch, now⟩ : Event) ∈ rest ∧ tokenIsFresh now token) ∨
      (storeEntry url store).2 ≠ [] ∧ token ∈ refreshedTokens accepts rest)

/-- What resolving a token for an auth server does. -/
structure Resolved [SerdeJson] (accepts : ℕ → Bool) (url : String) (avoid : Option String)
    (s : State) (events : List Event) (token : Option String) (s' : State) : Prop where
  quiet : Quiet events
  authUrl : s'.authUrl = s.authUrl
  obtained : ∀ t, token = some t → Obtained accepts url t events
  cached : ∀ t, token = some t → auth.staticToken = none → s'.token = some t
  failed : token = none → s' = s
  loads : ∃ store rest, events = ⟨.loadStore, store⟩ :: rest
  succeeds : Resolvable accepts url avoid events → token ≠ none
  source : ∀ t, token = some t → Source accepts url avoid t events
  refreshed : ∀ t ∈ refreshedTokens accepts events, token = some t

/-- Caching a token. -/
theorem cacheToken_spec (token : String) (s : State) :
    Always ((auth.cacheToken token).run s) fun events r =>
      events = [] ∧ r.2.authUrl = s.authUrl ∧
        (auth.staticToken = none → r.2.token = some token) := by
  simp only [cacheToken, StateT.run_bind, StateT.run_get, pure_bind]
  split_ifs with hpinned
  · exact ⟨rfl, rfl, fun _ => rfl⟩
  · exact ⟨rfl, rfl, fun h => absurd (by rw [h]; rfl) hpinned⟩

section

variable [SerdeJson] {auth} {accepts : ℕ → Bool} {url token : String} {avoid : Option String}
  {s s' : State} {store : Op.loadStore.Ans} {events : List Event}

/-- A resolution that gives no token leaves the state. -/
theorem Resolved.of_none (hquiet : Quiet events)
    (hnot : ¬ Resolvable accepts url avoid (⟨.loadStore, store⟩ :: events))
    (hnone : refreshedTokens accepts events = []) :
    auth.Resolved accepts url avoid s (⟨.loadStore, store⟩ :: events) none s where
  quiet := by simp [Event.bearer, hquiet]
  authUrl := rfl
  obtained := by simp
  cached := by simp
  failed _ := rfl
  loads := ⟨store, events, rfl⟩
  succeeds hres := absurd hres hnot
  source := by simp
  refreshed := by simp [hnone]

/-- A resolution that gives a token has it from the session, and caches it. -/
theorem Resolved.of_some (hquiet : Quiet events) (hurl : s'.authUrl = s.authUrl)
    (hcached : auth.staticToken = none → s'.token = some token)
    (hobtained : Obtained accepts url token (⟨.loadStore, store⟩ :: events))
    (hsource : Source accepts url avoid token (⟨.loadStore, store⟩ :: events))
    (hrefreshed : ∀ t ∈ refreshedTokens accepts events, token = t) :
    auth.Resolved accepts url avoid s (⟨.loadStore, store⟩ :: events) (some token) s' where
  quiet := by simp [Event.bearer, hquiet]
  authUrl := hurl
  obtained := by
    rintro t ⟨⟩
    exact hobtained
  cached := by
    rintro t ⟨⟩
    exact hcached
  failed := by simp
  loads := ⟨store, events, rfl⟩
  succeeds _ := by simp
  source := by
    rintro t ⟨⟩
    exact hsource
  refreshed t ht := congrArg some (hrefreshed t (by simpa using ht))

end

/-- The token resolution of either client resolves. -/
theorem resolveToken_spec [SerdeJson] (accepts : ℕ → Bool) (authUrl : String)
    (avoid : Option String) (s : State) :
    Always ((auth.resolveToken (refreshWith accepts) authUrl avoid).run s) fun events r =>
      auth.Resolved accepts authUrl avoid s events r.1 r.2 := by
  simp only [resolveToken, StateT.run_bind, StateT.run_monadLift, monadLift_self, always_bind,
    always_pure, always_loadStore]
  intro store
  refine (usableOrRefresh_spec (storeEntry authUrl store).1 avoid).mono fun events usable h => ?_
  have hquiet : Quiet events := by
    rcases h.clock with rfl | ⟨now, rfl⟩ <;> simp [Event.bearer]
  rcases hu : usable.1 with _ | token
  · simp only [h.refresh hu, Bool.not_true, Bool.false_or]
    split_ifs with hcookies
    · have hnot := h.not_resolvable hu accepts [] (by simp)
      exact .of_none (by simpa using hquiet) (by simpa using hnot)
        (by simp [h.not_refreshed accepts])
    · simp only [StateT.run_bind, StateT.run_monadLift, monadLift_self, always_bind, always_pure]
      refine (refreshWith_spec accepts authUrl _).mono fun asked outcome h' => ?_
      obtain ⟨answer, rfl, hok, hsome⟩ := h'
      rcases outcome with _ | outcome
      · have hnot := h.not_resolvable hu accepts [⟨.refresh authUrl _, answer⟩] fun e he =>
          ⟨authUrl, _, answer, List.mem_singleton.mp he, hok⟩
        refine .of_none (by simp [Event.bearer, hquiet]) (by simpa using hnot) ?_
        rcases answer with failure | resp
        · simp [h.not_refreshed accepts, Event.refreshed]
        · simp [h.not_refreshed accepts, Event.refreshed, hok resp rfl]
      · obtain ⟨resp, rfl⟩ := hsome outcome rfl
        simp only [StateT.run_bind, StateT.run_monadLift, monadLift_self, always_bind,
          always_pure, StateT.run_pure]
        refine (recordRefresh_spec authUrl outcome).mono fun saved _ hsaved => ?_
        obtain ⟨store', rfl⟩ := hsaved
        refine (auth.cacheToken_spec outcome.accessToken s).mono fun cached r hcache => ?_
        obtain ⟨rfl, hurl, htoken⟩ := hcache
        have hgives : Event.refreshed accepts
            ⟨.refresh authUrl (cookieHeader (storeEntry authUrl store).2), .ok resp⟩ =
              some outcome.accessToken := by rw [Event.refreshed, hok resp rfl]; rfl
        refine .of_some (by simp [Event.bearer, hquiet]) hurl htoken ?_ ?_ ?_
        · exact ⟨store, by simp, .inr ⟨resp, outcome.setCookies, by simp, hok resp rfl⟩⟩
        · exact ⟨store, _, rfl, .inr ⟨by simpa using hcookies, by simp [hgives]⟩⟩
        · simp [h.not_refreshed accepts, hgives]
  · simp only [StateT.run_bind, always_bind, StateT.run_pure, always_pure]
    refine (auth.cacheToken_spec token s).mono fun events' r h' => ?_
    obtain ⟨rfl, hurl, htoken⟩ := h'
    obtain ⟨havoid, now, hnow, hfresh⟩ := h.chosen token hu
    have hstored := h.isStored token hu
    refine .of_some (by simpa using hquiet) hurl htoken ?_ ?_ (by simp [h.not_refreshed accepts])
    · exact ⟨store, by simp, .inl hstored⟩
    · exact ⟨store, _, rfl, .inl ⟨hstored, havoid, now, by simp [hnow], hfresh⟩⟩

/-- What asking for the current token does: with a pinned token nothing but that; without one,
what is attached is what is cached afterwards, and it was cached before or is from the session
of the auth server of the box. -/
structure TokenNow [SerdeJson] (accepts : ℕ → Bool) (s : State) (events : List Event)
    (token : Option String) (s' : State) : Prop where
  quiet : Quiet events
  authUrl : s'.authUrl = s.authUrl
  pinned : ∀ t, auth.staticToken = some t → token = some t ∧ events = [] ∧ s' = s
  cached : auth.staticToken = none → s'.token = token
  origin : auth.staticToken = none → ∀ t, token = some t →
    s.token = some t ∨ ∃ url, s.authUrl = some url ∧ Obtained accepts url t events
  plain : auth.staticToken = none → s = ⟨none, none⟩ → events = [] ∧ token = none ∧ s' = s

/-- `current_token` of either client. -/
theorem currentToken_spec [SerdeJson] (accepts : ℕ → Bool) (s : State) :
    Always ((auth.currentToken (auth.resolveToken (refreshWith accepts))).run s) fun events r =>
      auth.TokenNow accepts s events r.1 r.2 := by
  simp only [currentToken, StateT.run_bind, always_bind]
  refine (auth.cachedToken_spec s).mono fun events r h => ?_
  obtain ⟨_ | token, s'⟩ := r
  · have hnone : auth.staticToken = none := by
      by_contra hsome
      obtain ⟨t, ht⟩ := Option.ne_none_iff_exists'.mp hsome
      simpa using (h.pinned t ht).1
    have htoken : s'.token = none := h.cached hnone
    have hs' : s'.authUrl = s.authUrl := h.authUrl
    simp only [wantsStoreToken, hnone, StateT.run_bind, StateT.run_get, pure_bind,
      StateT.run_pure, Option.isNone_none, Bool.true_and]
    rcases hurl : s'.authUrl with _ | url
    · refine ⟨?_, hs', by simp [hnone], fun _ => htoken, fun _ _ ht => by simp at ht, ?_⟩
      · simpa using h.quiet
      · rintro - rfl
        exact ⟨by simpa using h.empty rfl, rfl, by cases s'; simp_all⟩
    · simp only [Option.isSome_some, if_true, StateT.run_bind, StateT.run_get, pure_bind, hurl]
      refine (auth.resolveToken_spec accepts url none s').mono fun back r hr => ?_
      have hauth : r.2.authUrl = s.authUrl := hr.authUrl.trans hs'
      refine ⟨?_, hauth, by simp [hnone], fun _ => ?_, fun _ t ht => ?_, ?_⟩
      · simpa using ⟨h.quiet, hr.quiet⟩
      · rcases ht : r.1 with _ | t
        · rw [hr.failed ht]
          exact htoken
        · exact hr.cached t ht hnone
      · refine .inr ⟨url, hs' ▸ hurl, (hr.obtained t ht).mono fun e he => ?_⟩
        simp [he]
      · rintro - rfl
        rw [hs'] at hurl
        simp at hurl
  · simp only [StateT.run_pure, always_pure, List.append_nil]
    refine ⟨h.quiet, h.authUrl, h.pinned, h.cached, fun hnone t ht => ?_, fun hnone hs => ?_⟩
    · rcases h.origin hnone with hr | hr
      · simp at hr
      · exact .inl (hr ▸ ht)
    · rcases h.origin hnone with hr | hr
      · simp at hr
      · simp [hs] at hr

end GatewayAuth

end Lager
