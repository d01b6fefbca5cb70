import Lager.Auth.SharedStore

set_option relaxedAutoImplicit false
set_option autoImplicit false

/-!
# A session in the store

What is kept of a session across refreshes, and what a client can do with a session that it cannot
refresh. A refresh sets the access token, puts the rotated cookies over those there and touches
nothing else. A session with a token whose expiry cannot be read and without cookies is of no use:
the token is taken for expired and there is nothing to refresh it with.

## Main definitions

* `Lager.SessionFits` — the store has room for the session of an auth server.
* `Lager.refreshes` — the store after some refreshes, one after another.
* `Lager.Opaque` — a token without a readable expiry.

## Main results

* `Lager.refreshes_exact` — what the store holds after any refreshes of one session.
* `Lager.unreadable_token_unusable` — an opaque token without cookies is never resolved.
* `Lager.unreadable_token_dropped` — a session with such a token.
-/

namespace Lager

open Library GatewayAuth

/-! ## Refreshes of one session -/

/-- The root of the store, `authServers`, the entry of an auth server and its cookies are objects,
or not there. -/
def SessionFits (authUrl : String) (store : Value) : Prop :=
  Value.Fits ["authServers", authUrl, "cookies"] store ∧
    ∀ cookies, store.atPath ["authServers", authUrl, "cookies"] = some cookies →
      ∃ jar, cookies = .object jar

/-- The store after some refreshes of the session of an auth server. -/
def refreshes (authUrl : String) (outcomes : List RefreshOutcome) (store : Value) : Value :=
  outcomes.foldl (fun store outcome => applyRefresh authUrl outcome store) store

/-- The cookies some refreshes set, the oldest first. -/
def setCookiesOf (outcomes : List RefreshOutcome) : List (String × String) :=
  outcomes.flatMap RefreshOutcome.setCookies

/-- The token of a stored session. -/
theorem storeEntry_token (authUrl : String) (store : Value) :
    (storeEntry authUrl store).1 =
      (store.atPath ["authServers", authUrl, "accessToken"]).bind Value.asStr := by
  simp only [storeEntry, Value.atPath, Option.bind_assoc]
  rfl

/-- The cookies of a stored session. -/
theorem storeEntry_cookies (authUrl : String) (store : Value) :
    (storeEntry authUrl store).2 =
      ((store.atPath ["authServers", authUrl, "cookies"]).bind Value.asObject).getD [] := by
  simp only [storeEntry, Value.atPath, Option.bind_assoc]
  rfl

section

variable {authUrl : String} {outcome : RefreshOutcome} {store : Value}

/-- The session of an auth server, where the store has room for it. -/
theorem SessionFits.entry (h : SessionFits authUrl store) :
    ∃ entry : Map, (store.atPath ["authServers", authUrl]).getD (.object []) = .object entry ∧
      ∀ path, path ≠ [] → store.atPath ("authServers" :: authUrl :: path) =
        (Value.object entry).atPath path := by
  have hpath : ∀ path, store.atPath ("authServers" :: authUrl :: path) =
      (store.atPath ["authServers", authUrl]).bind (Value.atPath path) :=
    fun path => Value.atPath_append ["authServers", authUrl] path store
  obtain ⟨-, entry, hentry, -⟩ := Value.fits_append ["authServers", authUrl] ["cookies"] h.1
  refine ⟨entry, hentry, fun path hne => ?_⟩
  rw [hpath]
  rcases hsession : store.atPath ["authServers", authUrl] with _ | session
  · rw [hsession, Option.getD_none] at hentry
    obtain rfl : [] = entry := by simpa using hentry
    cases path with
    | nil => exact absurd rfl hne
    | cons key path => rfl
  · rw [hsession, Option.getD_some] at hentry
    rw [hentry, Option.bind_some]

/-- What is under the session of an auth server after a refresh. -/
theorem SessionFits.atPath_refreshed (h : SessionFits authUrl store) (outcome : RefreshOutcome) :
    ∃ entry : Map, (∀ path, path ≠ [] → store.atPath ("authServers" :: authUrl :: path) =
        (Value.object entry).atPath path) ∧
      ∀ path, (applyRefresh authUrl outcome store).atPath ("authServers" :: authUrl :: path) =
        (Value.object (refreshEntry outcome entry)).atPath path := by
  obtain ⟨entry, hentry, hunder⟩ := h.entry
  refine ⟨entry, hunder, fun path => ?_⟩
  have hfits := (Value.fits_append ["authServers", authUrl] ["cookies"] h.1).1
  have hmodify := Value.atPath_modify hfits (Value.mapObject (refreshEntry outcome)) path
  rw [hentry, Value.mapObject_object] at hmodify
  rw [applyRefresh_eq]
  exact hmodify

/-- A refresh leaves room for the session. -/
theorem SessionFits.refresh (h : SessionFits authUrl store) (outcome : RefreshOutcome) :
    SessionFits authUrl (applyRefresh authUrl outcome store) := by
  obtain ⟨entry, hbefore, hafter⟩ := h.atPath_refreshed outcome
  refine ⟨?_, fun cookies hcookies => ?_⟩
  · rw [applyRefresh_eq]
    refine Value.fits_modify h.1 fun rest v hrest hfits => ?_
    obtain rfl : rest = ["cookies"] := by simpa using hrest.symm
    obtain ⟨fields, rfl, -⟩ := hfits
    exact ⟨refreshEntry outcome fields, rfl, fun _ _ => trivial⟩
  · rw [hafter ["cookies"]] at hcookies
    simp only [Value.atPath, Value.get_object, lookup_refreshEntry_cookies, Option.bind_some,
      Option.some.injEq] at hcookies
    rcases hlookup : entry.lookup "cookies" with _ | jar
    · rw [hlookup, Option.getD_none, Value.mapObject_object] at hcookies
      exact ⟨_, hcookies.symm⟩
    · have hjar := hbefore ["cookies"] (by simp)
      simp only [Value.atPath, Value.get_object, hlookup, Option.bind_some] at hjar
      obtain ⟨fields, rfl⟩ := h.2 jar hjar
      rw [hlookup, Option.getD_some, Value.mapObject_object] at hcookies
      exact ⟨_, hcookies.symm⟩

/-- After a refresh, the token of the session is the refreshed one. -/
theorem SessionFits.token_refresh (h : SessionFits authUrl store) (outcome : RefreshOutcome) :
    (storeEntry authUrl (applyRefresh authUrl outcome store)).1 = some outcome.accessToken := by
  obtain ⟨entry, -, hafter⟩ := h.atPath_refreshed outcome
  rw [storeEntry_token, hafter ["accessToken"]]
  simp only [Value.atPath, Value.get_object, lookup_refreshEntry_accessToken, Option.bind_some]
  rfl

/-- After a refresh, the cookies of the session are those before with the rotated ones over them. -/
theorem SessionFits.cookies_refresh (h : SessionFits authUrl store) (outcome : RefreshOutcome) :
    (storeEntry authUrl (applyRefresh authUrl outcome store)).2 =
      outcome.setCookies.foldl (fun fields c => Map.insert c.1 (.string c.2) fields)
        (storeEntry authUrl store).2 := by
  obtain ⟨entry, hbefore, hafter⟩ := h.atPath_refreshed outcome
  have hjar := hbefore ["cookies"] (by simp)
  rw [storeEntry_cookies, storeEntry_cookies, hafter ["cookies"], hjar]
  simp only [Value.atPath, Value.get_object, lookup_refreshEntry_cookies, Option.bind_some]
  rcases hlookup : entry.lookup "cookies" with _ | jar
  · rfl
  · simp only [Value.atPath, Value.get_object, hlookup, Option.bind_some] at hjar
    obtain ⟨fields, rfl⟩ := h.2 jar hjar
    rfl

/-- A refresh leaves the rest of the store. -/
theorem get_applyRefresh {key : String} (hkey : key ≠ "authServers") :
    (applyRefresh authUrl outcome store).get key = store.get key := by
  cases store with
  | object root => exact Map.lookup_update_ne hkey _ root
  | _ => rfl

/-- A refresh leaves the sessions of other auth servers. -/
theorem SessionFits.atPath_refresh_server (h : SessionFits authUrl store)
    (outcome : RefreshOutcome) {url : String} (hurl : url ≠ authUrl) :
    (applyRefresh authUrl outcome store).atPath ["authServers", url] =
      store.atPath ["authServers", url] := by
  obtain ⟨root, rfl, hroot⟩ := h.1
  simp only [applyRefresh, Value.mapObject_object, Value.atPath, Value.get_object,
    Map.lookup_update_self, Option.bind_some]
  rcases hlookup : root.lookup "authServers" with _ | servers
  · simp [Value.get, Map.lookup_update_ne hurl]
  · obtain ⟨fields, rfl, -⟩ := hroot servers hlookup
    simp [Value.get, Map.lookup_update_ne hurl]

/-- A refresh leaves what else is in the session. -/
theorem SessionFits.atPath_refresh_entry (h : SessionFits authUrl store)
    (outcome : RefreshOutcome) {key : String} (htoken : key ≠ "accessToken")
    (hcookies : key ≠ "cookies") :
    (applyRefresh authUrl outcome store).atPath ["authServers", authUrl, key] =
      store.atPath ["authServers", authUrl, key] := by
  obtain ⟨entry, hbefore, hafter⟩ := h.atPath_refreshed outcome
  rw [hafter [key], hbefore [key] (by simp)]
  simp only [Value.atPath, Value.get_object, lookup_refreshEntry_of_ne htoken hcookies]

end

/-- A store keeps what no refresh of a session touches: every other key of its root, of
`authServers` and of the entry of the auth server. -/
structure KeepsRest (authUrl : String) (store store' : Value) : Prop where
  root : ∀ key, key ≠ "authServers" → store'.get key = store.get key
  servers : ∀ url, url ≠ authUrl →
    store'.atPath ["authServers", url] = store.atPath ["authServers", url]
  entry : ∀ key, key ≠ "accessToken" → key ≠ "cookies" →
    store'.atPath ["authServers", authUrl, key] = store.atPath ["authServers", authUrl, key]

/-- A store keeps its own rest. -/
theorem KeepsRest.refl (authUrl : String) (store : Value) : KeepsRest authUrl store store :=
  ⟨fun _ _ => rfl, fun _ _ => rfl, fun _ _ _ => rfl⟩

/-- What two changes keep, both together keep. -/
theorem KeepsRest.trans {authUrl : String} {store store' store'' : Value}
    (h : KeepsRest authUrl store store') (h' : KeepsRest authUrl store' store'') :
    KeepsRest authUrl store store'' where
  root key hkey := (h'.root key hkey).trans (h.root key hkey)
  servers url hurl := (h'.servers url hurl).trans (h.servers url hurl)
  entry key htoken hcookies := (h'.entry key htoken hcookies).trans (h.entry key htoken hcookies)

/-- A refresh keeps the rest. -/
theorem SessionFits.keepsRest {authUrl : String} {store : Value} (h : SessionFits authUrl store)
    (outcome : RefreshOutcome) : KeepsRest authUrl store (applyRefresh authUrl outcome store) where
  root _ hkey := get_applyRefresh hkey
  servers _ hurl := h.atPath_refresh_server outcome hurl
  entry _ htoken hcookies := h.atPath_refresh_entry outcome htoken hcookies

/-- What some refreshes of one session leave in the store. -/
structure RefreshedTo (authUrl : String) (outcomes : List RefreshOutcome) (store store' : Value) :
    Prop where
  token : (storeEntry authUrl store').1 =
    (outcomes.getLast?.map RefreshOutcome.accessToken).or (storeEntry authUrl store).1
  jar : (storeEntry authUrl store').2 = (setCookiesOf outcomes).foldl
    (fun fields c => Map.insert c.1 (.string c.2) fields) (storeEntry authUrl store).2
  rest : KeepsRest authUrl store store'

/-- One refresh after another. -/
theorem refreshes_spec {authUrl : String} {store : Value} (h : SessionFits authUrl store)
    (outcomes : List RefreshOutcome) :
    RefreshedTo authUrl outcomes store (refreshes authUrl outcomes store) := by
  induction outcomes generalizing store with
  | nil => exact ⟨rfl, rfl, .refl authUrl store⟩
  | cons outcome outcomes ih =>
    obtain ⟨htoken, hjar, hrest⟩ := ih (h.refresh outcome)
    refine ⟨?_, ?_, (h.keepsRest outcome).trans hrest⟩
    · rw [refreshes, List.foldl_cons]
      refine htoken.trans ?_
      rw [h.token_refresh, List.getLast?_cons]
      rcases outcomes.getLast? with _ | last <;> rfl
    · rw [refreshes, List.foldl_cons]
      refine hjar.trans ?_
      rw [h.cookies_refresh, setCookiesOf, setCookiesOf, List.flatMap_cons, List.foldl_append]

/-- **Refreshes keep an exact cookie jar and touch nothing else.** Take any store whose root,
`authServers`, the entry of an auth server and its cookies are objects, or not there, and refresh
the session of that auth server any number of times. Then the session has the token of the last
refresh, and of each name the cookie that was set last, or the one it had before; with its names in
order if they were. Every other key of the store, of `authServers` and of the entry holds what it
held. And applying a refresh twice is applying it once.

**Proof sketch.** A refresh makes the jar it finds the jar with its own cookies inserted, and leaves
a store of the same shape, so by induction the jar in the end is the first one with all cookies
inserted in their order. -/
theorem refreshes_exact {authUrl : String} {store : Value} (h : SessionFits authUrl store)
    (outcomes : List RefreshOutcome) :
    (storeEntry authUrl (refreshes authUrl outcomes store)).1 =
        (outcomes.getLast?.map RefreshOutcome.accessToken).or (storeEntry authUrl store).1 ∧
      (∀ name, (storeEntry authUrl (refreshes authUrl outcomes store)).2.lookup name =
        (((setCookiesOf outcomes).reverse.lookup name).map Value.string).or
          ((storeEntry authUrl store).2.lookup name)) ∧
      (Map.Sorted (storeEntry authUrl store).2 →
        Map.Sorted (storeEntry authUrl (refreshes authUrl outcomes store)).2) ∧
      KeepsRest authUrl store (refreshes authUrl outcomes store) ∧
      ∀ outcome,
        refreshes authUrl [outcome, outcome] store = refreshes authUrl [outcome] store := by
  obtain ⟨htoken, hjar, hrest⟩ := refreshes_spec h outcomes
  refine ⟨htoken, fun name => ?_, fun hsorted => ?_, hrest, fun outcome => ?_⟩
  · rw [hjar, lookup_setCookies]
  · rw [hjar]
    exact sorted_setCookies (setCookiesOf outcomes) hsorted
  · exact applyRefresh_applyRefresh authUrl outcome store

/-- Two refreshes of a session with two cookies. -/
theorem refreshes_exact_rotated :
    let store : Value := .object [("authServers", .object [("http://a", .object
      [("accessToken", .string "old"),
        ("cookies", .object [("a", .string "1"), ("b", .string "2")]),
        ("user", .string "u")])])]
    let outcomes : List RefreshOutcome := [⟨"t", [("b", "3"), ("b", "4")]⟩, ⟨"u", [("c", "5")]⟩]
    (storeEntry "http://a" (refreshes "http://a" outcomes store)).1 =
        (outcomes.getLast?.map RefreshOutcome.accessToken).or (storeEntry "http://a" store).1 ∧
      (∀ name, (storeEntry "http://a" (refreshes "http://a" outcomes store)).2.lookup name =
        (((setCookiesOf outcomes).reverse.lookup name).map Value.string).or
          ((storeEntry "http://a" store).2.lookup name)) ∧
      (Map.Sorted (storeEntry "http://a" store).2 →
        Map.Sorted (storeEntry "http://a" (refreshes "http://a" outcomes store)).2) ∧
      KeepsRest "http://a" store (refreshes "http://a" outcomes store) ∧
      ∀ outcome, refreshes "http://a" [outcome, outcome] store =
        refreshes "http://a" [outcome] store := by
  intro store outcomes
  have hfits : SessionFits "http://a" store := by
    have hcookies : store.atPath ["authServers", "http://a", "cookies"] =
        some (.object [("a", .string "1"), ("b", .string "2")]) := rfl
    refine ⟨Value.fits_of_atPath hcookies, fun cookies h => ?_⟩
    exact ⟨_, (Option.some.inj (hcookies.symm.trans h)).symm⟩
  exact refreshes_exact hfits outcomes

/-! ## Tokens without a readable expiry -/

section

variable [SerdeJson]

/-- A token whose expiry cannot be read: it has no second part, or that is no base64url, or no JSON,
or has no numeric `exp`. -/
def Opaque (token : String) : Prop :=
  ∀ payload bytes v, (token.toList.splitOn '.')[1]? = some payload →
    base64urlDecode payload = some bytes → SerdeJson.fromSlice bytes = .ok v →
    (v.get "exp").bind Value.asF64 = none

/-- Such a token expires at the epoch. -/
theorem Opaque.tokenExpiresAt {token : String} (h : Opaque token) : tokenExpiresAt token = 0 := by
  unfold Lager.tokenExpiresAt
  rcases hpayload : (token.toList.splitOn '.')[1]? with _ | payload
  · rfl
  · dsimp only
    rcases hbytes : base64urlDecode payload with _ | bytes
    · rfl
    · dsimp only
      rcases hv : SerdeJson.fromSlice bytes with e | v
      · rfl
      · have hexp := h payload bytes v hpayload hbytes hv
        show (((some v).bind fun v => v.get "exp").bind Value.asF64).getD 0 = 0
        rw [Option.bind_some, hexp]
        rfl

/-- From the epoch on, such a token is never fresh. -/
theorem Opaque.not_fresh {token : String} (h : Opaque token) {now : ℚ} (hnow : 0 ≤ now) :
    tokenIsFresh now token = false := by
  have hlt : ¬ now + expiryMarginSeconds < 0 := by
    have hmargin : (0 : ℚ) ≤ expiryMarginSeconds := by norm_num [expiryMarginSeconds]
    exact not_lt.mpr (add_nonneg hnow hmargin)
  rw [tokenIsFresh, h.tokenExpiresAt]
  exact decide_eq_false hlt

/-- The clock stands at the epoch or after it, as the answers of `now_epoch` do: a duration since
the epoch, or 0. -/
def SinceEpoch (events : List Event) : Prop :=
  ∀ now, (⟨.nowEpoch, now⟩ : Event) ∈ events → (0 : ℚ) ≤ now

/-- Resolving a token for an auth server comes to nothing when the store that is loaded has an
opaque token there, and no cookies. -/
def Unusable (authUrl : String) (events : List Event) (r : Option String) : Prop :=
  ∀ store rest token, events = ⟨.loadStore, store⟩ :: rest →
    storeEntry authUrl store = (some token, []) → Opaque token → SinceEpoch events → r = none

/-- What is resolved is fresh or was refreshed, and an opaque token without cookies is neither. -/
theorem GatewayAuth.Resolved.unusable {auth : GatewayAuth} {accepts : ℕ → Bool} {authUrl : String}
    {avoid r : Option String} {s s' : GatewayAuth.State} {events : List Event}
    (h : auth.Resolved accepts authUrl avoid s events r s') : Unusable authUrl events r := by
  intro store rest token hevents hentry hunread hclock
  by_contra hsome
  obtain ⟨t, ht⟩ := Option.ne_none_iff_exists'.mp hsome
  obtain ⟨store', rest', hevents', hsource⟩ := h.source t ht
  rw [hevents] at hevents'
  obtain ⟨hload, rfl⟩ := List.cons.inj hevents'
  obtain rfl : store = store' := event_inj hload
  rw [hentry] at hsource
  rcases hsource with ⟨hstored, -, now, hnow, hfresh⟩ | ⟨hcookies, -⟩
  · obtain rfl : token = t := Option.some.inj hstored
    have hsince : (0 : ℚ) ≤ now := hclock now (hevents ▸ List.mem_cons_of_mem _ hnow)
    rw [hunread.not_fresh hsince] at hfresh
    cases hfresh
  · exact hcookies rfl

/-- **Opaque stored tokens are not usable.** Whatever else is in the store, whatever the token to
avoid and whatever the clock says, `resolve_token_blocking` and `resolve_token_async` return no
token for an auth server whose stored session has a token without a readable expiry and no cookies.

**Proof sketch.** Such a token is taken for one that expired at the epoch, so it is not fresh, and
without cookies there is no refresh. -/
theorem unreadable_token_unusable :
    (∀ (auth : GatewayAuth) (authUrl : String) (avoid : Option String) (s : GatewayAuth.State),
      Always ((auth.resolveTokenBlocking authUrl avoid).run s) fun events r =>
        Unusable authUrl events r.1) ∧
    ∀ (auth : GatewayAuth) (authUrl : String) (avoid : Option String) (s : GatewayAuth.State),
      Always ((auth.resolveTokenAsync authUrl avoid).run s) fun events r =>
        Unusable authUrl events r.1 := by
  refine ⟨fun auth authUrl avoid s => ?_, fun auth authUrl avoid s => ?_⟩
  · refine (auth.resolveToken_spec acceptsBlocking authUrl avoid s).mono fun events r h => ?_
    exact h.unusable
  · refine (auth.resolveToken_spec acceptsAsync authUrl avoid s).mono fun events r h => ?_
    exact h.unusable

end

/-- A session with the token `key` and nothing else. -/
def keySession : Value :=
  .object [("authServers", .object [("http://a", .object [("accessToken", .string "key")])])]

/-- A stored session with an opaque token and no cookies is not used, though nothing rejected its
token. -/
theorem unreadable_token_dropped :
    letI := SerdeJson.only [] .null
    ¬ ∀ (auth : GatewayAuth) (authUrl token : String) (avoid : Option String)
      (s : GatewayAuth.State) (store : Value) (rest : List Event)
      (r : Option String × GatewayAuth.State),
      storeEntry authUrl store = (some token, []) → Opaque token → avoid ≠ some token →
        SinceEpoch rest →
        Run ((auth.resolveTokenBlocking authUrl avoid).run s) (⟨.loadStore, store⟩ :: rest) r →
        r.1 = some token := by
  let _ := SerdeJson.only [] .null
  intro hall
  have hunread : Opaque "key" := by
    intro payload bytes v hpayload
    have hnone : ("key".toList.splitOn '.')[1]? = none := by decide
    rw [hnone] at hpayload
    cases hpayload
  have hfresh : tokenIsFresh 1700000000 "key" = false := hunread.not_fresh (by norm_num)
  have hrun : Run
      ((GatewayAuth.resolveTokenBlocking ⟨"box", none⟩ "http://a" none).run ⟨none, none⟩)
      [⟨.loadStore, keySession⟩, ⟨.nowEpoch, (1700000000 : ℚ)⟩] (none, ⟨none, none⟩) := by
    refine .op _ (.op _ ?_)
    show Run (Program.bind (Program.bind (if tokenIsFresh 1700000000 "key" = true then
      pure (some "key", false) else pure (none, true)) _) _) _ _
    rw [if_neg (by rw [hfresh]; decide)]
    exact .pure _
  have hclock : SinceEpoch [⟨.nowEpoch, (1700000000 : ℚ)⟩] := by
    intro now hnow
    obtain rfl := event_inj (List.mem_singleton.mp hnow)
    norm_num
  have hr := hall ⟨"box", none⟩ "http://a" "key" none ⟨none, none⟩ keySession _ _ rfl hunread
    (by decide) hclock hrun
  cases hr

end Lager
