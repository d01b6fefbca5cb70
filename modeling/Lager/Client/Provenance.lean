import Lager.Auth.StoredSession
import Lager.Client.Conduct

set_option relaxedAutoImplicit false
set_option autoImplicit false

/-!
# Where sessions come from

Any number of clients, blocking or async and of any boxes, share one store, and what they do is
interleaved in any way. Updates can be lost then, but nothing is mixed up: what the store holds for
an auth server was there at first or was given by that auth server, and the cookies a client sends
to an auth server are cookies of that one.

## Main definitions

* `Lager.Gave` — an auth server answered a refresh.
* `Lager.CookieOf`, `Lager.TokenOf`, `Lager.ServerOf` — where a cookie, a token and the auth server
  of a box can be from.
* `Lager.Untangled` — everything in a store is where it is from.

## Main results

* `Lager.Changes.untangled` — the changes a client makes keep that.
* `Lager.sessions_kept_apart` — so it holds in every interleaving.
-/

namespace Lager

open Library GatewayAuth

/-! ## What a change does to the sessions -/

/-- The entry of an auth server in the store. -/
def sessionOf (authUrl : String) (store : Value) : Option Value :=
  (store.get "authServers").bind fun servers => servers.get authUrl

/-- A session is an access token and cookies. -/
theorem storeEntry_eq (authUrl : String) (store : Value) :
    storeEntry authUrl store =
      (((sessionOf authUrl store).bind fun e => e.get "accessToken").bind Value.asStr,
        (((sessionOf authUrl store).bind fun e => e.get "cookies").bind Value.asObject).getD []) :=
  rfl

/-- Looking a key up where there may be nothing. -/
theorem get_getD_empty (key : String) (v : Option Value) :
    (v.getD (.object [])).get key = v.bind fun v => v.get key := by
  cases v <;> rfl

/-- A refresh leaves the sessions of other auth servers, whatever is in the store. -/
theorem sessionOf_applyRefresh_of_ne {url authUrl : String} (h : url ≠ authUrl)
    (outcome : RefreshOutcome) (store : Value) :
    sessionOf url (applyRefresh authUrl outcome store) = sessionOf url store := by
  rw [applyRefresh_eq, sessionOf, sessionOf]
  rcases store.get_modify_self "authServers" [authUrl] (Value.mapObject (refreshEntry outcome)) with
    hself | ⟨hself, hnone⟩
  · rw [hself, Option.bind_some, Value.get_modify_ne h, get_getD_empty]
  · rw [hself, hnone]

/-- A refresh changes the session of its auth server if it is an object or not there, and leaves it
otherwise. -/
theorem sessionOf_applyRefresh_self (authUrl : String) (outcome : RefreshOutcome) (store : Value) :
    sessionOf authUrl (applyRefresh authUrl outcome store) =
        some (((sessionOf authUrl store).getD (.object [])).mapObject (refreshEntry outcome)) ∨
      sessionOf authUrl (applyRefresh authUrl outcome store) = sessionOf authUrl store := by
  rw [applyRefresh_eq, sessionOf, sessionOf]
  rcases store.get_modify_self "authServers" [authUrl] (Value.mapObject (refreshEntry outcome)) with
    hself | ⟨hself, hnone⟩
  · rw [hself, Option.bind_some]
    rcases ((store.get "authServers").getD (.object [])).get_modify_self authUrl []
        (Value.mapObject (refreshEntry outcome)) with hentry | ⟨hentry, hnone⟩
    · rw [hentry, get_getD_empty]
      exact .inl rfl
    · rw [hentry, ← get_getD_empty, hnone]
      exact .inr rfl
  · rw [hself, hnone]
    exact .inr rfl

/-- A cookie in a jar into which others were put was one of these or was there. -/
theorem mem_setCookies {setCookies : List (String × String)} {fields : Map} {c : String × Value}
    (h : c ∈ setCookies.foldl (fun fields c => Map.insert c.1 (.string c.2) fields) fields) :
    c ∈ fields ∨ ∃ value, c.2 = .string value ∧ (c.1, value) ∈ setCookies := by
  induction setCookies generalizing fields with
  | nil => exact .inl h
  | cons first setCookies ih =>
    rcases ih h with hmem | ⟨value, hvalue, hmem⟩
    · rcases Map.mem_of_mem_insert hmem with rfl | hmem
      · exact .inr ⟨first.2, rfl, List.mem_cons_self⟩
      · exact .inl hmem
    · exact .inr ⟨value, hvalue, List.mem_cons_of_mem _ hmem⟩

section

variable {url authUrl : String} {outcome : RefreshOutcome} {store : Value}

/-- The token of a session after a refresh was there, or is the one of the refresh. -/
theorem token_of_applyRefresh {token : String}
    (h : (storeEntry url (applyRefresh authUrl outcome store)).1 = some token) :
    (storeEntry url store).1 = some token ∨ url = authUrl ∧ token = outcome.accessToken := by
  by_cases hurl : url = authUrl
  · subst hurl
    rcases sessionOf_applyRefresh_self url outcome store with hsession | hsession
    · rw [storeEntry_eq, hsession] at h
      rcases hentry : (sessionOf url store).getD (.object []) with _ | _ | _ | _ | _ | fields
      case object =>
        simp only [hentry, Value.mapObject_object, Option.bind_some, Value.get_object,
          lookup_refreshEntry_accessToken, Value.asStr, Option.some.injEq] at h
        exact .inr ⟨rfl, h.symm⟩
      all_goals
        simp only [hentry, Value.mapObject, Option.bind_some, Value.get] at h
        cases h
    · rw [storeEntry_eq, hsession, ← storeEntry_eq] at h
      exact .inl h
  · rw [storeEntry_eq, sessionOf_applyRefresh_of_ne hurl, ← storeEntry_eq] at h
    exact .inl h

/-- A cookie of a session after a refresh was there, or is one the refresh set. -/
theorem cookie_of_applyRefresh {c : String × Value}
    (h : c ∈ (storeEntry url (applyRefresh authUrl outcome store)).2) :
    c ∈ (storeEntry url store).2 ∨
      url = authUrl ∧ ∃ value, c.2 = .string value ∧ (c.1, value) ∈ outcome.setCookies := by
  by_cases hurl : url = authUrl
  · subst hurl
    rcases sessionOf_applyRefresh_self url outcome store with hsession | hsession
    · rw [storeEntry_eq, hsession] at h
      rcases hentry : (sessionOf url store).getD (.object []) with _ | _ | _ | _ | _ | fields
      case object =>
        have hjar : (storeEntry url store).2 =
            ((fields.lookup "cookies").bind Value.asObject).getD [] := by
          rw [storeEntry_eq]
          dsimp only
          rw [← get_getD_empty, hentry, Value.get_object]
        simp only [hentry, Value.mapObject_object, Option.bind_some, Value.get_object,
          lookup_refreshEntry_cookies] at h
        rw [hjar]
        rcases hcookies : fields.lookup "cookies" with _ | jar
        · rw [hcookies] at h
          exact (mem_setCookies h).imp_right fun hset => ⟨rfl, hset⟩
        · rw [hcookies] at h
          cases jar with
          | object jar => exact (mem_setCookies h).imp_right fun hset => ⟨rfl, hset⟩
          | _ => cases h
      all_goals
        simp only [hentry, Value.mapObject, Option.bind_some, Value.get] at h
        cases h
    · rw [storeEntry_eq, hsession, ← storeEntry_eq] at h
      exact .inl h
  · rw [storeEntry_eq, sessionOf_applyRefresh_of_ne hurl, ← storeEntry_eq] at h
    exact .inl h

/-- A refresh leaves the auth servers of the boxes. -/
theorem boxAuthUrl_applyRefresh (host : String) :
    boxAuthUrl host (applyRefresh authUrl outcome store) = boxAuthUrl host store := by
  rw [boxAuthUrl, boxAuthUrl, get_applyRefresh (by decide)]

/-- Learning an auth server leaves the sessions. -/
theorem storeEntry_learnBox {host : String} {store' : Value}
    (h : learnBox host authUrl store = some store') :
    storeEntry url store' = storeEntry url store := by
  rw [Update.learnBox_eq_some h, storeEntry_eq, storeEntry_eq, sessionOf, sessionOf,
    Value.get_modify_ne (by decide)]

/-- Learning an auth server leaves those of other boxes. -/
theorem boxAuthUrl_learnBox {host host' : String} {store' : Value}
    (h : learnBox host authUrl store = some store') (hserver : boxAuthUrl host' store' = some url) :
    boxAuthUrl host' store = some url ∨ host' = host ∧ url = authUrl := by
  rw [Update.learnBox_eq_some h, boxAuthUrl] at hserver
  rcases store.get_modify_self "boxes" [host] (fun _ => .string authUrl) with hself | ⟨hself, -⟩
  · rw [hself, Option.bind_some] at hserver
    by_cases hhost : host' = host
    · subst hhost
      rcases ((store.get "boxes").getD (.object [])).get_modify_self host' []
          (fun _ => .string authUrl) with hentry | ⟨hentry, -⟩
      · rw [hentry] at hserver
        exact .inr ⟨rfl, (Option.some.inj hserver).symm⟩
      · rw [hentry] at hserver
        cases hserver
    · rw [Value.get_modify_ne hhost, get_getD_empty] at hserver
      exact .inl hserver
  · rw [hself] at hserver
    cases hserver

end

/-! ## Where things are from -/

section

variable [SerdeJson] {ι : Type} (t : ι → Transport) (client : ι → Client) (first : Value)

/-- An auth server answered a refresh of one of the clients with a session. -/
def Gave (l : List (ι × Event)) (authUrl : String) (outcome : RefreshOutcome) : Prop :=
  ∃ i cookies resp, (i, (⟨.refresh authUrl cookies, .ok resp⟩ : Event)) ∈ l ∧
    refreshOutcome (t i).accepts resp = some outcome

/-- A token of an auth server: it was in its session at first, or the auth server gave it. -/
def TokenOf (l : List (ι × Event)) (authUrl token : String) : Prop :=
  (storeEntry authUrl first).1 = some token ∨
    ∃ outcome, Gave t l authUrl outcome ∧ outcome.accessToken = token

/-- A cookie of an auth server: it was in its session at first, or the auth server set it. -/
def CookieOf (l : List (ι × Event)) (authUrl : String) (c : String × Value) : Prop :=
  c ∈ (storeEntry authUrl first).2 ∨
    ∃ outcome, Gave t l authUrl outcome ∧
      ∃ value, c.2 = .string value ∧ (c.1, value) ∈ outcome.setCookies

/-- An auth server of a box: it was recorded at first, or the gateway named it to a client of the
box. -/
def ServerOf (l : List (ι × Event)) (host authUrl : String) : Prop :=
  boxAuthUrl host first = some authUrl ∨
    ∃ i e status, (i, e) ∈ l ∧ (client i).auth.boxHost = host ∧
      (client i).auth.staticToken = none ∧ e.denial = some (status, authUrl)

/-- Everything in a store is where it is from. -/
structure Untangled (l : List (ι × Event)) (store : Value) : Prop where
  token : ∀ authUrl token, (storeEntry authUrl store).1 = some token →
    TokenOf t first l authUrl token
  cookie : ∀ authUrl, ∀ c ∈ (storeEntry authUrl store).2, CookieOf t first l authUrl c
  server : ∀ host authUrl, boxAuthUrl host store = some authUrl →
    ServerOf client first l host authUrl

variable {t client first} {l l' : List (ι × Event)} {store : Value}

/-- At first everything is where it is from. -/
theorem untangled_first : Untangled t client first [] first :=
  ⟨fun _ _ h => .inl h, fun _ _ h => .inl h, fun _ _ h => .inl h⟩

/-- What an auth server gave it gave. -/
theorem Gave.mono {authUrl : String} {outcome : RefreshOutcome} (h : Gave t l authUrl outcome)
    (hl : l ⊆ l') : Gave t l' authUrl outcome := by
  obtain ⟨i, cookies, resp, hmem, hgave⟩ := h
  exact ⟨i, cookies, resp, hl hmem, hgave⟩

/-- A cookie of an auth server stays one. -/
theorem CookieOf.mono {authUrl : String} {c : String × Value} (h : CookieOf t first l authUrl c)
    (hl : l ⊆ l') : CookieOf t first l' authUrl c :=
  h.imp_right fun ⟨outcome, hgave, hset⟩ => ⟨outcome, hgave.mono hl, hset⟩

/-- A store stays untangled when more happens. -/
theorem Untangled.mono (h : Untangled t client first l store) (hl : l ⊆ l') :
    Untangled t client first l' store where
  token authUrl token htoken :=
    (h.token authUrl token htoken).imp_right fun ⟨outcome, hgave, heq⟩ =>
      ⟨outcome, hgave.mono hl, heq⟩
  cookie authUrl c hc := (h.cookie authUrl c hc).mono hl
  server host authUrl hserver := (h.server host authUrl hserver).imp_right
    fun ⟨i, e, status, hmem, hnamed⟩ => ⟨i, e, status, hl hmem, hnamed⟩

/-- **Changes keep sessions apart.** A change a client makes to an untangled store leaves it
untangled. -/
theorem Changes.untangled {i : ι} {past : List Event} {store' : Value}
    (h : Changes (client i).auth (t i).accepts past store store')
    (hpast : ∀ e ∈ past, (i, e) ∈ l) (hstore : Untangled t client first l store) :
    Untangled t client first l store' := by
  cases h with
  | @learned e status authUrl _ he named unpinned changed =>
    refine ⟨fun url token htoken => ?_, fun url c hc => ?_, fun host url hserver => ?_⟩
    · exact hstore.token url token (storeEntry_learnBox changed ▸ htoken)
    · exact hstore.cookie url c (storeEntry_learnBox changed ▸ hc)
    · rcases boxAuthUrl_learnBox changed hserver with hserver | ⟨rfl, rfl⟩
      · exact hstore.server host url hserver
      · exact .inr ⟨i, e, status, hpast e he, rfl, unpinned, named⟩
  | @refreshed authUrl cookies resp outcome asked answered =>
    have hgave : Gave t l authUrl outcome := ⟨i, cookies, resp, hpast _ asked, answered⟩
    refine ⟨fun url token htoken => ?_, fun url c hc => ?_, fun host url hserver => ?_⟩
    · rcases token_of_applyRefresh htoken with htoken | ⟨rfl, rfl⟩
      · exact hstore.token url token htoken
      · exact .inr ⟨outcome, hgave, rfl⟩
    · rcases cookie_of_applyRefresh hc with hc | ⟨rfl, hset⟩
      · exact hstore.cookie url c hc
      · exact .inr ⟨outcome, hgave, hset⟩
    · exact hstore.server host url (boxAuthUrl_applyRefresh host ▸ hserver)

end

/-! ## Clients that share a store -/

/-- **Sessions are kept apart.** Let any number of clients share a store, each making any calls,
with their operations interleaved in any way and any answers from boxes and auth servers. In the end
the store holds for each auth server only a token and cookies that were there for it at first or
that it gave, and for each box an auth server that was recorded for it or that its gateway named.
And a refresh goes to an auth server the client knew or was named before, with a `Cookie` header of
cookies of that auth server only.

**Proof sketch.** By the induction for a shared cell: the store is untangled, and so is everything
that was loaded. What a client saves is what it loaded with one change, which its answers warrant;
the cookies it sends are from a store it loaded. -/
theorem sessions_kept_apart [SerdeJson] {ι : Type} [DecidableEq ι] (t : ι → Transport)
    (client : ι → Client) (s s' : ι → GatewayAuth.State) (history : ι → List Step)
    (l : List (ι × Event)) (store store' : Value)
    (hruns : ∀ i, (t i).Runs (client i) (s i) (history i) (s' i))
    (hlanes : ∀ i, lane i l = trace (history i)) (hstore : StoreRun store (l.map Prod.snd) store') :
    Untangled t client store l store' ∧
      ∀ front i authUrl cookies answer back,
        l = front ++ (i, ⟨.refresh authUrl cookies, answer⟩) :: back →
        Knows (s i).authUrl (lane i front) authUrl ∧
          ∃ jar, cookies = cookieHeader jar ∧ ∀ c ∈ jar, CookieOf t store front authUrl c := by
  have hmay : ∀ {front i e back}, l = front ++ (i, e) :: back →
      May (client i).auth (t i).accepts (s i).authUrl (lane i front) e := by
    intro front i e back heq
    have htracks : Tracks (s i).authUrl [] (s i) := fun url hurl => .inl hurl
    have hlicensed := (hruns i).licensed htracks
    rw [← hlanes i] at hlicensed
    simpa using may_of_lane hlicensed heq
  have hcell : CellRun store (l.filterMap fun x => x.2.access) store' := by
    rw [StoreRun, List.filterMap_map] at hstore
    exact hstore
  obtain ⟨hlast, hloaded⟩ := CellRun.provenance (Untangled t client store) hcell untangled_first
    (fun front x v h => h.mono (List.subset_append_left _ _)) fun front x back w heq hw hreads => by
      obtain ⟨i, op, ans⟩ := x
      cases op with
      | saveStore new =>
        cases hw
        obtain ⟨before, loaded, hlane, hchanges⟩ := hmay heq
        have hmem : (i, (⟨.loadStore, loaded⟩ : Event)) ∈ front :=
          mem_of_mem_lane (by rw [hlane]; simp)
        have huntangled := hchanges.untangled (fun e he => mem_of_mem_lane he)
          (hreads _ hmem loaded rfl)
        exact huntangled.mono (List.subset_append_left _ _)
      | _ => cases hw
  refine ⟨hlast, fun front i authUrl cookies answer back heq => ?_⟩
  obtain ⟨hknows, loaded, hload, -, hcookies⟩ := hmay heq
  obtain ⟨front', back', hsplit⟩ := List.append_of_mem (mem_of_mem_lane hload)
  refine ⟨hknows, _, hcookies, fun c hc => ?_⟩
  have hgood := hloaded front' (i, ⟨.loadStore, loaded⟩) (back' ++ (i, ⟨_, answer⟩) :: back) loaded
    (by rw [heq, hsplit]; simp) rfl
  exact (hgood.cookie authUrl c hc).mono (by rw [hsplit]; exact List.subset_append_left _ _)

/-! ## Two clients of one store -/

/-- The store of a client that learned the auth server of its box. -/
def learnedIn : Value := (learnBox "box" "http://a" signedIn).getD .null

/-- A client is denied, learns the auth server of its box, refreshes its session there and sends its
request again. Nobody else writes the store. -/
def gatedAlone : List Event :=
  [⟨askHealth none, .ok (gatewayDenies 401 97)⟩, ⟨.loadStore, signedIn⟩, ⟨.saveStore learnedIn, ()⟩,
    ⟨.loadStore, learnedIn⟩,
    ⟨.refresh "http://a" "c=1", .ok ⟨200, false, [], .ok refreshed⟩⟩, ⟨.loadStore, learnedIn⟩,
    ⟨.saveStore (applyRefresh "http://a" ⟨"t", []⟩ learnedIn), ()⟩,
    ⟨askHealth (some "t"), .ok ⟨200, false, [], .ok [111, 107]⟩⟩]

/-- What two clients do, one of each kind. -/
def sharedHistory : Bool → List Step
  | true => [⟨⟨none, none⟩, .pass (.execute healthRequest), gatedAlone⟩]
  | false => [plainHealth]

/-- The async client asks for the health of its box, and then the blocking client signs in. -/
theorem sessions_kept_apart_signIn :
    letI := refreshParser
    Untangled (fun i => if i then .blocking else .async) (fun _ : Bool => unpinned) signedIn
      ((trace (sharedHistory false)).map (Prod.mk false) ++
        (trace (sharedHistory true)).map (Prod.mk true))
      (applyRefresh "http://a" ⟨"t", []⟩ learnedIn) := by
  let _ := refreshParser
  refine (sessions_kept_apart (fun i => if i then .blocking else .async) (fun _ => unpinned)
    (fun _ => ⟨none, none⟩) (fun i => if i then ⟨some "http://a", some "t"⟩ else ⟨none, none⟩)
    sharedHistory _ signedIn _ (fun i => ?_) (fun i => ?_) ?_).1
  · cases i
    · exact .cons (.op _ (.pure _)) (.nil _)
    · exact .cons (.op _ (.op _ (.op _ (.op _ (.op _ (.op _ (.op _ (.op _ (.pure _))))))))) (.nil _)
  · cases i <;> rfl
  · exact .read (.write (.read (.read (.write (.nil _)))))

end Lager
