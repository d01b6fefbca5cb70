import Lager.Auth.Gateway

set_option relaxedAutoImplicit false
set_option autoImplicit false

/-!
# The store between clients

Two clients share a store, and each records something in it: the auth server of a box, or a
refreshed session. Each loads the store, changes it and saves it whole, without a lock. If neither
saves between the load and the save of the other, the store holds in the end what it held before and
what both recorded; if they recorded different things in one place, what the later one did. If one
does save in between, what it recorded is lost.

## Main definitions

* `Lager.Update` — the two kinds of updates of the store.
* `Lager.Update.assigns` — what an update records, path by path.

## Main results

* `Lager.isolated_updates_kept` — isolated updates keep what they record and what was there.
* `Lager.overlapping_update_lost` — overlapping ones do not.
-/

namespace Lager

open Library GatewayAuth

/-- An update of the store: learning an auth server from a state, or writing a refreshed session
back. -/
inductive Update
  | learn (auth : GatewayAuth) (s : GatewayAuth.State) (authUrl : String)
  | refresh (authUrl : String) (outcome : RefreshOutcome)

namespace Update

/-- What an update does. -/
def program : Update → Program Op Op.Ans Unit
  | learn auth s authUrl => (fun _ => ()) <$> (auth.learnAuthServer authUrl).run s
  | refresh authUrl outcome => recordRefresh authUrl outcome

/-- Whether an update goes to the store: a client with a pinned token does not record what it
learns, and one that knew it before does not either. -/
def Records : Update → Prop
  | learn auth s authUrl => auth.staticToken = none ∧ s.authUrl ≠ some authUrl
  | refresh _ _ => True

/-- What an update writes back, if it writes. -/
def change : Update → Value → Option Value
  | learn auth _ authUrl => learnBox auth.boxHost authUrl
  | refresh authUrl outcome => fun store => some (applyRefresh authUrl outcome store)

/-- What an update records: under `boxes` the auth server of a box; under `authServers` the access
token of a session and its rotated cookies, of those with one name the last. -/
def assigns : Update → List String → Option String
  | learn auth _ authUrl, path => if path = ["boxes", auth.boxHost] then some authUrl else none
  | refresh authUrl outcome, path =>
    if path = ["authServers", authUrl, "accessToken"] then some outcome.accessToken
    else match path with
      | ["authServers", url, "cookies", name] =>
        if url = authUrl then outcome.setCookies.reverse.lookup name else none
      | _ => none

/-- Nothing but objects stands in the way of what an update records. -/
def Fits (u : Update) (store : Value) : Prop :=
  ∀ path value, u.assigns path = some value → Value.Fits path store

/-! ## What is recorded -/

variable {u v : Update} {store leaf : Value} {path path' : List String} {value value' : String}

/-- What is recorded of an auth server. -/
theorem assigns_learn {auth : GatewayAuth} {s : GatewayAuth.State} {authUrl : String} :
    (learn auth s authUrl).assigns path = some value ↔
      path = ["boxes", auth.boxHost] ∧ value = authUrl := by
  simp only [assigns]
  split_ifs with hpath
  · simp [hpath, eq_comm]
  · simp [hpath]

/-- What is recorded of a session. -/
theorem assigns_refresh {authUrl : String} {outcome : RefreshOutcome} :
    (refresh authUrl outcome).assigns path = some value ↔
      path = ["authServers", authUrl, "accessToken"] ∧ value = outcome.accessToken ∨
      ∃ name, path = ["authServers", authUrl, "cookies", name] ∧
        outcome.setCookies.reverse.lookup name = some value := by
  simp only [assigns]
  split_ifs with hpath
  · simp [hpath, eq_comm]
  · split
    · next url name =>
      split_ifs with hurl
      · simp [hurl]
      · simp [hurl]
    · next hne =>
      simp only [hpath, false_and, false_or, reduceCtorEq, false_iff, not_exists, not_and]
      rintro name rfl
      exact absurd rfl (hne _ _)

/-- No update records anything below what another records. -/
theorem assigns_prefix_free (h : u.assigns path = some value)
    (h' : v.assigns path' = some value') (hpath : path <+: path') : path = path' := by
  cases u with
  | learn auth s authUrl =>
    obtain ⟨rfl, -⟩ := assigns_learn.mp h
    cases v with
    | learn auth' s' authUrl' =>
      obtain ⟨rfl, -⟩ := assigns_learn.mp h'
      simpa using hpath
    | refresh authUrl' outcome' =>
      rcases assigns_refresh.mp h' with ⟨rfl, -⟩ | ⟨name, rfl, -⟩ <;> simp at hpath
  | refresh authUrl outcome =>
    cases v with
    | learn auth' s' authUrl' =>
      obtain ⟨rfl, -⟩ := assigns_learn.mp h'
      rcases assigns_refresh.mp h with ⟨rfl, -⟩ | ⟨name, rfl, -⟩ <;> simp at hpath
    | refresh authUrl' outcome' =>
      rcases assigns_refresh.mp h with ⟨rfl, -⟩ | ⟨name, rfl, -⟩ <;>
        rcases assigns_refresh.mp h' with ⟨rfl, -⟩ | ⟨name', rfl, -⟩ <;> simp_all

/-! ## The updates as accesses to the store -/

/-- An update that goes to the store reads it and writes back what it makes of it. -/
theorem program_spec (h : u.Records) :
    Always u.program fun events _ => Updates u.change (events.filterMap Event.access) := by
  cases u with
  | learn auth s authUrl =>
    obtain ⟨hpinned, hnew⟩ := h
    simp only [program, learnAuthServer, always_map, StateT.run_bind, StateT.run_get, pure_bind]
    rw [if_neg hnew, hpinned]
    simp only [StateT.run_bind, StateT.run_set, pure_bind, StateT.run_monadLift, always_bind,
      always_pure, Option.isSome_none, Bool.false_eq_true, if_false]
    refine (recordBox_spec auth.boxHost authUrl).mono ?_
    rintro events _ ⟨store, ⟨hkept, rfl⟩ | ⟨store', hchanged, rfl⟩⟩
    · exact .kept hkept
    · exact .changed hchanged
  | refresh authUrl outcome =>
    refine (recordRefresh_spec authUrl outcome).mono ?_
    rintro events _ ⟨store, rfl⟩
    exact .changed rfl

/-! ## A learned auth server -/

/-- The store that `learn_auth_server` writes back is changed in one place. -/
theorem learnBox_eq_some {boxHost authUrl : String} {store' : Value}
    (h : learnBox boxHost authUrl store = some store') :
    store' = store.modify ["boxes", boxHost] fun _ => .string authUrl := by
  unfold learnBox at h
  split at h
  · split at h
    · split_ifs at h
      exact (Option.some.inj h).symm
    · cases h
  · cases h

/-- It writes nothing when the auth server is there already. -/
theorem learnBox_eq_none {boxHost authUrl : String} (hfits : Value.Fits ["boxes", boxHost] store)
    (h : learnBox boxHost authUrl store = none) :
    store.atPath ["boxes", boxHost] = some (.string authUrl) := by
  obtain ⟨root, rfl, hroot⟩ := hfits
  rcases hboxes : root.lookup "boxes" with _ | child
  · simp [learnBox, hboxes] at h
  · obtain ⟨boxes, rfl, -⟩ := hroot child hboxes
    rcases hbox : boxes.lookup boxHost with _ | found
    · simp [learnBox, hboxes, hbox] at h
    · cases found with
      | string url =>
        obtain rfl : url = authUrl := by simpa [learnBox, hboxes, hbox, Value.asStr] using h
        simp [Value.atPath, hboxes, hbox]
      | _ => simp [learnBox, hboxes, hbox, Value.asStr] at h

/-! ## A refreshed session -/

/-- A refresh without a cookie of any name sets none. -/
theorem setCookies_eq_nil {outcome : RefreshOutcome}
    (h : ∀ name, outcome.setCookies.reverse.lookup name = none) : outcome.setCookies = [] := by
  apply List.eq_nil_iff_forall_not_mem.mpr
  intro c hc
  have hnone := List.lookup_eq_none_iff.mp (h c.1) c (List.mem_reverse.mpr hc)
  simp at hnone

/-- A value in a session stays, unless the refresh sets it, or something above or under it. -/
theorem atPath_refreshEntry_of_not {outcome : RefreshOutcome} {entry : Value}
    (h : entry.atPath path = some leaf)
    (hleaf : leaf.asObject = none ∨ ¬ path <+: ["accessToken"] ∧ ∀ name,
      path <+: ["cookies", name] → outcome.setCookies.reverse.lookup name = none)
    (htoken : ¬ ["accessToken"] <+: path)
    (hcookies : ∀ name, ["cookies", name] <+: path →
      outcome.setCookies.reverse.lookup name = none) :
    (entry.mapObject (refreshEntry outcome)).atPath path = some leaf := by
  have hkeep : ∀ {v : Value} (f : Map → Map), v = leaf → leaf.asObject = none →
      v.mapObject f = leaf := by
    rintro v f rfl hnone
    cases v with
    | object fields => cases hnone
    | _ => rfl
  rcases path with _ | ⟨key, path⟩
  · have hnone := hleaf.resolve_right fun hbelow => hbelow.1 List.nil_prefix
    exact congrArg some (hkeep _ (Option.some.inj h) hnone)
  obtain ⟨child, hchild, hrest⟩ := Option.bind_eq_some_iff.mp h
  obtain ⟨fields, rfl, hlookup⟩ := Value.exists_of_get hchild
  show ((refreshEntry outcome fields).lookup key).bind (Value.atPath path) = some leaf
  have hne : key ≠ "accessToken" := by
    rintro rfl
    exact htoken ⟨path, rfl⟩
  by_cases hkey : key = "cookies"
  · subst hkey
    rw [lookup_refreshEntry_cookies, hlookup, Option.getD_some, Option.bind_some]
    rcases path with _ | ⟨name, path⟩
    · obtain rfl : child = leaf := Option.some.inj hrest
      rcases hleaf with hnone | ⟨-, hbelow⟩
      · exact congrArg some (hkeep _ rfl hnone)
      · have hunset := setCookies_eq_nil fun name => hbelow name ⟨[name], rfl⟩
        rw [hunset]
        cases child <;> rfl
    obtain ⟨cookie, hcookie, hunder⟩ := Option.bind_eq_some_iff.mp hrest
    obtain ⟨cookies, rfl, hfound⟩ := Value.exists_of_get hcookie
    rw [Value.mapObject_object]
    show (List.lookup name _).bind (Value.atPath path) = some leaf
    rw [lookup_setCookies, hcookies name ⟨path, rfl⟩, hfound]
    exact hunder
  · rw [lookup_refreshEntry_of_ne hne hkey, hlookup, Option.bind_some]
    exact hrest

/-- A refresh leaves only objects on the way to a token or a cookie of its session. -/
theorem fits_refreshEntry {outcome : RefreshOutcome} {entry : Value} {rest : List String}
    (h : Value.Fits rest entry) (hrest : (∃ key, rest = [key]) ∨ ∃ name, rest = ["cookies", name]) :
    Value.Fits rest (entry.mapObject (refreshEntry outcome)) := by
  rcases hrest with ⟨key, rfl⟩ | ⟨name, rfl⟩
  · obtain ⟨fields, rfl, -⟩ := h
    exact ⟨_, rfl, fun _ _ => trivial⟩
  · obtain ⟨fields, rfl, hchild⟩ := h
    refine ⟨_, rfl, fun child hlookup => ?_⟩
    rw [lookup_refreshEntry_cookies] at hlookup
    obtain rfl := Option.some.inj hlookup
    rcases hcookies : fields.lookup "cookies" with _ | cookies
    · exact ⟨_, rfl, fun _ _ => trivial⟩
    · obtain ⟨cookies, rfl, -⟩ := hchild cookies hcookies
      exact ⟨_, rfl, fun _ _ => trivial⟩

/-! ## The effect of one update -/

/-- What an update records is there. -/
theorem atPath_applied (hfits : u.Fits store) (h : u.assigns path = some value) :
    (applied u.change store).atPath path = some (.string value) := by
  have hpath := hfits path value h
  cases u with
  | learn auth s authUrl =>
    obtain ⟨rfl, rfl⟩ := assigns_learn.mp h
    show ((learnBox auth.boxHost value store).getD store).atPath ["boxes", auth.boxHost] = _
    rcases hl : learnBox auth.boxHost value store with _ | store'
    · exact learnBox_eq_none hpath hl
    · rw [Option.getD_some, learnBox_eq_some hl]
      exact Value.atPath_modify hpath _ []
  | refresh authUrl outcome =>
    show (applyRefresh authUrl outcome store).atPath path = _
    rw [applyRefresh_eq]
    rcases assigns_refresh.mp h with ⟨rfl, rfl⟩ | ⟨name, rfl, hname⟩
    · obtain ⟨hserver, fields, hentry, -⟩ :=
        Value.fits_append ["authServers", authUrl] ["accessToken"] hpath
      refine (Value.atPath_modify hserver _ ["accessToken"]).trans ?_
      rw [hentry, Value.mapObject_object]
      show (List.lookup "accessToken" _).bind _ = _
      rw [lookup_refreshEntry_accessToken]
      rfl
    · obtain ⟨hserver, fields, hentry, hcookies⟩ :=
        Value.fits_append ["authServers", authUrl] ["cookies", name] hpath
      refine (Value.atPath_modify hserver _ ["cookies", name]).trans ?_
      rw [hentry, Value.mapObject_object]
      show (List.lookup "cookies" _).bind _ = _
      rw [lookup_refreshEntry_cookies, Option.bind_some]
      obtain ⟨cookies, hobject⟩ : ∃ cookies,
          (fields.lookup "cookies").getD (.object []) = .object cookies := by
        rcases hlookup : fields.lookup "cookies" with _ | child
        · exact ⟨[], rfl⟩
        · obtain ⟨cookies, rfl, -⟩ := hcookies child hlookup
          exact ⟨cookies, rfl⟩
      rw [hobject, Value.mapObject_object]
      show (List.lookup name _).bind _ = _
      rw [lookup_setCookies, hname]
      rfl

/-- A value stays where it is, unless the update records something there or above, or the value
is an object and the update records something in it. -/
theorem atPath_applied_of_not (h : store.atPath path = some leaf)
    (hleaf : leaf.asObject = none ∨ ∀ path', path <+: path' → u.assigns path' = none)
    (hpath : ∀ path', path' <+: path → u.assigns path' = none) :
    (applied u.change store).atPath path = some leaf := by
  cases u with
  | learn auth s authUrl =>
    show ((learnBox auth.boxHost authUrl store).getD store).atPath path = some leaf
    rcases hl : learnBox auth.boxHost authUrl store with _ | store'
    · exact h
    · rw [Option.getD_some, learnBox_eq_some hl]
      have hset : (learn auth s authUrl).assigns ["boxes", auth.boxHost] ≠ none := by
        rw [assigns_learn.mpr ⟨rfl, rfl⟩]
        exact Option.some_ne_none _
      refine Value.atPath_modify_of_not _ h (hleaf.imp_right fun hunset habove => ?_)
        fun hbelow => ?_
      · exact hset (hunset _ habove)
      · exact hset (hpath _ hbelow)
  | refresh authUrl outcome =>
    show (applyRefresh authUrl outcome store).atPath path = some leaf
    rw [applyRefresh_eq]
    have htokenSet : (refresh authUrl outcome).assigns ["authServers", authUrl, "accessToken"] ≠
        none := by
      rw [assigns_refresh.mpr (.inl ⟨rfl, rfl⟩)]
      exact Option.some_ne_none _
    have hcookieSet : ∀ name, (refresh authUrl outcome).assigns
        ["authServers", authUrl, "cookies", name] = none →
          outcome.setCookies.reverse.lookup name = none := by
      intro name hnone
      simpa [assigns] using hnone
    by_cases hbelow : ["authServers", authUrl] <+: path
    · obtain ⟨rest, rfl⟩ := hbelow
      rw [Value.atPath_append] at h
      obtain ⟨entry, hentry, hrest⟩ := Option.bind_eq_some_iff.mp h
      rw [Value.atPath_modify (Value.fits_of_atPath hentry), hentry, Option.getD_some]
      have hunder : leaf.asObject = none ∨ ¬ rest <+: ["accessToken"] ∧ ∀ name,
          rest <+: ["cookies", name] → outcome.setCookies.reverse.lookup name = none := by
        refine hleaf.imp_right fun hunset => ⟨fun htoken => ?_, fun name hcookie => ?_⟩
        · exact htokenSet (hunset _ (by simpa using htoken))
        · exact hcookieSet name (hunset _ (by simpa using hcookie))
      refine atPath_refreshEntry_of_not hrest hunder (fun htoken => ?_) fun name hcookie => ?_
      · exact htokenSet (hpath _ (by simpa using htoken))
      · exact hcookieSet name (hpath _ (by simpa using hcookie))
    · refine Value.atPath_modify_of_not _ h (hleaf.imp_right fun hunset habove => ?_) hbelow
      exact htokenSet (hunset _ (habove.trans ⟨["accessToken"], rfl⟩))

/-- What an update records does not stand in the way of another. -/
theorem Fits.applied (h : v.Fits store) : v.Fits (Library.applied u.change store) := by
  intro path value hv
  have hpath := h path value hv
  cases u with
  | learn auth s authUrl =>
    show Value.Fits path ((learnBox auth.boxHost authUrl store).getD store)
    rcases hl : learnBox auth.boxHost authUrl store with _ | store'
    · exact hpath
    · rw [Option.getD_some, learnBox_eq_some hl]
      refine Value.fits_modify hpath fun rest entry hrest _ => ?_
      have hu : (learn auth s authUrl).assigns ["boxes", auth.boxHost] = some authUrl :=
        assigns_learn.mpr ⟨rfl, rfl⟩
      have hsame := assigns_prefix_free hu hv ⟨rest, hrest.symm⟩
      obtain rfl : rest = [] := by simpa [hsame] using hrest
      trivial
  | refresh authUrl outcome =>
    show Value.Fits path (applyRefresh authUrl outcome store)
    rw [applyRefresh_eq]
    refine Value.fits_modify hpath fun rest entry hrest hentry => fits_refreshEntry hentry ?_
    subst hrest
    cases v with
    | learn auth' s' authUrl' => simp [assigns_learn] at hv
    | refresh authUrl' outcome' =>
      rcases assigns_refresh.mp hv with ⟨heq, -⟩ | ⟨name, heq, -⟩
      · exact .inl ⟨"accessToken", by simpa using (List.cons.inj (List.cons.inj heq).2).2⟩
      · exact .inr ⟨name, by simpa using (List.cons.inj (List.cons.inj heq).2).2⟩

end Update

/-! ## Two updates -/

/-- What the store holds after two updates: what the second records, what the first records where
the second does not, and whatever it held elsewhere. An object is kept whole where neither records
anything in it; where one does, what the object held elsewhere is kept. -/
structure Keeps (first second : Update) (store store' : Value) : Prop where
  later : ∀ path value, second.assigns path = some value →
    store'.atPath path = some (.string value)
  earlier : ∀ path value, first.assigns path = some value → second.assigns path = none →
    store'.atPath path = some (.string value)
  rest : ∀ path value, store.atPath path = some value →
    (∀ path', path' <+: path → first.assigns path' = none ∧ second.assigns path' = none) →
    (value.asObject = none ∨ ∀ path', path <+: path' →
      first.assigns path' = none ∧ second.assigns path' = none) →
    store'.atPath path = some value

/-- One update after another. -/
theorem keeps_applied {u v : Update} {store : Value} (hu : u.Fits store) (hv : v.Fits store) :
    Keeps u v store (applied v.change (applied u.change store)) where
  later path value h := Update.atPath_applied (Update.Fits.applied hv) h
  earlier path value h hnone := by
    refine Update.atPath_applied_of_not (Update.atPath_applied hu h) (.inl rfl)
      fun path' hpath => ?_
    rcases hlater : v.assigns path' with _ | value'
    · rfl
    · rw [Update.assigns_prefix_free hlater h hpath] at hlater
      rw [hlater] at hnone
      cases hnone
  rest path value h hpath hvalue := by
    have hfirst := Update.atPath_applied_of_not h
      (hvalue.imp_right fun hunset path' hp => (hunset path' hp).1)
      fun path' hp => (hpath path' hp).1
    exact Update.atPath_applied_of_not hfirst
      (hvalue.imp_right fun hunset path' hp => (hunset path' hp).2)
      fun path' hp => (hpath path' hp).2

/-- **No isolated update is lost.** Take two clients that share a store, each learning an auth
server or writing a refreshed session back, in any interleaving in which neither saves between the
load and the save of the other. If nothing but objects stands in the way of what they record, the
store holds in the end what both record, and what the later one does where that is in one place,
besides everything else it held before.

**Proof sketch.** Isolated updates are serial. Each of them changes the store in place, under paths
no one of which is below another, so neither undoes what the other records. -/
theorem isolated_updates_kept {u v : Update} (hu : u.Records) (hv : v.Records)
    {events₁ events₂ : List Event} (hrun₁ : Run u.program events₁ ())
    (hrun₂ : Run v.program events₂ ()) {events : List (Bool × Event)}
    (hshuffle : Shuffle events₁ events₂ events)
    (hiso : Isolated (filterMapSnd Event.access events)) {store store' : Value}
    (hstore : StoreRun store (events.map Prod.snd) store') (hfits : u.Fits store)
    (hfits' : v.Fits store) : Keeps u v store store' ∨ Keeps v u store store' := by
  have hfirst := always_iff_run.mp (Update.program_spec hu) _ _ hrun₁
  have hsecond := always_iff_run.mp (Update.program_spec hv) _ _ hrun₂
  rw [StoreRun, ← map_snd_filterMapSnd] at hstore
  rcases isolated_updates hfirst hsecond (hshuffle.filterMap Event.access) hstore hiso with
    rfl | rfl
  · exact .inl (keeps_applied hfits hfits')
  · exact .inr (keeps_applied hfits' hfits)

/-! ## Runs on fixed stores -/

/-- A client learns the auth server of its box `a`. -/
def learnA : Update := .learn ⟨"a", none⟩ ⟨none, none⟩ "http://x"

/-- Another client learns the auth server of its box `b`. -/
def learnB : Update := .learn ⟨"b", none⟩ ⟨none, none⟩ "http://y"

/-- The events of learning an auth server, with a store that lacks it. -/
def learning (boxHost authUrl : String) (store : Value) : List Event :=
  [⟨.loadStore, store⟩, ⟨.saveStore ((learnBox boxHost authUrl store).getD .null), ()⟩]

/-- The store after the first client has learned. -/
def storeA : Value := .object [("boxes", .object [("a", .string "http://x")])]

/-- One client after the other: both auth servers are in the store. -/
theorem isolated_updates_kept_serial :
    Keeps learnA learnB (.object [])
        (.object [("boxes", .object [("a", .string "http://x"), ("b", .string "http://y")])]) ∨
      Keeps learnB learnA (.object [])
        (.object [("boxes", .object [("a", .string "http://x"), ("b", .string "http://y")])]) := by
  have hrun₁ : Run learnA.program (learning "a" "http://x" (.object [])) () :=
    .op _ (.op _ (.pure _))
  have hrun₂ : Run learnB.program (learning "b" "http://y" storeA) () := .op _ (.op _ (.pure _))
  have hfits : ∀ u : Update, u.Fits (.object []) := fun u path value h => Value.fits_empty path
  have hA : learnA.Records := ⟨rfl, by decide⟩
  have hB : learnB.Records := ⟨rfl, by decide⟩
  refine isolated_updates_kept hA hB hrun₁ hrun₂ (.left (.left (.right (.right .nil))))
    (isolated_of_pairwise (by decide)) (.read (.write (.read (.write (.nil _)))))
    (hfits _) (hfits _)

/-- Updates that overlap lose one: both clients load the empty store before either saves. Nor is
there a place for two auth servers of one box, or for any where a store is not as it should be. -/
theorem overlapping_update_lost :
    (∃ events store', Shuffle (learning "a" "http://x" (.object []))
        (learning "b" "http://y" (.object [])) events ∧
      Run learnA.program (learning "a" "http://x" (.object [])) () ∧
      Run learnB.program (learning "b" "http://y" (.object [])) () ∧
      StoreRun (.object []) (events.map Prod.snd) store' ∧
      store'.atPath ["boxes", "a"] = none) ∧
    (∃ store', Run learnA.program (learning "a" "http://x" (.object [])) () ∧
      Run (Update.learn ⟨"a", none⟩ ⟨none, none⟩ "http://y").program
        (learning "a" "http://y" storeA) () ∧
      StoreRun (.object [])
        (learning "a" "http://x" (.object []) ++ learning "a" "http://y" storeA) store' ∧
      store'.atPath ["boxes", "a"] ≠ some (.string "http://x")) ∧
    (Run learnA.program [⟨.loadStore, .object [("boxes", .null)]⟩] () ∧
      StoreRun (.object [("boxes", .null)]) [⟨.loadStore, .object [("boxes", .null)]⟩]
        (.object [("boxes", .null)]) ∧
      (Value.object [("boxes", .null)]).atPath ["boxes", "a"] = none) := by
  have hA : Run learnA.program (learning "a" "http://x" (.object [])) () :=
    .op _ (.op _ (.pure _))
  refine ⟨⟨_, _, .left (.right (.left (.right .nil))), hA, .op _ (.op _ (.pure _)),
    .read (.read (.write (.write (.nil _)))), rfl⟩, ⟨_, hA, .op _ (.op _ (.pure _)),
    .read (.write (.read (.write (.nil _)))), ?_⟩, .op _ (.pure _), .read (.nil _), rfl⟩
  intro h
  have hlast : ((learnBox "a" "http://y" storeA).getD .null).atPath ["boxes", "a"] =
      some (.string "http://y") := rfl
  rw [hlast] at h
  simp at h

end Lager
