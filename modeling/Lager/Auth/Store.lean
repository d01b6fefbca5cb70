import Lager.Rust.Json
import Lager.Rust.Text
import Mathlib.Data.List.Induction
import Mathlib.Data.Rat.Floor

set_option relaxedAutoImplicit false
set_option autoImplicit false

/-!
# Tokens and the token store

The store is a JSON object shared with the CLI: under `boxes` the auth server of each box, under
`authServers` a session for each auth server, an access token and the cookies to refresh it
with. This file has what the crate reads from it and what it writes to it.

## Main definitions

* `Lager.tokenExpiresAt` — the expiry a token claims.
* `Lager.boxAuthUrl`, `Lager.storeEntry` — the auth server of a box, the session of an auth server.
* `Lager.learnBox` — the store with a box's auth server recorded.
* `Lager.applyRefresh` — the store with a refreshed session recorded.

## Implementation notes

A number of the store or of a token is an exact rational where the crate has an `f64`.
-/

namespace Lager

open Library

/-! ## JWT expiry -/

/-- The six bits a base64url character stands for. -/
def base64urlVal (c : UInt8) : Option ℕ :=
  let n := c.toNat
  if 65 ≤ n ∧ n ≤ 90 then some (n - 65)
  else if 97 ≤ n ∧ n ≤ 122 then some (n - 97 + 26)
  else if 48 ≤ n ∧ n ≤ 57 then some (n - 48 + 52)
  else if n = 45 then some 62
  else if n = 95 then some 63
  else none

/-- The bytes of up to four base64url characters. -/
def base64urlChunk (chunk : List UInt8) : Option (List UInt8) := do
  let acc ← chunk.foldlM (fun acc c => (base64urlVal c).map fun v => acc * 64 + v) 0
  let acc := acc * 2 ^ (24 - chunk.length * 6)
  return UInt8.ofNat (acc / 65536) ::
    ((if 2 < chunk.length then [UInt8.ofNat (acc / 256)] else []) ++
      if 3 < chunk.length then [UInt8.ofNat acc] else [])

/-- `base64url_decode`. -/
def base64urlDecode (s : List Char) : Option (List UInt8) :=
  let s := asBytes (trimEndMatches '=' s)
  if s.length % 4 = 1 then none
  else ((s.toChunks 4).mapM base64urlChunk).map List.flatten

/-- `token_expires_at`: 0 when it cannot be read. -/
def tokenExpiresAt [SerdeJson] (token : String) : ℚ :=
  match (token.toList.splitOn '.')[1]? with
  | none => 0
  | some payload =>
    match base64urlDecode payload with
    | none => 0
    | some bytes =>
      (((SerdeJson.fromSlice bytes).toOption.bind fun v => v.get "exp").bind Value.asF64).getD 0

/-- Refresh a token when it expires within this many seconds. -/
def expiryMarginSeconds : ℚ := 60

/-- `token_is_fresh`, at a given time. -/
def tokenIsFresh [SerdeJson] (now : ℚ) (token : String) : Bool :=
  decide (now + expiryMarginSeconds < tokenExpiresAt token)

/-! ## Cookies -/

/-- `cookie_header`: the text cookies, for the `Cookie` header. -/
def cookieHeader (cookies : Map) : String :=
  "; ".intercalate (cookies.filterMap fun c => c.2.asStr.map fun v => c.1 ++ "=" ++ v)

/-- `parse_set_cookie`. -/
def parseSetCookie (header : List Char) : Option (String × String) := do
  let pair := trim ((header.splitOn ';').headD [])
  let (name, value) ← cut '=' pair
  if name = [] then none
  else some (String.ofList (trim name), String.ofList (trim value))

/-- `RefreshOutcome`. -/
structure RefreshOutcome where
  accessToken : String
  setCookies : List (String × String)
  deriving DecidableEq, Repr

/-! ## The store -/

/-- The auth server of a box, as `GatewayAuth::new` reads it. -/
def boxAuthUrl (boxHost : String) (store : Value) : Option String :=
  ((store.get "boxes").bind fun b => b.get boxHost).bind Value.asStr

/-- The store that `learn_auth_server` writes back, if it writes: the box's auth server is
recorded unless it is already. -/
def learnBox (boxHost authUrl : String) (store : Value) : Option Value :=
  match store with
  | .object root =>
    match (root.lookup "boxes").getD (.object []) with
    | .object boxes =>
      if (boxes.lookup boxHost).bind Value.asStr = some authUrl then none
      else some (.object
        (Map.update "boxes" (fun b => b.mapObject (Map.insert boxHost (.string authUrl))) root))
    | _ => none
  | _ => none

/-- `store_entry`: the access token and the cookies of an auth server. -/
def storeEntry (authUrl : String) (store : Value) : Option String × Map :=
  let entry := (store.get "authServers").bind fun s => s.get authUrl
  ((entry.bind fun e => e.get "accessToken").bind Value.asStr,
    ((entry.bind fun e => e.get "cookies").bind Value.asObject).getD [])

/-- The fields `apply_refresh` sets in the entry of an auth server. Rotated cookies go over the
existing ones. -/
def refreshEntry (outcome : RefreshOutcome) (entry : Map) : Map :=
  Map.update "cookies"
    (fun cookies => cookies.mapObject fun fields =>
      outcome.setCookies.foldl (fun fields c => Map.insert c.1 (.string c.2) fields) fields)
    (Map.insert "accessToken" (.string outcome.accessToken) entry)

/-- `apply_refresh`. -/
def applyRefresh (authUrl : String) (outcome : RefreshOutcome) (store : Value) : Value :=
  store.mapObject <| Map.update "authServers" fun servers =>
    servers.mapObject <| Map.update authUrl fun entry => entry.mapObject (refreshEntry outcome)

/-! ## A refreshed session -/

section

variable {outcome : RefreshOutcome} {entry : Map} {key : String}

/-- The access token of a refreshed session. -/
theorem lookup_refreshEntry_accessToken :
    (refreshEntry outcome entry).lookup "accessToken" = some (.string outcome.accessToken) := by
  rw [refreshEntry, Map.lookup_update_ne (by decide), Map.lookup_insert, if_pos rfl]

/-- The cookies of a refreshed session. -/
theorem lookup_refreshEntry_cookies :
    (refreshEntry outcome entry).lookup "cookies" =
      some (((entry.lookup "cookies").getD (.object [])).mapObject fun fields =>
        outcome.setCookies.foldl (fun fields c => Map.insert c.1 (.string c.2) fields) fields) := by
  rw [refreshEntry, Map.lookup_update_self, Map.lookup_insert, if_neg (by decide)]

/-- The rest of a refreshed session. -/
theorem lookup_refreshEntry_of_ne (htoken : key ≠ "accessToken") (hcookies : key ≠ "cookies") :
    (refreshEntry outcome entry).lookup key = entry.lookup key := by
  rw [refreshEntry, Map.lookup_update_ne hcookies, Map.lookup_insert, if_neg htoken]

/-- Cookies set one after another: the last of a name stands, and the others stay. -/
theorem lookup_setCookies (setCookies : List (String × String)) (name : String) (fields : Map) :
    (setCookies.foldl (fun fields c => Map.insert c.1 (.string c.2) fields) fields).lookup name =
      ((setCookies.reverse.lookup name).map Value.string).or (fields.lookup name) := by
  induction setCookies generalizing fields with
  | nil => rfl
  | cons c setCookies ih =>
    obtain ⟨key, cookie⟩ := c
    rw [List.foldl_cons, ih, Map.lookup_insert, List.reverse_cons, List.lookup_append]
    rcases setCookies.reverse.lookup name with _ | value
    · by_cases hname : name = key
      · simp [hname]
      · have hne : (name == key) = false := by simpa using hname
        simp [hname, List.lookup_cons, hne]
    · rfl

end

/-- Cookies set over a sorted jar leave it sorted. -/
theorem sorted_setCookies (setCookies : List (String × String)) {fields : Map}
    (h : Map.Sorted fields) :
    Map.Sorted (setCookies.foldl (fun fields c => Map.insert c.1 (.string c.2) fields) fields) := by
  induction setCookies generalizing fields with
  | nil => exact h
  | cons c setCookies ih => exact ih (h.insert c.1 (.string c.2))

/-- A cookie that is set in the end may have been set before. -/
theorem insert_setCookies_insert (setCookies : List (String × String)) (key : String)
    (value value' : Value) (fields : Map) :
    Map.insert key value (setCookies.foldl (fun fields c => Map.insert c.1 (.string c.2) fields)
      (Map.insert key value' fields)) =
    Map.insert key value
      (setCookies.foldl (fun fields c => Map.insert c.1 (.string c.2) fields) fields) := by
  induction setCookies generalizing fields with
  | nil => exact Map.insert_insert key value value' fields
  | cons c setCookies ih =>
    rw [List.foldl_cons, List.foldl_cons]
    by_cases hkey : c.1 = key
    · rw [hkey, Map.insert_insert]
    · rw [Map.insert_comm hkey, ih]

/-- Cookies set twice are set once. -/
theorem setCookies_setCookies (setCookies : List (String × String)) (fields : Map) :
    setCookies.foldl (fun fields c => Map.insert c.1 (.string c.2) fields)
      (setCookies.foldl (fun fields c => Map.insert c.1 (.string c.2) fields) fields) =
    setCookies.foldl (fun fields c => Map.insert c.1 (.string c.2) fields) fields := by
  induction setCookies using List.reverseRecOn with
  | nil => rfl
  | append_singleton setCookies c ih =>
    rw [List.foldl_append, List.foldl_append, List.foldl_cons, List.foldl_nil, List.foldl_cons,
      List.foldl_nil, insert_setCookies_insert, ih]

/-- A session refreshed twice with one outcome is refreshed once. -/
theorem refreshEntry_refreshEntry (outcome : RefreshOutcome) (entry : Map) :
    refreshEntry outcome (refreshEntry outcome entry) = refreshEntry outcome entry := by
  have hcomm : ∀ (f : Value → Value) (fields : Map),
      Map.insert "accessToken" (.string outcome.accessToken) (Map.update "cookies" f
        (Map.insert "accessToken" (.string outcome.accessToken) fields)) =
      Map.update "cookies" f
        (Map.insert "accessToken" (.string outcome.accessToken) fields) := by
    intro f fields
    rw [Map.update, Map.insert_comm (by decide), Map.insert_insert]
  rw [refreshEntry, refreshEntry, hcomm, Map.update_update]
  congr 1
  funext cookies
  rw [Function.comp_apply, Value.mapObject_mapObject]
  congr 1
  funext fields
  exact setCookies_setCookies outcome.setCookies fields

/-- Applying a refresh twice is applying it once. -/
theorem applyRefresh_applyRefresh (authUrl : String) (outcome : RefreshOutcome) (store : Value) :
    applyRefresh authUrl outcome (applyRefresh authUrl outcome store) =
      applyRefresh authUrl outcome store := by
  have htwice : ∀ {f : Value → Value}, (∀ v, f (f v) = f v) → ∀ (key : String) (v : Value),
      (v.mapObject (Map.update key f)).mapObject (Map.update key f) =
        v.mapObject (Map.update key f) := by
    intro f hf key v
    rw [Value.mapObject_mapObject]
    congr 1
    funext fields
    rw [Function.comp_apply, Map.update_update]
    congr 1
    funext v
    exact hf v
  have hentry : ∀ entry : Value, (entry.mapObject (refreshEntry outcome)).mapObject
      (refreshEntry outcome) = entry.mapObject (refreshEntry outcome) := by
    intro entry
    rw [Value.mapObject_mapObject]
    congr 1
    funext fields
    exact refreshEntry_refreshEntry outcome fields
  exact htwice (htwice hentry authUrl) "authServers" store

/-- A refresh changes the session of its auth server, in place. -/
theorem applyRefresh_eq (authUrl : String) (outcome : RefreshOutcome) (store : Value) :
    applyRefresh authUrl outcome store =
      store.modify ["authServers", authUrl] (Value.mapObject (refreshEntry outcome)) := rfl

end Lager
