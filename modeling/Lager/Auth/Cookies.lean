import Lager.Auth.StoredSession

set_option relaxedAutoImplicit false
set_option autoImplicit false

/-!
# Cookies across refreshes

The cookies of an auth server come one by one, in the `Set-Cookie` headers of its answers, and go
back all together, in the `Cookie` header of the next refresh. A header joins them with `"; "` and
names and values with `=`, without quoting anything. This file says why the server still reads back
what it set: what is kept of a `Set-Cookie` header has neither a `;` nor, in the name, a `=`.

## Main definitions

* `Lager.IsCookie` — a name and a value that a header can carry.
* `Lager.readCookies` — the cookies a server reads from a `Cookie` header.
* `Lager.textCookies` — the cookies of a session that are sent.
* `Lager.CookieJar` — the cookies of a session can be sent.

## Main results

* `Lager.isCookie_of_parseSetCookie` — what is kept of a `Set-Cookie` header is a cookie.
* `Lager.readCookies_cookieHeader` — a header is read as the cookies it was made of.
* `Lager.cookies_replayed` — after any refreshes, a server reads of each name the last value it set.
-/

namespace Lager

open Library

/-! ## The text of a header -/

/-- A name and a value that can be told apart in a header, and from those around them. -/
structure IsCookie (name value : List Char) : Prop where
  name_ne : name ≠ []
  trim_name : trim name = name
  trim_value : trim value = value
  noEquals : '=' ∉ name
  noSemicolon : ';' ∉ name ++ value

/-- A cookie as a server reads it from a part of a `Cookie` header. -/
def readCookie (part : List Char) : Option (String × String) :=
  (cut '=' (trim part)).map fun p => (String.ofList p.1, String.ofList p.2)

/-- The cookies a server reads from a `Cookie` header: its parts between the semicolons, each cut
at its first `=`. -/
def readCookies (header : List Char) : List (String × String) :=
  (header.splitOn ';').filterMap readCookie

/-- The ends of a trimmed text are no white space. -/
theorem not_isWhitespace_of_trim (s : List Char) {c : Char}
    (h : (trim s).head? = some c ∨ (trim s).getLast? = some c) : isWhitespace c = false := by
  have hfront : ∀ l : List Char, (l.dropWhile isWhitespace).head? = some c →
      isWhitespace c = false := by
    intro l hl
    have hnot := List.head?_dropWhile_not isWhitespace l
    rw [hl] at hnot
    exact hnot
  rcases h with h | h
  · refine hfront s ?_
    have hend : trim s ++ ((trimStart s).reverse.takeWhile isWhitespace).reverse = trimStart s := by
      rw [trim, trimEnd, ← List.reverse_append, List.takeWhile_append_dropWhile,
        List.reverse_reverse]
    have hhead : (trimStart s).head? = some c := by
      rw [← hend, List.head?_append, h]
      rfl
    exact hhead
  · rw [trim, trimEnd, List.getLast?_reverse] at h
    exact hfront _ h

/-- Trimming twice is trimming. -/
theorem trim_trim (s : List Char) : trim (trim s) = trim s :=
  trim_of_ends (fun _ hc => not_isWhitespace_of_trim s (.inl hc))
    (fun _ hc => not_isWhitespace_of_trim s (.inr hc))

/-- What is in a trimmed text is in the text. -/
theorem mem_of_mem_trim {s : List Char} {c : Char} (h : c ∈ trim s) : c ∈ s := by
  obtain ⟨left, right, hs, -⟩ := exists_trim s
  rw [hs]
  simp [h]

/-- A text that does not begin with white space is not trimmed to nothing. -/
theorem trim_ne_nil {s : List Char} {c : Char} (h : s.head? = some c)
    (hc : isWhitespace c = false) : trim s ≠ [] := by
  obtain ⟨left, right, hs, hblank⟩ := exists_trim s
  intro hempty
  rw [hempty, List.append_nil] at hs
  have hmem : c ∈ left ++ right := hs ▸ List.mem_of_mem_head? h
  rw [hblank c hmem] at hc
  cases hc

/-- What is kept of a `Set-Cookie` header is a cookie. -/
theorem isCookie_of_parseSetCookie {header : List Char} {name value : String}
    (h : parseSetCookie header = some (name, value)) : IsCookie name.toList value.toList := by
  rw [parseSetCookie, headD_splitOn] at h
  obtain ⟨⟨front, back⟩, hcut, hname⟩ := Option.bind_eq_some_iff.mp h
  dsimp only at hname
  split_ifs at hname with hne
  obtain ⟨rfl, rfl⟩ := Prod.mk.inj (Option.some.inj hname)
  obtain ⟨hpair, hequals⟩ := cut_eq_some_iff.mp hcut
  obtain ⟨c, rest, rfl⟩ := List.exists_cons_of_ne_nil hne
  -- the pair is trimmed, so its name does not begin with white space
  have hfirst : isWhitespace c = false := by
    refine not_isWhitespace_of_trim (header.takeWhile (· ≠ ';')) (.inl ?_)
    rw [hpair]
    rfl
  -- and it is in front of the first semicolon
  have hsemicolon : ';' ∉ (c :: rest) ++ back := by
    intro hmem
    have hin : ';' ∈ trim (header.takeWhile (· ≠ ';')) := by
      rw [hpair]
      rcases List.mem_append.mp hmem with hmem | hmem
      · exact List.mem_append_left _ hmem
      · exact List.mem_append_right _ (List.mem_cons_of_mem _ hmem)
    have hnot := List.mem_takeWhile_imp (mem_of_mem_trim hin)
    simp at hnot
  simp only [String.toList_ofList]
  refine ⟨trim_ne_nil rfl hfirst, trim_trim _, trim_trim _, fun hmem => ?_, fun hmem => ?_⟩
  · exact hequals (mem_of_mem_trim hmem)
  · refine hsemicolon ((List.mem_append.mp hmem).elim (fun hmem => ?_) fun hmem => ?_)
    · exact List.mem_append_left _ (mem_of_mem_trim hmem)
    · exact List.mem_append_right _ (mem_of_mem_trim hmem)

/-! ## Reading a header -/

/-- The text of a cookie in a header. -/
def cookieText (cookie : String × String) : String := cookie.1 ++ "=" ++ cookie.2

/-- The ends of a cookie are no white space, but for a cookie without a value. -/
theorem trim_cookie {name value : List Char} (h : IsCookie name value) :
    trim (name ++ '=' :: value) = name ++ '=' :: value := by
  refine trim_of_ends (fun c hc => ?_) fun c hc => ?_
  · refine not_isWhitespace_of_trim name (.inl ?_)
    obtain ⟨first, rest, rfl⟩ := List.exists_cons_of_ne_nil h.name_ne
    rw [h.trim_name]
    exact hc
  · rcases hvalue : value.getLast? with _ | last
    · rw [List.getLast?_eq_none_iff.mp hvalue, List.getLast?_append] at hc
      obtain rfl : '=' = c := by simpa using hc
      rfl
    · obtain rfl : last = c := by
        simpa [List.getLast?_append, List.getLast?_cons, hvalue] using hc
      exact not_isWhitespace_of_trim value (.inr (h.trim_value.symm ▸ hvalue))

/-- A cookie in a part of a header, with white space in front of it. -/
theorem readCookie_append {cookie : String × String}
    (h : IsCookie cookie.1.toList cookie.2.toList) {blank : List Char}
    (hblank : ∀ c ∈ blank, isWhitespace c = true) :
    readCookie (blank ++ (cookieText cookie).toList) = some cookie := by
  have htext : (cookieText cookie).toList = cookie.1.toList ++ '=' :: cookie.2.toList := by
    simp [cookieText]
  rw [readCookie, trim_append_left hblank, htext, trim_cookie h, cut_append_cons h.noEquals]
  simp

/-- Parts joined with `"; "`, split at the semicolons. -/
theorem splitOn_joined {part : List Char} {parts : List (List Char)} (blank : List Char)
    (hblank : ';' ∉ blank) (h : ∀ p ∈ part :: parts, ';' ∉ p) :
    (blank ++ [';', ' '].intercalate (part :: parts)).splitOn ';' =
      (blank ++ part) :: parts.map ([' '] ++ ·) := by
  induction parts generalizing part blank with
  | nil =>
    have hnone : ';' ∉ blank ++ part := by
      rw [List.mem_append]
      exact not_or.mpr ⟨hblank, h part List.mem_cons_self⟩
    rw [List.intercalate_singleton, List.splitOn_eq_singleton hnone, List.map_nil]
  | cons next parts ih =>
    obtain ⟨hpart, hrest⟩ := List.forall_mem_cons.mp h
    have hnone : ';' ∉ blank ++ part := by
      rw [List.mem_append]
      exact not_or.mpr ⟨hblank, hpart⟩
    have hsplit : blank ++ [';', ' '].intercalate (part :: next :: parts) =
        (blank ++ part) ++ ';' :: ([' '] ++ [';', ' '].intercalate (next :: parts)) := by
      rw [List.intercalate_cons_cons]
      simp
    rw [hsplit, List.splitOn_append_cons_self_of_not_mem hnone, ih _ (by decide) hrest,
      List.map_cons]

/-- A header made of cookies is read as these cookies. -/
theorem readCookies_intercalate {cookies : List (String × String)}
    (h : ∀ c ∈ cookies, IsCookie c.1.toList c.2.toList) :
    readCookies ("; ".intercalate (cookies.map cookieText)).toList = cookies := by
  have hsemicolon : ∀ c ∈ cookies, ';' ∉ (cookieText c).toList := by
    intro c hc
    have hnone := (h c hc).noSemicolon
    simpa [cookieText] using hnone
  rw [readCookies, String.toList_intercalate]
  cases cookies with
  | nil => rfl
  | cons first cookies =>
    obtain ⟨hfirst, hcookies⟩ := List.forall_mem_cons.mp h
    have hparts : ∀ p ∈ (cookieText first).toList :: (cookies.map cookieText).map String.toList,
        ';' ∉ p := by
      intro p hp
      rcases List.mem_cons.mp hp with rfl | hp
      · exact hsemicolon first List.mem_cons_self
      · obtain ⟨text, htext, rfl⟩ := List.mem_map.mp hp
        obtain ⟨c, hc, rfl⟩ := List.mem_map.mp htext
        exact hsemicolon c (List.mem_cons_of_mem _ hc)
    have hjoined := splitOn_joined [] List.not_mem_nil hparts
    rw [List.nil_append, List.nil_append] at hjoined
    have hread : readCookie (cookieText first).toList = some first := by
      rw [← List.nil_append (cookieText first).toList]
      exact readCookie_append hfirst (by simp)
    rw [List.map_cons, List.map_cons]
    refine (congrArg (List.filterMap readCookie) hjoined).trans ?_
    rw [List.filterMap_cons_some hread,
      List.filterMap_map, List.filterMap_map, List.filterMap_map]
    congr 1
    refine (List.filterMap_congr fun c hc => ?_).trans List.filterMap_some
    exact readCookie_append (hcookies c hc) (by simp [isWhitespace])

/-! ## The cookies of a session -/

/-- The cookies of a session that are sent: those that are texts. -/
def textCookies (jar : Map) : List (String × String) :=
  jar.filterMap fun c => c.2.asStr.map fun v => (c.1, v)

/-- The cookies of a session can be sent. -/
def CookieJar (jar : Map) : Prop :=
  ∀ name value, (name, Value.string value) ∈ jar → IsCookie name.toList value.toList

/-- What is sent of a session is in it. -/
theorem mem_textCookies {jar : Map} {c : String × String} :
    c ∈ textCookies jar ↔ (c.1, Value.string c.2) ∈ jar := by
  rw [textCookies, List.mem_filterMap]
  constructor
  · rintro ⟨⟨name, value⟩, hmem, htext⟩
    cases value with
    | string value =>
      obtain rfl : (name, value) = c := by simpa [Value.asStr] using htext
      exact hmem
    | _ => cases htext
  · intro hmem
    exact ⟨_, hmem, rfl⟩

/-- **Round trip.** A header is read as the cookies it was made of. -/
theorem readCookies_cookieHeader {jar : Map} (h : CookieJar jar) :
    readCookies (cookieHeader jar).toList = textCookies jar := by
  have hheader : cookieHeader jar = "; ".intercalate ((textCookies jar).map cookieText) := by
    rw [cookieHeader, textCookies, List.map_filterMap]
    congr 2
    funext c
    cases c.2.asStr <;> rfl
  rw [hheader]
  exact readCookies_intercalate fun c hc => h _ _ (mem_textCookies.mp hc)

/-- What is sent of a name is what the session has of it, if that is a text. -/
theorem lookup_textCookies {jar : Map} (h : Map.Sorted jar) (name : String) :
    (textCookies jar).lookup name = (jar.lookup name).bind Value.asStr := by
  induction jar with
  | nil => rfl
  | cons field jar ih =>
    obtain ⟨key, value⟩ := field
    obtain ⟨hfirst, hjar⟩ := List.pairwise_cons.mp h
    have hnone : ∀ c ∈ textCookies jar, c.1 ≠ key := by
      intro c hc heq
      have hlt := hfirst _ (mem_textCookies.mp hc)
      exact absurd heq (ne_of_gt hlt)
    have hlookup : (textCookies jar).lookup key = none := by
      rw [List.lookup_eq_none_iff]
      intro c hc
      simpa using (hnone c hc).symm
    rw [Map.lookup_cons]
    rcases htext : value.asStr with _ | text
    · rw [textCookies, List.filterMap_cons_none (by rw [htext]; rfl), ← textCookies]
      split_ifs with hname
      · rw [hname, hlookup, Option.bind_some, htext]
      · exact ih hjar
    · rw [textCookies, List.filterMap_cons_some (by rw [htext]; rfl), ← textCookies,
        List.lookup_cons]
      by_cases hname : name = key
      · simp [hname, htext]
      · have hne : (name == key) = false := by simpa using hname
        rw [if_neg hname, hne]
        exact ih hjar

/-- The cookies an auth server sets in an answer. -/
theorem isCookie_of_refreshOutcome [SerdeJson] {accepts : ℕ → Bool} {resp : Response}
    {outcome : RefreshOutcome} (h : refreshOutcome accepts resp = some outcome) :
    ∀ c ∈ outcome.setCookies, IsCookie c.1.toList c.2.toList := by
  rw [refreshOutcome] at h
  split_ifs at h with hstatus
  obtain ⟨bytes, -, h⟩ := Option.bind_eq_some_iff.mp h
  obtain ⟨body, -, h⟩ := Option.bind_eq_some_iff.mp h
  obtain ⟨token, -, h⟩ := Option.bind_eq_some_iff.mp h
  obtain rfl := Option.some.inj h
  intro c hc
  obtain ⟨header, -, hparse⟩ := List.mem_filterMap.mp hc
  exact isCookie_of_parseSetCookie hparse

/-- Cookies an auth server set may go into a session. -/
theorem CookieJar.setCookies {jar : Map} (h : CookieJar jar) {setCookies : List (String × String)}
    (hset : ∀ c ∈ setCookies, IsCookie c.1.toList c.2.toList) :
    CookieJar (setCookies.foldl (fun fields c => Map.insert c.1 (.string c.2) fields) jar) := by
  induction setCookies generalizing jar with
  | nil => exact h
  | cons first setCookies ih =>
    obtain ⟨hfirst, hrest⟩ := List.forall_mem_cons.mp hset
    refine ih (fun name value hmem => ?_) hrest
    rcases Map.mem_of_mem_insert hmem with heq | hmem
    · obtain ⟨rfl, htext⟩ := Prod.mk.inj heq
      obtain rfl := Value.string.inj htext
      exact hfirst
    · exact h name value hmem

/-- **Cookies come back as they were set.** Take any store with room for the session of an auth
server, whose cookies there can be sent, and refresh that session any number of times with what the
auth server answers. Then the `Cookie` header of the next refresh is read as the text cookies of the
session, one by one: for each name the value the auth server set last, in whichever answer and
whichever `Set-Cookie` header of it, or the one that was there at first.

**Proof sketch.** What is kept of a `Set-Cookie` header is trimmed, has no `=` in its name and no
`;` at all, so joined cookies come apart again where they were joined. Refreshes put such cookies
over those of the session and nothing else. -/
theorem cookies_replayed [SerdeJson] {authUrl : String} {store : Value}
    (h : SessionFits authUrl store) (hsorted : Map.Sorted (storeEntry authUrl store).2)
    (hjar : CookieJar (storeEntry authUrl store).2) {outcomes : List RefreshOutcome}
    (hanswers : ∀ o ∈ outcomes, ∃ accepts resp, refreshOutcome accepts resp = some o) :
    let jar := (storeEntry authUrl (refreshes authUrl outcomes store)).2
    readCookies (cookieHeader jar).toList = textCookies jar ∧
      ∀ name, (readCookies (cookieHeader jar).toList).lookup name =
        ((setCookiesOf outcomes).reverse.lookup name).or
          (((storeEntry authUrl store).2.lookup name).bind Value.asStr) := by
  intro jar
  have hset : jar = _ := (refreshes_spec h outcomes).jar
  have hcookies : ∀ c ∈ setCookiesOf outcomes, IsCookie c.1.toList c.2.toList := by
    intro c hc
    obtain ⟨outcome, houtcome, hc⟩ := List.mem_flatMap.mp hc
    obtain ⟨accepts, resp, hresp⟩ := hanswers outcome houtcome
    exact isCookie_of_refreshOutcome hresp c hc
  have hread : readCookies (cookieHeader jar).toList = textCookies jar :=
    readCookies_cookieHeader (hset ▸ hjar.setCookies hcookies)
  refine ⟨hread, fun name => ?_⟩
  have hkeys : Map.Sorted jar := hset ▸ sorted_setCookies _ hsorted
  rw [hread, lookup_textCookies hkeys, hset, lookup_setCookies]
  cases (setCookiesOf outcomes).reverse.lookup name <;> rfl

/-- A session with two cookies, one of which the auth server rotates. -/
theorem cookies_replayed_rotated :
    letI := SerdeJson.only [123] (.object [("accessToken", .string "t")])
    let store : Value := .object [("authServers", .object [("http://a", .object
      [("cookies", .object [("a", .string "1"), ("b", .string "2")])])])]
    let jar := (storeEntry "http://a" (refreshes "http://a" [⟨"t", [("b", "3")]⟩] store)).2
    readCookies (cookieHeader jar).toList = textCookies jar ∧
      ∀ name, (readCookies (cookieHeader jar).toList).lookup name =
        ((setCookiesOf [⟨"t", [("b", "3")]⟩]).reverse.lookup name).or
          (((storeEntry "http://a" store).2.lookup name).bind Value.asStr) := by
  let _ := SerdeJson.only [123] (.object [("accessToken", .string "t")])
  intro store
  have hfits : SessionFits "http://a" store := by
    have hcookies : store.atPath ["authServers", "http://a", "cookies"] =
        some (.object [("a", .string "1"), ("b", .string "2")]) := rfl
    refine ⟨Value.fits_of_atPath hcookies, fun cookies h => ?_⟩
    exact ⟨_, (Option.some.inj (hcookies.symm.trans h)).symm⟩
  have hjar : CookieJar [("a", .string "1"), ("b", .string "2")] := by
    intro name value hmem
    simp only [List.mem_cons, Prod.mk.injEq, Value.string.injEq, List.not_mem_nil, or_false] at hmem
    rcases hmem with ⟨rfl, rfl⟩ | ⟨rfl, rfl⟩ <;>
      exact ⟨by decide, by decide, by decide, by decide, by decide⟩
  refine cookies_replayed hfits (by decide) hjar fun o ho => ?_
  obtain rfl := List.mem_singleton.mp ho
  -- the answer has the header `b = 3; P`
  exact ⟨acceptsAsync, ⟨200, false, [("set-cookie", [98, 32, 61, 32, 51, 59, 32, 80])], .ok [123]⟩,
    by decide⟩

end Lager
