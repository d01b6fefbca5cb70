import Lager.Client.Requests

set_option relaxedAutoImplicit false
set_option autoImplicit false

/-!
# The address of a box

The address that a caller gives is completed to a base URL, and four functions take hosts and ports
out of that: one for the debug service, one for the debug tunnels, one for the store of sessions and
one for the ports that are connected to directly. They cut at the first or at the last colon, at
the first slash and at brackets, each in its own way. This file has the exact addresses for which
they find one host.

## Main definitions

* `Lager.baseUrl`, `Lager.baseUrlWithPort`, `Lager.serviceBase` — completing addresses.
* `Lager.urlPort` — the port that is written in a URL.
* `Lager.OneHost` — all functions find one host, and the port that is written in the address.
* `Lager.IsPlain` — a host, or a host and a port.

## Main results

* `Lager.oneHost_iff` — they find one host for plain addresses only.
* `Lager.oneHost_brackets` — they do not for an IPv6 address in brackets.
* `Lager.portIn_hostWithPort_iff` — when a number behind a colon is a port.
* `Lager.IsPlain.head?_ne`, `Lager.not_isPlain_of_colons` — no IPv6 address is plain.
-/

namespace Lager

open Library

/-! ## Completing addresses -/

/-- `DEFAULT_PORT`. -/
def defaultPort : ℕ := 9000

/-- `base_url_with_port`. -/
def baseUrlWithPort (host : String) (defaultPort : ℕ) : Except Error String :=
  let input := trim host.toList
  let (scheme, rest) := (splitOnce "://".toList input).getD ("http".toList, input)
  let rest := trimEndMatches '/' rest
  if scheme = [] ∨ rest = [] then .error (.config (.invalidBoxHost host))
  else if ':' ∈ rest then .ok (String.ofList (scheme ++ ("://".toList ++ rest)))
  else .ok (String.ofList
    (scheme ++ ("://".toList ++ (rest ++ ':' :: Nat.toDigits 10 defaultPort))))

/-- `base_url`. -/
def baseUrl (host : String) : Except Error String := baseUrlWithPort host defaultPort

/-- `service_base`. -/
def serviceBase (base : String) (port : ℕ) : String :=
  let (scheme, rest) := (splitOnce "://".toList base.toList).getD ("http".toList, base.toList)
  let host := ((rsplitOnce ':' rest).map Prod.fst).getD rest
  String.ofList (scheme ++ ("://".toList ++ (host ++ ':' :: Nat.toDigits 10 port)))

/-! ## What is written in an address -/

/-- What follows the scheme of a URL. -/
def afterScheme (url : List Char) : List Char :=
  ((splitOnce "://".toList url).map Prod.snd).getD url

/-- The characters of an authority, which goes up to a path, a query or a fragment. -/
def isAuthorityChar (c : Char) : Bool := c != '/' && c != '?' && c != '#'

/-- The host and the port in an authority, behind the user. -/
def afterUser (authority : List Char) : List Char :=
  ((rsplitOnce '@' authority).map Prod.snd).getD authority

/-- The text of a port: behind the brackets of an IPv6 address, or behind the only colon. An IPv6
address without brackets has no port. -/
def portText : List Char → Option (List Char)
  | '[' :: address => (cut ']' address).bind fun p =>
    match p.2 with
    | ':' :: port => some port
    | _ => none
  | address => (cut ':' address).bind fun p => if ':' ∈ p.2 then none else some p.2

/-- The port that is written in what follows the scheme of a URL. -/
def portIn (rest : List Char) : Option ℕ :=
  (portText (afterUser (rest.takeWhile isAuthorityChar))).bind (fromStrRadix 10 (2 ^ 16))

/-- The port that is written in a URL. -/
def urlPort (url : List Char) : Option ℕ := portIn (afterScheme url)

/-- All functions find one host in the base URL for an address: with the port that is written in the
address, or the default port, and in the URL of a service with the port of the service. -/
def OneHost (address base : String) : Prop :=
  ∃ host port, hostPort base = .ok (host, port) ∧
    port = (urlPort (trim address.toList)).getD defaultPort ∧ urlPort base.toList = some port ∧
    hostOf base = host ∧ ∀ p < 2 ^ 16, hostPort (serviceBase base p) = .ok (host, p)

/-- An address without its scheme and the slashes at its end. -/
def bareAddress (address : String) : List Char :=
  trimEndMatches '/' (afterScheme (trim address.toList))

/-- A host: there is no slash in it and no bracket at its ends. -/
structure IsHost (name : List Char) : Prop where
  slash : '/' ∉ name
  bracket : name.head? ≠ some '['
  bracketEnd : name.getLast? ≠ some ']'

/-- A host alone, without a port, a query or a fragment. -/
structure IsHostAlone (rest : List Char) : Prop where
  host : IsHost rest
  colon : ':' ∉ rest
  authority : ∀ c ∈ rest, isAuthorityChar c = true
  bracket : (afterUser rest).head? ≠ some '['

/-- A host and a port, which is the port that is written there, and perhaps a path without a colon.
-/
def IsHostWithPort (rest : List Char) : Prop :=
  ∃ name port path n, rest = name ++ ':' :: (port ++ path) ∧ IsHost name ∧
    fromStrRadix 10 (2 ^ 16) port = some n ∧ (∀ c, path.head? = some c → c = '/') ∧ ':' ∉ path ∧
    portIn rest = some n

/-- An address is a host, or a host and a port. -/
def IsPlain (address : String) : Prop :=
  IsHostAlone (bareAddress address) ∨ IsHostWithPort (bareAddress address)

/-! ## Base URLs -/

/-- A scheme is split off, whatever follows it. -/
def IsScheme (scheme : List Char) : Prop :=
  ∀ rest, splitOnce "://".toList (scheme ++ ("://".toList ++ rest)) = some (scheme, rest)

/-- A URL. -/
def url (scheme rest : List Char) : String := String.ofList (scheme ++ ("://".toList ++ rest))

/-- What is put behind a host that has no port. -/
def complete (rest : List Char) : List Char :=
  if ':' ∈ rest then rest else rest ++ ':' :: Nat.toDigits 10 defaultPort

section

variable {scheme rest name port path : List Char} {n : ℕ}

/-- The characters of a URL. -/
theorem toList_url : (url scheme rest).toList = scheme ++ ("://".toList ++ rest) :=
  String.toList_ofList

/-- What follows the scheme. -/
theorem afterScheme_url (hscheme : IsScheme scheme) :
    afterScheme (url scheme rest).toList = rest := by
  rw [afterScheme, toList_url, hscheme rest]
  rfl

/-- The scheme of a URL is what is split off, or `http`. -/
theorem exists_scheme (input : List Char) :
    ∃ scheme, (splitOnce "://".toList input).getD ("http".toList, input) =
      (scheme, afterScheme input) ∧ IsScheme scheme := by
  rw [afterScheme]
  cases hsplit : splitOnce "://".toList input with
  | none => exact ⟨_, rfl, fun rest => splitOnce_of_notMem (by decide) rest⟩
  | some p => exact ⟨p.1, rfl, splitOnce_append hsplit⟩

/-- A base URL has the scheme of the address, or `http`, and what follows the scheme is completed.
-/
theorem baseUrl_eq_ok {address base : String} (h : baseUrl address = .ok base) :
    ∃ scheme, IsScheme scheme ∧ base = url scheme (complete (bareAddress address)) := by
  obtain ⟨scheme, hsplit, hscheme⟩ := exists_scheme (trim address.toList)
  rw [baseUrl, baseUrlWithPort, hsplit] at h
  refine ⟨scheme, hscheme, ?_⟩
  rw [complete, bareAddress]
  dsimp only at h
  split_ifs at h with hempty hcolon
  · rw [if_pos hcolon]
    exact (Except.ok.inj h).symm
  · rw [if_neg hcolon]
    exact (Except.ok.inj h).symm

/-- The URL of a service has its port behind what stands before the last colon. -/
theorem serviceBase_url (hscheme : IsScheme scheme) (p : ℕ) :
    serviceBase (url scheme rest) p =
      url scheme (((rsplitOnce ':' rest).map Prod.fst).getD rest ++ ':' :: Nat.toDigits 10 p) := by
  rw [serviceBase, toList_url, hscheme rest]
  rfl

/-! ## Hosts and ports -/

/-- A number has no slash, no colon and no bracket in it. -/
theorem notMem_port {bound : ℕ} (h : fromStrRadix 10 bound port = some n) {c : Char}
    (hc : c ≠ '+') (hdigit : toDigit 10 c = none) : c ∉ port := by
  intro hmem
  rcases toDigit_of_fromStrRadix h c hmem with heq | hsome
  · exact hc heq
  · rw [hdigit] at hsome
    cases hsome

/-- A host without brackets at its ends is not trimmed. -/
theorem trim_brackets_iff : trimEndMatches ']' (trimStartMatches '[' name) = name ↔
    name.head? ≠ some '[' ∧ name.getLast? ≠ some ']' := by
  refine ⟨fun h => ?_, fun h => ?_⟩
  · have hstart : trimStartMatches '[' name = name := by
      have hsuffix : trimStartMatches '[' name <:+ name := List.dropWhile_suffix _
      obtain ⟨back, hback, -⟩ := trimEndMatches_append ']' (trimStartMatches '[' name)
      have hlength := congrArg List.length hback
      rw [h, List.length_append] at hlength
      exact hsuffix.eq_of_length_le (by omega)
    rw [hstart] at h
    exact ⟨trimStartMatches_eq_self.mp hstart, trimEndMatches_eq_self.mp h⟩
  · rw [trimStartMatches_eq_self.mpr h.1, trimEndMatches_eq_self.mpr h.2]

/-- What `host_port` finds. -/
theorem hostPort_eq_ok {base host : String} : hostPort base = .ok (host, n) ↔
    ∃ name port, (afterScheme base.toList).takeWhile (· ≠ '/') = name ++ ':' :: port ∧
      ':' ∉ port ∧ fromStrRadix 10 (2 ^ 16) port = some n ∧
      String.ofList (trimEndMatches ']' (trimStartMatches '[' name)) = host := by
  rw [hostPort]
  have hrest : ((splitOnce "://".toList base.toList).map Prod.snd).getD base.toList =
      afterScheme base.toList := rfl
  simp only [headD_splitOn, hrest]
  cases hsplit : rsplitOnce ':' ((afterScheme base.toList).takeWhile (· ≠ '/')) with
  | none =>
    refine ⟨fun h => (by cases h), ?_⟩
    rintro ⟨name, port, heq, -⟩
    have hcolon := rsplitOnce_eq_none.mp hsplit
    exact absurd (heq ▸ by simp) hcolon
  | some p =>
    obtain ⟨name, port⟩ := p
    have hparts := rsplitOnce_eq_some.mp hsplit
    dsimp only
    cases hparse : fromStrRadix 10 (2 ^ 16) port with
    | none =>
      refine ⟨fun h => (by cases h), ?_⟩
      rintro ⟨name', port', heq, hcolon, hparse', -⟩
      have hsame := hsplit.symm.trans (rsplitOnce_eq_some.mpr ⟨heq, hcolon⟩)
      obtain ⟨-, rfl⟩ := Prod.mk.inj (Option.some.inj hsame)
      rw [hparse] at hparse'
      cases hparse'
    | some m =>
      refine ⟨?_, ?_⟩
      · rintro ⟨⟩
        exact ⟨name, port, hparts.1, hparts.2, hparse, rfl⟩
      · rintro ⟨name', port', heq, hcolon, hparse', rfl⟩
        have hsame := hsplit.symm.trans (rsplitOnce_eq_some.mpr ⟨heq, hcolon⟩)
        obtain ⟨rfl, rfl⟩ := Prod.mk.inj (Option.some.inj hsame)
        obtain rfl := Option.some.inj (hparse.symm.trans hparse')
        rfl

/-- What `host_of` finds. -/
theorem hostOf_eq {base : String}
    (h : (afterScheme base.toList).takeWhile (· ≠ '/') = name ++ ':' :: port)
    (hcolon : ':' ∉ port) : hostOf base = String.ofList name := by
  rw [hostOf]
  have hrest : ((splitOnce "://".toList base.toList).map Prod.snd).getD base.toList =
      afterScheme base.toList := rfl
  simp only [headD_splitOn, hrest]
  rw [rsplitOnce_eq_some.mpr ⟨h, hcolon⟩]
  rfl

/-- What stands before the first slash of a host, a port and a path. -/
theorem takeWhile_hostWithPort (hname : '/' ∉ name) (hport : '/' ∉ port)
    (hpath : ∀ c, path.head? = some c → c = '/') :
    (name ++ ':' :: (port ++ path)).takeWhile (· ≠ '/') = name ++ ':' :: port := by
  have hfront : ∀ c ∈ name ++ ':' :: port, decide (c ≠ '/') = true := by
    intro c hc
    rw [decide_eq_true_eq]
    rintro rfl
    simp [hname, hport] at hc
  have hback : path.takeWhile (· ≠ '/') = [] := by
    cases path with
    | nil => rfl
    | cons c path => simp [hpath c rfl]
  rw [← List.cons_append, ← List.append_assoc, List.takeWhile_append_of_pos hfront, hback,
    List.append_nil]

/-- In a host and a port, with a path or without, all functions find them. -/
theorem hostPort_url (hscheme : IsScheme scheme) (hname : IsHost name)
    (hport : fromStrRadix 10 (2 ^ 16) port = some n)
    (hpath : ∀ c, path.head? = some c → c = '/') :
    hostPort (url scheme (name ++ ':' :: (port ++ path))) = .ok (String.ofList name, n) ∧
      hostOf (url scheme (name ++ ':' :: (port ++ path))) = String.ofList name := by
  have hslash : '/' ∉ port := notMem_port hport (by decide) (by decide)
  have hcolon : ':' ∉ port := notMem_port hport (by decide) (by decide)
  have htake : (afterScheme (url scheme (name ++ ':' :: (port ++ path))).toList).takeWhile
      (· ≠ '/') = name ++ ':' :: port := by
    rw [afterScheme_url hscheme]
    exact takeWhile_hostWithPort hname.slash hslash hpath
  have htrim := trim_brackets_iff.mpr ⟨hname.bracket, hname.bracketEnd⟩
  exact ⟨hostPort_eq_ok.mpr ⟨name, port, htake, hcolon, hport, by rw [htrim]⟩,
    hostOf_eq htake hcolon⟩

/-- Where `host_port` and `host_of` find one host, a host and a port are written there, with a path
or without. -/
theorem hostPort_inv {host : String} (hscheme : IsScheme scheme)
    (h : hostPort (url scheme rest) = .ok (host, n)) (hhost : hostOf (url scheme rest) = host) :
    ∃ name port path, rest = name ++ ':' :: (port ++ path) ∧ IsHost name ∧
      fromStrRadix 10 (2 ^ 16) port = some n ∧ (∀ c, path.head? = some c → c = '/') ∧
      String.ofList name = host := by
  obtain ⟨name, port, htake, hcolon, hport, htrim⟩ := hostPort_eq_ok.mp h
  rw [hostOf_eq htake hcolon] at hhost
  rw [afterScheme_url hscheme] at htake
  have hsame := String.ofList_injective (htrim.trans hhost.symm)
  have hslash : '/' ∉ name := by
    intro hmem
    have hfront : '/' ∈ rest.takeWhile (· ≠ '/') := htake ▸ List.mem_append_left _ hmem
    simpa using List.mem_takeWhile_imp hfront
  have hbrackets := trim_brackets_iff.mp hsame
  refine ⟨name, port, rest.dropWhile (· ≠ '/'), ?_, ⟨hslash, hbrackets.1, hbrackets.2⟩, hport, ?_,
    hhost⟩
  · calc rest = rest.takeWhile (· ≠ '/') ++ rest.dropWhile (· ≠ '/') :=
        (List.takeWhile_append_dropWhile).symm
      _ = _ := by rw [htake, List.append_assoc, List.cons_append]
  · intro c hc
    have hstop := List.head?_dropWhile_not (fun c => decide (c ≠ '/')) rest
    rw [hc] at hstop
    simpa using hstop

/-- In the URL of a service, all functions find the host, when the rest has no colon. -/
theorem hostPort_serviceBase (hscheme : IsScheme scheme) (hname : IsHost name) (hrest : ':' ∉ rest)
    {p : ℕ} (hp : p < 2 ^ 16) :
    hostPort (serviceBase (url scheme (name ++ ':' :: rest)) p) = .ok (String.ofList name, p) := by
  have hsplit := rsplitOnce_eq_some.mpr ⟨(rfl : name ++ ':' :: rest = _), hrest⟩
  have hpath : ∀ c, ([] : List Char).head? = some c → c = '/' := by simp
  have hbase := (hostPort_url hscheme hname (fromStrRadix_toDigits hp) hpath).1
  rw [serviceBase_url hscheme, hsplit]
  rwa [List.append_nil] at hbase

/-! ## Ports in URLs -/

/-- A path does not matter for the port of a URL. -/
theorem portIn_append_path (hpath : ∀ c, path.head? = some c → c = '/') (front : List Char) :
    portIn (front ++ path) = portIn front := by
  have hnone : path.takeWhile isAuthorityChar = [] := by
    cases path with
    | nil => rfl
    | cons c path => simp [hpath c rfl, isAuthorityChar]
  have htake : (front ++ path).takeWhile isAuthorityChar = front.takeWhile isAuthorityChar := by
    rw [List.takeWhile_append, hnone, List.append_nil]
    split_ifs with hall
    · exact ((List.takeWhile_prefix _).eq_of_length hall).symm
    · rfl
  rw [portIn, portIn, htake]

/-- Slashes at the end of a URL do not matter for its port. -/
theorem portIn_trimEndMatches (rest : List Char) :
    portIn (trimEndMatches '/' rest) = portIn rest := by
  obtain ⟨back, hrest, hback⟩ := trimEndMatches_append '/' rest
  have hpath : ∀ c, back.head? = some c → c = '/' := fun c hc =>
    hback c (List.mem_of_mem_head? hc)
  conv_rhs => rw [hrest]
  exact (portIn_append_path hpath _).symm

/-- The port that is written in an address. -/
theorem urlPort_trim (address : String) :
    urlPort (trim address.toList) = portIn (bareAddress address) :=
  (portIn_trimEndMatches _).symm

/-- The port that is written in a URL. -/
theorem urlPort_url (hscheme : IsScheme scheme) :
    urlPort (url scheme rest).toList = portIn rest := by
  rw [urlPort, afterScheme_url hscheme]

/-- What follows the user comes last. -/
theorem afterUser_suffix (authority : List Char) : afterUser authority <:+ authority := by
  rw [afterUser]
  cases hsplit : rsplitOnce '@' authority with
  | none => exact List.suffix_rfl
  | some p =>
    obtain ⟨user, back⟩ := p
    exact ⟨user ++ ['@'], by rw [(rsplitOnce_eq_some.mp hsplit).1]; simp⟩

/-- What comes last behind the user comes last. -/
theorem getLast?_of_afterUser {authority : List Char} {c : Char}
    (h : (afterUser authority).getLast? = some c) : authority.getLast? = some c := by
  obtain ⟨user, huser⟩ := afterUser_suffix authority
  rw [← huser, List.getLast?_append, h]
  rfl

/-- Without another user, more of an authority is more behind the user. -/
theorem afterUser_append {back : List Char} (h : '@' ∉ back) (authority : List Char) :
    afterUser (authority ++ back) = afterUser authority ++ back := by
  rw [afterUser, afterUser]
  cases hsplit : rsplitOnce '@' authority with
  | none =>
    have hnone : rsplitOnce '@' (authority ++ back) = none := by
      rw [rsplitOnce_eq_none] at hsplit ⊢
      simp [hsplit, h]
    rw [hnone]
    rfl
  | some p =>
    obtain ⟨user, host⟩ := p
    obtain ⟨rfl, hhost⟩ := rsplitOnce_eq_some.mp hsplit
    have hsome : rsplitOnce '@' (user ++ '@' :: host ++ back) = some (user, host ++ back) :=
      rsplitOnce_eq_some.mpr ⟨by simp, by simp [hhost, h]⟩
    rw [hsome]
    rfl

/-- Without a colon, there is no port. -/
theorem portText_eq_none {text : List Char} (h : ':' ∉ text) : portText text = none := by
  unfold portText
  split
  · next address =>
    cases hcut : cut ']' address with
    | none => rfl
    | some p =>
      obtain ⟨front, back⟩ := p
      obtain ⟨rfl, -⟩ := cut_eq_some_iff.mp hcut
      cases back with
      | nil => rfl
      | cons c back =>
        have hc : c ≠ ':' := by
          rintro rfl
          simp at h
        simp [hc]
  · rw [cut_eq_none_iff.mpr h]
    rfl

/-- Without a bracket at the start, there is a port behind the only colon. -/
theorem portText_of_head {text : List Char} (h : text.head? ≠ some '[') :
    portText text = (cut ':' text).bind fun p => if ':' ∈ p.2 then none else some p.2 := by
  unfold portText
  split
  · exact absurd rfl h
  · rfl

/-- A host that does not begin with a bracket does not with a port behind it. -/
theorem head?_append_port {text : List Char} (h : text.head? ≠ some '[') :
    (text ++ ':' :: port).head? ≠ some '[' := by
  cases text with
  | nil => simp
  | cons c text => exact h

/-- Behind a host without a colon, which does not begin with a bracket, there is the port. -/
theorem portText_append {text : List Char} (h : ':' ∉ text) (hhead : text.head? ≠ some '[')
    (hport : ':' ∉ port) : portText (text ++ ':' :: port) = some port := by
  rw [portText_of_head (head?_append_port hhead), cut_append_cons h]
  exact if_neg hport

/-- Behind a host with a colon, which does not begin with a bracket, there is no port. -/
theorem portText_append_eq_none {text : List Char} (h : ':' ∈ text)
    (hhead : text.head? ≠ some '[') : portText (text ++ ':' :: port) = none := by
  cases hcut : cut ':' text with
  | none => exact absurd h (cut_eq_none_iff.mp hcut)
  | some p =>
    rw [portText_of_head (head?_append_port hhead), cut_append_left _ hcut, Option.bind_some,
      if_pos (by simp)]

/-- Behind a host that begins with a bracket, there is a port when the host ends with one. -/
theorem getLast?_of_portText {text found : List Char} (hport : ':' ∉ port) (hcolon : ':' ∉ found)
    (hhead : text.head? = some '[') (hfound : portText (text ++ ':' :: port) = some found) :
    text.getLast? = some ']' := by
  obtain ⟨text, rfl⟩ := List.head?_eq_some_iff.mp hhead
  rw [List.cons_append, portText] at hfound
  obtain ⟨⟨front, back⟩, hcut, hfound⟩ := Option.bind_eq_some_iff.mp hfound
  obtain ⟨heq, -⟩ := cut_eq_some_iff.mp hcut
  cases back with
  | nil => cases hfound
  | cons c back =>
    by_cases hc : c = ':'
    · have hsame : text ++ ':' :: port = (front ++ [']']) ++ ':' :: back := by
        rw [heq, hc, List.append_assoc, List.singleton_append]
      have hback : back = found := by
        subst hc
        exact Option.some.inj hfound
      have hlast := rsplitOnce_eq_some.mpr ⟨hsame, hback ▸ hcolon⟩
      have hparts := hlast.symm.trans (rsplitOnce_eq_some.mpr ⟨rfl, hport⟩)
      rw [← (Prod.mk.inj (Option.some.inj hparts)).1, ← List.cons_append]
      exact List.getLast?_concat
    · split at hfound
      · next port' hback => exact absurd (List.cons.inj hback).1 hc
      · cases hfound

/-- A digit can be in an authority. -/
theorem isAuthorityChar_of_port (hport : fromStrRadix 10 (2 ^ 16) port = some n) :
    ∀ c ∈ ':' :: port, isAuthorityChar c = true := by
  intro c hc
  rcases List.mem_cons.mp hc with rfl | hc
  · decide
  · have hslash : '/' ∉ port := notMem_port hport (by decide) (by decide)
    have hquery : '?' ∉ port := notMem_port hport (by decide) (by decide)
    have hfragment : '#' ∉ port := notMem_port hport (by decide) (by decide)
    simp only [isAuthorityChar, Bool.and_eq_true, bne_iff_ne, ne_eq]
    refine ⟨⟨?_, ?_⟩, ?_⟩ <;> rintro rfl <;> contradiction

/-- The port behind an authority is looked for behind the user. -/
theorem portIn_append (hrest : ∀ c ∈ rest, isAuthorityChar c = true)
    (hport : fromStrRadix 10 (2 ^ 16) port = some n) : portIn (rest ++ ':' :: port) =
      (portText (afterUser rest ++ ':' :: port)).bind (fromStrRadix 10 (2 ^ 16)) := by
  have hat : '@' ∉ ':' :: port := by
    have hnumber : '@' ∉ port := notMem_port hport (by decide) (by decide)
    simp [hnumber]
  rw [portIn, List.takeWhile_append_of_pos hrest,
    List.takeWhile_eq_self_iff.mpr (isAuthorityChar_of_port hport), afterUser_append hat]

/-- Behind a host that does not begin with a bracket, there is the port. -/
theorem portIn_of_head (hrest : ∀ c ∈ rest, isAuthorityChar c = true) (hcolon : ':' ∉ rest)
    (hhead : (afterUser rest).head? ≠ some '[')
    (hport : fromStrRadix 10 (2 ^ 16) port = some n) : portIn (rest ++ ':' :: port) = some n := by
  have hnumber : ':' ∉ port := notMem_port hport (by decide) (by decide)
  have htext : ':' ∉ afterUser rest := fun hmem => hcolon ((afterUser_suffix rest).subset hmem)
  rw [portIn_append hrest hport, portText_append htext hhead hnumber]
  exact hport

/-- Without a colon, there is no port. -/
theorem portIn_eq_none (hcolon : ':' ∉ rest) : portIn rest = none := by
  have htext : ':' ∉ afterUser (rest.takeWhile isAuthorityChar) := fun hmem =>
    hcolon ((List.takeWhile_prefix _).subset ((afterUser_suffix _).subset hmem))
  rw [portIn, portText_eq_none htext]
  rfl

/-- Where there is a port behind a host, this is an authority, with both brackets if with one. -/
theorem isAuthority_of_portIn {m : ℕ} (hcolon : ':' ∉ rest)
    (hport : fromStrRadix 10 (2 ^ 16) port = some n) (h : portIn (rest ++ ':' :: port) = some m) :
    (∀ c ∈ rest, isAuthorityChar c = true) ∧
      ((afterUser rest).head? = some '[' → (afterUser rest).getLast? = some ']') := by
  have hall : ∀ c ∈ rest, isAuthorityChar c = true := by
    by_contra hnot
    have hshort : rest.takeWhile isAuthorityChar ≠ rest := fun heq =>
      hnot (List.takeWhile_eq_self_iff.mp heq)
    have hlength : (rest.takeWhile isAuthorityChar).length ≠ rest.length := fun heq =>
      hshort ((List.takeWhile_prefix _).eq_of_length heq)
    have hsame : portIn (rest ++ ':' :: port) = portIn rest := by
      rw [portIn, List.takeWhile_append, if_neg hlength, portIn]
    rw [hsame, portIn_eq_none hcolon] at h
    cases h
  refine ⟨hall, fun hhead => ?_⟩
  have hnumber : ':' ∉ port := notMem_port hport (by decide) (by decide)
  rw [portIn_append hall hport] at h
  obtain ⟨found, hfound, hparse⟩ := Option.bind_eq_some_iff.mp h
  exact getLast?_of_portText hnumber (notMem_port hparse (by decide) (by decide)) hhead hfound

/-- In a host with no query in it, the port is the one that is written there exactly if no other
colon is behind the user, nor a bracket. -/
theorem portIn_hostWithPort_iff (hname : IsHost name) (hall : ∀ c ∈ name, isAuthorityChar c = true)
    (hport : fromStrRadix 10 (2 ^ 16) port = some n)
    (hpath : ∀ c, path.head? = some c → c = '/') :
    portIn (name ++ ':' :: (port ++ path)) = some n ↔
      ':' ∉ afterUser name ∧ (afterUser name).head? ≠ some '[' := by
  have hassoc : name ++ ':' :: (port ++ path) = name ++ ':' :: port ++ path := by
    simp
  have hnumber : ':' ∉ port := notMem_port hport (by decide) (by decide)
  rw [hassoc, portIn_append_path hpath, portIn_append hall hport]
  constructor
  · intro h
    obtain ⟨found, hfound, hparse⟩ := Option.bind_eq_some_iff.mp h
    have hhead : (afterUser name).head? ≠ some '[' := by
      intro hhead
      have hcolon : ':' ∉ found := notMem_port hparse (by decide) (by decide)
      have hlast := getLast?_of_portText hnumber hcolon hhead hfound
      exact hname.bracketEnd (getLast?_of_afterUser hlast)
    refine ⟨fun hcolon => ?_, hhead⟩
    rw [portText_append_eq_none hcolon hhead] at hfound
    cases hfound
  · rintro ⟨hcolon, hhead⟩
    rw [portText_append hcolon hhead hnumber]
    exact hport

/-! ## Plain addresses -/

/-- In the base URL for a host alone, all functions find it. -/
theorem oneHost_of_isHostAlone {address : String} (hscheme : IsScheme scheme)
    (h : IsHostAlone (bareAddress address)) :
    OneHost address (url scheme (complete (bareAddress address))) := by
  have hport : fromStrRadix 10 (2 ^ 16) (Nat.toDigits 10 defaultPort) = some defaultPort :=
    fromStrRadix_toDigits (by decide)
  have hcolon : ':' ∉ Nat.toDigits 10 defaultPort := notMem_port hport (by decide) (by decide)
  have hpath : ∀ c, ([] : List Char).head? = some c → c = '/' := by simp
  have hurl := hostPort_url hscheme h.host hport hpath
  rw [List.append_nil] at hurl
  rw [complete, if_neg h.colon]
  refine ⟨_, defaultPort, hurl.1, ?_, ?_, hurl.2, ?_⟩
  · rw [urlPort_trim, portIn_eq_none h.colon]
    rfl
  · rw [urlPort_url hscheme, portIn_of_head h.authority h.colon h.bracket hport]
  · intro p hp
    exact hostPort_serviceBase hscheme h.host hcolon hp

/-- In the base URL for a host and a port, all functions find them. -/
theorem oneHost_of_isHostWithPort {address : String} (hscheme : IsScheme scheme)
    (h : IsHostWithPort (bareAddress address)) :
    OneHost address (url scheme (complete (bareAddress address))) := by
  obtain ⟨name, port, path, n, hrest, hname, hport, hpath, hcolon, hin⟩ := h
  have hmem : ':' ∈ bareAddress address := by
    rw [hrest]
    simp
  have hback : ':' ∉ port ++ path := by
    have hnumber : ':' ∉ port := notMem_port hport (by decide) (by decide)
    simp [hnumber, hcolon]
  have hurl := hostPort_url hscheme hname hport hpath
  rw [← hrest] at hurl
  rw [complete, if_pos hmem]
  refine ⟨_, n, hurl.1, ?_, ?_, hurl.2, ?_⟩
  · rw [urlPort_trim, hin]
    rfl
  · rw [urlPort_url hscheme, hin]
  · intro p hp
    rw [hrest]
    exact hostPort_serviceBase hscheme hname hback hp

/-- Where all functions find one host and the address has no colon, it is a host alone. -/
theorem isHostAlone_of_oneHost {address : String} (hscheme : IsScheme scheme)
    (hcolon : ':' ∉ bareAddress address)
    (h : OneHost address (url scheme (complete (bareAddress address)))) :
    IsHostAlone (bareAddress address) := by
  have hport : fromStrRadix 10 (2 ^ 16) (Nat.toDigits 10 defaultPort) = some defaultPort :=
    fromStrRadix_toDigits (by decide)
  have hdigits : ':' ∉ Nat.toDigits 10 defaultPort := notMem_port hport (by decide) (by decide)
  rw [complete, if_neg hcolon] at h
  obtain ⟨host, port, hurl, -, hbase, hhost, -⟩ := h
  rw [urlPort_url hscheme] at hbase
  have hauthority := isAuthority_of_portIn hcolon hport hbase
  obtain ⟨name, port', path, heq, hname, -⟩ := hostPort_inv hscheme hurl hhost
  have hsame := ((List.append_cons_inj_of_notMem hcolon hdigits).mp heq).1
  rw [← hsame] at hname
  exact ⟨hname, hcolon, hauthority.1, fun hhead =>
    hname.bracketEnd (getLast?_of_afterUser (hauthority.2 hhead))⟩

/-- Where all functions find one host and the address has a colon, it is a host and a port. -/
theorem isHostWithPort_of_oneHost {address : String} (hscheme : IsScheme scheme)
    (hcolon : ':' ∈ bareAddress address)
    (h : OneHost address (url scheme (complete (bareAddress address)))) :
    IsHostWithPort (bareAddress address) := by
  rw [complete, if_pos hcolon] at h
  obtain ⟨host, n, hurl, -, hbase, hhost, hservice⟩ := h
  rw [urlPort_url hscheme] at hbase
  obtain ⟨name, port, path, hrest, hname, hport, hpath, rfl⟩ := hostPort_inv hscheme hurl hhost
  refine ⟨name, port, path, n, hrest, hname, hport, hpath, fun hmem => ?_, hbase⟩
  -- The port of a service is put behind the last colon, so a colon in the path keeps the old port.
  obtain ⟨front, back, hsplit⟩ : ∃ front back, rsplitOnce ':' path = some (front, back) := by
    cases hsplit : rsplitOnce ':' path with
    | none => exact absurd hmem (rsplitOnce_eq_none.mp hsplit)
    | some p => exact ⟨p.1, p.2, rfl⟩
  obtain ⟨rfl, hback⟩ := rsplitOnce_eq_some.mp hsplit
  have hlast : rsplitOnce ':' (bareAddress address) = some (name ++ ':' :: (port ++ front), back) :=
    rsplitOnce_eq_some.mpr ⟨by rw [hrest]; simp, hback⟩
  obtain ⟨p, hp, hne⟩ : ∃ p < 2 ^ 16, p ≠ n := by
    by_cases hn : n = 0
    · exact ⟨1, by decide, by omega⟩
    · exact ⟨0, by decide, by omega⟩
  have hkept : ∀ c, (front ++ ':' :: Nat.toDigits 10 p).head? = some c → c = '/' := by
    intro c hc
    apply hpath c
    cases front with
    | nil => exact absurd (hpath ':' rfl) (by decide)
    | cons d front => exact hc
  have hfound := hservice p hp
  rw [serviceBase_url hscheme, hlast] at hfound
  have hold := (hostPort_url hscheme hname hport hkept).1
  simp only [Option.map_some, Option.getD_some, List.append_assoc, List.cons_append] at hfound
  rw [hold] at hfound
  exact hne (Prod.mk.inj (Except.ok.inj hfound)).2.symm

end

/-- **The one host of an address.** In the base URL for an address, `host_port`, `host_of` and the
URL of every service find one host, and the port that is written in the address or the default port,
exactly if the address is a host, or a host and a port.

**Proof sketch.** What `host_port` finds is what stands before the last colon before the first
slash; `host_of` finds the same without trimming brackets, so there are none. The base URL for an
address without a colon has the default port behind it, so there is no path; the URL of a service
has its port behind the last colon, so there is none in a path. -/
theorem oneHost_iff {address base : String} (h : baseUrl address = .ok base) :
    OneHost address base ↔ IsPlain address := by
  obtain ⟨scheme, hscheme, rfl⟩ := baseUrl_eq_ok h
  constructor
  · intro hone
    by_cases hcolon : ':' ∈ bareAddress address
    · exact .inr (isHostWithPort_of_oneHost hscheme hcolon hone)
    · exact .inl (isHostAlone_of_oneHost hscheme hcolon hone)
  · rintro (halone | hport)
    · exact oneHost_of_isHostAlone hscheme halone
    · exact oneHost_of_isHostWithPort hscheme hport

/-- A host alone is found everywhere, and so is one with a port and a path. -/
theorem oneHost_iff_box :
    (baseUrl "box" = .ok "http://box:9000" ∧
      (OneHost "box" "http://box:9000" ↔ IsPlain "box") ∧ IsPlain "box") ∧
    (baseUrl "http://box:8080/lab/" = .ok "http://box:8080/lab" ∧
      (OneHost "http://box:8080/lab/" "http://box:8080/lab" ↔ IsPlain "http://box:8080/lab/") ∧
      IsPlain "http://box:8080/lab/") := by
  have hbox : IsHost ['b', 'o', 'x'] := ⟨by decide, by decide, by decide⟩
  have hbase : baseUrl "box" = .ok "http://box:9000" := by decide +kernel
  have hbare : bareAddress "box" = ['b', 'o', 'x'] := by decide +kernel
  have hbaseLab : baseUrl "http://box:8080/lab/" = .ok "http://box:8080/lab" := by decide +kernel
  have hbareLab : bareAddress "http://box:8080/lab/" =
      ['b', 'o', 'x'] ++ ':' :: (['8', '0', '8', '0'] ++ ['/', 'l', 'a', 'b']) := by
    decide +kernel
  have hport : fromStrRadix 10 (2 ^ 16) ['8', '0', '8', '0'] = some 8080 := by decide +kernel
  have hpath : ∀ c, ['/', 'l', 'a', 'b'].head? = some c → c = '/' := by simp [eq_comm]
  refine ⟨⟨hbase, oneHost_iff hbase, .inl ?_⟩, hbaseLab, oneHost_iff hbaseLab, .inr ?_⟩
  · rw [hbare]
    exact ⟨hbox, by decide, by simp [isAuthorityChar], by decide⟩
  · rw [hbareLab]
    refine ⟨_, _, _, _, rfl, hbox, hport, hpath, by decide, ?_⟩
    exact (portIn_hostWithPort_iff hbox (by simp [isAuthorityChar]) hport hpath).mpr
      ⟨by decide, by decide⟩

/-- For an IPv6 address in brackets, the store of sessions has another host than the tunnels. -/
theorem oneHost_brackets : baseUrl "[::1]:9000" = .ok "http://[::1]:9000" ∧
    hostPort "http://[::1]:9000" = .ok ("::1", 9000) ∧ hostOf "http://[::1]:9000" = "[::1]" ∧
    ¬ OneHost "[::1]:9000" "http://[::1]:9000" := by
  have hport : hostPort "http://[::1]:9000" = .ok ("::1", 9000) := by decide +kernel
  have hhost : hostOf "http://[::1]:9000" = "[::1]" := by decide +kernel
  refine ⟨by decide +kernel, hport, hhost, ?_⟩
  rintro ⟨host, port, hfound, -, -, hsame, -⟩
  rw [hport] at hfound
  have hname : "::1" = host := (Prod.mk.inj (Except.ok.inj hfound)).1
  rw [hhost, ← hname] at hsame
  exact absurd hsame (by decide)

/-- An IPv6 address in brackets is not plain. -/
theorem IsPlain.head?_ne {address : String} (h : IsPlain address) :
    (bareAddress address).head? ≠ some '[' := by
  rcases h with halone | ⟨name, port, path, n, hrest, hname, -⟩
  · exact halone.host.bracket
  · rw [hrest]
    cases name with
    | nil => simp
    | cons c name => exact hname.bracket

/-- An IPv6 address without brackets is not plain. -/
theorem not_isPlain_of_colons {address : String}
    (hauthority : ∀ c ∈ bareAddress address, isAuthorityChar c = true)
    (huser : '@' ∉ bareAddress address) {front back : List Char}
    (hcut : cut ':' (bareAddress address) = some (front, back)) (hback : ':' ∈ back) :
    ¬ IsPlain address := by
  intro hplain
  have hnone : portIn (bareAddress address) = none := by
    have hafter : afterUser (bareAddress address) = bareAddress address := by
      rw [afterUser, rsplitOnce_eq_none.mpr huser]
      rfl
    rw [portIn, List.takeWhile_eq_self_iff.mpr hauthority, hafter, portText_of_head hplain.head?_ne,
      hcut, Option.bind_some, if_pos hback]
    rfl
  rcases hplain with halone | ⟨name, port, path, n, hrest, -, -, -, -, hin⟩
  · have hcolon := cut_eq_none_iff.mpr halone.colon
    rw [hcut] at hcolon
    cases hcolon
  · rw [hnone] at hin
    cases hin

end Lager
