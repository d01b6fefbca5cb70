import Lager.Library.Mime
import Lager.Nets.Sio
import Lager.Rust.Text
import Mathlib.Data.Finset.Card
import Mathlib.Tactic.IntervalCases

set_option relaxedAutoImplicit false
set_option autoImplicit false

/-!
# Form uploads

A form is sent as a multipart body. Its boundary is the first of a numbered series that occurs in
the data of no part.

## Main definitions

* `Lager.FormPart`, `Lager.multipart` — the parts of a form, and their encoding.
* `Lager.findBoundary` — the search for a boundary.

## Main results

* `Lager.exists_absent` — among the first `2 ^ 32` boundaries one does not occur in data shorter
  than that.
* `Lager.multipart_roundTrip` — a reader of multipart bodies finds the parts, byte for byte.

## Implementation notes

The number in a boundary is a `u32`. `findBoundary` gives up where the counter overflows, which is
a panic or, without overflow checks, a search that starts over and never ends.
-/

namespace Lager

open Library

/-! ## The encoding -/

/-- `FormPart`: a form field, or a file when it has a file name. -/
structure FormPart where
  name : String
  filename : Option String
  contentType : Option String
  data : List UInt8
  deriving DecidableEq, Repr

/-- Whether a needle, which is not empty, occurs. -/
def containsBytes (haystack needle : List UInt8) : Bool :=
  (windows needle.length haystack).any (· == needle)

/-- The boundary with a number. -/
def candidate (n : ℕ) : String := "lager-net-boundary-" ++ toString n

/-- The search for a boundary, from a number on. -/
def findBoundary (parts : List FormPart) : ℕ → ℕ → Option String
  | 0, _ => none
  | fuel + 1, n =>
    if parts.any fun p => containsBytes p.data (utf8 (candidate n)) then
      findBoundary parts fuel (n + 1)
    else some (candidate n)

/-- A quote or a line break in a header value becomes an underscore. -/
def quote (s : String) : String :=
  String.ofList (s.toList.map fun c => if c ∈ ['"', '\r', '\n'] then '_' else c)

namespace FormPart

/-- The `Content-Disposition` of a part. -/
def disposition (p : FormPart) : String :=
  "Content-Disposition: form-data; name=\"" ++ quote p.name ++ "\"" ++
    match p.filename with
    | some filename => "; filename=\"" ++ quote filename ++ "\""
    | none => ""

/-- A part in the body. -/
def encode (boundary : String) (p : FormPart) : List UInt8 :=
  utf8 ("--" ++ boundary ++ "\r\n") ++ utf8 p.disposition ++ utf8 "\r\n" ++
    (match p.contentType with
      | some contentType => utf8 ("Content-Type: " ++ contentType ++ "\r\n")
      | none => []) ++
    utf8 "\r\n" ++ p.data ++ utf8 "\r\n"

end FormPart

/-- `multipart`: the content type and the bytes of a form. -/
def multipart (parts : List FormPart) : Option (String × List UInt8) :=
  (findBoundary parts (2 ^ 32) 0).map fun boundary =>
    ("multipart/form-data; boundary=" ++ boundary,
      parts.flatMap (FormPart.encode boundary) ++ utf8 ("--" ++ boundary ++ "--\r\n"))

/-- The boundary a content type names. -/
def boundaryOf (contentType : String) : Option (List UInt8) :=
  (splitOnce "boundary=".toList contentType.toList).map fun p => asBytes p.2

/-! ## The search -/

/-- Finding a needle. -/
theorem containsBytes_iff {haystack needle : List UInt8} :
    containsBytes haystack needle = true ↔ needle <:+: haystack := by
  rw [containsBytes, List.any_eq_true]
  constructor
  · rintro ⟨window, hwindow, heq⟩
    obtain ⟨i, -, rfl⟩ := List.mem_map.mp hwindow
    rw [beq_iff_eq] at heq
    rw [← heq]
    exact (List.take_prefix _ _).isInfix.trans (List.drop_suffix _ _).isInfix
  · rintro ⟨front, back, rfl⟩
    refine ⟨needle, List.mem_map.mpr ⟨front.length, List.mem_range.mpr ?_, ?_⟩, beq_self_eq_true _⟩
    · simp only [List.length_append]
      omega
    · rw [List.append_assoc, List.drop_left, List.take_left]

/-- The fixed part of a boundary. -/
theorem toList_stem : "lager-net-boundary-".toList =
    ['l', 'a', 'g', 'e', 'r', '-', 'n', 'e', 't', '-', 'b', 'o', 'u', 'n', 'd', 'a', 'r', 'y',
      '-'] := rfl

/-- The characters of a boundary. -/
theorem toList_candidate (n : ℕ) :
    (candidate n).toList = "lager-net-boundary-".toList ++ Nat.toDigits 10 n := by
  exact String.toList_append.trans (congrArg _ Nat.toList_repr)

/-- The characters of a boundary are ASCII, and no line break is among them. -/
theorem mem_candidate {n : ℕ} {c : Char} (h : c ∈ (candidate n).toList) :
    c.toNat < 128 ∧ c ≠ '\r' := by
  rw [toList_candidate, List.mem_append] at h
  rcases h with hfixed | hdigit
  · rw [toList_stem] at hfixed
    have hstem : (['l', 'a', 'g', 'e', 'r', '-', 'n', 'e', 't', '-', 'b', 'o', 'u', 'n', 'd', 'a',
        'r', 'y', '-'].all fun c => c.toNat < 128 && c != '\r') = true := by decide
    simpa using List.all_eq_true.mp hstem c hfixed
  · have h := Nat.isDigit_of_mem_toDigits (by decide) (by decide) hdigit
    rw [Char.isDigit, Bool.and_eq_true, decide_eq_true_eq, decide_eq_true_eq] at h
    refine ⟨Nat.lt_of_le_of_lt (UInt32.le_iff_toNat_le.mp h.2) (by decide), ?_⟩
    rintro rfl
    exact absurd h.1 (by decide)

/-- What the search comes to: the first boundary that occurs in no part. -/
theorem findBoundary_spec (parts : List FormPart) (fuel n : ℕ) :
    match findBoundary parts fuel n with
    | some boundary => ∃ m, boundary = candidate m ∧ m < n + fuel ∧
        ∀ p ∈ parts, ¬ utf8 boundary <:+: p.data
    | none => ∀ m, n ≤ m → m < n + fuel → ∃ p ∈ parts, utf8 (candidate m) <:+: p.data := by
  induction fuel generalizing n with
  | zero => exact fun m hle hlt => absurd hlt (by omega)
  | succ fuel ih =>
    rw [findBoundary]
    by_cases h : parts.any fun p => containsBytes p.data (utf8 (candidate n))
    · rw [if_pos h]
      obtain ⟨p, hp, hoccurs⟩ := List.any_eq_true.mp h
      have hfirst := containsBytes_iff.mp hoccurs
      specialize ih (n + 1)
      cases hfind : findBoundary parts fuel (n + 1) with
      | some boundary =>
        rw [hfind] at ih
        obtain ⟨m, hm, hlt, hall⟩ := ih
        exact ⟨m, hm, by omega, hall⟩
      | none =>
        rw [hfind] at ih
        intro m hle hlt
        rcases Nat.eq_or_lt_of_le hle with rfl | hlater
        · exact ⟨p, hp, hfirst⟩
        · exact ih m hlater (by omega)
    · rw [if_neg h]
      refine ⟨n, rfl, by omega, fun p hp hoccurs => h ?_⟩
      exact List.any_eq_true.mpr ⟨p, hp, containsBytes_iff.mpr hoccurs⟩

/-! ## Why the search ends -/

/-- The digits of a number below `2 ^ 32`. -/
theorem length_toDigits {n : ℕ} (h : n < 2 ^ 32) :
    1 ≤ (Nat.toDigits 10 n).length ∧ (Nat.toDigits 10 n).length ≤ 10 := by
  refine ⟨Nat.length_toDigits_pos, ?_⟩
  rw [Nat.length_toDigits_le_iff (by decide) (by decide)]
  exact h.trans (by decide)

/-- The bytes of a boundary: a fixed text, which begins with the only `l` in it, and digits. -/
theorem utf8_candidate (n : ℕ) : utf8 (candidate n) =
    108 :: ([97, 103, 101, 114, 45, 110, 101, 116, 45, 98, 111, 117, 110, 100, 97, 114, 121, 45] ++
      asBytes (Nat.toDigits 10 n)) := by
  rw [utf8, toList_candidate, asBytes_append]
  rfl

/-- A digit is one byte. -/
theorem length_asBytes_toDigits (n : ℕ) :
    (asBytes (Nat.toDigits 10 n)).length = (Nat.toDigits 10 n).length := by
  rw [asBytes_ascii, List.length_map]
  intro c hc
  refine (mem_candidate (n := n) ?_).1
  rw [toList_candidate]
  exact List.mem_append_right _ hc

/-- Different numbers make different boundaries. -/
theorem candidate_injective {n m : ℕ} (h : utf8 (candidate n) = utf8 (candidate m)) : n = m := by
  have hchars := asBytes_injective h
  rw [toList_candidate, toList_candidate, List.append_cancel_left_eq] at hchars
  rw [← Nat.ofDigitChars_ten_toDigits (n := n), hchars, Nat.ofDigitChars_ten_toDigits]

/-- A boundary can only begin where there is an `l`, and has no other one soon after. -/
theorem getElem?_of_candidate {n i : ℕ} {text : List UInt8}
    (h : utf8 (candidate n) <+: text.drop i) :
    text[i]? = some 108 ∧ ∀ k, 1 ≤ k → k ≤ 9 → text[i + k]? ≠ some 108 := by
  obtain ⟨rest, hrest⟩ := h
  rw [utf8_candidate] at hrest
  have hat : ∀ k, text[i + k]? = (text.drop i)[k]? := fun k => List.getElem?_drop.symm
  refine ⟨by simpa [← hrest] using hat 0, fun k hone hnine => ?_⟩
  rw [hat, ← hrest]
  interval_cases k <;> simp

/-- **An absent boundary.** Data shorter than `2 ^ 32` bytes does not contain all of the first
`2 ^ 32` boundaries.

**Proof sketch.** Say all of them occur. Map each to the place of an occurrence, moved on by the
number of its digits; that is still inside of the data. Two boundaries at different places are at
least 19 bytes apart, so the places moved on differ. At the same place, boundaries with the same
number of digits are the same. -/
theorem exists_absent {text : List UInt8} (h : text.length < 2 ^ 32) :
    ∃ n < 2 ^ 32, ¬ utf8 (candidate n) <:+: text := by
  by_contra hall
  push Not at hall
  have hplace : ∀ n, ∃ i, n < 2 ^ 32 → utf8 (candidate n) <+: text.drop i := by
    intro n
    by_cases hn : n < 2 ^ 32
    · obtain ⟨front, back, heq⟩ := hall n hn
      refine ⟨front.length, fun _ => ⟨back, ?_⟩⟩
      rw [← heq, List.append_assoc, List.drop_left]
    · exact ⟨0, fun hlt => absurd hlt hn⟩
  choose place hplace using hplace
  obtain ⟨digits, hdigits⟩ : ∃ digits : ℕ → ℕ, ∀ n, (Nat.toDigits 10 n).length = digits n :=
    ⟨_, fun _ => rfl⟩
  have hmaps : ∀ n ∈ Finset.range (2 ^ 32), place n + digits n ∈ Finset.range text.length := by
    intro n hn
    have hle := (hplace n (Finset.mem_range.mp hn)).length_le
    rw [utf8_candidate, List.length_drop] at hle
    simp only [List.length_cons, List.length_append, List.length_nil, length_asBytes_toDigits,
      hdigits] at hle
    exact Finset.mem_range.mpr (by omega)
  have hcard : (Finset.range text.length).card < (Finset.range (2 ^ 32)).card := by
    rwa [Finset.card_range, Finset.card_range]
  obtain ⟨n, hn, m, hm, hne, heq⟩ := Finset.exists_ne_map_eq_of_card_lt_of_maps_to hcard hmaps
  wlog hle : place n ≤ place m generalizing n m
  · exact this m hm n hn hne.symm heq.symm (by omega)
  have hn := Finset.mem_range.mp hn
  have hm := Finset.mem_range.mp hm
  obtain ⟨-, hsparse⟩ := getElem?_of_candidate (hplace n hn)
  obtain ⟨hfirst, -⟩ := getElem?_of_candidate (hplace m hm)
  have hdn := length_toDigits hn
  have hdm := length_toDigits hm
  rw [hdigits] at hdn hdm
  rcases Nat.eq_or_lt_of_le hle with hsame | hapart
  · -- The same place and the same length, so the same boundary.
    have hlength : (utf8 (candidate n)).length = (utf8 (candidate m)).length := by
      simp only [utf8_candidate, List.length_cons, List.length_append, length_asBytes_toDigits,
        hdigits]
      omega
    have hprefix := hplace n hn
    rw [hsame] at hprefix
    exact hne (candidate_injective
      ((List.prefix_of_prefix_length_le hprefix (hplace m hm) hlength.le).eq_of_length hlength))
  · have hk := hsparse (place m - place n) (by omega) (by omega)
    rw [Nat.add_sub_cancel' hle] at hk
    exact hk hfirst

/-- The search ends when the data is shorter than `2 ^ 32` bytes altogether. -/
theorem multipart_isSome {parts : List FormPart}
    (h : (parts.map fun p => p.data.length).sum < 2 ^ 32) : (multipart parts).isSome := by
  rw [multipart, Option.isSome_map]
  have hspec := findBoundary_spec parts (2 ^ 32) 0
  cases hfind : findBoundary parts (2 ^ 32) 0 with
  | some boundary => rfl
  | none =>
    rw [hfind] at hspec
    have hlength : (parts.flatMap FormPart.data).length < 2 ^ 32 := by
      rwa [List.length_flatMap]
    obtain ⟨n, hn, habsent⟩ := exists_absent hlength
    obtain ⟨p, hp, hoccurs⟩ := hspec n (Nat.zero_le _) (by omega)
    refine absurd (hoccurs.trans ?_) habsent
    obtain ⟨front, back, rfl⟩ := List.append_of_mem hp
    rw [List.flatMap_append, List.flatMap_cons]
    exact ⟨front.flatMap FormPart.data, back.flatMap FormPart.data, by simp⟩

/-! ## The round trip -/

namespace FormPart

/-- The header lines of a part. -/
def headers (p : FormPart) : List (List UInt8) :=
  utf8 p.disposition ::
    p.contentType.toList.map fun contentType => utf8 ("Content-Type: " ++ contentType)

/-- A part as a reader finds it. -/
def toPart (p : FormPart) : Mime.Part := ⟨p.headers, p.data⟩

/-- A part is framed as a multipart body wants it. -/
theorem encode_eq (boundary : String) (p : FormPart) :
    p.encode boundary = Mime.framePart (utf8 boundary) p.toPart := by
  have hdashes : utf8 "--" = Mime.dashes := rfl
  have hcrlf : utf8 "\r\n" = Mime.crlf := rfl
  rcases hct : p.contentType with _ | contentType
  all_goals
    simp [encode, Mime.framePart, toPart, headers, hct, utf8_append, hdashes, hcrlf]

/-- No line break ends up between quotes. -/
theorem notMem_quote (s : String) : '\r' ∉ (quote s).toList := by
  rw [quote, String.toList_ofList, List.mem_map]
  rintro ⟨c, -, hc⟩
  split_ifs at hc with h
  · exact absurd hc (by decide)
  · exact h (by simp [hc])

/-- The first header line has no carriage return in it. -/
theorem notMem_disposition (p : FormPart) : '\r' ∉ p.disposition.toList := by
  have hfront : '\r' ∉ "Content-Disposition: form-data; name=\"".toList := by decide +kernel
  have hquote : '\r' ∉ "\"".toList := by decide +kernel
  have hfile : '\r' ∉ "; filename=\"".toList := by decide +kernel
  unfold disposition
  rcases p.filename with _ | filename
  · simp only [String.toList_append, List.mem_append, not_or]
    exact ⟨⟨⟨hfront, notMem_quote _⟩, hquote⟩, by decide +kernel⟩
  · simp only [String.toList_append, List.mem_append, not_or]
    exact ⟨⟨⟨hfront, notMem_quote _⟩, hquote⟩, ⟨hfile, notMem_quote _⟩, hquote⟩

/-- A header line starts with a `C`, and has no carriage return if the content type has none. -/
theorem mem_headers {p : FormPart} (h : ∀ t, p.contentType = some t → '\r' ∉ t.toList)
    {line : List UInt8} (hline : line ∈ p.headers) :
    line.head? = some 67 ∧ Mime.cr ∉ line := by
  have hbreak : ∀ {s : String}, '\r' ∉ s.toList → Mime.cr ∉ utf8 s := fun hs hmem =>
    hs (mem_of_mem_asBytes hmem (by decide))
  rcases List.mem_cons.mp hline with heq | htype
  · rw [heq]
    have hfront : (utf8 "Content-Disposition: form-data; name=\"").head? = some 67 := by
      decide +kernel
    refine ⟨?_, hbreak p.notMem_disposition⟩
    exact head?_utf8_append (head?_utf8_append (head?_utf8_append hfront _) _) _
  · obtain ⟨t, ht, heq⟩ := List.mem_map.mp htype
    rw [← heq]
    refine ⟨head?_utf8_append (by decide +kernel) _, hbreak ?_⟩
    rw [String.toList_append, List.mem_append, not_or]
    exact ⟨by decide +kernel, h t (Option.mem_toList.mp ht)⟩

/-- A part whose data does not contain the boundary can be framed. -/
theorem plain {boundary : List UInt8} {p : FormPart}
    (h : ∀ t, p.contentType = some t → '\r' ∉ t.toList) (habsent : ¬ boundary <:+: p.data) :
    p.toPart.Plain boundary where
  filled hmem := by
    obtain ⟨hhead, -⟩ := mem_headers h hmem
    cases hhead
  unbroken line hline := (mem_headers h hline).2
  headers line hline := Mime.lineKind_of_head (mem_headers h hline).1 (by decide)
  data line hline :=
    Mime.lineKind_text fun hoccurs => habsent (hoccurs.trans (Mime.infix_of_mem_lines hline))

end FormPart

/-- The content type names the boundary. -/
theorem boundaryOf_eq (boundary : String) :
    boundaryOf ("multipart/form-data; boundary=" ++ boundary) = some (utf8 boundary) := by
  have hpattern : "boundary=".toList = 'b' :: "oundary=".toList := by decide +kernel
  have hfixed : "multipart/form-data; boundary=".toList =
      "multipart/form-data; ".toList ++ 'b' :: "oundary=".toList := by decide +kernel
  have hchars : ("multipart/form-data; boundary=" ++ boundary).toList =
      "multipart/form-data; ".toList ++ ('b' :: "oundary=".toList ++ boundary.toList) := by
    rw [String.toList_append, hfixed, List.append_assoc]
  have hsplit : splitOnce "boundary=".toList
      ("multipart/form-data; boundary=" ++ boundary).toList =
      some ("multipart/form-data; ".toList, boundary.toList) := by
    rw [hchars, hpattern]
    exact splitOnce_of_notMem (by decide +kernel) _
  exact congrArg (Option.map fun p => asBytes p.2) hsplit

/-- **Multipart framing round trip.** Whatever the parts hold, if no content type has a carriage
return in it, a reader that splits the body at the boundary the content type names finds the parts
in order, each with its header lines and with its data byte for byte, and the boundary occurs in
the data of none. The search for it ends if the data is shorter than `2 ^ 32` bytes altogether.

**Proof sketch.** The boundary occurs in no data, and a header line starts with a `C`, so no line
of a part is a delimiter; then the framing loses nothing (`Library.Mime.parse_frame`). Data too
short to contain all boundaries leaves one to find (`exists_absent`). -/
theorem multipart_roundTrip (parts : List FormPart)
    (h : ∀ p ∈ parts, ∀ t, p.contentType = some t → '\r' ∉ t.toList) :
    (∀ contentType body, multipart parts = some (contentType, body) →
      ∃ boundary, boundaryOf contentType = some boundary ∧
        Mime.parse boundary body = some (parts.map FormPart.toPart) ∧
        ∀ p ∈ parts, ¬ boundary <:+: p.data) ∧
    ((parts.map fun p => p.data.length).sum < 2 ^ 32 → (multipart parts).isSome) := by
  refine ⟨fun contentType body hmultipart => ?_, multipart_isSome⟩
  obtain ⟨boundary, hfind, heq⟩ := Option.map_eq_some_iff.mp hmultipart
  obtain ⟨rfl, rfl⟩ := Prod.mk.inj heq
  have hspec := findBoundary_spec parts (2 ^ 32) 0
  rw [hfind] at hspec
  obtain ⟨n, rfl, -, habsent⟩ := hspec
  refine ⟨utf8 (candidate n), boundaryOf_eq _, ?_, habsent⟩
  have hbreak : Mime.cr ∉ utf8 (candidate n) := fun hmem =>
    (mem_candidate (mem_of_mem_asBytes hmem (by decide))).2 rfl
  have hbody : parts.flatMap (FormPart.encode (candidate n)) ++
      utf8 ("--" ++ candidate n ++ "--\r\n") =
      Mime.frame (utf8 (candidate n)) (parts.map FormPart.toPart) := by
    have hclosing : utf8 "--\r\n" = Mime.dashes ++ Mime.crlf := rfl
    rw [Mime.frame, List.flatMap_map, utf8_append, utf8_append, hclosing,
      List.flatMap_congr fun p _ => FormPart.encode_eq (candidate n) p]
    simp only [List.append_assoc]
    rfl
  rw [hbody]
  refine Mime.parse_frame hbreak fun part hpart => ?_
  obtain ⟨p, hp, rfl⟩ := List.mem_map.mp hpart
  exact FormPart.plain (h p hp) (habsent p hp)

/-- A file with the first closing delimiter in it, and a field that ends like the beginning of a
boundary. -/
abbrev straddling : List FormPart :=
  [⟨"binary", some "fw.bin", some "text/plain", utf8 "\r\n--lager-net-boundary-0--\r\n"⟩,
    ⟨"name", none, none, utf8 "\r\n--lager-net-"⟩]

/-- The two parts are read back. -/
theorem multipart_straddling :
    ∃ contentType body boundary, multipart straddling = some (contentType, body) ∧
      boundaryOf contentType = some boundary ∧
      Mime.parse boundary body = some (straddling.map FormPart.toPart) := by
  have hplain : ∀ p ∈ straddling, ∀ t, p.contentType = some t → '\r' ∉ t.toList := by
    intro p hp t ht
    simp only [straddling, List.mem_cons, List.not_mem_nil, or_false] at hp
    obtain rfl | rfl := hp
    · obtain rfl := Option.some.inj ht
      decide +kernel
    · cases ht
  obtain ⟨hread, hends⟩ := multipart_roundTrip straddling hplain
  have hshort : (straddling.map fun p => p.data.length).sum < 2 ^ 32 := by decide +kernel
  obtain ⟨⟨contentType, body⟩, hmultipart⟩ := Option.isSome_iff_exists.mp (hends hshort)
  obtain ⟨boundary, hboundary, hparse, -⟩ := hread contentType body hmultipart
  exact ⟨contentType, body, boundary, hmultipart, hboundary, hparse⟩

end Lager
