import Lager.Wire.Head

set_option relaxedAutoImplicit false
set_option autoImplicit false

/-!
# Heads in any spelling

What the parser takes from a head whose header lines are spelled in any way: names in any case,
white space of any kind around names and values, lines without a colon, and values with colons and
commas in them.

## Main definitions

* `Lager.HeadText` — a status line and any lines after it.
* `Lager.HeadText.Takes` — what is to be taken from them.

## Main results

* `Lager.HeadText.parseHead_raw` — the parser folds the values of the last lines into a head.
* `Lager.parseHead_takes` — which is what is to be taken, and other headers make no difference.
-/

namespace Lager

open Library

/-- A status line and any lines after it, none of them with a carriage return in it. The version has
no space in it. -/
structure HeadText where
  version : List Char
  statusText : List Char
  status : ℕ
  reason : List Char
  lines : List (List Char)
  isStatus : IsNumeral 10 statusText status
  statusRange : status < 2 ^ 16
  noSpace : ' ' ∉ version
  unbroken : '\r' ∉ version ∧ '\r' ∉ reason ∧ ∀ line ∈ lines, '\r' ∉ line

/-- Decimal digits that denote a number, perhaps behind a plus sign. -/
def SaysNumber (text : List Char) (n : ℕ) : Prop :=
  ∃ sign digits, text = sign ++ digits ∧ (sign = [] ∨ sign = ['+']) ∧ IsNumeral 10 digits n

/-- Of the codings between commas the last one is `chunked`, in any case and between white space. -/
def EndsChunked (value : List Char) : Prop :=
  ∃ coding, ',' ∉ coding ∧ (value = coding ∨ ∃ front, value = front ++ ',' :: coding) ∧
    eqIgnoreAsciiCase (trim coding) "chunked".toList

/-- Whether a line has a header that the parser looks at. -/
def isRelevant (line : List Char) : Bool :=
  [discoveryHeader, "content-length", "transfer-encoding"].any fun name =>
    (headerValue name line).isSome

namespace HeadText

/-- The status line. -/
def statusLine (h : HeadText) : List Char :=
  "HTTP/".toList ++ h.version ++ ' ' :: (h.statusText ++ ' ' :: h.reason)

/-- The bytes of a head. -/
def raw (h : HeadText) : List UInt8 :=
  asBytes ((h.statusLine :: h.lines).flatMap (fun line => line ++ ['\r', '\n']) ++ ['\r', '\n'])

/-- What is to be taken from a head, if lengths that fit are read. -/
structure Takes (fits : ℕ → Prop) (h : HeadText) (head : Head) : Prop where
  status : head.status = h.status
  discovery : head.discovery = (lastValue discoveryHeader h.lines).map String.ofList
  hasContentLength : head.hasContentLength = (lastValue "content-length" h.lines).isSome
  contentLength (v : List Char) (hlast : lastValue "content-length" h.lines = some v) :
    (∀ n, SaysNumber v n → fits n → head.contentLength = n) ∧
      ((∀ n, SaysNumber v n → ¬ fits n) → head.contentLength = 0)
  noContentLength : lastValue "content-length" h.lines = none → head.contentLength = 0
  chunked : head.chunked = true ↔
    ∃ v, lastValue "transfer-encoding" h.lines = some v ∧ EndsChunked v

/-- The head with the values of the last lines. -/
def head (h : HeadText) : Head :=
  takeHeaders (fun name => lastValue name h.lines) ⟨h.status, none, 0, false, false⟩

/-- The status is parsed. -/
theorem parseStatusLine_statusLine (h : HeadText) :
    parseStatusLine h.statusLine = some h.status := by
  have hdigit : ∀ c ∈ h.statusText, c ≠ ' ' := by
    intro c hc heq
    have hsome := h.isStatus.digits c hc
    rw [heq] at hsome
    simp [toDigit] at hsome
  have hspace : ' ' ∉ h.statusText := fun hmem => hdigit _ hmem rfl
  have hversion : ' ' ∉ "HTTP/".toList ++ h.version := by
    rw [List.mem_append, not_or]
    exact ⟨by decide, h.noSpace⟩
  have hprefix : "HTTP/".toList <+: "HTTP/".toList ++ h.version := List.prefix_append _ _
  have hread : fromStrRadix 10 (2 ^ 16) h.statusText = some h.status :=
    (fromStrRadix_eq_some_iff (by decide)).mpr
      ⟨h.statusRange, [], h.statusText, rfl, .inl rfl, h.isStatus⟩
  have hstatus : parseStatus ("HTTP/".toList ++ h.version) (h.statusText ++ ' ' :: h.reason) =
      some h.status := by
    rw [parseStatus, cut_append_cons hspace]
    exact (if_pos hprefix).trans hread
  have hcut : cut ' ' h.statusLine =
      some ("HTTP/".toList ++ h.version, h.statusText ++ ' ' :: h.reason) :=
    cut_append_cons hversion
  rw [parseStatusLine, hcut]
  exact hstatus

/-- The status line has no carriage return in it. -/
theorem notMem_statusLine (h : HeadText) : '\r' ∉ h.statusLine := by
  have hdigits : '\r' ∉ h.statusText := by
    intro hmem
    have hsome := h.isStatus.digits _ hmem
    simp [toDigit] at hsome
  have hfixed : '\r' ∉ "HTTP/".toList := by decide
  show '\r' ∉ "HTTP/".toList ++ h.version ++ ' ' :: (h.statusText ++ ' ' :: h.reason)
  simp only [List.mem_append, List.mem_cons, not_or]
  exact ⟨⟨hfixed, h.unbroken.1⟩, by decide, hdigits, by decide, h.unbroken.2.1⟩

/-- **The parser on a head.** The values of the last lines count. -/
theorem parseHead_raw (h : HeadText) : parseHead h.raw = some h.head :=
  parseHead_lines h.parseStatusLine_statusLine
    (List.forall_mem_cons.mpr ⟨h.notMem_statusLine, h.unbroken.2.2⟩)

end HeadText

/-- The last coding is the one behind the last comma. -/
theorem lastCoding_eq_chunked_iff {value : List Char} :
    eqIgnoreAsciiCase (lastCoding value) "chunked".toList = true ↔ EndsChunked value := by
  rw [lastCoding]
  cases hsplit : rsplitOnce ',' value with
  | none =>
    have hcomma := rsplitOnce_eq_none.mp hsplit
    constructor
    · intro h
      exact ⟨value, hcomma, .inl rfl, h⟩
    · rintro ⟨coding, -, rfl | ⟨front, rfl⟩, h⟩
      · exact h
      · exact absurd (List.mem_append_right _ List.mem_cons_self) hcomma
  | some p =>
    obtain ⟨hvalue, hcomma⟩ := rsplitOnce_eq_some.mp hsplit
    constructor
    · intro h
      exact ⟨p.2, hcomma, .inr ⟨p.1, hvalue⟩, h⟩
    · rintro ⟨coding, hcoding, rfl | ⟨front, rfl⟩, h⟩
      · exact absurd (hvalue ▸ List.mem_append_right _ List.mem_cons_self) hcoding
      · rw [rsplitOnce_eq_some.mpr ⟨rfl, hcoding⟩] at hsplit
        obtain rfl := Option.some.inj hsplit
        exact h

/-- A length is read just when it is a number that fits. -/
theorem parse_contentLength {v : List Char} :
    (∀ n, SaysNumber v n → n < 2 ^ 64 → (fromStrRadix 10 (2 ^ 64) v).getD 0 = n) ∧
      ((∀ n, SaysNumber v n → ¬ n < 2 ^ 64) → (fromStrRadix 10 (2 ^ 64) v).getD 0 = 0) := by
  constructor
  · intro n hnumber hlt
    rw [(fromStrRadix_eq_some_iff (by decide)).mpr ⟨hlt, hnumber⟩, Option.getD_some]
  · intro hnone
    cases hread : fromStrRadix 10 (2 ^ 64) v with
    | none => rfl
    | some n =>
      obtain ⟨hlt, hnumber⟩ := (fromStrRadix_eq_some_iff (by decide)).mp hread
      exact absurd hlt (hnone n hnumber)

/-- What the parser takes is what is to be taken, where lengths below `2 ^ 64` fit. -/
theorem HeadText.takes_head (h : HeadText) : h.Takes (· < 2 ^ 64) h.head where
  status := rfl
  discovery := Option.or_none
  hasContentLength := Bool.or_false _
  contentLength v hlast := by
    have hread : h.head.contentLength = (fromStrRadix 10 (2 ^ 64) v).getD 0 := by
      rw [head, takeHeaders, hlast, Option.map_some, Option.getD_some]
    rw [hread]
    exact parse_contentLength
  noContentLength hlast := by
    rw [head, takeHeaders, hlast]
    rfl
  chunked := by
    cases hlast : lastValue "transfer-encoding" h.lines with
    | none => simp [head, takeHeaders, hlast]
    | some v =>
      have hread : h.head.chunked = eqIgnoreAsciiCase (lastCoding v) "chunked".toList := by
        rw [head, takeHeaders, hlast, Option.map_some, Option.getD_some]
      rw [hread, lastCoding_eq_chunked_iff]
      constructor
      · exact fun hends => ⟨v, rfl, hends⟩
      · rintro ⟨v', hv', hends⟩
        exact Option.some.inj hv' ▸ hends

/-- A name that the parser looks at is only in lines that have one. -/
theorem lastValue_filter {name : String}
    (h : name ∈ [discoveryHeader, "content-length", "transfer-encoding"])
    (lines : List (List Char)) :
    lastValue name (lines.filter isRelevant) = lastValue name lines := by
  have hvalue : ∀ line, (if isRelevant line then headerValue name line else none) =
      headerValue name line := by
    intro line
    by_cases hrelevant : isRelevant line
    · rw [if_pos hrelevant]
    · rw [if_neg hrelevant]
      cases hthis : headerValue name line with
      | none => rfl
      | some v => exact absurd (List.any_eq_true.mpr ⟨name, h, by rw [hthis]; rfl⟩) hrelevant
  rw [lastValue, List.filterMap_filter, lastValue]
  simp only [hvalue]

/-- **Response heads in any spelling.** From a status line, lines with headers in any spelling and
an empty line the parser takes the status, the value of the last line of the discovery header,
whether there is a line with a length and the length in the last one, zero if that is no number
below `2 ^ 64`, and whether the last coding of the last line with a transfer encoding is `chunked`.
Other lines make no difference. -/
theorem parseHead_takes (h : HeadText) :
    (∃ head, parseHead h.raw = some head ∧ h.Takes (· < 2 ^ 64) head) ∧
      ∀ h' : HeadText, h'.status = h.status →
        h'.lines.filter isRelevant = h.lines.filter isRelevant →
          parseHead h'.raw = parseHead h.raw := by
  refine ⟨⟨h.head, h.parseHead_raw, h.takes_head⟩, fun h' hstatus hlines => ?_⟩
  have hlast : ∀ name ∈ [discoveryHeader, "content-length", "transfer-encoding"],
      lastValue name h'.lines = lastValue name h.lines := by
    intro name hname
    rw [← lastValue_filter hname, hlines, lastValue_filter hname]
  rw [h'.parseHead_raw, h.parseHead_raw, HeadText.head, HeadText.head, hstatus, takeHeaders,
    takeHeaders]
  rw [hlast _ (by simp), hlast _ (by simp), hlast _ (by simp)]

/-- A denial in an unusual spelling. -/
abbrev spelledHead : HeadText where
  version := "1.1".toList
  statusText := "0401".toList
  status := 401
  reason := "No: not you".toList
  lines := [" x-gateway-AUTH-url :\thttps://a:1 ".toList, "Transfer-Encoding: gzip, CHUNKED".toList]
  isStatus := by decide +kernel
  statusRange := by decide
  noSpace := by decide
  unbroken := by decide

/-- The same with other lines in between, under another version. -/
abbrev crowdedHead : HeadText where
  version := "2".toList
  statusText := "401".toList
  status := 401
  reason := []
  lines := ["Server: a".toList, " x-gateway-AUTH-url :\thttps://a:1 ".toList, "no colon".toList,
    "Transfer-Encoding: gzip, CHUNKED".toList, "X-Content-Length: 5".toList]
  isStatus := by decide +kernel
  statusRange := by decide
  noSpace := by decide
  unbroken := by decide

/-- The other lines make no difference. -/
theorem parseHead_takes_spelled : parseHead crowdedHead.raw = parseHead spelledHead.raw :=
  (parseHead_takes spelledHead).2 crowdedHead rfl (by decide +kernel)

/-- A head with a length that does not fit. -/
abbrev hugeHead : HeadText where
  version := "1.1".toList
  statusText := "200".toList
  status := 200
  reason := "OK".toList
  lines := ["Content-Length: 18446744073709551616".toList]
  isStatus := by decide +kernel
  statusRange := by decide
  noSpace := by decide
  unbroken := by decide

/-- A length of `2 ^ 64` is a number, and is taken for zero. -/
theorem hugeLength_dropped :
    hugeHead.head.contentLength = 0 ∧
      ¬ ∀ h : HeadText, ∃ head, parseHead h.raw = some head ∧ h.Takes (fun _ => True) head := by
  have hzero : hugeHead.head.contentLength = 0 := by decide +kernel
  refine ⟨hzero, fun h => ?_⟩
  obtain ⟨head, hparse, htakes⟩ := h hugeHead
  obtain rfl := Option.some.inj (hugeHead.parseHead_raw.symm.trans hparse)
  have hlast : lastValue "content-length" hugeHead.lines =
      some "18446744073709551616".toList := by decide +kernel
  have hnumber : SaysNumber "18446744073709551616".toList (2 ^ 64) :=
    ⟨[], _, rfl, .inl rfl, by decide +kernel⟩
  have hlength := (htakes.contentLength _ hlast).1 _ hnumber trivial
  rw [hzero] at hlength
  exact absurd hlength (by decide)

end Lager
