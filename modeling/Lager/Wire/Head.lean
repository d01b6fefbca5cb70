import Lager.Client.Interface
import Mathlib.Data.List.TakeWhile

set_option relaxedAutoImplicit false
set_option autoImplicit false

/-!
# Response heads

The head of a response as the client reads it from a socket of its own, line by line up to the
empty one, and what it takes from it.

## Main definitions

* `Lager.readHead`, `Lager.parseHead` — the reader and the parser.
* `Lager.WireHead` — a response head, from which its bytes and the report of an HTTP library are
  made.

## Main results

* `Lager.WireHead.readHead_raw` — the reader stops at the end of a head that is not too long.
* `Lager.parseHead_lines` — what the parser takes from a status line and other lines.
* `Lager.WireHead.parseHead_raw` — what the parser takes from a head.
-/

namespace Lager

open Library

/-! ## The reader -/

/-- `MAX_HEAD_BYTES`. -/
def maxHeadBytes : ℕ := 64 * 1024

/-- A line break. -/
def crlf : List UInt8 := [13, 10]

/-- The end of a head: the line break of its last line, and the empty line. -/
def blankLine : List UInt8 := crlf ++ crlf

/-- Read the head of a response from a stream, line by line. `none` if the stream ends before the
head does, or if the head is too long. -/
def readHead (raw stream : List UInt8) : Option (List UInt8) :=
  if blankLine <:+ raw then some raw
  else if maxHeadBytes ≤ raw.length then none
  else
    match h : cut 10 stream with
    | some (line, rest) => readHead (raw ++ line ++ [10]) rest
    | none => none
termination_by stream.length
decreasing_by
  obtain ⟨hstream, -⟩ := cut_eq_some_iff.mp h
  rw [hstream, List.length_append, List.length_cons]
  omega

/-! ## The parser -/

/-- The last of the codings a transfer encoding lists. -/
def lastCoding (value : List Char) : List Char :=
  trim (((rsplitOnce ',' value).map Prod.snd).getD value)

/-- What `parse_head` takes from a line. -/
def parseLine (head : Head) (line : List Char) : Head :=
  match cut ':' line with
  | none => head
  | some (name, value) =>
    let value := trim value
    if eqIgnoreAsciiCase (trim name) discoveryHeader.toList then
      { head with discovery := some (String.ofList value) }
    else if eqIgnoreAsciiCase (trim name) "content-length".toList then
      { head with
        contentLength := (fromStrRadix 10 (2 ^ 64) value).getD 0
        hasContentLength := true }
    else if eqIgnoreAsciiCase (trim name) "transfer-encoding".toList then
      { head with chunked := eqIgnoreAsciiCase (lastCoding value) "chunked".toList }
    else head

/-- The status behind the version in a status line. -/
def parseStatus (version rest : List Char) : Option ℕ :=
  if "HTTP/".toList <+: version then
    fromStrRadix 10 (2 ^ 16) (((cut ' ' rest).map Prod.fst).getD rest)
  else none

/-- The status of a status line. -/
def parseStatusLine (line : List Char) : Option ℕ :=
  (cut ' ' line).bind fun p => parseStatus p.1 p.2

/-- `parse_head`. -/
def parseHead (raw : List UInt8) : Option Head :=
  (fromUtf8 raw).bind fun text =>
    match splitCrlf text with
    | [] => none
    | statusLine :: lines =>
      (parseStatusLine statusLine).map fun status =>
        lines.foldl parseLine ⟨status, none, 0, false, false⟩

/-! ## Heads on the wire -/

/-- The characters of the name of a header: visible ASCII but the colon. -/
def isNameChar (c : Char) : Bool := 33 ≤ c.toNat && c.toNat < 127 && c != ':'

/-- The characters of the value of a header: no control characters but the tab. -/
def isFieldChar (c : Char) : Bool := c == '\t' || (32 ≤ c.toNat && c.toNat != 127)

/-- The blanks around the value of a header. -/
def isBlank (c : Char) : Bool := c == ' ' || c == '\t'

/-- A header: its name, and its value with the blanks around it. -/
structure Header where
  name : List Char
  before : List Char
  value : List Char
  after : List Char
  nameChars : ∀ c ∈ name, isNameChar c = true
  blankBefore : ∀ c ∈ before, isBlank c = true
  fieldChars : ∀ c ∈ value, isFieldChar c = true
  noBlankFirst : ∀ c, value.head? = some c → isBlank c = false
  noBlankLast : ∀ c, value.getLast? = some c → isBlank c = false
  blankAfter : ∀ c ∈ after, isBlank c = true

namespace Header

/-- The line of a header. -/
def line (h : Header) : List Char := h.name ++ ':' :: (h.before ++ h.value ++ h.after)

/-- The name of a header in lower case. -/
def key (h : Header) : String := String.ofList (toAsciiLowercase h.name)

end Header

/-- The values of the headers of a name. -/
def fieldValues (name : String) (headers : List Header) : List (List Char) :=
  (headers.filter fun h => h.key == name).map Header.value

/-- A response head under an HTTP/1.0 status line. -/
structure WireHead where
  status : ℕ
  reason : Option (List Char)
  headers : List Header
  statusRange : 100 ≤ status ∧ status < 1000
  reasonChars : ∀ text, reason = some text → ∀ c ∈ text, isFieldChar c = true

/-- The version in a status line. -/
def httpVersion : List Char := ['H', 'T', 'T', 'P', '/', '1', '.', '0']

namespace WireHead

/-- The status line. -/
def statusLine (w : WireHead) : List Char :=
  httpVersion ++ ' ' :: (Nat.toDigits 10 w.status ++
    match w.reason with
    | some text => ' ' :: text
    | none => [])

/-- The lines. -/
def lines (w : WireHead) : List (List Char) := w.statusLine :: w.headers.map Header.line

/-- The bytes of a head. -/
def raw (w : WireHead) : List UInt8 :=
  w.lines.flatMap (fun line => asBytes line ++ crlf) ++ crlf

/-- The values of the headers of a name. -/
def values (w : WireHead) (name : String) : List (List Char) := fieldValues name w.headers

/-- What an HTTP library reports: the headers with their names in lower case and without the blanks
around their values, and what reading the body comes to. -/
def response (w : WireHead) (body : Except Failure (List UInt8)) : Response where
  status := w.status
  http10 := true
  headers := w.headers.map fun h => (h.key, asBytes h.value)
  body := body

/-- What the parser takes from a head. -/
def head (w : WireHead) : Head where
  status := w.status
  discovery := (w.values discoveryHeader).getLast?.map fun v => String.ofList (trim v)
  contentLength := ((w.values "content-length").getLast?.map fun v =>
    (fromStrRadix 10 (2 ^ 64) (trim v)).getD 0).getD 0
  hasContentLength := (w.values "content-length").getLast?.isSome
  chunked := ((w.values "transfer-encoding").getLast?.map fun v =>
    eqIgnoreAsciiCase (lastCoding (trim v)) "chunked".toList).getD false

/-- A head that the reader does not find too long. -/
def Fits (w : WireHead) : Prop := w.raw.length < maxHeadBytes + 2

instance (w : WireHead) : Decidable w.Fits := inferInstanceAs (Decidable (_ < _))

end WireHead

/-! ## Characters -/

/-- What may stand in a name may stand in a value, is no white space and no colon. -/
theorem isNameChar_spec {c : Char} (h : isNameChar c = true) :
    isFieldChar c = true ∧ isWhitespace c = false ∧ c ≠ ':' := by
  simp only [isNameChar, Bool.and_eq_true, decide_eq_true_eq, bne_iff_ne] at h
  obtain ⟨⟨hlow, hhigh⟩, hcolon⟩ := h
  refine ⟨?_, ?_, hcolon⟩
  · simp only [isFieldChar, Bool.or_eq_true, Bool.and_eq_true, decide_eq_true_eq, bne_iff_ne]
    omega
  · simp only [isWhitespace, Bool.or_eq_false_iff, Bool.and_eq_false_iff, decide_eq_false_iff_not,
      beq_eq_false_iff_ne]
    omega

/-- A blank may stand in a value and is white space. -/
theorem isBlank_spec {c : Char} (h : isBlank c = true) :
    isFieldChar c = true ∧ isWhitespace c = true := by
  simp only [isBlank, Bool.or_eq_true, beq_iff_eq] at h
  rcases h with rfl | rfl <;> decide

/-- There is no line break in a value. -/
theorem ne_of_isFieldChar {c : Char} (h : isFieldChar c = true) : c ≠ '\r' ∧ c ≠ '\n' := by
  constructor <;> rintro rfl <;> exact absurd h (by decide)

/-- A digit may stand in a value and is no blank. -/
theorem isDigit_spec {c : Char} (h : c.isDigit = true) : isFieldChar c = true ∧ c ≠ ' ' := by
  have hrange : 48 ≤ c.toNat ∧ c.toNat ≤ 57 := by
    simp only [Char.isDigit, Bool.and_eq_true, decide_eq_true_eq] at h
    exact h
  refine ⟨?_, ?_⟩
  · simp only [isFieldChar, Bool.or_eq_true, Bool.and_eq_true, decide_eq_true_eq, bne_iff_ne]
    omega
  · rintro rfl
    exact absurd hrange.1 (by decide)

/-! ## The headers of a name -/

/-- The value in a line, if the name in front of its first colon is this one. -/
def headerValue (name : String) (line : List Char) : Option (List Char) :=
  (cut ':' line).bind fun p =>
    if eqIgnoreAsciiCase (trim p.1) name.toList then some (trim p.2) else none

/-- The value in the last line of a name. -/
def lastValue (name : String) (lines : List (List Char)) : Option (List Char) :=
  (lines.filterMap (headerValue name)).getLast?

/-- A head with the values of the headers the parser looks at. -/
def takeHeaders (value : String → Option (List Char)) (head : Head) : Head where
  status := head.status
  discovery := ((value discoveryHeader).map String.ofList).or head.discovery
  contentLength := ((value "content-length").map fun v =>
    (fromStrRadix 10 (2 ^ 64) v).getD 0).getD head.contentLength
  hasContentLength := (value "content-length").isSome || head.hasContentLength
  chunked := ((value "transfer-encoding").map fun v =>
    eqIgnoreAsciiCase (lastCoding v) "chunked".toList).getD head.chunked

/-- One more line in front counts where no other one has that name. -/
theorem lastValue_cons (name : String) (line : List Char) (lines : List (List Char)) :
    lastValue name (line :: lines) = (lastValue name lines).or (headerValue name line) := by
  rw [lastValue, List.filterMap_cons]
  cases headerValue name line with
  | none => rw [Option.or_none, lastValue]
  | some v =>
    rw [lastValue]
    show (v :: lines.filterMap (headerValue name)).getLast? = _
    rw [List.getLast?_cons]
    cases (lines.filterMap (headerValue name)).getLast? <;> rfl

/-- A line has no header of two names. -/
theorem headerValue_of_ne {name other : String} {line v : List Char}
    (hne : toAsciiLowercase name.toList ≠ toAsciiLowercase other.toList)
    (h : headerValue name line = some v) : headerValue other line = none := by
  obtain ⟨p, hcut, hname⟩ := Option.bind_eq_some_iff.mp h
  rw [headerValue, hcut, Option.bind_some]
  refine if_neg fun hother => hne ?_
  split_ifs at hname with hname'
  simp only [eqIgnoreAsciiCase, beq_iff_eq] at hname' hother
  exact hname'.symm.trans hother

/-- A head with no new values. -/
theorem takeHeaders_none (head : Head) : takeHeaders (fun _ => none) head = head := rfl

/-- A head with new values, and newer ones. -/
theorem takeHeaders_takeHeaders (value newer : String → Option (List Char)) (head : Head) :
    takeHeaders newer (takeHeaders value head) =
      takeHeaders (fun name => (newer name).or (value name)) head := by
  simp only [takeHeaders]
  cases newer discoveryHeader <;> cases newer "content-length" <;>
    cases newer "transfer-encoding" <;> simp

/-- What the parser takes from a line. -/
theorem parseLine_eq (head : Head) (line : List Char) :
    parseLine head line = takeHeaders (fun name => headerValue name line) head := by
  cases hcut : cut ':' line with
  | none =>
    have hnone : ∀ name : String, headerValue name line = none := by
      intro name
      rw [headerValue, hcut, Option.bind_none]
    simp only [parseLine, hcut, hnone]
    exact (takeHeaders_none head).symm
  | some p =>
    have hvalue : ∀ name : String, headerValue name line =
        if eqIgnoreAsciiCase (trim p.1) name.toList then some (trim p.2) else none := by
      intro name
      rw [headerValue, hcut, Option.bind_some]
    have hlength : toAsciiLowercase discoveryHeader.toList ≠
        toAsciiLowercase "content-length".toList := by decide
    have hcoding : toAsciiLowercase discoveryHeader.toList ≠
        toAsciiLowercase "transfer-encoding".toList := by decide
    have hother : toAsciiLowercase "content-length".toList ≠
        toAsciiLowercase "transfer-encoding".toList := by decide
    simp only [parseLine, hcut]
    split_ifs with h₁ h₂ h₃
    · have hthis := (hvalue discoveryHeader).trans (if_pos h₁)
      simp only [takeHeaders, hthis, headerValue_of_ne hlength hthis,
        headerValue_of_ne hcoding hthis]
      rfl
    · have hthis := (hvalue "content-length").trans (if_pos h₂)
      have hfirst := (hvalue discoveryHeader).trans (if_neg h₁)
      simp only [takeHeaders, hthis, hfirst, headerValue_of_ne hother hthis]
      rfl
    · have hthis := (hvalue "transfer-encoding").trans (if_pos h₃)
      have hfirst := (hvalue discoveryHeader).trans (if_neg h₁)
      have hsecond := (hvalue "content-length").trans (if_neg h₂)
      simp only [takeHeaders, hthis, hfirst, hsecond]
      rfl
    · have hfirst := (hvalue discoveryHeader).trans (if_neg h₁)
      have hsecond := (hvalue "content-length").trans (if_neg h₂)
      have hthird := (hvalue "transfer-encoding").trans (if_neg h₃)
      simp only [takeHeaders, hfirst, hsecond, hthird]
      rfl

/-- **What the parser takes from some lines.** Of each header it looks at, the last one counts. -/
theorem foldl_parseLine (lines : List (List Char)) (head : Head) :
    lines.foldl parseLine head = takeHeaders (fun name => lastValue name lines) head := by
  induction lines generalizing head with
  | nil => exact (takeHeaders_none head).symm
  | cons line lines ih =>
    rw [List.foldl_cons, ih, parseLine_eq, takeHeaders_takeHeaders]
    simp only [lastValue_cons]

/-- Empty lines have no header. -/
theorem lastValue_append_nil (name : String) (lines : List (List Char)) (n : ℕ) :
    lastValue name (lines ++ List.replicate n []) = lastValue name lines := by
  have hempty : (List.replicate n []).filterMap (headerValue name) = [] := by
    rw [List.filterMap_eq_nil_iff]
    intro line hline
    rw [List.eq_of_mem_replicate hline]
    rfl
  rw [lastValue, List.filterMap_append, hempty, List.append_nil, lastValue]

/-! ## Lines -/

namespace Header

/-- The characters of the line of a header may all stand in a value. -/
theorem line_fieldChars (h : Header) : ∀ c ∈ h.line, isFieldChar c = true := by
  intro c hc
  simp only [line, List.mem_append, List.mem_cons] at hc
  rcases hc with hc | rfl | (hc | hc) | hc
  · exact (isNameChar_spec (h.nameChars c hc)).1
  · decide
  · exact (isBlank_spec (h.blankBefore c hc)).1
  · exact h.fieldChars c hc
  · exact (isBlank_spec (h.blankAfter c hc)).1

/-- The parser trims the blanks around a value. -/
theorem trim_value (h : Header) : trim (h.before ++ h.value ++ h.after) = trim h.value := by
  rw [trim_append_right fun c hc => (isBlank_spec (h.blankAfter c hc)).2,
    trim_append_left fun c hc => (isBlank_spec (h.blankBefore c hc)).2]

/-- The parser compares names in lower case. -/
theorem eqIgnoreAsciiCase_name (h : Header) (name : String)
    (hlower : toAsciiLowercase name.toList = name.toList) :
    eqIgnoreAsciiCase (trim h.name) name.toList = (h.key == name) := by
  have htrim : trim h.name = h.name :=
    trim_eq_self fun c hc => (isNameChar_spec (h.nameChars c hc)).2.1
  rw [htrim, eqIgnoreAsciiCase, hlower, key, Bool.eq_iff_iff, beq_iff_eq, beq_iff_eq,
    ← String.toList_inj, String.toList_ofList]

/-- The value in the line of a header. -/
theorem headerValue_line (h : Header) (name : String)
    (hlower : toAsciiLowercase name.toList = name.toList) :
    headerValue name h.line = if h.key = name then some (trim h.value) else none := by
  have hcolon : ':' ∉ h.name := fun hc => (isNameChar_spec (h.nameChars _ hc)).2.2 rfl
  rw [headerValue, line, cut_append_cons hcolon, Option.bind_some]
  simp only [h.trim_value, h.eqIgnoreAsciiCase_name name hlower, beq_iff_eq]

end Header

/-- The value in the last line of a name is that of the last header of the name. -/
theorem lastValue_lines {name : String} (hlower : toAsciiLowercase name.toList = name.toList)
    (headers : List Header) :
    lastValue name (headers.map Header.line) = (fieldValues name headers).getLast?.map trim := by
  have hvalues : (headers.map Header.line).filterMap (headerValue name) =
      (fieldValues name headers).map trim := by
    induction headers with
    | nil => rfl
    | cons h headers ih =>
      rw [List.map_cons, List.filterMap_cons, h.headerValue_line name hlower, fieldValues]
      by_cases hkey : h.key = name
      · rw [if_pos hkey, List.filter_cons_of_pos (by simpa using hkey), List.map_cons,
          List.map_cons, ih]
        rfl
      · rw [if_neg hkey, List.filter_cons_of_neg (by simpa using hkey), ih]
        rfl
  rw [lastValue, hvalues, List.getLast?_map]

/-- Splitting some lines. -/
theorem splitCrlf_lines {lines : List (List Char)} (h : ∀ line ∈ lines, '\r' ∉ line)
    (rest : List Char) :
    splitCrlf (lines.flatMap (fun line => line ++ ['\r', '\n']) ++ rest) =
      lines ++ splitCrlf rest := by
  induction lines with
  | nil => rfl
  | cons line lines ih =>
    obtain ⟨hline, hlines⟩ := List.forall_mem_cons.mp h
    rw [List.flatMap_cons, List.append_assoc, List.append_assoc, List.cons_append, List.cons_append,
      List.nil_append, splitCrlf_append hline, ih hlines, List.cons_append]

/-- **The parser on lines.** If the first line is a status line the values of the last lines
count. -/
theorem parseHead_lines {first : List Char} {lines : List (List Char)} {status : ℕ}
    (hfirst : parseStatusLine first = some status) (h : ∀ line ∈ first :: lines, '\r' ∉ line) :
    parseHead (asBytes ((first :: lines).flatMap (fun line => line ++ ['\r', '\n']) ++
        ['\r', '\n'])) =
      some (takeHeaders (fun name => lastValue name lines) ⟨status, none, 0, false, false⟩) := by
  have hempty : ∀ name, lastValue name (lines ++ [[], []]) = lastValue name lines :=
    fun name => lastValue_append_nil name lines 2
  rw [parseHead, fromUtf8_asBytes, Option.bind_some, splitCrlf_lines h]
  show (parseStatusLine first).map (fun status =>
    (lines ++ [[], []]).foldl parseLine ⟨status, none, 0, false, false⟩) = _
  rw [hfirst, Option.map_some, foldl_parseLine]
  simp only [hempty]

namespace WireHead

/-- The characters of the lines may all stand in a value. -/
theorem lines_fieldChars (w : WireHead) : ∀ line ∈ w.lines, ∀ c ∈ line, isFieldChar c = true := by
  intro l hl c hc
  rcases List.mem_cons.mp hl with heq | hl
  · rw [heq, statusLine] at hc
    simp only [List.mem_append, List.mem_cons] at hc
    rcases hc with hc | rfl | hc | hc
    · have hversion : httpVersion.all isFieldChar = true := by decide
      exact List.all_eq_true.mp hversion c hc
    · decide
    · exact (isDigit_spec (Nat.isDigit_of_mem_toDigits (by decide) (by decide) hc)).1
    · cases hreason : w.reason with
      | none =>
        rw [hreason] at hc
        cases hc
      | some text =>
        rw [hreason] at hc
        rcases List.mem_cons.mp hc with rfl | hc
        · decide
        · exact w.reasonChars text hreason c hc
  · obtain ⟨h, -, rfl⟩ := List.mem_map.mp hl
    exact h.line_fieldChars c hc

/-! ## The parser -/

/-- The status is parsed back. -/
theorem parseStatusLine_statusLine (w : WireHead) :
    parseStatusLine w.statusLine = some w.status := by
  have hstatus : fromStrRadix 10 (2 ^ 16) (Nat.toDigits 10 w.status) = some w.status :=
    fromStrRadix_toDigits (w.statusRange.2.trans (by decide))
  have hspace : ' ' ∉ Nat.toDigits 10 w.status := fun hmem =>
    (isDigit_spec (Nat.isDigit_of_mem_toDigits (by decide) (by decide) hmem)).2 rfl
  have hversion : ∀ rest, parseStatus httpVersion rest =
      fromStrRadix 10 (2 ^ 16) (((cut ' ' rest).map Prod.fst).getD rest) :=
    fun rest => if_pos (by decide +kernel)
  rw [parseStatusLine, statusLine, cut_append_cons (by decide), Option.bind_some, hversion]
  cases w.reason with
  | none =>
    rw [List.append_nil, cut_eq_none_iff.mpr hspace]
    exact hstatus
  | some text =>
    rw [cut_append_cons hspace]
    exact hstatus

/-- The bytes of a head are those of its text. -/
theorem raw_eq (w : WireHead) :
    w.raw = asBytes (w.lines.flatMap (fun line => line ++ ['\r', '\n']) ++ ['\r', '\n']) := by
  have hcrlf : asBytes ['\r', '\n'] = crlf := rfl
  rw [asBytes_append, hcrlf, raw, asBytes, List.flatMap_assoc]
  congr 1
  refine List.flatMap_congr fun line _ => ?_
  exact (asBytes_append line ['\r', '\n']).symm

/-- **The parser on a head.** Of each header the parser looks at, the last one counts. -/
theorem parseHead_raw (w : WireHead) : parseHead w.raw = some w.head := by
  have hunbroken : ∀ line ∈ w.lines, '\r' ∉ line := fun line hline hc =>
    (ne_of_isFieldChar (w.lines_fieldChars line hline _ hc)).1 rfl
  rw [raw_eq, lines, parseHead_lines w.parseStatusLine_statusLine hunbroken]
  have hvalues : ∀ name : String, toAsciiLowercase name.toList = name.toList →
      lastValue name (w.headers.map Header.line) = (w.values name).getLast?.map trim :=
    fun name hlower => lastValue_lines hlower w.headers
  simp only [takeHeaders, head, hvalues discoveryHeader rfl, hvalues "content-length" rfl,
    hvalues "transfer-encoding" rfl, Option.map_map, Option.isSome_map, Option.or_none,
    Bool.or_false]
  rfl

/-! ## The reader -/

/-- Text that ends with a line which is not empty does not end with an empty one. -/
theorem not_blankLine {front line : List UInt8} (hne : line ≠ []) (h : (10 : UInt8) ∉ line) :
    ¬ blankLine <:+ front ++ line ++ crlf := by
  rintro ⟨before, hbefore⟩
  rw [blankLine, ← List.append_assoc] at hbefore
  have hfront := List.append_cancel_right hbefore
  have hlast := congrArg List.getLast? hfront
  rw [List.getLast?_append_of_ne_nil _ hne] at hlast
  simp only [crlf, List.getLast?_append] at hlast
  exact h (List.mem_of_getLast? hlast.symm)

/-- The reader is done at the end of the head. -/
theorem readHead_done {raw : List UInt8} (h : blankLine <:+ raw) (stream : List UInt8) :
    readHead raw stream = some raw := by
  rw [readHead, if_pos h]

/-- The reader gives up on a head that is too long. -/
theorem readHead_long {raw : List UInt8} (h : ¬ blankLine <:+ raw)
    (hlong : maxHeadBytes ≤ raw.length) (stream : List UInt8) : readHead raw stream = none := by
  rw [readHead, if_neg h, if_pos hlong]

/-- The reader takes one more line. -/
theorem readHead_step {raw stream line rest : List UInt8} (h : ¬ blankLine <:+ raw)
    (hlong : ¬ maxHeadBytes ≤ raw.length) (hcut : cut 10 stream = some (line, rest)) :
    readHead raw stream = readHead (raw ++ line ++ [10]) rest := by
  rw [readHead, if_neg h, if_neg hlong]
  split
  · next hcut' =>
    obtain ⟨rfl, rfl⟩ := Prod.mk.inj (Option.some.inj (hcut.symm.trans hcut'))
    rfl
  · next hcut' => cases hcut.symm.trans hcut'

/-- The reader on some lines, none of them empty, and the empty line behind them.

**Proof sketch.** Induction on the lines. With one more line read, the head is not at its end, and
it is too long if it was before. -/
theorem readHead_lines {lines : List (List UInt8)} (h : ∀ line ∈ lines, line ≠ [] ∧ 10 ∉ line)
    {raw : List UInt8} (hopen : ¬ blankLine <:+ raw) (hlast : lines = [] → crlf <:+ raw)
    (rest : List UInt8) :
    readHead raw (lines.flatMap (fun line => line ++ crlf) ++ (crlf ++ rest)) =
      if (raw ++ lines.flatMap fun line => line ++ crlf).length < maxHeadBytes then
        some (raw ++ lines.flatMap (fun line => line ++ crlf) ++ crlf)
      else none := by
  by_cases hlong : maxHeadBytes ≤ raw.length
  · have htotal : ¬ (raw ++ lines.flatMap fun line => line ++ crlf).length < maxHeadBytes := by
      rw [List.length_append]
      omega
    rw [readHead_long hopen hlong, if_neg htotal]
  induction lines generalizing raw with
  | nil =>
    obtain ⟨front, rfl⟩ := hlast rfl
    have hcut : cut (10 : UInt8) (crlf ++ rest) = some ([13], rest) :=
      @cut_append_cons _ _ (10 : UInt8) [13] rest (by decide)
    have hend : front ++ crlf ++ [13] ++ [10] = front ++ crlf ++ crlf := by
      rw [List.append_assoc _ [13]]
      rfl
    have hdone : blankLine <:+ front ++ crlf ++ crlf := ⟨front, by
      rw [blankLine, List.append_assoc]⟩
    rw [List.flatMap_nil, List.nil_append, List.append_nil, readHead_step hopen hlong hcut, hend,
      readHead_done hdone, if_pos (not_le.mp hlong)]
  | cons line lines ih =>
    obtain ⟨⟨hne, hline⟩, hlines⟩ := List.forall_mem_cons.mp h
    have hcut : cut (10 : UInt8) (line ++ crlf ++ (lines.flatMap (fun line => line ++ crlf) ++
        (crlf ++ rest))) =
          some (line ++ [13], lines.flatMap (fun line => line ++ crlf) ++ (crlf ++ rest)) := by
      have hfront : (10 : UInt8) ∉ line ++ [13] := by
        simp only [List.mem_append, List.mem_singleton, not_or]
        exact ⟨hline, by decide⟩
      rw [← cut_append_cons hfront]
      simp [crlf]
    have hend : raw ++ (line ++ [13]) ++ [10] = raw ++ line ++ crlf := by simp [crlf]
    have hopen' : ¬ blankLine <:+ raw ++ line ++ crlf := not_blankLine hne hline
    rw [List.flatMap_cons, List.append_assoc, readHead_step hopen hlong hcut, hend]
    have htotal : raw ++ (line ++ crlf ++ lines.flatMap fun line => line ++ crlf) =
        raw ++ line ++ crlf ++ lines.flatMap fun line => line ++ crlf := by
      simp only [List.append_assoc]
    rw [htotal]
    by_cases hlong' : maxHeadBytes ≤ (raw ++ line ++ crlf).length
    · have hover : ¬ (raw ++ line ++ crlf ++ lines.flatMap fun line => line ++ crlf).length <
          maxHeadBytes := by
        rw [List.length_append]
        omega
      rw [readHead_long hopen' hlong', if_neg hover]
    · exact ih hlines hopen' (fun _ => List.suffix_append _ _) hlong'

/-- **The reader on a head.** The reader stops at the end of a head that is not too long. -/
theorem readHead_raw (w : WireHead) (rest : List UInt8) :
    readHead [] (w.raw ++ rest) = if w.Fits then some w.raw else none := by
  have hlines : ∀ line ∈ w.lines.map asBytes, line ≠ [] ∧ (10 : UInt8) ∉ line := by
    intro l hl
    obtain ⟨line, hline, rfl⟩ := List.mem_map.mp hl
    have hchars := w.lines_fieldChars line hline
    refine ⟨fun hempty => ?_, fun hmem => ?_⟩
    · obtain rfl : line = [] := asBytes_injective hempty
      rcases List.mem_cons.mp hline with heq | hmem
      · cases heq
      · obtain ⟨h, -, heq⟩ := List.mem_map.mp hmem
        exact absurd heq (by simp [Header.line])
    · exact (ne_of_isFieldChar (hchars _ (mem_of_mem_asBytes hmem (by decide)))).2 rfl
  have hraw : w.raw = (w.lines.map asBytes).flatMap (fun line => line ++ crlf) ++ crlf := by
    rw [List.flatMap_map]
    rfl
  have hopen : ¬ blankLine <:+ [] := by decide
  have hsome : w.lines.map asBytes = [] → crlf <:+ [] := fun h => by cases h
  have hlength : w.Fits ↔
      ((w.lines.map asBytes).flatMap fun line => line ++ crlf).length < maxHeadBytes := by
    rw [Fits, hraw, List.length_append]
    exact Nat.add_lt_add_iff_right
  rw [if_congr hlength rfl rfl, hraw, List.append_assoc]
  exact readHead_lines hlines hopen hsome rest

end WireHead

end Lager
