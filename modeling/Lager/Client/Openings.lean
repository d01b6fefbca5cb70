import Lager.Client.Requests
import Lager.Wire.Head

set_option relaxedAutoImplicit false
set_option autoImplicit false

/-!
# Opening an RTT stream

The blocking client reads the answer to the opening of an RTT stream through its HTTP library, the
async one through `parse_head`. This file compares what the two make of one response.

## Main definitions

* `Lager.WireHead.Answers` — surroundings in which both clients get a response.
* `Lager.Agrees` — two attempts come to the same.
* `Lager.WireHead.Alike` — the responses of which both clients make the same.

## Main results

* `Lager.openings_agree_iff` — the attempts agree on just these responses.
-/

namespace Lager

open Library

/-! ## One response, two reports -/

namespace WireHead

/-- What the reader and the parser make of a response, whatever follows its head. -/
def exchanged (w : WireHead) (rest : List UInt8) (body : Except Failure (List UInt8)) :
    HeadAnswer :=
  match readHead [] (w.raw ++ rest) with
  | none => .closed
  | some raw =>
    match parseHead raw with
    | none => .garbled
    | some head => .head head body

/-- Surroundings in which a request is answered with a response, through the HTTP library and on a
socket alike. -/
def Answers (w : WireHead) (answers : (op : Op) → op.Ans) : Prop :=
  (∃ body, ∀ r, answers (.request r) = .ok (w.response body)) ∧
    ∃ rest body, ∀ e, answers (.exchange e) = w.exchanged rest body

/-- The responses under consideration: no redirects, at most one transfer encoding, and no content
length. -/
structure Plain (w : WireHead) : Prop where
  redirect : w.status ∉ [301, 302, 303, 307, 308]
  coding : (w.values "transfer-encoding").length ≤ 1
  length : w.values "content-length" = []

/-- A value that `HeaderValue::to_str` takes. -/
def isAscii (value : List Char) : Bool := value.all fun c => c.toNat < 128

/-- The name of the chunked coding, in any case. -/
def isChunked (value : List Char) : Bool := eqIgnoreAsciiCase value "chunked".toList

/-- The responses of which both clients make the same. One that the blocking client accepts has
status 200, a head that is not too long, and no transfer encoding that ends in `chunked` without
being just that. A denial names one auth server, and in ASCII, or none; with a head that is too
long, none in ASCII. -/
structure Alike (w : WireHead) : Prop where
  accepted : w.status < 400 → w.status = 200 ∧ w.Fits ∧
    ∀ value ∈ w.values "transfer-encoding", isChunked (lastCoding (trim value)) → isChunked value
  denied : isDenial w.status → ∀ first last,
    (w.values discoveryHeader).head? = some first →
      (w.values discoveryHeader).getLast? = some last →
        if w.Fits then isAscii first ∧ trim last = first else isAscii first = false

end WireHead

/-- Two attempts come to the same: both accept the stream and agree on whether its body is
chunk-decoded, or both report the same gateway denial, or both report a refusal. -/
def Agrees : Attempt RttStream → Attempt RttStream → Prop
  | .answered s, .answered s' => s.chunked = s'.chunked
  | .denied status authUrl, .denied status' authUrl' => status = status' ∧ authUrl = authUrl'
  | .failed _, .failed _ => True
  | _, _ => False

/-! ## The report of the HTTP library -/

/-- A value is visible ASCII if it is ASCII at all. -/
theorem headerToStr_asBytes {value : List Char} (h : ∀ c ∈ value, isFieldChar c = true) :
    headerToStr (asBytes value) = if WireHead.isAscii value then some value else none := by
  by_cases hascii : ∀ c ∈ value, c.toNat < 128
  · have hbytes := asBytes_ascii hascii
    have hbyte : ∀ c ∈ value, (UInt8.ofNat c.toNat).toNat = c.toNat := by
      intro c hc
      have hlt := hascii c hc
      rw [UInt8.toNat_ofNat']
      omega
    have hvisible : ∀ b ∈ asBytes value, (b == 9 || (32 ≤ b && b < 127)) = true := by
      intro b hb
      rw [hbytes] at hb
      obtain ⟨c, hc, rfl⟩ := List.mem_map.mp hb
      have hfield := h c hc
      have hlt := hascii c hc
      have hnat := hbyte c hc
      simp only [isFieldChar, Bool.or_eq_true, beq_iff_eq, Bool.and_eq_true, decide_eq_true_eq,
        bne_iff_ne] at hfield
      simp only [Bool.or_eq_true, beq_iff_eq, Bool.and_eq_true, decide_eq_true_eq,
        UInt8.le_iff_toNat_le, UInt8.lt_iff_toNat_lt, ← UInt8.toNat_inj, hnat]
      rcases hfield with rfl | hfield
      · exact .inl rfl
      · right
        show 32 ≤ c.toNat ∧ c.toNat < 127
        omega
    have hback : (asBytes value).map asciiChar = value := by
      rw [hbytes, List.map_map]
      conv_rhs => rw [← List.map_id value]
      refine List.map_congr_left fun c hc => Char.toNat_inj.mp ?_
      rw [Function.comp_apply, toNat_asciiChar, hbyte c hc]
      rfl
    have hall : WireHead.isAscii value = true := by simpa [WireHead.isAscii] using hascii
    rw [headerToStr, if_pos (List.all_eq_true.mpr hvisible), hback, if_pos hall]
  · have hall : ¬ WireHead.isAscii value = true := by simpa [WireHead.isAscii] using hascii
    rw [if_neg hall, headerToStr, if_neg]
    intro hvisible
    refine hascii fun c hc => ?_
    obtain ⟨b, hb⟩ := List.exists_mem_of_ne_nil (String.utf8EncodeChar c) (by
      have hpos : 1 ≤ (String.utf8EncodeChar c).length := by
        rw [String.length_utf8EncodeChar]
        exact c.utf8Size_pos
      exact List.ne_nil_of_length_pos hpos)
    have hbyte := List.all_eq_true.mp hvisible b (List.mem_flatMap.mpr ⟨c, hc, hb⟩)
    have hlt : b.toNat < 128 := by
      simp only [Bool.or_eq_true, beq_iff_eq, Bool.and_eq_true, decide_eq_true_eq,
        UInt8.lt_iff_toNat_lt, ← UInt8.toNat_inj] at hbyte
      rcases hbyte with hbyte | ⟨-, hbyte⟩
      · rw [hbyte]
        decide
      · exact hbyte.trans (by decide)
    rw [toNat_of_mem_utf8EncodeChar hb hlt]
    exact hlt

namespace WireHead

variable (w : WireHead) (body : Except Failure (List UInt8))

/-- The first header of a name. -/
theorem header_response (name : String) :
    (w.response body).header name = (w.values name).head?.map asBytes := by
  rw [Response.header, response, values]
  induction w.headers with
  | nil => rfl
  | cons h headers ih =>
    by_cases hkey : h.key = name
    · rw [fieldValues, List.filter_cons_of_pos (by simpa using hkey), List.map_cons,
        List.lookup_cons, hkey, beq_self_eq_true]
      rfl
    · rw [fieldValues, List.filter_cons_of_neg (by simpa using hkey), List.map_cons,
        List.lookup_cons, beq_false_of_ne (Ne.symm hkey)]
      exact ih

/-- The characters of a value. -/
theorem values_fieldChars {name : String} {value : List Char} (h : value ∈ w.values name) :
    (∀ c ∈ value, isFieldChar c = true) ∧
      (∀ c, value.head? = some c → isBlank c = false) ∧
      ∀ c, value.getLast? = some c → isBlank c = false := by
  obtain ⟨field, -, rfl⟩ := List.mem_map.mp h
  exact ⟨field.fieldChars, field.noBlankFirst, field.noBlankLast⟩

/-- The first header of a name as text: only in ASCII. -/
theorem headerToStr_response (name : String) :
    ((w.response body).header name).bind headerToStr = (w.values name).head?.filter isAscii := by
  rw [header_response]
  cases hfirst : (w.values name).head? with
  | none => rfl
  | some value =>
    have hchars := (w.values_fieldChars (List.mem_of_mem_head? hfirst)).1
    rw [Option.map_some, Option.bind_some, headerToStr_asBytes hchars, Option.filter_some]

end WireHead

/-! ## Transfer encodings -/

/-- The characters of the name of the coding. -/
theorem of_mem_chunked {c : Char} (h : c.toLower ∈ "chunked".toList) :
    c.toNat < 128 ∧ isWhitespace c = false ∧ c ≠ ',' := by
  have hlower : 97 ≤ c.toLower.toNat ∧ c.toLower.toNat ≤ 122 := by
    revert h
    generalize c.toLower = d
    intro h
    have hletters : ("chunked".toList.all fun d => 97 ≤ d.toNat && d.toNat ≤ 122) = true := by
      decide +kernel
    simpa using List.all_eq_true.mp hletters d h
  have hrange : 65 ≤ c.toNat ∧ c.toNat ≤ 122 := by
    rw [toNat_toLower] at hlower
    split at hlower <;> omega
  refine ⟨by omega, ?_, ?_⟩
  · simp only [isWhitespace, Bool.or_eq_false_iff, Bool.and_eq_false_iff, decide_eq_false_iff_not,
      beq_eq_false_iff_ne]
    omega
  · rintro rfl
    exact absurd hrange.1 (by decide)

/-- A value that is just the coding. -/
theorem of_isChunked {value : List Char} (h : WireHead.isChunked value = true) :
    WireHead.isAscii value = true ∧ trim value = value ∧ lastCoding value = value := by
  have hmap : value.map Char.toLower = "chunked".toList := by
    rw [WireHead.isChunked, eqIgnoreAsciiCase, beq_iff_eq] at h
    exact h
  have hchars : ∀ c ∈ value, c.toNat < 128 ∧ isWhitespace c = false ∧ c ≠ ',' := fun c hc =>
    of_mem_chunked (hmap ▸ List.mem_map_of_mem hc)
  have htrim : trim value = value := trim_eq_self fun c hc => (hchars c hc).2.1
  refine ⟨?_, htrim, ?_⟩
  · simpa [WireHead.isAscii] using fun c hc => (hchars c hc).1
  · have hcomma : ',' ∉ value.reverse := fun hc =>
      (hchars _ (List.mem_reverse.mp hc)).2.2 rfl
    rw [lastCoding, rsplitOnce, cut_eq_none_iff.mpr hcomma]
    exact htrim

/-- The blocking client finds the coding where it is just that. -/
theorem isAscii_and_isChunked {value : List Char}
    (hfield : ∀ c ∈ value, isFieldChar c = true)
    (hfirst : ∀ c, value.head? = some c → isBlank c = false)
    (hlast : ∀ c, value.getLast? = some c → isBlank c = false) :
    (WireHead.isAscii value && WireHead.isChunked (trim value)) = WireHead.isChunked value := by
  rw [Bool.eq_iff_iff, Bool.and_eq_true]
  constructor
  · rintro ⟨hascii, hchunked⟩
    have hspace : ∀ c ∈ value, isBlank c = false → isWhitespace c = false := by
      intro c hc hblank
      have hlt : c.toNat < 128 := by
        simp only [WireHead.isAscii, List.all_eq_true, decide_eq_true_eq] at hascii
        exact hascii c hc
      have hchar := hfield c hc
      rw [isBlank, Bool.or_eq_false_iff, beq_eq_false_iff_ne, beq_eq_false_iff_ne] at hblank
      simp only [isFieldChar, Bool.or_eq_true, beq_iff_eq, hblank.2, false_or, Bool.and_eq_true,
        decide_eq_true_eq, bne_iff_ne] at hchar
      have hspace : c.toNat ≠ 32 := fun heq => hblank.1 (Char.toNat_inj.mp heq)
      simp only [isWhitespace, Bool.or_eq_false_iff, Bool.and_eq_false_iff,
        decide_eq_false_iff_not, beq_eq_false_iff_ne]
      omega
    have htrim : trim value = value := trim_of_ends
      (fun c hc => hspace c (List.mem_of_mem_head? hc) (hfirst c hc))
      (fun c hc => hspace c (List.mem_of_getLast? hc) (hlast c hc))
    rwa [htrim] at hchunked
  · intro h
    obtain ⟨hascii, htrim, -⟩ := of_isChunked h
    rw [htrim]
    exact ⟨hascii, h⟩

/-- The two clients agree on the coding where the last one is the only one. -/
theorem chunked_agree_iff {value : List Char}
    (hfield : ∀ c ∈ value, isFieldChar c = true)
    (hfirst : ∀ c, value.head? = some c → isBlank c = false)
    (hlast : ∀ c, value.getLast? = some c → isBlank c = false) :
    (WireHead.isAscii value && WireHead.isChunked (trim value)) =
        WireHead.isChunked (lastCoding (trim value)) ↔
      (WireHead.isChunked (lastCoding (trim value)) → WireHead.isChunked value) := by
  rw [isAscii_and_isChunked hfield hfirst hlast, Bool.eq_iff_iff]
  refine ⟨fun h => h.mpr, fun h => ⟨fun hchunked => ?_, h⟩⟩
  obtain ⟨-, htrim, hcoding⟩ := of_isChunked hchunked
  rwa [htrim, hcoding]

/-! ## What the clients make of a response -/

/-- The reader and the parser on a response. -/
theorem WireHead.exchanged_eq (w : WireHead) (rest : List UInt8)
    (body : Except Failure (List UInt8)) :
    w.exchanged rest body = if w.Fits then .head w.head body else .closed := by
  rw [exchanged, w.readHead_raw]
  by_cases hfits : w.Fits
  · rw [if_pos hfits, if_pos hfits]
    simp only [w.parseHead_raw]
  · rw [if_neg hfits, if_neg hfits]

section

variable [SerdeJson] (w : WireHead)

/-- The blocking client accepts what is no error. -/
theorem readStream_accepted (body : Except Failure (List UInt8)) (h : w.status < 400) :
    LagerBox.readStream (.ok (w.response body)) =
      .answered ⟨((w.values "transfer-encoding").head?.filter WireHead.isAscii).any fun v =>
        WireHead.isChunked (trim v), none⟩ := by
  have hstatus : ¬ 400 ≤ (w.response body).status := not_le.mpr h
  rw [LagerBox.readStream]
  simp only [if_neg hstatus]
  rw [w.headerToStr_response]
  rfl

/-- The blocking client reports a denial that names an auth server in ASCII, and otherwise a
refusal. -/
theorem readStream_refused (body : Except Failure (List UInt8)) (h : 400 ≤ w.status) :
    match (if isDenial w.status then (w.values discoveryHeader).head?.filter WireHead.isAscii
      else none) with
    | some url => LagerBox.readStream (.ok (w.response body)) =
        .denied w.status (String.ofList url)
    | none => ∃ err, LagerBox.readStream (.ok (w.response body)) = .failed err := by
  have hstatus : 400 ≤ (w.response body).status := h
  have hdenial : gatewayDenial (w.response body) =
      (if isDenial w.status then (w.values discoveryHeader).head?.filter WireHead.isAscii
        else none).map String.ofList := by
    rw [gatewayDenial, w.headerToStr_response]
    show (if isDenial w.status then _ else _) = _
    split_ifs <;> rfl
  rw [LagerBox.readStream]
  simp only [if_pos hstatus, hdenial]
  cases (if isDenial w.status then (w.values discoveryHeader).head?.filter WireHead.isAscii
    else none) with
  | none => exact ⟨_, rfl⟩
  | some url => rfl

/-- The async client accepts status 200. -/
theorem readStream_async_accepted (host : String) (port : ℕ) (body : Except Failure (List UInt8))
    (h : w.status = 200) :
    ∃ length, AsyncLagerBox.readStream host port (.head w.head body) =
      .answered ⟨w.head.chunked, length⟩ := by
  rw [AsyncLagerBox.readStream]
  simp only [show w.head.status = 200 from h, if_true]
  exact ⟨_, rfl⟩

/-- The async client reports a denial that names an auth server, and otherwise a refusal. -/
theorem readStream_async_refused (host : String) (port : ℕ) (body : Except Failure (List UInt8))
    (h : w.status ≠ 200) :
    match (if isDenial w.status then (w.values discoveryHeader).getLast? else none) with
    | some url => AsyncLagerBox.readStream host port (.head w.head body) =
        .denied w.status (String.ofList (trim url))
    | none => ∃ err, AsyncLagerBox.readStream host port (.head w.head body) = .failed err := by
  have hdenial : w.head.denial =
      (if isDenial w.status then (w.values discoveryHeader).getLast? else none).map fun v =>
        String.ofList (trim v) := by
    rw [Head.denial]
    show (if isDenial w.status then _ else _) = _
    split_ifs <;> rfl
  have hstatus : ¬ w.head.status = 200 := h
  rw [AsyncLagerBox.readStream]
  simp only [if_neg hstatus, hdenial]
  cases (if isDenial w.status then (w.values discoveryHeader).getLast? else none) with
  | none =>
    simp only [parseDebug, if_neg hstatus, Option.map_none]
    exact ⟨_, rfl⟩
  | some url => rfl

/-! ## The comparison -/

/-- The two clients on a response that is no error. -/
theorem accepted_agree_iff (hw : w.Plain) (h : w.status < 400) (host : String) (port : ℕ)
    (rest : List UInt8) (body body' : Except Failure (List UInt8)) :
    Agrees (LagerBox.readStream (.ok (w.response body)))
        (AsyncLagerBox.readStream host port (w.exchanged rest body')) ↔
      w.status = 200 ∧ w.Fits ∧ ∀ value ∈ w.values "transfer-encoding",
        WireHead.isChunked (lastCoding (trim value)) → WireHead.isChunked value := by
  rw [readStream_accepted w body h, w.exchanged_eq]
  by_cases hfits : w.Fits
  · rw [if_pos hfits]
    by_cases hstatus : w.status = 200
    · obtain ⟨length, haccepted⟩ := readStream_async_accepted w host port body' hstatus
      rw [haccepted]
      simp only [Agrees, hstatus, hfits, true_and]
      show _ = ((w.values "transfer-encoding").getLast?.map fun v =>
        WireHead.isChunked (lastCoding (trim v))).getD false ↔ _
      have hfield := fun value => @WireHead.values_fieldChars w "transfer-encoding" value
      have hcoding := hw.coding
      revert hfield hcoding
      rcases w.values "transfer-encoding" with _ | ⟨value, _ | ⟨_, _⟩⟩
      · intro _ _
        exact iff_of_true rfl fun value hvalue => absurd hvalue List.not_mem_nil
      · intro hfield _
        obtain ⟨hchars, hfirst, hlast⟩ := hfield value List.mem_cons_self
        have hagree := chunked_agree_iff hchars hfirst hlast
        rw [List.forall_mem_singleton, ← hagree]
        cases hascii : WireHead.isAscii value <;> simp [hascii]
      · intro _ hcoding
        exact absurd hcoding (by simp)
    · have hrefused := readStream_async_refused w host port body' hstatus
      have hdenial : isDenial w.status = false := by
        simp only [isDenial, Bool.or_eq_false_iff, beq_eq_false_iff_ne]
        omega
      rw [hdenial, if_neg Bool.false_ne_true] at hrefused
      obtain ⟨err, hrefused⟩ := hrefused
      rw [hrefused]
      simp only [Agrees, hstatus, false_and]
  · rw [if_neg hfits]
    simp only [AsyncLagerBox.readStream, Agrees, hfits, false_and, and_false]

/-- The two clients on a denial that names an auth server. -/
theorem denied_agree_iff (h : 400 ≤ w.status) (hdenial : isDenial w.status = true)
    {first last : List Char} (hfirst : (w.values discoveryHeader).head? = some first)
    (hlast : (w.values discoveryHeader).getLast? = some last) (host : String) (port : ℕ)
    (rest : List UInt8) (body body' : Except Failure (List UInt8)) :
    Agrees (LagerBox.readStream (.ok (w.response body)))
        (AsyncLagerBox.readStream host port (w.exchanged rest body')) ↔
      if w.Fits then WireHead.isAscii first ∧ trim last = first
      else WireHead.isAscii first = false := by
  have hblocking := readStream_refused w body h
  have hasync := readStream_async_refused w host port body' (by omega)
  rw [hdenial, if_pos rfl, hfirst, Option.filter_some] at hblocking
  rw [hdenial, if_pos rfl, hlast] at hasync
  rw [w.exchanged_eq]
  cases hascii : WireHead.isAscii first with
  | false =>
    rw [hascii] at hblocking
    obtain ⟨err, hblocking⟩ := hblocking
    rw [hblocking]
    by_cases hfits : w.Fits
    · rw [if_pos hfits, if_pos hfits, hasync]
      exact iff_of_false id fun h => absurd h.1 Bool.false_ne_true
    · rw [if_neg hfits, if_neg hfits]
      exact iff_of_true trivial rfl
  | true =>
    rw [hascii] at hblocking
    rw [hblocking]
    by_cases hfits : w.Fits
    · rw [if_pos hfits, if_pos hfits, hasync]
      simp only [Agrees, true_and]
      rw [← String.toList_inj, String.toList_ofList, String.toList_ofList]
      exact eq_comm
    · rw [if_neg hfits, if_neg hfits]
      exact iff_of_false id (by simp)

/-- The two clients on an error that names no auth server for a denial. -/
theorem refused_agree (h : 400 ≤ w.status)
    (hnone : isDenial w.status = true → w.values discoveryHeader = []) (host : String) (port : ℕ)
    (rest : List UInt8) (body body' : Except Failure (List UInt8)) :
    Agrees (LagerBox.readStream (.ok (w.response body)))
      (AsyncLagerBox.readStream host port (w.exchanged rest body')) := by
  have hblocking := readStream_refused w body h
  have hasync := readStream_async_refused w host port body' (by omega)
  have hfirst : (if isDenial w.status then (w.values discoveryHeader).head?.filter WireHead.isAscii
      else none) = none := by
    split_ifs with hdenial
    · rw [hnone hdenial]
      rfl
    · rfl
  have hlast : (if isDenial w.status then (w.values discoveryHeader).getLast? else none) =
      none := by
    split_ifs with hdenial
    · rw [hnone hdenial]
      rfl
    · rfl
  rw [hfirst] at hblocking
  rw [hlast] at hasync
  obtain ⟨err, hblocking⟩ := hblocking
  obtain ⟨err', hasync⟩ := hasync
  rw [hblocking, w.exchanged_eq]
  split_ifs
  · rw [hasync]
    trivial
  · trivial

/-- The attempts of the two clients, where both get a response. -/
theorem eval_streamAttempt (client : Client) (req : HttpRequest) (token : Option String)
    (hhttp : "http://".toList <+: client.debugBase.toList)
    (hport : (hostPort client.debugBase).toOption.isSome)
    {answers : (op : Op) → op.Ans} (hanswers : w.Answers answers) :
    ∃ host port rest body body',
      (LagerBox.streamAttempt client req token).eval answers =
        LagerBox.readStream (.ok (w.response body)) ∧
      (AsyncLagerBox.streamAttempt client req token).eval answers =
        AsyncLagerBox.readStream host port (w.exchanged rest body') := by
  obtain ⟨⟨body, hrequest⟩, rest, body', hexchange⟩ := hanswers
  cases hhost : hostPort client.debugBase with
  | error err =>
    rw [hhost] at hport
    cases hport
  | ok hp =>
    refine ⟨hp.1, hp.2, rest, body, body', ?_, ?_⟩
    · rw [← hrequest]
      rfl
    · rw [AsyncLagerBox.streamAttempt, if_pos hhttp, hhost]
      exact congrArg (AsyncLagerBox.readStream hp.1 hp.2) (hexchange _)

/-- **Opening an RTT stream.** On a response under an HTTP/1.0 status line, the two clients come to
the same if and only if it is one of those described by `WireHead.Alike`: what the blocking client
accepts has status 200, a head that is not too long, and a transfer encoding that does not end in
`chunked` without being just that; and a denial names one auth server, in ASCII, or none.

**Proof sketch.** The parser takes the last header of a name and trims it, the HTTP library reports
the first one. Below 400 the blocking client accepts, from 400 on both look for a denial. -/
theorem openings_agree_iff (client : Client) (req : HttpRequest) (token : Option String)
    (hhttp : "http://".toList <+: client.debugBase.toList)
    (hport : (hostPort client.debugBase).toOption.isSome) (hw : w.Plain)
    {answers : (op : Op) → op.Ans} (hanswers : w.Answers answers) :
    Agrees ((LagerBox.streamAttempt client req token).eval answers)
        ((AsyncLagerBox.streamAttempt client req token).eval answers) ↔ w.Alike := by
  obtain ⟨host, port, rest, body, body', hblocking, hasync⟩ :=
    eval_streamAttempt w client req token hhttp hport hanswers
  rw [hblocking, hasync]
  by_cases hstatus : w.status < 400
  · rw [accepted_agree_iff w hw hstatus]
    have hdenial : ¬ isDenial w.status := by
      simp only [isDenial, Bool.or_eq_true, beq_iff_eq]
      omega
    exact ⟨fun h => ⟨fun _ => h, fun h => absurd h hdenial⟩, fun h => h.accepted hstatus⟩
  · have herror := not_lt.mp hstatus
    by_cases hnamed : isDenial w.status = true ∧ w.values discoveryHeader ≠ []
    · obtain ⟨hdenial, hne⟩ := hnamed
      have hfirst := List.head?_eq_some_head hne
      have hlast := List.getLast?_eq_some_getLast hne
      rw [denied_agree_iff w herror hdenial hfirst hlast]
      refine ⟨fun h => ⟨fun h => absurd h hstatus, fun _ first last hfirst' hlast' => ?_⟩,
        fun h => h.denied hdenial _ _ hfirst hlast⟩
      rw [Option.some.inj (hfirst'.symm.trans hfirst), Option.some.inj (hlast'.symm.trans hlast)]
      exact h
    · have hnone : isDenial w.status = true → w.values discoveryHeader = [] := fun hdenial =>
        not_not.mp fun hne => hnamed ⟨hdenial, hne⟩
      refine iff_of_true (refused_agree w herror hnone host port rest body body')
        ⟨fun h => absurd h hstatus, fun hdenial first last hfirst => ?_⟩
      rw [hnone hdenial] at hfirst
      cases hfirst

end

/-- Surroundings in which the box answers everything with a response. -/
def WireHead.environment (w : WireHead) : (op : Op) → op.Ans
  | .loadStore => Value.null
  | .saveStore _ => ()
  | .nowEpoch => (0 : ℚ)
  | .refresh _ _ => .error ⟨false, ""⟩
  | .request _ => .ok (w.response (.ok []))
  | .exchange _ => w.exchanged [] (.ok [])

/-- A client of a plain box. -/
abbrev plainBox : Client := ⟨"http://box:9000", "http://box:8765", 30, ⟨"box", none⟩⟩

/-- The request for an RTT stream. -/
abbrev rttRequest : HttpRequest := ⟨.post, "/debug/rtt", none, .unbounded⟩

/-- The head of a stream in chunks. -/
abbrev chunkedHead : WireHead where
  status := 200
  reason := some ['O', 'K']
  headers := [{
    name := "Transfer-Encoding".toList
    before := [' ']
    value := "Chunked".toList
    after := []
    nameChars := List.all_eq_true.mp (by decide +kernel)
    blankBefore := List.all_eq_true.mp (by decide)
    fieldChars := List.all_eq_true.mp (by decide +kernel)
    noBlankFirst := by
      intro c hc
      rw [show "Chunked".toList.head? = some 'C' by decide +kernel] at hc
      cases hc
      decide
    noBlankLast := by
      intro c hc
      rw [show "Chunked".toList.getLast? = some 'd' by decide +kernel] at hc
      cases hc
      decide
    blankAfter := List.forall_mem_nil _ }]
  statusRange := by decide
  reasonChars := by simp [isFieldChar]

/-- Both clients decode a stream in chunks. -/
theorem openings_agree_chunked :
    Agrees ((@LagerBox.streamAttempt (SerdeJson.only [] .null) plainBox rttRequest none).eval
        chunkedHead.environment)
      ((@AsyncLagerBox.streamAttempt (SerdeJson.only [] .null) plainBox rttRequest none).eval
        chunkedHead.environment) := by
  refine (@openings_agree_iff (SerdeJson.only [] .null) chunkedHead plainBox rttRequest none
    (by decide +kernel) (by decide +kernel) ⟨by decide, by decide +kernel, by decide +kernel⟩ _
    ⟨⟨_, fun _ => rfl⟩, _, _, fun _ => rfl⟩).mpr ⟨fun _ => ⟨rfl, ?_, ?_⟩, fun h => ?_⟩
  · decide +kernel
  · decide +kernel
  · exact absurd h (by decide)

/-- A response without a body. -/
abbrev noContent : WireHead where
  status := 204
  reason := none
  headers := []
  statusRange := by decide
  reasonChars := by simp

/-- On status 204 the blocking client opens a stream, and the async one reports a refusal. -/
theorem openings_disagree_noContent : noContent.Plain ∧
    ¬ Agrees ((@LagerBox.streamAttempt (SerdeJson.only [] .null) plainBox rttRequest none).eval
        noContent.environment)
      ((@AsyncLagerBox.streamAttempt (SerdeJson.only [] .null) plainBox rttRequest none).eval
        noContent.environment) := by
  refine ⟨⟨by decide, by decide +kernel, rfl⟩, fun h => ?_⟩
  obtain ⟨host, port, rest, body, body', hblocking, hasync⟩ :=
    @eval_streamAttempt (SerdeJson.only [] .null) noContent plainBox rttRequest none
      (by decide +kernel) (by decide +kernel) noContent.environment
      ⟨⟨_, fun _ => rfl⟩, _, _, fun _ => rfl⟩
  rw [hblocking, hasync] at h
  have hplain : noContent.Plain := ⟨by decide, by decide +kernel, rfl⟩
  have hstatus := ((@accepted_agree_iff (SerdeJson.only [] .null) noContent hplain (by decide)
    host port rest body body').mp h).1
  exact absurd hstatus (by decide)

end Lager
