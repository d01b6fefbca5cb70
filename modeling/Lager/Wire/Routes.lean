import Lager.Client.Interface
import Lager.Wire.Multipart
import Lager.Wire.NetRecord
import Mathlib.Data.List.TakeWhile

set_option relaxedAutoImplicit false
set_option autoImplicit false

/-!
# Names in paths

The requests whose path has a name in it that the caller gives. All of them escape the name, but
for the one that sets the safety limits of a net.

## Main definitions

* `Lager.pathSegment` — a name as one segment of a path.
* `Lager.NameRoute`, `Lager.NameRoute.path` — the requests, and their paths.
* `Lager.segments`, `Lager.percentDecode` — how a path is read.
* `Lager.Routed` — a name does not change the route of a request.

## Main results

* `Lager.percentDecode_pathSegment` — an escaped name decodes to its bytes.
* `Lager.routed_iff` — which names do not change the route of a request.

## Implementation notes

A path is read as the text the client hands over: what stands in front of the first question mark,
cut at slashes. What a URL library makes of that text before it goes out is not part of it: a `#`
stays in its segment here, and so does a segment of one or two dots, although a library may cut the
one off and take the other away.
-/

namespace Lager

/-! ## Escaping -/

/-- Whether a byte stands for itself: the unreserved characters. -/
def isUnreserved (b : UInt8) : Bool :=
  (65 ≤ b && b ≤ 90) || (97 ≤ b && b ≤ 122) || (48 ≤ b && b ≤ 57) ||
    b == 45 || b == 46 || b == 95 || b == 126

/-- A hexadecimal digit in upper case. -/
def hexDigit (n : ℕ) : Char := Char.ofNat (if n < 10 then 48 + n else 55 + n)

/-- A byte in a path. -/
def escapeByte (b : UInt8) : List Char :=
  if isUnreserved b then [asciiChar b]
  else ['%', hexDigit (b.toNat / 16), hexDigit (b.toNat % 16)]

/-- A text in a path. -/
def escape (s : String) : String := String.ofList ((utf8 s).flatMap escapeByte)

/-- `path_segment`. -/
def pathSegment (raw : String) : String := escape raw

/-- Whether a byte stands for itself in a query. -/
def isBareInQuery (b : UInt8) : Bool :=
  (65 ≤ b && b ≤ 90) || (97 ≤ b && b ≤ 122) || (48 ≤ b && b ≤ 57) ||
    b == 45 || b == 95 || b == 46 || b == 126

/-- `encode_query_value`. -/
def encodeQueryValue (s : String) : String :=
  String.ofList ((utf8 s).flatMap fun b =>
    if isBareInQuery b then [asciiChar b]
    else ['%', hexDigit (b.toNat / 16), hexDigit (b.toNat % 16)])

/-! ## The requests -/

section

variable [SerdeJson]

/-- Seconds. -/
def secs (n : ℕ) : ℕ := n * 10 ^ 9

/-- `get`: a request without a body. -/
def get (path : String) : HttpRequest := ⟨.get, path, none, .default⟩

/-- `safety_limits_set`. -/
def safetyLimitsSet (name : String) (limits : SafetyLimits) : HttpRequest :=
  ⟨.put, "/nets/" ++ name ++ "/safety-limits", some limits.toValue, .default⟩

/-- `release_uart_session`. -/
def releaseUartSession (netname : String) : HttpRequest :=
  ⟨.delete, "/uart/sessions/" ++ pathSegment netname, none, .default⟩

/-- The request of `Socket::open` for a stream ticket. -/
def streamTicket (name : String) : HttpRequest := get ("/scope/" ++ pathSegment name ++ "/stream")

/-- `RawBody::json`. -/
def jsonBody (value : Value) : String × List UInt8 :=
  ("application/json", utf8 (SerdeJson.toText value))

/-- `req`. -/
def req (method : Method) (path : String) (body : Option Value) : RawRequest :=
  ⟨method, path, body.map jsonBody, .after (secs 30)⟩

/-- `upload`. -/
def upload (method : Method) (path : String) (body : String × List UInt8) (timeout : ℕ) :
    RawRequest :=
  ⟨method, path, some body, .after timeout⟩

/-- `PIP_BUDGET`. -/
def pipBudget : ℕ := secs 360

/-- `rename_net`. -/
def renameNet (oldName : String) (record : NetRecord) : RawRequest :=
  req .put ("/nets/" ++ pathSegment oldName) (some (recordBody record))

/-- `save_net`. -/
def saveNet (record : NetRecord) : RawRequest := renameNet record.name record

/-- `delete_net`. -/
def deleteNet (name : String) (role : Option String) : RawRequest :=
  let query := match role with
    | some role => "?role=" ++ encodeQueryValue role
    | none => ""
  req .delete ("/nets/" ++ pathSegment name ++ query) none

/-- `net_metadata`. -/
def netMetadata (name : String) : RawRequest :=
  req .get ("/nets/" ++ pathSegment name ++ "/metadata") none

/-- `NetMetadataUpdate`. -/
structure NetMetadataUpdate where
  fields : Map
  timestamps : Map

/-- `NetMetadataUpdate::body`. -/
def NetMetadataUpdate.body (update : NetMetadataUpdate) : Value :=
  let body := Map.insert "fields" (.object update.fields) []
  .object (if update.timestamps.isEmpty then body
    else Map.insert "timestamps" (.object update.timestamps) body)

/-- `set_net_metadata`. -/
def setNetMetadata (name : String) (update : NetMetadataUpdate) : RawRequest :=
  req .put ("/nets/" ++ pathSegment name ++ "/metadata") (some update.body)

/-- `driver`. -/
def driver (driverType : String) : RawRequest :=
  req .get ("/drivers/" ++ pathSegment driverType) none

/-- `install_driver`. -/
def installDriver (driverType : String) (bundle : List UInt8) : Option RawRequest :=
  (multipart [⟨"bundle", some (driverType ++ ".zip"), some "application/zip", bundle⟩]).map
    fun body => upload .put ("/drivers/" ++ pathSegment driverType) body pipBudget

/-- `reinstall_driver_deps`. -/
def reinstallDriverDeps (driverType : String) : RawRequest :=
  ⟨.post, "/drivers/" ++ pathSegment driverType ++ "/deps", none, .after pipBudget⟩

/-- `remove_driver`. -/
def removeDriver (driverType : String) (force : Bool) : RawRequest :=
  req .delete ("/drivers/" ++ pathSegment driverType ++ if force then "?force=1" else "") none

end

/-- The requests whose path has a name in it, but for the name. -/
inductive NameRoute
  | setSafetyLimits (limits : SafetyLimits)
  | releaseUartSession
  | saveNet (record : NetRecord)
  | renameNet (record : NetRecord)
  | deleteNet (role : Option String)
  | netMetadata
  | setNetMetadata (update : NetMetadataUpdate)
  | driver
  | installDriver (bundle : List UInt8)
  | reinstallDriverDeps
  | removeDriver (force : Bool)
  | streamTicket

namespace NameRoute

/-- The path of a request; `none` if the request is never built. -/
def path [SerdeJson] : NameRoute → String → Option String
  | setSafetyLimits limits, name => some (safetyLimitsSet name limits).path
  | releaseUartSession, name => some (Lager.releaseUartSession name).path
  | saveNet record, name => some (Lager.saveNet { record with name }).path
  | renameNet record, name => some (Lager.renameNet name record).path
  | deleteNet role, name => some (Lager.deleteNet name role).path
  | netMetadata, name => some (Lager.netMetadata name).path
  | setNetMetadata update, name => some (Lager.setNetMetadata name update).path
  | driver, name => some (Lager.driver name).path
  | installDriver bundle, name => (Lager.installDriver name bundle).map RawRequest.path
  | reinstallDriverDeps, name => some (Lager.reinstallDriverDeps name).path
  | removeDriver force, name => some (Lager.removeDriver name force).path
  | streamTicket, name => some (Lager.streamTicket name).path

/-- The segments of a route before the name and after it. -/
def fixed : NameRoute → List String × List String
  | setSafetyLimits _ => (["nets"], ["safety-limits"])
  | releaseUartSession => (["uart", "sessions"], [])
  | saveNet _ | renameNet _ | deleteNet _ => (["nets"], [])
  | netMetadata | setNetMetadata _ => (["nets"], ["metadata"])
  | driver | installDriver _ | removeDriver _ => (["drivers"], [])
  | reinstallDriverDeps => (["drivers"], ["deps"])
  | streamTicket => (["scope"], ["stream"])

/-- Whether the request puts the name into its path as it is. -/
def isRaw : NameRoute → Bool
  | setSafetyLimits _ => true
  | _ => false

end NameRoute

/-! ## Reading a path -/

/-- What stands in front of the query. A `#` is a character like any other. -/
def beforeQuery (path : List Char) : List Char := path.takeWhile (· ≠ '?')

/-- The segments of a path, the first of which is empty. -/
def segments (path : String) : List (List Char) := (beforeQuery path.toList).splitOn '/'

/-- The byte three characters escape. -/
def escaped? (c h l : Char) : Option UInt8 :=
  if c = '%' then
    (toDigit 16 h).bind fun high => (toDigit 16 l).map fun low => UInt8.ofNat (16 * high + low)
  else none

/-- The bytes of a segment. A percent sign without two digits behind it stands for itself. -/
def percentDecode : List Char → List UInt8
  | [] => []
  | [c] => String.utf8EncodeChar c
  | [c, d] => String.utf8EncodeChar c ++ String.utf8EncodeChar d
  | c :: h :: l :: rest =>
    match escaped? c h l with
    | some b => b :: percentDecode rest
    | none => String.utf8EncodeChar c ++ percentDecode (h :: l :: rest)

/-- Something in a text would be decoded: a percent sign with two hexadecimal digits behind it. -/
def HasEscape : List Char → Prop
  | c :: h :: l :: rest => (escaped? c h l).isSome ∨ HasEscape (h :: l :: rest)
  | _ => False

/-- A name does not change the route of a request: the path has the segments of the route with one
for the name, which decodes to the bytes of the name, and no other name makes the same path. -/
structure Routed [SerdeJson] (route : NameRoute) (name : String) : Prop where
  segments : ∀ path, route.path name = some path → ∃ segment,
    segments path =
      [] :: route.fixed.1.map String.toList ++ segment :: route.fixed.2.map String.toList ∧
    percentDecode segment = utf8 name
  distinct : ∀ other path path', other ≠ name → route.path name = some path →
    route.path other = some path' → path ≠ path'

/-- A name that can stand in a path as it is. -/
structure Clean (name : String) : Prop where
  slash : '/' ∉ name.toList
  query : '?' ∉ name.toList
  escape : ¬ HasEscape name.toList

/-! ## Escaped names -/

/-- A hexadecimal digit is one. -/
theorem toDigit_hexDigit {n : ℕ} (h : n < 16) : toDigit 16 (hexDigit n) = some n := by
  interval_cases n <;> rfl

/-- A character that is no percent sign stands for itself. -/
theorem percentDecode_cons {c : Char} (h : c ≠ '%') (rest : List Char) :
    percentDecode (c :: rest) = String.utf8EncodeChar c ++ percentDecode rest := by
  match rest with
  | [] => simp [percentDecode]
  | [d] => simp [percentDecode]
  | d :: e :: rest => rw [percentDecode, escaped?, if_neg h]

/-- An unreserved byte is ASCII. -/
theorem lt_of_isUnreserved {b : UInt8} (h : isUnreserved b = true) : b.toNat < 128 := by
  simp only [isUnreserved, Bool.or_eq_true, Bool.and_eq_true, decide_eq_true_eq, beq_iff_eq,
    UInt8.le_iff_toNat_le, ← UInt8.toNat_inj] at h
  simp only [UInt8.reduceToNat] at h
  omega

/-- The character of an unreserved byte is no reserved character. -/
theorem asciiChar_ne {b : UInt8} (h : isUnreserved b = true) {c : Char}
    (hc : isUnreserved (UInt8.ofNat c.toNat) = false) : asciiChar b ≠ c := by
  rintro rfl
  rw [toNat_asciiChar, UInt8.ofNat_toNat, h] at hc
  cases hc

/-- An escaped byte decodes to itself. -/
theorem percentDecode_escapeByte (b : UInt8) (rest : List Char) :
    percentDecode (escapeByte b ++ rest) = b :: percentDecode rest := by
  rw [escapeByte]
  by_cases h : isUnreserved b
  · rw [if_pos h, List.singleton_append, percentDecode_cons (asciiChar_ne h (by decide)),
      utf8EncodeChar_asciiChar (lt_of_isUnreserved h)]
    rfl
  · have hlt : b.toNat < 256 := b.toNat_lt
    rw [if_neg h]
    show percentDecode ('%' :: hexDigit _ :: hexDigit _ :: rest) = _
    rw [percentDecode, escaped?, if_pos rfl, toDigit_hexDigit (by omega),
      toDigit_hexDigit (by omega)]
    simp only [Option.bind_some, Option.map_some]
    rw [Nat.div_add_mod, UInt8.ofNat_toNat]

/-- **Escaped names.** An escaped name decodes to its bytes. -/
theorem percentDecode_pathSegment (name : String) :
    percentDecode (pathSegment name).toList = utf8 name := by
  rw [pathSegment, escape, String.toList_ofList]
  induction utf8 name with
  | nil => rfl
  | cons b bytes ih => rw [List.flatMap_cons, percentDecode_escapeByte, ih]

/-- An escaped byte is neither a slash nor a question mark. -/
theorem notMem_escapeByte (b : UInt8) : '/' ∉ escapeByte b ∧ '?' ∉ escapeByte b := by
  have hhex : ∀ n, n < 16 → hexDigit n ≠ '/' ∧ hexDigit n ≠ '?' := by
    intro n hn
    interval_cases n <;> decide
  have hlt : b.toNat < 256 := b.toNat_lt
  have hhigh := hhex (b.toNat / 16) (by omega)
  have hlow := hhex (b.toNat % 16) (by omega)
  unfold escapeByte
  split_ifs with h
  · simp only [List.mem_singleton]
    exact ⟨(asciiChar_ne h (by decide)).symm, (asciiChar_ne h (by decide)).symm⟩
  · simp only [List.mem_cons, List.not_mem_nil, or_false, not_or]
    exact ⟨⟨by decide, hhigh.1.symm, hlow.1.symm⟩, by decide, hhigh.2.symm, hlow.2.symm⟩

/-- There is no slash and no question mark in an escaped name. -/
theorem notMem_pathSegment (name : String) :
    '/' ∉ (pathSegment name).toList ∧ '?' ∉ (pathSegment name).toList := by
  rw [pathSegment, escape, String.toList_ofList]
  refine ⟨fun h => ?_, fun h => ?_⟩ <;> obtain ⟨b, -, hb⟩ := List.mem_flatMap.mp h
  · exact (notMem_escapeByte b).1 hb
  · exact (notMem_escapeByte b).2 hb

/-! ## Names as they are -/

/-- Decoding makes nothing longer, and leaves a text as it is if nothing in it is escaped. -/
theorem percentDecode_spec (s : List Char) :
    (percentDecode s).length ≤ (asBytes s).length ∧
      (percentDecode s = asBytes s ↔ ¬ HasEscape s) := by
  fun_induction percentDecode s with
  | case1 => simp [asBytes, HasEscape]
  | case2 c => simp [asBytes, HasEscape]
  | case3 c d => simp [asBytes, HasEscape]
  | case4 c h l rest b hb ih =>
    have hlength : (asBytes (c :: h :: l :: rest)).length =
        c.utf8Size + (h.utf8Size + (l.utf8Size + (asBytes rest).length)) := by
      rw [length_asBytes_cons, length_asBytes_cons, length_asBytes_cons]
    have hc := c.utf8Size_pos
    have hh := h.utf8Size_pos
    have hl := l.utf8Size_pos
    refine ⟨by rw [hlength, List.length_cons]; omega, ?_⟩
    refine iff_of_false (fun heq => ?_) (not_not.mpr (.inl (by simp [hb])))
    have hsame := congrArg List.length heq
    rw [hlength, List.length_cons] at hsame
    omega
  | case5 c h l rest hb ih =>
    rw [asBytes_cons, List.append_cancel_left_eq, ih.2, HasEscape, hb]
    refine ⟨?_, by simp⟩
    simp only [List.length_append]
    omega

/-- A text whose bytes are few enough to be those of a front of it is no longer than that. -/
theorem eq_nil_of_length_asBytes {front back : List Char}
    (h : (asBytes (front ++ back)).length ≤ (asBytes front).length) : back = [] := by
  cases back with
  | nil => rfl
  | cons c back =>
    have hpos := c.utf8Size_pos
    rw [asBytes_append, List.length_append, length_asBytes_cons] at h
    omega

/-! ## Paths -/

/-- The characters of a path with some segments. -/
def pathChars (before : List String) (segment : List Char) (after : List String) : List Char :=
  ['/'].intercalate ([] :: before.map String.toList ++ segment :: after.map String.toList)

/-- A character that is no slash and in no segment is not in a path. -/
theorem notMem_intercalate {c : Char} (hc : c ≠ '/') {ls : List (List Char)}
    (h : ∀ l ∈ ls, c ∉ l) : c ∉ ['/'].intercalate ls := by
  induction ls with
  | nil => simp
  | cons l ls ih =>
    obtain ⟨hl, hls⟩ := List.forall_mem_cons.mp h
    by_cases hempty : ls = []
    · rw [hempty, List.intercalate_singleton]
      exact hl
    · rw [List.intercalate_cons_of_ne_nil hempty]
      simp only [List.mem_append, List.mem_singleton, not_or]
      exact ⟨⟨hl, hc⟩, ih hls⟩

namespace NameRoute

/-- The name as the request has it in its path. -/
def text (route : NameRoute) (name : String) : List Char :=
  if route.isRaw then name.toList else (pathSegment name).toList

/-- The fixed segments have no slash and no question mark in them. -/
theorem notMem_fixed (route : NameRoute) :
    ∀ s ∈ route.fixed.1 ++ route.fixed.2, '/' ∉ s.toList ∧ '?' ∉ s.toList := by
  cases route <;> simp [fixed]

variable [SerdeJson]

/-- The paths of the requests: their segments, and possibly a query. -/
theorem path_eq {route : NameRoute} {name path : String} (h : route.path name = some path) :
    ∃ query : List Char,
      path.toList = pathChars route.fixed.1 (route.text name) route.fixed.2 ++ query ∧
      (query = [] ∨ ∃ rest, query = '?' :: rest ∧ route.isRaw = false) := by
  have hnone : ∀ {front : String} {before : List String} {segment : List Char}
      {after : List String}, front.toList = pathChars before segment after →
      ∃ query, front.toList = pathChars before segment after ++ query ∧
        (query = [] ∨ ∃ rest, query = '?' :: rest ∧ route.isRaw = false) :=
    fun heq => ⟨[], by rw [List.append_nil, heq], .inl rfl⟩
  cases route with
  | deleteNet role =>
    obtain rfl := Option.some.inj h
    cases role with
    | none =>
      refine ⟨[], ?_, .inl rfl⟩
      simp [Lager.deleteNet, req, pathChars, fixed, text, isRaw, List.intercalate]
    | some role =>
      refine ⟨'?' :: ("role=".toList ++ (encodeQueryValue role).toList), ?_, .inr ⟨_, rfl, rfl⟩⟩
      simp [Lager.deleteNet, req, pathChars, fixed, text, isRaw, List.intercalate]
  | removeDriver force =>
    obtain rfl := Option.some.inj h
    cases force with
    | false =>
      refine ⟨[], ?_, .inl rfl⟩
      simp [Lager.removeDriver, req, pathChars, fixed, text, isRaw, List.intercalate]
    | true =>
      refine ⟨'?' :: "force=1".toList, ?_, .inr ⟨_, rfl, rfl⟩⟩
      simp [Lager.removeDriver, req, pathChars, fixed, text, isRaw, List.intercalate]
  | installDriver bundle =>
    obtain ⟨request, hrequest, rfl⟩ := Option.map_eq_some_iff.mp h
    obtain ⟨body, -, rfl⟩ := Option.map_eq_some_iff.mp hrequest
    apply hnone
    simp [upload, pathChars, fixed, text, isRaw, List.intercalate]
  | setSafetyLimits limits =>
    obtain rfl := Option.some.inj h
    apply hnone
    simp [safetyLimitsSet, pathChars, fixed, text, isRaw, List.intercalate]
  | releaseUartSession =>
    obtain rfl := Option.some.inj h
    apply hnone
    simp [Lager.releaseUartSession, pathChars, fixed, text, isRaw, List.intercalate]
  | saveNet record | renameNet record | netMetadata | setNetMetadata update | driver =>
    obtain rfl := Option.some.inj h
    apply hnone
    simp [Lager.saveNet, Lager.renameNet, Lager.netMetadata, Lager.setNetMetadata, Lager.driver,
      req, pathChars, fixed, text, isRaw, List.intercalate]
  | reinstallDriverDeps =>
    obtain rfl := Option.some.inj h
    apply hnone
    simp [Lager.reinstallDriverDeps, pathChars, fixed, text, isRaw, List.intercalate]
  | streamTicket =>
    obtain rfl := Option.some.inj h
    apply hnone
    simp [Lager.streamTicket, get, pathChars, fixed, text, isRaw, List.intercalate]

/-- The segments of a path, if the name has no slash and no question mark where it stands in it. -/
theorem segments_eq {route : NameRoute} {name path : String} (h : route.path name = some path)
    (hslash : '/' ∉ route.text name) (hquery : '?' ∉ route.text name) :
    segments path = [] :: route.fixed.1.map String.toList ++
      route.text name :: route.fixed.2.map String.toList := by
  obtain ⟨query, hpath, hrest⟩ := path_eq h
  have hpieces : ∀ l ∈ [] :: route.fixed.1.map String.toList ++
      route.text name :: route.fixed.2.map String.toList, '/' ∉ l ∧ '?' ∉ l := by
    intro l hl
    have hfixed := route.notMem_fixed
    simp only [List.cons_append, List.mem_cons, List.mem_append, List.mem_map] at hl hfixed
    rcases hl with rfl | ⟨s, hs, rfl⟩ | rfl | ⟨s, hs, rfl⟩
    · simp
    · exact hfixed s (.inl hs)
    · exact ⟨hslash, hquery⟩
    · exact hfixed s (.inr hs)
  have hfront : '?' ∉ pathChars route.fixed.1 (route.text name) route.fixed.2 :=
    notMem_intercalate (by decide) fun l hl => (hpieces l hl).2
  have hbefore : beforeQuery path.toList =
      pathChars route.fixed.1 (route.text name) route.fixed.2 := by
    rw [beforeQuery, hpath, List.takeWhile_append_of_pos]
    · rcases hrest with rfl | ⟨rest, rfl, -⟩ <;> simp
    · intro c hc
      simpa using fun heq : c = '?' => hfront (heq ▸ hc)
  rw [segments, hbefore, pathChars]
  exact List.splitOn_intercalate _ (fun l hl => (hpieces l hl).1) (by simp)

end NameRoute

/-! ## Which names keep the route -/

/-- A name that stands in the path as it is keeps the route only if it is clean.

**Proof sketch.** What the path has in place of the name decodes to the bytes of the name, so it is
no shorter; as a front of the name it is the whole name. -/
theorem clean_of_segments {name : String} {limits : SafetyLimits} {segment : List Char}
    (h : segments (safetyLimitsSet name limits).path =
      [[], "nets".toList, segment, "safety-limits".toList])
    (hdecode : percentDecode segment = utf8 name) : Clean name := by
  have hpath : (safetyLimitsSet name limits).path.toList =
      '/' :: ("nets".toList ++ '/' :: (name.toList ++ '/' :: "safety-limits".toList)) := by
    simp [safetyLimitsSet]
  have hbefore : beforeQuery (safetyLimitsSet name limits).path.toList =
      '/' :: ("nets".toList ++ '/' :: (segment ++ '/' :: "safety-limits".toList)) := by
    have hjoin : ['/'].intercalate (segments (safetyLimitsSet name limits).path) =
        beforeQuery (safetyLimitsSet name limits).path.toList := List.intercalate_splitOn '/'
    rw [← hjoin, h]
    simp [List.intercalate]
  have hprefix : segment ++ '/' :: "safety-limits".toList <+:
      name.toList ++ '/' :: "safety-limits".toList := by
    have hfront := List.takeWhile_prefix (l := (safetyLimitsSet name limits).path.toList)
      (fun c => decide (c ≠ '?'))
    rw [show List.takeWhile _ _ = _ from hbefore, hpath, List.cons_prefix_cons,
      List.prefix_append_right_inj, List.cons_prefix_cons] at hfront
    exact hfront.2.2
  have hlength := hprefix.length_le
  rw [List.length_append, List.length_append, Nat.add_le_add_iff_right] at hlength
  obtain ⟨tail, htail⟩ := List.prefix_of_prefix_length_le
    ((List.prefix_append _ _).trans hprefix) (List.prefix_append _ _) hlength
  have hempty : tail = [] := by
    refine @eq_nil_of_length_asBytes segment tail ?_
    rw [htail, show asBytes name.toList = _ from hdecode.symm]
    exact (percentDecode_spec segment).1
  obtain rfl : segment = name.toList := by rw [← htail, hempty, List.append_nil]
  have hquery : ∀ c ∈ (safetyLimitsSet name limits).path.toList, c ≠ '?' := by
    have hall := List.takeWhile_eq_self_iff.mp (hbefore.trans hpath.symm)
    simpa using hall
  refine ⟨fun hslash => ?_, fun hmem => ?_, (percentDecode_spec _).2.mp hdecode⟩
  · -- A slash in the name would make more segments.
    have hsplit : (beforeQuery (safetyLimitsSet name limits).path.toList).splitOn '/' =
        [[]] ++ ("nets".toList.splitOn '/' ++
          (name.toList.splitOn '/' ++ "safety-limits".toList.splitOn '/')) := by
      rw [hbefore, ← List.nil_append ('/' :: _), List.splitOn_append_cons_self,
        List.splitOn_append_cons_self, List.splitOn_append_cons_self, List.splitOn_nil]
    have hcount := congrArg List.length (hsplit.symm.trans h)
    obtain ⟨a, b, hab⟩ := List.append_of_mem hslash
    rw [hab, List.splitOn_append_cons_self] at hcount
    have hpos : ∀ l : List Char, 1 ≤ (l.splitOn '/').length := fun l =>
      List.length_pos_iff.mpr (List.splitOn_ne_nil '/' l)
    have h₁ := hpos "nets".toList
    have h₂ := hpos a
    have h₃ := hpos b
    have h₄ := hpos "safety-limits".toList
    simp only [List.length_append, List.length_cons, List.length_nil] at hcount
    omega
  · exact hquery '?' (by rw [hpath]; simp [hmem]) rfl

section

variable [SerdeJson]

/-- Different names make different paths. -/
theorem path_distinct {route : NameRoute} {name other path path' : String} (hne : other ≠ name)
    (h : route.path name = some path) (h' : route.path other = some path') : path ≠ path' := by
  rintro rfl
  refine hne ?_
  by_cases hraw : route.isRaw
  · cases route with
    | setSafetyLimits limits =>
      have hsame := congrArg String.toList (Option.some.inj (h'.trans h.symm))
      have hpath : ∀ name, (safetyLimitsSet name limits).path.toList =
          "/nets/".toList ++ (name.toList ++ "/safety-limits".toList) := fun name => by
        simp [safetyLimitsSet]
      rw [hpath, hpath, List.append_cancel_left_eq, List.append_cancel_right_eq] at hsame
      exact String.toList_inj.mp hsame
    | _ => cases hraw
  · have htext : ∀ name, route.text name = (pathSegment name).toList := fun name => if_neg hraw
    have hname := NameRoute.segments_eq h (htext name ▸ (notMem_pathSegment name).1)
      (htext name ▸ (notMem_pathSegment name).2)
    have hother := NameRoute.segments_eq h' (htext other ▸ (notMem_pathSegment other).1)
      (htext other ▸ (notMem_pathSegment other).2)
    have hsegment := List.append_cancel_left (hname.symm.trans hother)
    rw [htext, htext] at hsegment
    have hbytes := congrArg percentDecode (List.cons.inj hsegment).1
    rw [percentDecode_pathSegment, percentDecode_pathSegment] at hbytes
    exact (String.toList_inj.mp (asBytes_injective hbytes)).symm

/-- **Names and routes.** A name does not change the route of a request that has it in its path,
unless the request is the one that sets safety limits and the name has a slash, a question mark or
something percent-encoded in it. -/
theorem routed_iff (route : NameRoute) (name : String) :
    Routed route name ↔ (route.isRaw = true → Clean name) := by
  constructor
  · intro h hraw
    cases route with
    | setSafetyLimits limits =>
      obtain ⟨segment, hsegments, hdecode⟩ := h.segments _ rfl
      exact clean_of_segments hsegments hdecode
    | _ => cases hraw
  · intro hclean
    refine ⟨fun path h => ⟨route.text name, ?_⟩, fun other path path' => path_distinct⟩
    by_cases hraw : route.isRaw
    · have htext : route.text name = name.toList := if_pos hraw
      obtain ⟨hslash, hquery, hescape⟩ := hclean hraw
      refine ⟨NameRoute.segments_eq h (htext ▸ hslash) (htext ▸ hquery), ?_⟩
      rw [htext]
      exact (percentDecode_spec _).2.mpr hescape
    · have htext : route.text name = (pathSegment name).toList := if_neg hraw
      refine ⟨NameRoute.segments_eq h (htext ▸ (notMem_pathSegment name).1)
        (htext ▸ (notMem_pathSegment name).2), ?_⟩
      rw [htext]
      exact percentDecode_pathSegment name

end

/-- A net whose name has a slash in it: its limits go to another route. -/
theorem safetyLimits_rerouted :
    ¬ @Routed (SerdeJson.only [] .null) (.setSafetyLimits ⟨some 5, none, none⟩) "rail/1" := by
  intro h
  obtain ⟨segment, hsegments, -⟩ := @Routed.segments (SerdeJson.only [] .null) _ _ h _ rfl
  have hlength := congrArg List.length hsegments
  have hcount : (segments (safetyLimitsSet "rail/1" ⟨some 5, none, none⟩).path).length = 5 := by
    decide +kernel
  rw [hcount] at hlength
  simp [NameRoute.fixed] at hlength

end Lager
