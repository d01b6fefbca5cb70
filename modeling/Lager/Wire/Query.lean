import Lager.Wire.Routes

set_option relaxedAutoImplicit false
set_option autoImplicit false

/-!
# Texts in paths and queries

There are two functions that escape a text for a path or a query. What they write has nothing in it
that has a meaning in either, and the request that asks for the devices of a box by some of their
fields puts its query together from such texts.

## Main definitions

* `Lager.UsbDeviceFilter`, `Lager.usbDevices` — the request.
* `Lager.Inert` — a text of unreserved characters and escaped bytes.
* `Lager.queryOf`, `Lager.parseQuery` — how a query is read.

## Main results

* `Lager.escape_reversible` — both functions write the same inert text, which decodes to the bytes
  of the original; the query of a request is read back as the fields that are set.
-/

namespace Lager

open Library

/-! ## The request -/

/-- `UsbDeviceFilter`. -/
structure UsbDeviceFilter where
  vid : Option String
  pid : Option String
  serial : Option String
  deriving DecidableEq, Repr

/-- The fields of a filter that are set, by their names. -/
def UsbDeviceFilter.fields (filter : UsbDeviceFilter) : List (String × String) :=
  [("vid", filter.vid), ("pid", filter.pid), ("serial", filter.serial)].filterMap fun field =>
    field.2.map fun value => (field.1, value)

/-- `usb_devices`. -/
def usbDevices (filter : UsbDeviceFilter) : HttpRequest :=
  let query := filter.fields.map fun field => field.1 ++ "=" ++ encodeQueryValue field.2
  get (if query.isEmpty then "/usb/devices" else "/usb/devices?" ++ "&".intercalate query)

/-! ## Reading a query -/

/-- What stands behind the first question mark of a path. -/
def queryOf (path : String) : Option (List Char) := (cut '?' path.toList).map Prod.snd

/-- The fields of a query: each stands between two ampersands, and has a name in front of the first
equals sign. -/
def parseQuery (query : List Char) : List (List UInt8 × List UInt8) :=
  (query.splitOn '&').map fun field =>
    match cut '=' field with
    | some (name, value) => (percentDecode name, percentDecode value)
    | none => (percentDecode field, [])

/-- A text consists of unreserved characters and of escaped bytes. -/
inductive Inert : List Char → Prop
  | nil : Inert []
  | bare {b : UInt8} {rest : List Char} (hb : isUnreserved b = true) (hrest : Inert rest) :
    Inert (asciiChar b :: rest)
  | escaped {high low : ℕ} {rest : List Char} (hhigh : high < 16) (hlow : low < 16)
    (hrest : Inert rest) : Inert ('%' :: hexDigit high :: hexDigit low :: rest)

/-! ## Escaped texts -/

/-- The two functions leave the same bytes as they are. -/
theorem isBareInQuery_eq (b : UInt8) : isBareInQuery b = isUnreserved b := by
  rw [isBareInQuery, isUnreserved, Bool.or_right_comm _ (b == 95) (b == 46)]

/-- The two functions write the same. -/
theorem encodeQueryValue_eq (s : String) : encodeQueryValue s = pathSegment s := by
  rw [encodeQueryValue, pathSegment, escape]
  congr 2
  funext b
  rw [isBareInQuery_eq]
  rfl

/-- An escaped text is inert. -/
theorem inert_flatMap (bytes : List UInt8) : Inert (bytes.flatMap escapeByte) := by
  induction bytes with
  | nil => exact .nil
  | cons b bytes ih =>
    rw [List.flatMap_cons, escapeByte]
    have hb : b.toNat < 256 := b.toNat_lt
    split_ifs with h
    · exact .bare h ih
    · exact .escaped (by omega) (by omega) ih

/-- Nothing in an inert text separates fields. -/
theorem Inert.notMem {s : List Char} (h : Inert s) : '&' ∉ s ∧ '=' ∉ s := by
  have hhex : ∀ n, n < 16 → hexDigit n ≠ '&' ∧ hexDigit n ≠ '=' := by
    intro n hn
    interval_cases n <;> decide
  induction h with
  | nil => simp
  | bare hb _ ih =>
    simp only [List.mem_cons, not_or]
    exact ⟨⟨(asciiChar_ne hb (by decide)).symm, ih.1⟩, (asciiChar_ne hb (by decide)).symm, ih.2⟩
  | escaped hhigh hlow _ ih =>
    simp only [List.mem_cons, not_or]
    exact ⟨⟨by decide, (hhex _ hhigh).1.symm, (hhex _ hlow).1.symm, ih.1⟩, by decide,
      (hhex _ hhigh).2.symm, (hhex _ hlow).2.symm, ih.2⟩

/-- A value in a query is inert, and decodes to its bytes. -/
theorem encodeQueryValue_spec (s : String) :
    Inert (encodeQueryValue s).toList ∧ percentDecode (encodeQueryValue s).toList = utf8 s := by
  rw [encodeQueryValue_eq]
  refine ⟨?_, percentDecode_pathSegment s⟩
  rw [pathSegment, escape, String.toList_ofList]
  exact inert_flatMap _

/-! ## Queries -/

/-- A field of a query: nothing in it separates fields, and its name ends at the first equals
sign. -/
theorem field_spec {name : String} (hname : Inert name.toList)
    (hdecode : percentDecode name.toList = utf8 name) (value : String) :
    '&' ∉ (name ++ "=" ++ encodeQueryValue value).toList ∧
      (match cut '=' (name ++ "=" ++ encodeQueryValue value).toList with
        | some (name, value) => (percentDecode name, percentDecode value)
        | none => (percentDecode (name ++ "=" ++ encodeQueryValue value).toList, [])) =
        (utf8 name, utf8 value) := by
  obtain ⟨hinert, hvalue⟩ := encodeQueryValue_spec value
  have htext : (name ++ "=" ++ encodeQueryValue value).toList =
      name.toList ++ '=' :: (encodeQueryValue value).toList := by
    rw [String.toList_append, String.toList_append, List.append_assoc]
    rfl
  rw [htext, cut_append_cons hname.notMem.2]
  refine ⟨fun hmem => ?_, by simp only [hdecode, hvalue]⟩
  rcases List.mem_append.mp hmem with hmem | hmem
  · exact hname.notMem.1 hmem
  · rcases List.mem_cons.mp hmem with hmem | hmem
    · cases hmem
    · exact hinert.notMem.1 hmem

/-- A query that is put together from fields is read as them. -/
theorem parseQuery_intercalate {fields : List (String × String)} (hne : fields ≠ [])
    (hnames : ∀ field ∈ fields, Inert field.1.toList ∧
      percentDecode field.1.toList = utf8 field.1) :
    parseQuery ("&".intercalate
        (fields.map fun field => field.1 ++ "=" ++ encodeQueryValue field.2)).toList =
      fields.map fun field => (utf8 field.1, utf8 field.2) := by
  rw [parseQuery, String.toList_intercalate, List.map_map]
  show List.map _ (List.splitOn '&' (['&'].intercalate _)) = _
  rw [List.splitOn_intercalate, List.map_map]
  · apply List.map_congr_left
    intro field hfield
    exact (field_spec (hnames field hfield).1 (hnames field hfield).2 field.2).2
  · intro text htext
    obtain ⟨field, hfield, rfl⟩ := List.mem_map.mp htext
    exact (field_spec (hnames field hfield).1 (hnames field hfield).2 field.2).1
  · simpa using hne

/-- The names of the fields are texts that need no escaping. -/
theorem UsbDeviceFilter.inert_name {filter : UsbDeviceFilter} {field : String × String}
    (h : field ∈ filter.fields) :
    Inert field.1.toList ∧ percentDecode field.1.toList = utf8 field.1 := by
  have hnames : field.1 ∈ ["vid", "pid", "serial"] := by
    obtain ⟨⟨name, value⟩, hmem, hfield⟩ := List.mem_filterMap.mp h
    obtain ⟨value, -, rfl⟩ := Option.map_eq_some_iff.mp hfield
    simp only [List.mem_cons, Prod.mk.injEq, List.not_mem_nil, or_false] at hmem ⊢
    tauto
  have hescape : ∀ name ∈ ["vid", "pid", "serial"], encodeQueryValue name = name := by
    decide +kernel
  have hname := encodeQueryValue_spec field.1
  rwa [hescape _ hnames] at hname

/-- **Escaping is reversible.** Both functions write the same inert text, which decodes to the bytes
of the original. The query of a request for devices is read back as the fields that are set, in
their order; there is none when no field is set. -/
theorem escape_reversible :
    (∀ s, pathSegment s = encodeQueryValue s ∧ Inert (pathSegment s).toList ∧
      percentDecode (pathSegment s).toList = utf8 s) ∧
    ∀ filter : UsbDeviceFilter,
      beforeQuery (usbDevices filter).path.toList = "/usb/devices".toList ∧
      (queryOf (usbDevices filter).path).map parseQuery =
        if filter.fields = [] then none
        else some (filter.fields.map fun field => (utf8 field.1, utf8 field.2)) := by
  refine ⟨fun s => ?_, fun filter => ?_⟩
  · have hspec := encodeQueryValue_spec s
    rw [encodeQueryValue_eq] at hspec
    exact ⟨(encodeQueryValue_eq s).symm, hspec⟩
  · by_cases hset : filter.fields = []
    · have hpath : (usbDevices filter).path = "/usb/devices" := by
        simp [usbDevices, get, hset]
      rw [hpath, if_pos hset]
      exact ⟨by decide, rfl⟩
    · obtain ⟨query, hquery⟩ : ∃ query, "&".intercalate
          (filter.fields.map fun field => field.1 ++ "=" ++ encodeQueryValue field.2) = query :=
        ⟨_, rfl⟩
      have hpath : (usbDevices filter).path.toList =
          "/usb/devices".toList ++ '?' :: query.toList := by
        have hfields : ¬ (filter.fields.map fun field =>
            field.1 ++ "=" ++ encodeQueryValue field.2).isEmpty = true := by
          simpa using hset
        simp only [usbDevices, get]
        rw [if_neg hfields, hquery, String.toList_append]
        rfl
      have hmark : '?' ∉ "/usb/devices".toList := by decide
      rw [queryOf, hpath, cut_append_cons hmark, if_neg hset]
      refine ⟨?_, ?_⟩
      · rw [beforeQuery, List.takeWhile_append_of_pos]
        · simp
        · intro c hc
          rw [decide_eq_true_eq]
          rintro rfl
          exact hmark hc
      · have hparse := parseQuery_intercalate hset fun field => UsbDeviceFilter.inert_name
        rw [hquery] at hparse
        exact congrArg some hparse

end Lager
