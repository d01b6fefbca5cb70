import Mathlib.Data.List.Basic
import Mathlib.Data.Rat.Defs
import Mathlib.Data.String.Basic

set_option relaxedAutoImplicit false
set_option autoImplicit false

/-!
# JSON values

The values of `serde_json` and the operations on them that the crate uses. An object is a
`BTreeMap`, here the list of its fields in the order of their keys. A number is its exact value.
The parser and the printer are not modelled: `SerdeJson` stands for them.

## Main definitions

* `Lager.Value`, `Lager.Map` — values and objects.
* `Lager.Map.insert`, `Lager.Map.update`, `Lager.Value.mapObject` — changing an object in place.
* `Lager.Map.Sorted` — the keys are in order.
* `Lager.Value.atPath`, `Lager.Value.modify` — the value under a path of keys, and changing it.
* `Lager.SerdeJson` — the parser and the printer.

## Main results

* `Lager.Map.lookup_insert` — what an object holds after an insertion.
* `Lager.Map.insert_insert`, `Lager.Map.insert_comm` — two insertions, of one key or of two.
* `Lager.Map.Sorted.ext` — objects with their keys in order are the same when they hold the same.
* `Lager.Value.atPath_modify`, `Lager.Value.atPath_modify_of_not` — what a value holds after a
  change.
-/

namespace Lager

/-- `serde_json::Value`. -/
inductive Value
  | null
  | bool (b : Bool)
  | number (n : ℚ)
  | string (s : String)
  | array (elements : List Value)
  | object (fields : List (String × Value))

/-- `serde_json::Map`: the fields of an object, in the order of their keys. -/
abbrev Map := List (String × Value)

/-- The parser and the printer. -/
class SerdeJson where
  /-- `serde_json::from_slice`, or the text of its error. -/
  fromSlice : List UInt8 → Except String Value
  /-- The text of the error `reqwest` makes of that error. -/
  reqwestText : String → String
  /-- `Value::to_string`. -/
  toText : Value → String
  /-- Whether `serde_json::from_value` makes a `Health` of a value, or the text of its error. -/
  health : Value → Except String Unit

/-- A parser that knows one text, and fails on every other. -/
@[reducible] def SerdeJson.only (text : List UInt8) (value : Value) : SerdeJson where
  fromSlice bytes := if bytes = text then .ok value else .error "expected value"
  reqwestText _ := "error decoding response body"
  toText _ := ""
  health _ := .error "missing field"

namespace Map

/-- `Map::insert`: set a field, in its place. -/
def insert (key : String) (value : Value) : Map → Map
  | [] => [(key, value)]
  | (k, v) :: rest =>
    if key = k then (key, value) :: rest
    else if key < k then (key, value) :: (k, v) :: rest
    else (k, v) :: insert key value rest

/-- `entry(key).or_insert_with(|| json!({}))`, and then a change of the entry in place. -/
def update (key : String) (f : Value → Value) (fields : Map) : Map :=
  insert key (f ((fields.lookup key).getD (.object []))) fields

/-- Looking a key up goes by the first field with that key. -/
theorem lookup_cons (key k : String) (value : Value) (fields : Map) :
    List.lookup k ((key, value) :: fields) = if k = key then some value else fields.lookup k := by
  rw [List.lookup_cons]
  by_cases h : k = key
  · rw [if_pos h, beq_iff_eq.mpr h]
  · rw [if_neg h, beq_eq_false_iff_ne.mpr h]

/-- After an insertion, an object holds the new value under its key and what it held before under
every other. -/
theorem lookup_insert (key k : String) (value : Value) (fields : Map) :
    (insert key value fields).lookup k = if k = key then some value else fields.lookup k := by
  induction fields with
  | nil => exact lookup_cons key k value []
  | cons field rest ih =>
    obtain ⟨k', v⟩ := field
    unfold insert
    by_cases heq : key = k'
    · rw [if_pos heq, lookup_cons, lookup_cons, heq]
      split_ifs <;> rfl
    · rw [if_neg heq]
      by_cases hlt : key < k'
      · rw [if_pos hlt, lookup_cons]
      · rw [if_neg hlt, lookup_cons, lookup_cons, ih]
        by_cases hk : k = key
        · rw [if_neg (hk ▸ heq), if_pos hk, if_pos hk]
        · rw [if_neg hk, if_neg hk]

/-- What is in an object after an insertion is the new field or was there. -/
theorem mem_of_mem_insert {key : String} {value : Value} {fields : Map} {field : String × Value}
    (h : field ∈ insert key value fields) : field = (key, value) ∨ field ∈ fields := by
  induction fields with
  | nil => exact .inl (List.mem_singleton.mp h)
  | cons first rest ih =>
    obtain ⟨k, v⟩ := first
    unfold insert at h
    split_ifs at h
    · exact (List.mem_cons.mp h).imp_right (List.mem_cons_of_mem _)
    · exact List.mem_cons.mp h
    · rcases List.mem_cons.mp h with rfl | h
      · exact .inr List.mem_cons_self
      · exact (ih h).imp_right (List.mem_cons_of_mem _)

/-- A field set twice has the second value. -/
@[simp] theorem insert_insert (key : String) (value value' : Value) (fields : Map) :
    insert key value (insert key value' fields) = insert key value fields := by
  induction fields with
  | nil => simp [insert]
  | cons field rest ih =>
    obtain ⟨k, v⟩ := field
    by_cases heq : key = k
    · simp [insert, heq]
    · by_cases hlt : key < k
      · simp [insert, heq, hlt]
      · simp [insert, heq, hlt, ih]

/-- Two fields may be set in either order. -/
theorem insert_comm {key key' : String} (h : key ≠ key') (value value' : Value) (fields : Map) :
    insert key value (insert key' value' fields) =
      insert key' value' (insert key value fields) := by
  wlog hlt : key < key' generalizing key key' value value'
  · exact (this h.symm value' value (lt_of_le_of_ne (not_lt.mp hlt) h.symm)).symm
  have hgt : ¬ key' < key := lt_asymm hlt
  induction fields with
  | nil => simp [insert, h, h.symm, hlt, hgt]
  | cons field rest ih =>
    obtain ⟨k, v⟩ := field
    by_cases heq : key = k
    · subst heq
      simp [insert, h.symm, hgt]
    · by_cases hk : key < k
      · by_cases heq' : key' = k
        · subst heq'
          simp [insert, h, hlt, h.symm, hgt]
        · by_cases hk' : key' < k
          · simp [insert, heq, heq', hk, hk', h, h.symm, hlt, hgt]
          · simp [insert, heq, heq', hk, hk', h.symm, hgt]
      · have heq' : key' ≠ k := fun heq' => hk (heq' ▸ hlt)
        have hk' : ¬ key' < k := fun hk' => hk (hlt.trans hk')
        simp [insert, heq, heq', hk, hk', ih]

/-- An updated field. -/
@[simp] theorem lookup_update_self (key : String) (f : Value → Value) (fields : Map) :
    (update key f fields).lookup key = some (f ((fields.lookup key).getD (.object []))) := by
  rw [update, lookup_insert, if_pos rfl]

/-- The fields that are not updated. -/
theorem lookup_update_ne {key k : String} (h : k ≠ key) (f : Value → Value) (fields : Map) :
    (update key f fields).lookup k = fields.lookup k := by
  rw [update, lookup_insert, if_neg h]

/-- A field updated twice is updated once, with the one change after the other. -/
theorem update_update (key : String) (f g : Value → Value) (fields : Map) :
    update key f (update key g fields) = update key (f ∘ g) fields := by
  rw [update, lookup_update_self, Option.getD_some, update, insert_insert]
  rfl

/-- `Map::remove`: drop a field. -/
def remove (key : String) (fields : Map) : Map := fields.filter fun field => field.1 ≠ key

/-- The fields that pass a test on their keys. -/
theorem lookup_filter (p : String → Bool) (k : String) (fields : Map) :
    (fields.filter fun field => p field.1).lookup k = if p k then fields.lookup k else none := by
  induction fields with
  | nil => split_ifs <;> rfl
  | cons field rest ih =>
    obtain ⟨key, value⟩ := field
    rw [List.filter_cons]
    by_cases hkey : p key
    · simp only [hkey, if_true, lookup_cons, ih]
      by_cases hk : k = key
      · rw [if_pos hk, if_pos hk, hk, if_pos hkey]
      · rw [if_neg hk, if_neg hk]
    · simp only [hkey, Bool.false_eq_true, if_false, lookup_cons, ih]
      by_cases hk : k = key
      · rw [hk, if_neg hkey, if_neg hkey]
      · rw [if_neg hk]

/-- Dropping a field leaves the others. -/
theorem lookup_remove (key k : String) (fields : Map) :
    (remove key fields).lookup k = if k = key then none else fields.lookup k := by
  have hfilter := lookup_filter (fun k => k ≠ key) k fields
  rw [remove, hfilter]
  by_cases hk : k = key <;> simp [hk]

/-! ## Objects with their keys in order -/

/-- The keys are in order, as those of a `BTreeMap` are. -/
def Sorted (fields : Map) : Prop := fields.Pairwise fun a b => a.1 < b.1

instance (fields : Map) : Decidable (Sorted fields) :=
  inferInstanceAs (Decidable (fields.Pairwise fun a b => a.1 < b.1))

/-- The keys of an empty object are in order. -/
theorem sorted_nil : Sorted [] := List.Pairwise.nil

/-- Whether an object is in order only depends on its keys. -/
theorem sorted_of_keys {fields : Map} (keys : List String) (h : fields.map Prod.fst = keys)
    (hkeys : keys.Pairwise (· < ·)) : Sorted fields := by
  subst h
  exact List.pairwise_map.mp hkeys

/-- A field that is found is one of the fields. -/
theorem mem_of_lookup {k : String} {value : Value} {fields : Map}
    (h : fields.lookup k = some value) : (k, value) ∈ fields := by
  induction fields with
  | nil => cases h
  | cons field rest ih =>
    obtain ⟨key, v⟩ := field
    rw [lookup_cons] at h
    by_cases hk : k = key
    · rw [if_pos hk] at h
      rw [hk, Option.some.inj h]
      exact List.mem_cons_self
    · rw [if_neg hk] at h
      exact List.mem_cons_of_mem _ (ih h)

/-- A key before all others is not found among them. -/
theorem lookup_eq_none_of_lt {k : String} {fields : Map} (h : ∀ field ∈ fields, k < field.1) :
    fields.lookup k = none := by
  cases hlookup : fields.lookup k with
  | none => rfl
  | some value => exact absurd (h _ (mem_of_lookup hlookup)) (lt_irrefl k)

namespace Sorted

/-- What an insertion leaves is in order. -/
theorem insert {fields : Map} (h : Sorted fields) (key : String) (value : Value) :
    Sorted (Map.insert key value fields) := by
  have hmem : ∀ {fields : Map} {field : String × Value},
      field ∈ Map.insert key value fields → field.1 = key ∨ field ∈ fields := by
    intro fields
    induction fields with
    | nil =>
      rintro field hfield
      rw [List.mem_singleton.mp hfield]
      exact .inl rfl
    | cons head rest ih =>
      obtain ⟨k, v⟩ := head
      intro field hfield
      unfold Map.insert at hfield
      split_ifs at hfield
      · rcases List.mem_cons.mp hfield with rfl | hrest
        · exact .inl rfl
        · exact .inr (List.mem_cons_of_mem _ hrest)
      · rcases List.mem_cons.mp hfield with rfl | hrest
        · exact .inl rfl
        · exact .inr hrest
      · rcases List.mem_cons.mp hfield with rfl | hrest
        · exact .inr List.mem_cons_self
        · exact (ih hrest).imp_right (List.mem_cons_of_mem _)
  induction fields with
  | nil => exact List.pairwise_singleton _ _
  | cons head rest ih =>
    obtain ⟨k, v⟩ := head
    obtain ⟨hhead, hrest⟩ := List.pairwise_cons.mp h
    unfold Map.insert
    split_ifs with heq hlt
    · exact List.pairwise_cons.mpr ⟨fun field hfield => heq ▸ hhead field hfield, hrest⟩
    · refine List.pairwise_cons.mpr ⟨fun field hfield => ?_, h⟩
      rcases List.mem_cons.mp hfield with rfl | hfield
      · exact hlt
      · exact hlt.trans (hhead field hfield)
    · refine List.pairwise_cons.mpr ⟨fun field hfield => ?_, ih hrest⟩
      rcases hmem hfield with hkey | hfield
      · rw [hkey]
        exact lt_of_le_of_ne (not_lt.mp hlt) (Ne.symm heq)
      · exact hhead field hfield

/-- What a filter leaves is in order. -/
theorem filter {fields : Map} (h : Sorted fields) (p : String × Value → Bool) :
    Sorted (fields.filter p) :=
  List.Pairwise.filter p h

/-- Objects with their keys in order are the same when they hold the same. -/
theorem ext {fields fields' : Map} (h : Sorted fields) (h' : Sorted fields')
    (hlookup : ∀ key, fields.lookup key = fields'.lookup key) : fields = fields' := by
  induction fields generalizing fields' with
  | nil =>
    cases fields' with
    | nil => rfl
    | cons field rest =>
      have hfirst := hlookup field.1
      rw [show field = (field.1, field.2) from rfl, lookup_cons, if_pos rfl] at hfirst
      cases hfirst
  | cons field rest ih =>
    obtain ⟨key, value⟩ := field
    obtain ⟨hhead, hrest⟩ := List.pairwise_cons.mp h
    have hfirst := hlookup key
    rw [lookup_cons, if_pos rfl] at hfirst
    cases fields' with
    | nil => cases hfirst
    | cons field' rest' =>
      obtain ⟨key', value'⟩ := field'
      obtain ⟨hhead', hrest'⟩ := List.pairwise_cons.mp h'
      have hsecond := hlookup key'
      rw [lookup_cons key' key', if_pos rfl] at hsecond
      have hkey : key = key' := by
        rcases lt_trichotomy key key' with hlt | heq | hlt
        · have hnone : List.lookup key ((key', value') :: rest') = none :=
            lookup_eq_none_of_lt (List.forall_mem_cons.mpr
              ⟨hlt, fun field hfield => hlt.trans (hhead' field hfield)⟩)
          rw [hnone] at hfirst
          cases hfirst
        · exact heq
        · have hnone : List.lookup key' ((key, value) :: rest) = none :=
            lookup_eq_none_of_lt (List.forall_mem_cons.mpr
              ⟨hlt, fun field hfield => hlt.trans (hhead field hfield)⟩)
          rw [hnone] at hsecond
          cases hsecond
      subst hkey
      rw [lookup_cons, if_pos rfl] at hfirst
      obtain rfl := Option.some.inj hfirst
      refine congrArg _ (ih hrest hrest' fun k => ?_)
      by_cases hk : k = key
      · rw [hk, lookup_eq_none_of_lt hhead, lookup_eq_none_of_lt hhead']
      · have hthis := hlookup k
        rwa [lookup_cons, lookup_cons, if_neg hk, if_neg hk] at hthis

end Sorted

end Map

namespace Value

/-- `Value::get` with a key. -/
def get (key : String) : Value → Option Value
  | object fields => fields.lookup key
  | _ => none

/-- `Value::as_str`. -/
def asStr : Value → Option String
  | string s => some s
  | _ => none

/-- `Value::as_bool`. -/
def asBool : Value → Option Bool
  | bool b => some b
  | _ => none

/-- `Value::as_object`. -/
def asObject : Value → Option Map
  | object fields => some fields
  | _ => none

/-- `Value::as_f64`, without rounding. -/
def asF64 : Value → Option ℚ
  | number n => some n
  | _ => none

/-- Change an object through `Value::as_object_mut`; other values stay as they are. -/
def mapObject (f : Map → Map) : Value → Value
  | object fields => object (f fields)
  | v => v

/-- A field of an object. -/
@[simp] theorem get_object (key : String) (fields : Map) :
    (object fields).get key = fields.lookup key := rfl

/-- Changing an object. -/
@[simp] theorem mapObject_object (f : Map → Map) (fields : Map) :
    (object fields).mapObject f = object (f fields) := rfl

/-- Changing an object twice. -/
theorem mapObject_mapObject (f g : Map → Map) (v : Value) :
    (v.mapObject g).mapObject f = v.mapObject (f ∘ g) := by
  cases v <;> rfl

/-! ## Paths -/

/-- The value under a path of keys. -/
def atPath : List String → Value → Option Value
  | [], v => some v
  | key :: path, v => (v.get key).bind (atPath path)

/-- Change the value under a path in place; objects on the way are made where there is nothing. -/
def modify : List String → (Value → Value) → Value → Value
  | [], f => f
  | key :: path, f => mapObject (Map.update key (modify path f))

/-- Nothing but objects stands on the way down a path. -/
def Fits : List String → Value → Prop
  | [], _ => True
  | key :: path, v => ∃ fields, v = object fields ∧
      ∀ child, fields.lookup key = some child → Fits path child

/-- A field of a value makes it an object. -/
theorem exists_of_get {key : String} {v child : Value} (h : v.get key = some child) :
    ∃ fields, v = object fields ∧ fields.lookup key = some child := by
  cases v with
  | object fields => exact ⟨fields, rfl, h⟩
  | _ => cases h

/-- What stands in the place of nothing is changed to an empty object first. -/
theorem atPath_empty (path : List String) :
    ((object []).atPath path).getD (object []) = object [] := by
  cases path <;> rfl

/-- Nothing stands on the way in an empty object. -/
theorem fits_empty (path : List String) : Fits path (object []) := by
  cases path with
  | nil => trivial
  | cons key path => exact ⟨[], rfl, fun child h => by cases h⟩

/-- Where there is a value, only objects stand on the way. -/
theorem fits_of_atPath {path : List String} {v child : Value} (h : v.atPath path = some child) :
    Fits path v := by
  induction path generalizing v with
  | nil => trivial
  | cons key path ih =>
    obtain ⟨next, hnext, hchild⟩ := Option.bind_eq_some_iff.mp h
    obtain ⟨fields, rfl, hlookup⟩ := exists_of_get hnext
    refine ⟨fields, rfl, fun child' hchild' => ?_⟩
    obtain rfl : next = child' := Option.some.inj (hlookup.symm.trans hchild')
    exact ih hchild

/-- A path in two parts. -/
theorem atPath_append (path path' : List String) (v : Value) :
    v.atPath (path ++ path') = (v.atPath path).bind (atPath path') := by
  induction path generalizing v with
  | nil => rfl
  | cons key path ih =>
    show (v.get key).bind (atPath (path ++ path')) = ((v.get key).bind (atPath path)).bind _
    rw [Option.bind_assoc]
    exact congrArg _ (funext ih)

/-- Nothing stands on the way down a path in two parts. -/
theorem fits_append (path path' : List String) {v : Value} (h : Fits (path ++ path') v) :
    Fits path v ∧ Fits path' ((v.atPath path).getD (object [])) := by
  induction path generalizing v with
  | nil => exact ⟨trivial, h⟩
  | cons key path ih =>
    obtain ⟨fields, rfl, hchild⟩ := h
    refine ⟨⟨fields, rfl, fun child hlookup => (ih (hchild child hlookup)).1⟩, ?_⟩
    show Fits path' (((fields.lookup key).bind (atPath path)).getD (object []))
    rcases hlookup : fields.lookup key with _ | child
    · exact fits_empty path'
    · exact (ih (hchild child hlookup)).2

/-- A change under one key leaves the other keys. -/
theorem get_modify_ne {key k : String} (h : k ≠ key) (path : List String) (f : Value → Value)
    (v : Value) : (v.modify (key :: path) f).get k = v.get k := by
  cases v with
  | object fields => exact Map.lookup_update_ne h _ fields
  | _ => rfl

/-- A change under a key is made to what is there, unless there can be nothing. -/
theorem get_modify_self (key : String) (path : List String) (f : Value → Value) (v : Value) :
    (v.modify (key :: path) f).get key = some (((v.get key).getD (object [])).modify path f) ∨
      (v.modify (key :: path) f).get key = none ∧ v.get key = none := by
  cases v with
  | object fields => exact .inl (Map.lookup_update_self key _ fields)
  | _ => exact .inr ⟨rfl, rfl⟩

/-- Under a changed path is what the value there is changed to. -/
theorem atPath_modify {path : List String} {v : Value} (h : Fits path v) (f : Value → Value)
    (path' : List String) :
    (v.modify path f).atPath (path ++ path') =
      (f ((v.atPath path).getD (object []))).atPath path' := by
  induction path generalizing v with
  | nil => rfl
  | cons key path ih =>
    obtain ⟨fields, rfl, hchild⟩ := h
    show ((Map.update key (modify path f) fields).lookup key).bind (atPath (path ++ path')) = _
    rw [Map.lookup_update_self, Option.bind_some]
    show _ = (f (((fields.lookup key).bind (atPath path)).getD (object []))).atPath path'
    rcases hlookup : fields.lookup key with _ | child
    · rw [Option.getD_none, ih (fits_empty path), atPath_empty, Option.bind_none, Option.getD_none]
    · rw [Option.getD_some, ih (hchild child hlookup), Option.bind_some]

/-- A value keeps its place, unless it is at or under a changed path, or an object above it. -/
theorem atPath_modify_of_not {path path' : List String} {v leaf : Value} (f : Value → Value)
    (h : v.atPath path' = some leaf) (hleaf : leaf.asObject = none ∨ ¬ path' <+: path)
    (hpath : ¬ path <+: path') :
    (v.modify path f).atPath path' = some leaf := by
  induction path generalizing v path' with
  | nil => exact absurd (List.nil_prefix) hpath
  | cons key path ih =>
    cases path' with
    | nil =>
      obtain rfl : v = leaf := Option.some.inj h
      have hnone := hleaf.resolve_right (fun habove => habove List.nil_prefix)
      cases v with
      | object fields => cases hnone
      | _ => rfl
    | cons key' path' =>
      obtain ⟨child, hchild, hrest⟩ := Option.bind_eq_some_iff.mp h
      obtain ⟨fields, rfl, hlookup⟩ := exists_of_get hchild
      show ((Map.update key (modify path f) fields).lookup key').bind (atPath path') = some leaf
      by_cases hkey : key' = key
      · subst hkey
        rw [Map.lookup_update_self, hlookup, Option.getD_some, Option.bind_some]
        refine ih hrest (hleaf.imp_right fun habove hfront => ?_) fun hfront => ?_
        · exact habove (List.cons_prefix_cons.mpr ⟨rfl, hfront⟩)
        · exact hpath (List.cons_prefix_cons.mpr ⟨rfl, hfront⟩)
      · rw [Map.lookup_update_ne hkey, hlookup, Option.bind_some]
        exact hrest

/-- A change leaves only objects on the way down a path, if it does so from its own path on. -/
theorem fits_modify {path path' : List String} {v : Value} {f : Value → Value} (h : Fits path' v)
    (hf : ∀ rest v, path' = path ++ rest → Fits rest v → Fits rest (f v)) :
    Fits path' (v.modify path f) := by
  induction path generalizing v path' with
  | nil => exact hf path' v rfl h
  | cons key path ih =>
    cases path' with
    | nil => trivial
    | cons key' path' =>
      obtain ⟨fields, rfl, hchild⟩ := h
      refine ⟨Map.update key (modify path f) fields, rfl, fun child hlookup => ?_⟩
      by_cases hkey : key' = key
      · subst hkey
        rw [Map.lookup_update_self] at hlookup
        obtain rfl := Option.some.inj hlookup
        refine ih ?_ fun rest v hrest => hf rest v (congrArg (key' :: ·) hrest)
        rcases hfield : fields.lookup key' with _ | child
        · exact fits_empty path'
        · exact hchild child hfield
      · rw [Map.lookup_update_ne hkey] at hlookup
        exact hchild child hlookup

end Value

end Lager
