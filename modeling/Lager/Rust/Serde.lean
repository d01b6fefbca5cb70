import Lager.Rust.Json

set_option relaxedAutoImplicit false
set_option autoImplicit false

/-!
# Typed values

How `serde` reads a type from a JSON value, as far as the crate's types need it, and how a struct
becomes an object again. A struct is read from an object by the names of its fields, or from an
array by their order; fields it does not have are ignored.

## Main definitions

* `Lager.Deserialize` — reading a type.
* `Lager.structFields`, `Lager.field` — the fields of a struct.
* `Lager.Map.setSome`, `Lager.Map.insertAll` — the fields of an object made of a struct.
* `Lager.toF64` — a number as a double.

## Main results

* `Lager.Map.lookup_setSome`, `Lager.Map.lookup_insertAll` — what such an object holds.

## Implementation notes

The texts of the errors are the library's; an error is `none` here. A number of a JSON value is
either an integer or a double, so only integers need rounding.
-/

namespace Lager

/-! ## Reading -/

/-- The double next to a natural number, the even one of two. -/
def roundNat (n : ℕ) : ℕ :=
  if n < 2 ^ 53 then n
  else
    let unit := 2 ^ (Nat.log2 n - 52)
    let below := n / unit
    let rest := n % unit
    if unit < 2 * rest ∨ unit = 2 * rest ∧ below % 2 = 1 then (below + 1) * unit
    else below * unit

/-- `as f64`: a number of a JSON value as a double. -/
def toF64 (n : ℚ) : ℚ :=
  if n.den = 1 then (n.num.sign * roundNat n.num.natAbs : ℤ) else n

/-- Reading a type from a value; `none` is an error. -/
abbrev Deserialize (α : Type) := Value → Option α

/-- How the library reads unsigned integers of 64 bits. -/
class SerdeInt where
  u64 : Deserialize ℕ

namespace Deserialize

variable {α : Type}

/-- `String`. -/
def string : Deserialize String := Value.asStr

/-- `bool`. -/
def boolean : Deserialize Bool
  | .bool b => some b
  | _ => none

/-- `f64`. -/
def f64 : Deserialize ℚ
  | .number n => some (toF64 n)
  | _ => none

/-- `Map<String, Value>`. -/
def map : Deserialize Map := Value.asObject

/-- `Option<T>`. -/
def option (d : Deserialize α) : Deserialize (Option α)
  | .null => some none
  | v => (d v).map some

/-- `Vec<T>`. -/
def vec (d : Deserialize α) : Deserialize (List α)
  | .array elements => elements.mapM d
  | _ => none

/-- What a vector of strings is read from. -/
theorem mem_of_vec_string {s : String} {v : Value} {strings : List String}
    (h : vec string v = some strings) (hs : s ∈ strings) :
    ∃ elements, v = .array elements ∧ .string s ∈ elements := by
  cases v with
  | array elements =>
    refine ⟨elements, rfl, ?_⟩
    simp only [vec] at h
    induction elements generalizing strings with
    | nil =>
      cases h
      cases hs
    | cons first rest ih =>
      rw [List.mapM_cons] at h
      obtain ⟨read, hread, h⟩ := Option.bind_eq_some_iff.mp h
      obtain ⟨others, hothers, h⟩ := Option.bind_eq_some_iff.mp h
      cases h
      rcases List.mem_cons.mp hs with rfl | hs
      · cases first with
        | string s =>
          cases hread
          exact List.mem_cons_self
        | _ => cases hread
      · exact List.mem_cons_of_mem _ (ih hs hothers)
  | _ => cases h

/-- An optional value that is there and not null. -/
theorem option_of_ne_null {d : Deserialize α} {v : Value} (h : v ≠ .null) :
    option d v = (d v).map some := by
  cases v <;> first | rfl | exact absurd rfl h

end Deserialize

/-- The fields of a struct by their names. -/
def structFields (names : List String) : Value → Option (String → Option Value)
  | .object fields => some fun name => fields.lookup name
  | .array elements =>
    if elements.length ≤ names.length then some fun name => elements[names.idxOf name]? else none
  | _ => none

/-- A field with a default. -/
def field {α : Type} (d : Deserialize α) (default : α) : Option Value → Option α
  | some v => d v
  | none => some default

/-! ## Writing -/

namespace Map

/-- A field that is skipped when it is `None`. -/
def setSome (key : String) : Option Value → Map → Map
  | some v, fields => insert key v fields
  | none, fields => fields

/-- A flattened map: all of its fields. -/
def insertAll (extra fields : Map) : Map :=
  extra.foldl (fun fields field => insert field.1 field.2 fields) fields

/-- An object after an optional field was set. -/
theorem lookup_setSome (key k : String) (v : Option Value) (fields : Map) :
    (setSome key v fields).lookup k =
      if k = key then v.or (fields.lookup k) else fields.lookup k := by
  cases v with
  | none => simp [setSome]
  | some v => simp [setSome, lookup_insert]

/-- What setting an optional field leaves is in order. -/
theorem Sorted.setSome {fields : Map} (h : Sorted fields) (key : String) (v : Option Value) :
    Sorted (Map.setSome key v fields) := by
  cases v with
  | none => exact h
  | some v => exact h.insert key v

/-- An object after the fields of another one were set. -/
theorem lookup_insertAll {extra : Map} (h : Sorted extra) (k : String) (fields : Map) :
    (insertAll extra fields).lookup k = (extra.lookup k).or (fields.lookup k) := by
  induction extra generalizing fields with
  | nil => rfl
  | cons field rest ih =>
    obtain ⟨key, v⟩ := field
    obtain ⟨hhead, hrest⟩ := List.pairwise_cons.mp h
    show (insertAll rest (insert key v fields)).lookup k = _
    rw [ih hrest, lookup_insert, lookup_cons]
    by_cases hk : k = key
    · rw [if_pos hk, if_pos hk, hk, lookup_eq_none_of_lt hhead]
      rfl
    · rw [if_neg hk, if_neg hk]

/-- What setting the fields of another object leaves is in order. -/
theorem Sorted.insertAll {fields : Map} (h : Sorted fields) (extra : Map) :
    Sorted (Map.insertAll extra fields) := by
  induction extra generalizing fields with
  | nil => exact h
  | cons field rest ih => exact ih (h.insert field.1 field.2)

end Map

end Lager
