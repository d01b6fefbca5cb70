import Lager.Error
import Lager.Library.Checked
import Lager.Rust.Float

set_option relaxedAutoImplicit false
set_option autoImplicit false

/-!
# Bus data

Instrument drivers hand numbers back as JSON numbers or as texts, so values are read leniently. Bus
data is a list of integers, and every element is read that way: a number that is no integer is cut
to one.

## Main definitions

* `Lager.asF64`, `Lager.asI64`, `Lager.asBool` — lenient conversions.
* `Lager.valueIntList`, `Lager.i2c.parseBytes`, `Lager.i2c.parseAddresses` — lists of integers.
* `Lager.exactValue` — the number an element stands for.
* `Lager.BusList.Faithful` — every integer returned is the number its element stands for.

## Main results

* `Lager.BusList.faithful_iff` — a list is faithful unless all of its elements can be cut to
  integers in range, and one of them is no such integer.
-/

namespace Lager

open Library

/-! ## Lenient conversions -/

/-- `as_f64`. -/
def asF64 : Value → Option F64
  | .number n => some (.finite (toF64 n))
  | .string s => parseF64 (trim s.toList)
  | .bool b => some (.finite (if b then 1 else 0))
  | _ => none

/-- `Number::as_i64`. -/
def numberAsI64 (n : ℚ) : Option ℤ :=
  if n.den = 1 ∧ -2 ^ 63 ≤ n.num ∧ n.num < 2 ^ 63 then some n.num else none

/-- `as_i64`. -/
def asI64 : Value → Option ℤ
  | .number n => some ((numberAsI64 n).getD (F64.finite (toF64 n)).toI64)
  | .string s => (parseI64 (trim s.toList)).or ((parseF64 (trim s.toList)).map F64.toI64)
  | .bool b => some (if b then 1 else 0)
  | _ => none

/-- `as_bool`. -/
def asBool : Value → Option Bool
  | .bool b => some b
  | .number n => some (toF64 n ≠ 0)
  | .string s =>
    let text := String.ofList (toAsciiLowercase (trim s.toList))
    if text ∈ ["true", "on", "1", "yes", "enabled"] then some true
    else if text ∈ ["false", "off", "0", "no", "disabled"] then some false
    else none
  | _ => none

/-! ## Lists of integers -/

/-- `CommandResponse`, without what is not read here. -/
structure CommandResponse where
  value : Option Value

/-- `try_from` of an unsigned type with values below `bound`. -/
def tryFrom (bound : ℕ) (n : ℤ) : Option ℕ := if 0 ≤ n ∧ n < bound then some n.toNat else none

/-- An element of a list of integers below `bound`, with the text of its error. -/
def readElement (bound : ℕ) (refused : String) (v : Value) : Except Error ℕ :=
  match (asI64 v).bind (tryFrom bound) with
  | some n => .ok n
  | none => .error (.decode (.unexpectedElement refused))

/-- A list of integers below `bound`, with the texts of its errors. -/
def readInts (bound : ℕ) (expected refused : String) (resp : CommandResponse) :
    Except Error (List ℕ) :=
  match resp.value with
  | some (.array elements) => elements.mapM (readElement bound refused)
  | _ => .error (.decode (.unexpectedValue expected))

/-- `value_int_list`. -/
def valueIntList : CommandResponse → Except Error (List ℕ) :=
  readInts (2 ^ 32) "expected list 'value'" "non-integer element in 'value'"

/-- `parse_bytes`. -/
def i2c.parseBytes : CommandResponse → Except Error (List ℕ) :=
  readInts (2 ^ 8) "expected byte list" "non-byte element"

/-- `parse_addresses`. -/
def i2c.parseAddresses : CommandResponse → Except Error (List ℕ) :=
  readInts (2 ^ 16) "expected address list" "non-address element"

/-- The lists of integers. -/
inductive BusList
  | ints
  | bytes
  | addresses
  deriving DecidableEq, Repr

namespace BusList

/-- What the elements of a list are below. -/
def bound : BusList → ℕ
  | ints => 2 ^ 32
  | bytes => 2 ^ 8
  | addresses => 2 ^ 16

/-- How a list is read. -/
def read : BusList → CommandResponse → Except Error (List ℕ)
  | ints => valueIntList
  | bytes => i2c.parseBytes
  | addresses => i2c.parseAddresses

end BusList

/-! ## What the elements stand for -/

/-- The number an element stands for. -/
def exactValue : Value → Option ℚ
  | .number n => some n
  | .string s => decimalValue (trim s.toList)
  | .bool b => some (if b then 1 else 0)
  | _ => none

/-- An element stands for an integer below a bound. -/
def StandsFor (bound : ℕ) (v : Value) (n : ℕ) : Prop := exactValue v = some (n : ℚ) ∧ n < bound

/-- An element is one below a bound when it is cut to an integer: a number, the double next to the
number a text says, or the text of no number, which counts as zero. -/
def CutsBelow (bound : ℕ) : Value → Prop
  | .number n => -1 < n ∧ n < bound
  | .string s => ∃ f, parseF64 (trim s.toList) = some f ∧ f.CutsBelow bound
  | .bool _ => True
  | _ => False

/-- What is read is what the elements stand for, and a list with any other element is refused. -/
structure BusList.Faithful (list : BusList) (resp : CommandResponse) : Prop where
  exact : ∀ ints, list.read resp = .ok ints → ∃ elements, resp.value = some (.array elements) ∧
    List.Forall₂ (StandsFor list.bound) elements ints
  refused : ∀ elements, resp.value = some (.array elements) →
    (∃ v ∈ elements, ¬ ∃ n, StandsFor list.bound v n) →
      ∃ message, list.read resp = .error (.decode message)

/-! ## Reading one element -/

section

variable {bound : ℕ}

/-- An integer fits a type when it is one of its values. -/
theorem tryFrom_eq_some {i : ℤ} {n : ℕ} : tryFrom bound i = some n ↔ i = n ∧ n < bound := by
  unfold tryFrom
  split_ifs with h
  · rw [Option.some.injEq]
    omega
  · refine iff_of_false (fun heq => ?_) (by omega)
    cases heq

/-- A large integer stays large as a double. -/
theorem le_roundNat {n : ℕ} (h : 2 ^ 53 ≤ n) : 2 ^ 53 ≤ roundNat n := by
  have hlog : 53 ≤ Nat.log2 n := (Nat.le_log2 (by omega)).mpr h
  have hself : 2 ^ Nat.log2 n ≤ n := Nat.log2_self_le (by omega)
  have hunit : 2 ≤ 2 ^ (Nat.log2 n - 52) :=
    (Nat.le_self_pow (by omega) 2)
  have hbelow : 2 ^ 52 ≤ n / 2 ^ (Nat.log2 n - 52) := by
    rw [Nat.le_div_iff_mul_le (by omega), ← pow_add]
    exact le_trans (le_of_eq (congrArg (2 ^ ·) (by omega))) hself
  have hproduct : 2 ^ 52 * 2 ≤ n / 2 ^ (Nat.log2 n - 52) * 2 ^ (Nat.log2 n - 52) :=
    Nat.mul_le_mul hbelow hunit
  unfold roundNat
  rw [if_neg (by omega)]
  dsimp only
  split_ifs
  · rw [Nat.add_mul]
    omega
  · omega

/-- A number is cut to an integer below a bound, or to none. -/
theorem asI64_number (n : ℚ) (hpos : 0 < bound) (h : bound ≤ 2 ^ 53) :
    ∃ i, asI64 (.number n) = some i ∧ ((0 ≤ i ∧ i < bound) ↔ (-1 < n ∧ n < bound)) := by
  refine ⟨_, rfl, ?_⟩
  by_cases hint : n.den = 1
  · obtain ⟨i, rfl⟩ : ∃ i : ℤ, n = i := ⟨n.num, ((Rat.den_eq_one_iff n).mp hint).symm⟩
    rw [intCast_cut_iff]
    by_cases hfits : -2 ^ 63 ≤ i ∧ i < 2 ^ 63
    · have hnumber : numberAsI64 i = some i := if_pos ⟨hint, hfits⟩
      rw [hnumber]
      rfl
    · have hnumber : numberAsI64 i = none := if_neg fun hall => hfits hall.2
      have hdouble : toF64 i = ((i.sign * roundNat i.natAbs : ℤ) : ℚ) := if_pos hint
      have hround : 2 ^ 53 ≤ roundNat i.natAbs := le_roundNat (by omega)
      rw [hnumber, Option.getD_none, F64.toI64_mem_iff _ hpos h, hdouble, F64.CutsBelow,
        intCast_cut_iff]
      refine iff_of_false (fun hrange => ?_) (by omega)
      rcases lt_trichotomy i 0 with hneg | rfl | hposi
      · rw [Int.sign_eq_neg_one_of_neg hneg] at hrange
        omega
      · omega
      · rw [Int.sign_eq_one_of_pos hposi] at hrange
        omega
  · have hnone : numberAsI64 n = none := if_neg fun hall => hint hall.1
    have hdouble : toF64 n = n := if_neg hint
    rw [hnone, hdouble]
    exact F64.toI64_mem_iff (.finite n) hpos h

/-- A text is cut to an integer below a bound, or to none. -/
theorem asI64_string (s : String) (hpos : 0 < bound) (h : bound ≤ 2 ^ 53) :
    (∃ i, asI64 (.string s) = some i ∧ 0 ≤ i ∧ i < bound) ↔ CutsBelow bound (.string s) := by
  show (∃ i, (parseI64 (trim s.toList)).or ((parseF64 (trim s.toList)).map F64.toI64) =
      some i ∧ _) ↔ ∃ f, parseF64 (trim s.toList) = some f ∧ f.CutsBelow bound
  cases hint : parseI64 (trim s.toList) with
  | some i =>
    obtain ⟨negative, hdouble, hi⟩ := parseF64_of_parseI64 hint
    rw [hdouble]
    simpa using (F64.nearest_cutsBelow_iff hi h).symm
  | none =>
    cases hdouble : parseF64 (trim s.toList) with
    | none => simp
    | some f => simpa using F64.toI64_mem_iff f hpos h

/-- What can be read is what can be cut. -/
theorem readable_iff (v : Value) (hpos : 1 < bound) (h : bound ≤ 2 ^ 53) :
    (∃ n, (asI64 v).bind (tryFrom bound) = some n) ↔ CutsBelow bound v := by
  have hread : (∃ n, (asI64 v).bind (tryFrom bound) = some n) ↔
      ∃ i, asI64 v = some i ∧ 0 ≤ i ∧ i < bound := by
    simp only [Option.bind_eq_some_iff, tryFrom_eq_some]
    constructor
    · rintro ⟨n, i, hi, rfl, hn⟩
      exact ⟨n, hi, by omega, by omega⟩
    · rintro ⟨i, hi, hlow, hhigh⟩
      exact ⟨i.toNat, i, hi, by omega, by omega⟩
  rw [hread]
  cases v with
  | number n =>
    obtain ⟨i, hi, hrange⟩ := asI64_number n (by omega) h
    rw [hi]
    simpa [CutsBelow] using hrange
  | string s => exact asI64_string s (by omega) h
  | bool b => cases b <;> simp [asI64, CutsBelow] <;> omega
  | _ => simp [asI64, CutsBelow]

/-- An element that stands for an integer is read as that integer. -/
theorem read_of_standsFor {v : Value} {n : ℕ} (h : bound ≤ 2 ^ 53) (hv : StandsFor bound v n) :
    (asI64 v).bind (tryFrom bound) = some n := by
  obtain ⟨hexact, hn⟩ := hv
  have hread : asI64 v = some (n : ℤ) := by
    cases v with
    | number m =>
      obtain rfl : m = n := Option.some.inj hexact
      have hnumber : numberAsI64 n = some (n : ℤ) := by
        refine if_pos ⟨Rat.den_natCast n, ?_, ?_⟩
        · rw [Rat.num_natCast]
          omega
        · rw [Rat.num_natCast]
          omega
      rw [asI64, hnumber]
      rfl
    | string s =>
      replace hexact : decimalValue (trim s.toList) = some (n : ℚ) := hexact
      rw [asI64]
      cases hint : parseI64 (trim s.toList) with
      | some i =>
        have hi := Option.some.inj ((decimalValue_of_parseI64 hint).symm.trans hexact)
        rw [Option.some_or]
        exact congrArg some (by exact_mod_cast hi)
      | none =>
        rw [parseF64_of_decimalValue (by omega) hexact, Option.none_or, Option.map_some,
          F64.toI64_natCast (by omega)]
    | bool b =>
      have hb := Option.some.inj hexact
      cases b
      · exact congrArg some (by exact_mod_cast hb)
      · exact congrArg some (by exact_mod_cast hb)
    | _ => cases hexact
  rw [hread]
  exact tryFrom_eq_some.mpr ⟨rfl, hn⟩

/-- An element is read or refused. -/
theorem readElement_eq_ok {refused : String} {v : Value} {n : ℕ} :
    readElement bound refused v = .ok n ↔ (asI64 v).bind (tryFrom bound) = some n := by
  unfold readElement
  cases (asI64 v).bind (tryFrom bound) <;> simp

end

/-! ## Reading a list -/

namespace BusList

/-- The condition under which elements are cut: all of them can be, and one is no integer. -/
def Cuts (list : BusList) (resp : CommandResponse) : Prop :=
  ∃ elements, resp.value = some (.array elements) ∧ (∀ v ∈ elements, CutsBelow list.bound v) ∧
    ∃ v ∈ elements, ¬ ∃ n, StandsFor list.bound v n

variable (list : BusList) (resp : CommandResponse)

/-- The integers of every list are doubles. -/
theorem bound_spec : 1 < list.bound ∧ list.bound ≤ 2 ^ 53 := by
  cases list <;> decide

/-- All lists are read alike, up to the texts of the errors. -/
theorem read_eq :
    ∃ expected refused, list.read resp = readInts list.bound expected refused resp := by
  cases list <;> exact ⟨_, _, rfl⟩

variable {list resp}

/-- What is read is read of the elements of a list. -/
theorem read_eq_ok {ints : List ℕ} : list.read resp = .ok ints ↔
    ∃ elements, resp.value = some (.array elements) ∧
      List.Forall₂ (fun v n => (asI64 v).bind (tryFrom list.bound) = some n) elements ints := by
  obtain ⟨expected, refused, hread⟩ := list.read_eq resp
  have hlist : ∀ elements, elements.mapM (readElement list.bound refused) = .ok ints ↔
      List.Forall₂ (fun v n => (asI64 v).bind (tryFrom list.bound) = some n) elements ints := by
    intro elements
    rw [mapM_eq_ok]
    simp only [readElement_eq_ok]
  rw [hread, readInts]
  constructor
  · intro h
    split at h
    next elements heq => exact ⟨elements, heq, (hlist elements).mp h⟩
    · cases h
  · rintro ⟨elements, heq, helements⟩
    rw [heq]
    exact (hlist elements).mpr helements

/-- An error is one of decoding. -/
theorem read_eq_error {err : Error} (h : list.read resp = .error err) :
    ∃ message, err = .decode message := by
  obtain ⟨expected, refused, hread⟩ := list.read_eq resp
  rw [hread, readInts] at h
  split at h
  · obtain ⟨v, -, hv⟩ := mapM_eq_error h
    unfold readElement at hv
    split at hv
    · cases hv
    · exact ⟨_, (Except.error.inj hv).symm⟩
  · exact ⟨_, (Except.error.inj h).symm⟩

/-- What is read are the lists whose elements can all be cut. -/
theorem exists_read_iff : (∃ ints, list.read resp = .ok ints) ↔
    ∃ elements, resp.value = some (.array elements) ∧ ∀ v ∈ elements, CutsBelow list.bound v := by
  obtain ⟨hpos, hbound⟩ := list.bound_spec
  constructor
  · rintro ⟨ints, hread⟩
    obtain ⟨elements, heq, hints⟩ := read_eq_ok.mp hread
    refine ⟨elements, heq, fun v hv => (readable_iff v hpos hbound).mp ?_⟩
    obtain ⟨n, -, hn⟩ := exists_of_mem_left hints v hv
    exact ⟨n, hn⟩
  · rintro ⟨elements, heq, hcuts⟩
    obtain ⟨ints, hints⟩ := exists_forall₂_of_mem fun v hv =>
      (readable_iff v hpos hbound).mpr (hcuts v hv)
    exact ⟨ints, read_eq_ok.mpr ⟨elements, heq, hints⟩⟩

/-- **Bus data is not rounded, except where all of it can be.** What is read is what the elements
stand for, and a list with any other element is refused, unless every element can be cut to an
integer in range and one of them is no such integer.

**Proof sketch.** An element that stands for an integer in range is read as that integer. So a list
that is read wrongly, or not refused, is one whose elements are all read, and one of them stands for
no integer in range; and elements that are read are those that can be cut. -/
theorem faithful_iff (list : BusList) (resp : CommandResponse) :
    list.Faithful resp ↔ ¬ list.Cuts resp := by
  constructor
  · rintro hfaithful ⟨elements, heq, hcuts, hother⟩
    obtain ⟨message, herror⟩ := hfaithful.refused elements heq hother
    obtain ⟨ints, hread⟩ := exists_read_iff.mpr ⟨elements, heq, hcuts⟩
    rw [hread] at herror
    cases herror
  · intro hnot
    refine ⟨fun ints hread => ?_, fun elements heq hother => ?_⟩
    · obtain ⟨elements, heq, hints⟩ := read_eq_ok.mp hread
      obtain ⟨elements', heq', hcuts⟩ := exists_read_iff.mp ⟨ints, hread⟩
      obtain rfl : elements = elements' := Value.array.inj (Option.some.inj (heq.symm.trans heq'))
      have hstands : ∀ v ∈ elements, ∃ n, StandsFor list.bound v n := by
        by_contra hsome
        simp only [not_forall, exists_prop] at hsome
        exact hnot ⟨elements, heq, hcuts, hsome⟩
      refine ⟨elements, heq, ((List.forall₂_and_left ..).mpr ⟨hstands, hints⟩).imp ?_⟩
      rintro v n ⟨⟨m, hm⟩, hn⟩
      have hread := read_of_standsFor list.bound_spec.2 hm
      rw [hn] at hread
      exact Option.some.inj hread ▸ hm
    · cases hread : list.read resp with
      | error err =>
        obtain ⟨message, rfl⟩ := read_eq_error hread
        exact ⟨message, rfl⟩
      | ok ints =>
        obtain ⟨elements', heq', hcuts⟩ := exists_read_iff.mp ⟨ints, hread⟩
        obtain rfl : elements = elements' := Value.array.inj (Option.some.inj (heq.symm.trans heq'))
        exact absurd ⟨elements, heq, hcuts, hother⟩ hnot

end BusList

/-- A fraction is cut: the byte read is not the number the box sent. -/
theorem not_faithful_fraction :
    ¬ BusList.bytes.Faithful ⟨some (.array [.number (3 / 2)])⟩ := by
  intro h
  obtain ⟨elements, heq, helements⟩ := h.exact [1] (by decide +kernel)
  obtain rfl := Value.array.inj (Option.some.inj heq)
  obtain ⟨hexact, -⟩ := (List.forall₂_cons.mp helements).1
  have hhalf := Option.some.inj hexact
  norm_num at hhalf

end Lager
