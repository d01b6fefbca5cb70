import Lager.Library.Rounding
import Lager.Rust.Serde
import Lager.Rust.Text

set_option relaxedAutoImplicit false
set_option autoImplicit false

/-!
# Doubles and signed integers

Parsing `f64` and `i64`, and the cast of a double to an integer. A text that is a number is parsed
to the double next to the number it says.

## Main definitions

* `Lager.F64` — doubles.
* `Lager.decimalValue` — the number a text says.
* `Lager.parseF64`, `Lager.parseI64` — `str::parse`.
* `Lager.F64.toI64` — `as i64`.

## Main results

* `Lager.decimalValue_of_parseI64` — a text parsed as an integer says that integer.
* `Lager.parseF64_of_parseI64` — it is parsed as a double too.

## Implementation notes

The sign of a zero is left out: nothing here depends on it.
-/

namespace Lager

open Library

/-! ## Doubles -/

/-- `f64`. -/
inductive F64
  | finite (x : ℚ)
  | infinite (negative : Bool)
  | nan
  deriving DecidableEq, Repr

/-- The numbers of 53 binary digits that are multiples of `2 ^ -1074`. -/
def binary64 : BinaryFormat where
  precision := 53
  minExp := -1074
  precision_pos := by decide
  minExp_nonpos := by decide

/-- A number that is not negative, with a sign. -/
def signed (negative : Bool) (x : ℚ) : ℚ := if negative then -x else x

/-- A number cut to an integer, towards zero. -/
def truncate (x : ℚ) : ℤ := if 0 ≤ x then ⌊x⌋ else ⌈x⌉

namespace F64

/-- The double next to a number, given by its sign and its size. -/
def nearest (negative : Bool) (x : ℚ) : F64 :=
  let x := binary64.nearest x
  if x < 2 ^ 1024 then finite (signed negative x) else infinite negative

/-- `as i64`: cut to an integer and to the range of the type. -/
def toI64 : F64 → ℤ
  | finite x => max (-2 ^ 63) (min (2 ^ 63 - 1) (truncate x))
  | infinite negative => if negative then -2 ^ 63 else 2 ^ 63 - 1
  | nan => 0

end F64

/-! ## Texts -/

/-- The sign of a text, if it has one, and what follows. -/
def splitSign : List Char → Bool × List Char
  | '-' :: rest => (true, rest)
  | '+' :: rest => (false, rest)
  | text => (false, text)

/-- `char::is_ascii_digit`. -/
def isAsciiDigit (c : Char) : Bool := (toDigit 10 c).isSome

/-- The exponent at the end of a number, if there is one. -/
def decimalExponent : List Char → Option ℤ
  | [] => some 0
  | c :: rest =>
    let (negative, digits) := splitSign rest
    if (c = 'e' ∨ c = 'E') ∧ digits ≠ [] ∧ digits.all isAsciiDigit then
      some (if negative then -digitsValue 10 0 digits else digitsValue 10 0 digits)
    else none

/-- A number without a sign: digits, or digits around a point, and perhaps an exponent. -/
def decimal (text : List Char) : Option ℚ :=
  let whole := text.takeWhile isAsciiDigit
  let rest := text.dropWhile isAsciiDigit
  let (fraction, rest) := match rest with
    | '.' :: rest => (rest.takeWhile isAsciiDigit, rest.dropWhile isAsciiDigit)
    | rest => ([], rest)
  if whole = [] ∧ fraction = [] then none
  else (decimalExponent rest).map fun (exponent : ℤ) =>
    (digitsValue 10 0 (whole ++ fraction) : ℚ) * 10 ^ (exponent - fraction.length)

/-- The number a text says. -/
def decimalValue (text : List Char) : Option ℚ :=
  let (negative, rest) := splitSign text
  (decimal rest).map (signed negative)

/-- `f64::from_str`. -/
def parseF64 (text : List Char) : Option F64 :=
  let (negative, rest) := splitSign text
  match decimal rest with
  | some x => some (.nearest negative x)
  | none =>
    if eqIgnoreAsciiCase rest "nan".toList then some .nan
    else if eqIgnoreAsciiCase rest "inf".toList || eqIgnoreAsciiCase rest "infinity".toList then
      some (.infinite negative)
    else none

/-- `i64::from_str`. -/
def parseI64 : List Char → Option ℤ
  | '-' :: digits =>
    if digits = [] then none
    else (parseDigits 10 (2 ^ 63 + 1) 0 digits).map fun (n : ℕ) => -(n : ℤ)
  | text => (fromStrRadix 10 (2 ^ 63) text).map Int.ofNat

/-! ## Integers as doubles -/

/-- An integer of 53 digits is a double. -/
theorem F64.nearest_natCast (negative : Bool) {n : ℕ} (h : n < 2 ^ 53) :
    F64.nearest negative n = .finite (signed negative n) := by
  have hlarge : (n : ℚ) < 2 ^ 1024 := by
    exact_mod_cast h.trans (Nat.pow_lt_pow_right (by decide) (by decide))
  rw [F64.nearest, BinaryFormat.nearest_natCast h]
  exact if_pos hlarge

/-- An integer with more digits does not become one of 53 digits. -/
theorem F64.nearest_large {negative : Bool} {n : ℕ} (h : 2 ^ 53 ≤ n) {x : ℚ}
    (hx : F64.nearest negative n = .finite x) :
    ∃ y : ℚ, 2 ^ 53 ≤ y ∧ x = signed negative y := by
  refine ⟨binary64.nearest n, ?_, ?_⟩
  · have hpow : (2 : ℚ) ^ (53 : ℤ) ≤ n := by exact_mod_cast h
    exact_mod_cast @BinaryFormat.zpow_le_nearest binary64 n 53 hpow (by decide)
  · unfold F64.nearest at hx
    dsimp only at hx
    split_ifs at hx
    exact (F64.finite.inj hx).symm

/-! ## Cutting to an integer -/

/-- Cut to an integer, a double is one below a bound. -/
def F64.CutsBelow (bound : ℕ) : F64 → Prop
  | finite x => -1 < x ∧ x < bound
  | infinite _ => False
  | nan => True

/-- A number cut to an integer is not negative. -/
theorem truncate_nonneg_iff (x : ℚ) : 0 ≤ truncate x ↔ -1 < x := by
  unfold truncate
  split_ifs with hx
  · exact iff_of_true (Int.floor_nonneg.mpr hx) (by linarith)
  · have hceil := @Int.lt_ceil ℚ _ _ _ (-1) x
    push_cast at hceil
    rw [← hceil]
    omega

/-- A number cut to an integer is below a bound. -/
theorem truncate_lt_iff (x : ℚ) {bound : ℕ} (h : 0 < bound) : truncate x < bound ↔ x < bound := by
  unfold truncate
  split_ifs with hx
  · exact Int.floor_lt
  · have hbound : (0 : ℚ) < bound := by exact_mod_cast h
    have hceil : ⌈x⌉ ≤ 0 := Int.ceil_le.mpr (by push_cast; linarith)
    exact iff_of_true (by omega) (by linarith)

/-- An integer is cut to itself. -/
theorem intCast_cut_iff {i : ℤ} {bound : ℕ} :
    (-1 < (i : ℚ) ∧ (i : ℚ) < bound) ↔ (0 ≤ i ∧ i < bound) := by
  have hneg : (-1 : ℚ) < i ↔ 0 ≤ i := by
    rw [show (-1 : ℚ) = ((-1 : ℤ) : ℚ) by norm_num, Int.cast_lt]
    omega
  rw [hneg]
  norm_cast

/-- An integer that fits is cast to itself. -/
theorem F64.toI64_natCast {n : ℕ} (h : n < 2 ^ 63) : (F64.finite n).toI64 = n := by
  have htruncate : truncate (n : ℚ) = n := by
    rw [truncate, if_pos (by positivity)]
    exact Int.floor_natCast n
  rw [toI64, htruncate]
  omega

/-- The double next to an integer is below a bound when the integer is. -/
theorem F64.nearest_cutsBelow_iff {negative : Bool} {i : ℤ}
    (hi : (i : ℚ) = signed negative i.natAbs) {bound : ℕ} (h : bound ≤ 2 ^ 53) :
    (F64.nearest negative i.natAbs).CutsBelow bound ↔ 0 ≤ i ∧ i < bound := by
  rcases Nat.lt_or_ge i.natAbs (2 ^ 53) with hsmall | hlarge
  · rw [nearest_natCast negative hsmall, ← hi, CutsBelow]
    exact intCast_cut_iff
  · refine iff_of_false (fun hcut => ?_) (by omega)
    cases hnear : F64.nearest negative i.natAbs with
    | finite x =>
      obtain ⟨y, hy, rfl⟩ := nearest_large hlarge hnear
      rw [hnear] at hcut
      have hbound : (bound : ℚ) ≤ 2 ^ 53 := by exact_mod_cast h
      obtain ⟨hlow, hhigh⟩ := hcut
      cases negative <;> simp only [signed, if_true, if_false, Bool.false_eq_true] at hlow hhigh
      · linarith
      · linarith
    | infinite negative =>
      rw [hnear] at hcut
      exact hcut
    | nan =>
      unfold F64.nearest at hnear
      dsimp only at hnear
      split_ifs at hnear

/-- Casting a double to an integer gives one below a bound when cutting it does. -/
theorem F64.toI64_mem_iff (f : F64) {bound : ℕ} (hpos : 0 < bound) (h : bound ≤ 2 ^ 53) :
    (0 ≤ f.toI64 ∧ f.toI64 < bound) ↔ f.CutsBelow bound := by
  cases f with
  | finite x =>
    rw [CutsBelow, ← truncate_nonneg_iff, ← truncate_lt_iff x hpos, toI64]
    omega
  | infinite negative =>
    cases negative
    · simp only [CutsBelow, toI64, iff_false]
      push_cast
      omega
    · simp [CutsBelow, toI64]
  | nan => simpa [CutsBelow, toI64] using hpos

/-! ## Integers as texts -/

/-- A digit is no sign. -/
theorem splitSign_of_digit {c : Char} (h : isAsciiDigit c = true) (rest : List Char) :
    splitSign (c :: rest) = (false, c :: rest) := by
  have hplus : c ≠ '+' := by
    rintro rfl
    revert h
    decide
  have hminus : c ≠ '-' := by
    rintro rfl
    revert h
    decide
  unfold splitSign
  split
  · simp_all
  · simp_all
  · rfl

/-- Digits are a number. -/
theorem decimal_digits {digits : List Char} (hne : digits ≠ [])
    (h : ∀ c ∈ digits, isAsciiDigit c = true) :
    decimal digits = some (digitsValue 10 0 digits) := by
  have htake : digits.takeWhile isAsciiDigit = digits := List.takeWhile_eq_self_iff.mpr h
  have hdrop : digits.dropWhile isAsciiDigit = [] := List.dropWhile_eq_nil_iff.mpr h
  unfold decimal
  rw [htake, hdrop]
  simp [hne, decimalExponent]

/-- A text parsed as an integer has a sign or none, and digits. -/
theorem digits_of_parseI64 {text : List Char} {n : ℤ} (h : parseI64 text = some n) :
    ∃ negative digits, splitSign text = (negative, digits) ∧ digits ≠ [] ∧
      (∀ c ∈ digits, isAsciiDigit c = true) ∧
      n = if negative then -(digitsValue 10 0 digits : ℤ) else digitsValue 10 0 digits := by
  unfold parseI64 at h
  split at h
  next digits =>
    split_ifs at h with hne
    obtain ⟨m, hm, rfl⟩ := Option.map_eq_some_iff.mp h
    refine ⟨true, digits, rfl, hne, toDigit_of_parseDigits hm, ?_⟩
    rw [eq_of_parseDigits hm]
    rfl
  next hminus =>
    obtain ⟨m, hm, rfl⟩ := Option.map_eq_some_iff.mp h
    unfold fromStrRadix at hm
    split at hm
    · cases hm
    · cases hm
    next digits hplus =>
      have hne : digits ≠ [] := fun heq => hplus (heq ▸ rfl)
      refine ⟨false, digits, rfl, hne, toDigit_of_parseDigits hm, ?_⟩
      rw [eq_of_parseDigits hm]
      rfl
    next hempty _ _ =>
      obtain ⟨c, rest, rfl⟩ := List.exists_cons_of_ne_nil hempty
      have hdigits := toDigit_of_parseDigits hm
      refine ⟨false, c :: rest, splitSign_of_digit (hdigits c List.mem_cons_self) rest, hempty,
        hdigits, ?_⟩
      rw [eq_of_parseDigits hm]
      rfl

/-- A text parsed as an integer says that integer. -/
theorem decimalValue_of_parseI64 {text : List Char} {n : ℤ} (h : parseI64 text = some n) :
    decimalValue text = some (n : ℚ) := by
  obtain ⟨negative, digits, hsplit, hne, hdigits, rfl⟩ := digits_of_parseI64 h
  rw [decimalValue, hsplit]
  simp only [decimal_digits hne hdigits]
  cases negative <;> simp [signed]

/-- What a text says without its sign is not negative. -/
theorem decimal_nonneg {text : List Char} {x : ℚ} (h : decimal text = some x) : 0 ≤ x := by
  unfold decimal at h
  dsimp only at h
  split_ifs at h
  obtain ⟨exponent, -, rfl⟩ := Option.map_eq_some_iff.mp h
  exact mul_nonneg (Nat.cast_nonneg _) (zpow_nonneg (by norm_num) _)

/-- A text that says an integer of 53 digits is parsed as that integer. -/
theorem parseF64_of_decimalValue {text : List Char} {n : ℕ} (hn : n < 2 ^ 53)
    (h : decimalValue text = some (n : ℚ)) : parseF64 text = some (.finite n) := by
  obtain ⟨negative, rest, hsplit⟩ : ∃ negative rest, splitSign text = (negative, rest) :=
    ⟨_, _, rfl⟩
  rw [decimalValue, hsplit] at h
  obtain ⟨x, hx, hsigned⟩ := Option.map_eq_some_iff.mp h
  have hsize : x = n := by
    have hnonneg := decimal_nonneg hx
    have hnat : (0 : ℚ) ≤ n := by positivity
    unfold signed at hsigned
    split_ifs at hsigned <;> linarith
  rw [parseF64, hsplit]
  simp only [hx]
  rw [hsize] at hsigned ⊢
  rw [F64.nearest_natCast _ hn, hsigned]

/-- A text parsed as an integer is parsed as the double next to it. -/
theorem parseF64_of_parseI64 {text : List Char} {n : ℤ} (h : parseI64 text = some n) :
    ∃ negative, parseF64 text = some (.nearest negative n.natAbs) ∧
      (n : ℚ) = signed negative n.natAbs := by
  obtain ⟨negative, digits, hsplit, hne, hdigits, rfl⟩ := digits_of_parseI64 h
  refine ⟨negative, ?_, ?_⟩
  · rw [parseF64, hsplit]
    simp only [decimal_digits hne hdigits]
    cases negative <;> simp
  · cases negative <;> simp [signed]

end Lager
