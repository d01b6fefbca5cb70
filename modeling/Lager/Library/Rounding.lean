import Mathlib.Data.Int.Log
import Mathlib.Data.Rat.Floor
import Mathlib.Tactic.Linarith
import Mathlib.Tactic.FieldSimp

set_option relaxedAutoImplicit false
set_option autoImplicit false

/-!
# Rounding to a binary format

The numbers of a binary format are multiples of powers of two, with so many binary digits. A number
is rounded to a multiple of the power that suits its size, and of two multiples as close to the even
one.

## Main definitions

* `Library.nearestEven` — rounding to an integer.
* `Library.BinaryFormat`, `Library.BinaryFormat.nearest` — rounding to a format.

## Main results

* `Library.abs_nearestEven_sub_le` — rounding to an integer moves a number by at most one half.
* `Library.BinaryFormat.nearest_natCast` — a small integer is in the format.
* `Library.BinaryFormat.zpow_le_nearest` — rounding does not go below a power of two.
-/

namespace Library

/-! ## To integers -/

/-- The integer next to a number, the even one of two. -/
def nearestEven (x : ℚ) : ℤ :=
  let below := ⌊x⌋
  if x - below < 1 / 2 then below
  else if 1 / 2 < x - below then below + 1
  else below + below % 2

/-- An integer is next to itself. -/
@[simp] theorem nearestEven_intCast (n : ℤ) : nearestEven n = n := by
  simp [nearestEven]

/-- Rounding does not go below an integer. -/
theorem le_nearestEven {n : ℤ} {x : ℚ} (h : n ≤ x) : n ≤ nearestEven x := by
  have hbelow : n ≤ ⌊x⌋ := Int.le_floor.mpr h
  unfold nearestEven
  dsimp only
  split_ifs
  · exact hbelow
  · omega
  · omega

/-- Rounding moves a number by at most one half. -/
theorem abs_nearestEven_sub_le (x : ℚ) : |nearestEven x - x| ≤ 1 / 2 := by
  have hlow := Int.floor_le x
  have hhigh := Int.lt_floor_add_one x
  have hnonneg : (0 : ℚ) ≤ (⌊x⌋ % 2 : ℤ) :=
    Int.cast_nonneg (Int.emod_nonneg ⌊x⌋ (by decide))
  have hle : ((⌊x⌋ % 2 : ℤ) : ℚ) ≤ 1 := by
    have hmod : ⌊x⌋ % 2 ≤ 1 := by omega
    exact_mod_cast hmod
  unfold nearestEven
  dsimp only
  rw [abs_le]
  split_ifs
  all_goals
    push_cast
    constructor
    all_goals linarith

/-! ## To a format -/

/-- A binary format: the number of its binary digits, and the exponent of its least number. -/
structure BinaryFormat where
  precision : ℕ
  minExp : ℤ
  precision_pos : 0 < precision
  minExp_nonpos : minExp ≤ 0
  deriving DecidableEq, Repr

namespace BinaryFormat

variable (format : BinaryFormat)

/-- The exponent of the multiples around a number. -/
def exponent (x : ℚ) : ℤ := max (Int.log 2 x + 1 - format.precision) format.minExp

/-- The number of a format next to a number that is not negative. -/
def nearest (x : ℚ) : ℚ := nearestEven (x / 2 ^ format.exponent x) * 2 ^ format.exponent x

variable {format} {x : ℚ}

/-- The distance of the multiples around a number is positive. -/
theorem two_zpow_exponent_pos : (0 : ℚ) < 2 ^ format.exponent x := zpow_pos two_pos _

/-- The multiples around a small integer are no further apart than the integers. -/
theorem exponent_natCast_nonpos {n : ℕ} (h : n < 2 ^ format.precision) :
    format.exponent n ≤ 0 := by
  refine max_le ?_ format.minExp_nonpos
  have hprecision := format.precision_pos
  rcases Nat.eq_zero_or_pos n with rfl | hpos
  · have hzero : Int.log 2 ((0 : ℕ) : ℚ) = 0 := by simp
    omega
  · have hlog : Int.log 2 (n : ℚ) < format.precision := by
      rw [← Int.lt_zpow_iff_log_lt (by decide) (by exact_mod_cast hpos)]
      exact_mod_cast h
    omega

/-- An integer with no more digits than the format has is in the format. -/
theorem nearest_natCast {n : ℕ} (h : n < 2 ^ format.precision) : format.nearest n = n := by
  obtain ⟨k, hk⟩ := Int.eq_ofNat_of_zero_le (neg_nonneg.mpr (exponent_natCast_nonpos h))
  have hscaled : (n : ℚ) / 2 ^ format.exponent n = ((n * 2 ^ k : ℤ) : ℚ) := by
    rw [show format.exponent n = -(k : ℤ) by omega, zpow_neg, div_inv_eq_mul, zpow_natCast]
    push_cast
    rfl
  rw [nearest, hscaled, nearestEven_intCast, ← hscaled]
  exact div_mul_cancel₀ _ two_zpow_exponent_pos.ne'

/-- Rounding does not go below a power of two, when the number is not among the least. -/
theorem le_nearest (hx : 0 < x) (h : format.minExp ≤ Int.log 2 x + 1 - format.precision) :
    (2 : ℚ) ^ Int.log 2 x ≤ format.nearest x := by
  have hexp : format.exponent x = Int.log 2 x + 1 - format.precision := max_eq_left h
  have hsplit : (2 : ℚ) ^ Int.log 2 x =
      ((2 ^ (format.precision - 1) : ℤ) : ℚ) * 2 ^ format.exponent x := by
    have hprecision := format.precision_pos
    rw [hexp]
    push_cast
    rw [← zpow_natCast, ← zpow_add₀ two_ne_zero]
    congr 1
    omega
  have hle : ((2 ^ (format.precision - 1) : ℤ) : ℚ) ≤ x / 2 ^ format.exponent x := by
    rw [le_div_iff₀ two_zpow_exponent_pos, ← hsplit]
    exact Int.zpow_log_le_self (by decide) hx
  rw [hsplit, nearest]
  exact mul_le_mul_of_nonneg_right (by exact_mod_cast le_nearestEven hle) two_zpow_exponent_pos.le

/-- The same for a given power of two. -/
theorem zpow_le_nearest {k : ℤ} (h : (2 : ℚ) ^ k ≤ x)
    (hk : format.minExp ≤ k + 1 - format.precision) : (2 : ℚ) ^ k ≤ format.nearest x := by
  have hx : 0 < x := (zpow_pos two_pos k).trans_le h
  have hlog : k ≤ Int.log 2 x := (Int.zpow_le_iff_le_log (by decide) hx).mp (by exact_mod_cast h)
  calc (2 : ℚ) ^ k ≤ 2 ^ Int.log 2 x := zpow_le_zpow_right₀ one_le_two hlog
    _ ≤ format.nearest x := le_nearest hx (by omega)

end BinaryFormat

end Library
