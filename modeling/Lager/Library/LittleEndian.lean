import Mathlib.Data.Nat.Digits.Defs
import Mathlib.Data.List.Basic

set_option relaxedAutoImplicit false
set_option autoImplicit false

/-!
# Little-endian numbers and layouts

Binary formats put numbers of fixed widths, lowest byte first, at fixed offsets. This file has the
two halves of that: numbers as bytes, and buffers that are laid out as a sequence of blocks.

## Main definitions

* `Library.LittleEndian.bytes`, `Library.LittleEndian.value` — a number as bytes, and back.
* `Library.LittleEndian.slice` — a slice of a buffer.

## Main results

* `Library.LittleEndian.value_bytes` — the round trip of a number that fits its width.
* `Library.LittleEndian.value_inj` — as many bytes for the same number are the same bytes.
* `Library.LittleEndian.slice_append_left`, `Library.LittleEndian.slice_append_right` — slices of a
  buffer that is laid out as blocks, block by block.
* `Library.LittleEndian.slice_slice` — a slice of a slice.
* `Library.LittleEndian.slice_flatMap` — the slices of a table of blocks of one width.
-/

namespace Library.LittleEndian

/-! ## Numbers -/

/-- The lowest bytes of a number, as many as the width says. -/
def bytes : ℕ → ℕ → List UInt8
  | 0, _ => []
  | width + 1, n => UInt8.ofNat n :: bytes width (n / 256)

/-- The number some bytes stand for. -/
def value (l : List UInt8) : ℕ := Nat.ofDigits 256 (l.map UInt8.toNat)

@[simp] theorem length_bytes (width n : ℕ) : (bytes width n).length = width := by
  induction width generalizing n with
  | zero => rfl
  | succ width ih => rw [bytes, List.length_cons, ih]

/-- A number that fits its width is read back. -/
theorem value_bytes {width n : ℕ} (h : n < 256 ^ width) : value (bytes width n) = n := by
  induction width generalizing n with
  | zero =>
    rw [pow_zero, Nat.lt_one_iff] at h
    rw [h]
    rfl
  | succ width ih =>
    have hrest : n / 256 < 256 ^ width := by
      rw [pow_succ'] at h
      exact Nat.div_lt_of_lt_mul h
    have hcons : value (bytes (width + 1) n) =
        (UInt8.ofNat n).toNat + 256 * value (bytes width (n / 256)) := by
      rw [value, value, bytes, List.map_cons, Nat.ofDigits_cons]
    rw [hcons, ih hrest, UInt8.toNat_ofNat']
    omega

/-- Bytes are digits. -/
theorem digits_lt (l : List UInt8) : ∀ d ∈ l.map UInt8.toNat, d < 256 := by
  intro d hd
  obtain ⟨b, -, rfl⟩ := List.mem_map.mp hd
  exact b.toNat_lt

/-- Bytes stand for a number below the power for their width. -/
theorem value_lt (l : List UInt8) : value l < 256 ^ l.length := by
  have h := Nat.ofDigits_lt_base_pow_length (by decide) (digits_lt l)
  rwa [List.length_map] at h

/-- As many bytes for the same number are the same bytes. -/
theorem value_inj {l l' : List UInt8} (hlength : l.length = l'.length) :
    value l = value l' ↔ l = l' := by
  refine ⟨fun h => ?_, fun h => h ▸ rfl⟩
  have hmap : l.map UInt8.toNat = l'.map UInt8.toNat :=
    Nat.ofDigits_inj_of_len_eq (by decide) (by simp [hlength]) (digits_lt l) (digits_lt l') h
  exact List.map_injective_iff.mpr (fun _ _ => UInt8.toNat_inj.mp) hmap

/-! ## Layouts -/

/-- A slice of a buffer: `n` bytes from an offset on. -/
def slice (n : ℕ) (buf : List UInt8) (offset : ℕ) : List UInt8 := (buf.drop offset).take n

/-- A block in front of the rest is the slice at the start. -/
theorem slice_append_left {block rest : List UInt8} {n : ℕ} (h : block.length = n) :
    slice n (block ++ rest) 0 = block := by
  rw [slice, List.drop_zero, List.take_left' h]

/-- A slice that starts behind a block is one of the rest. -/
theorem slice_append_right {block rest : List UInt8} {n offset : ℕ} (h : block.length ≤ offset) :
    slice n (block ++ rest) offset = slice n rest (offset - block.length) := by
  rw [slice, slice, List.drop_append, List.drop_eq_nil_of_le h, List.nil_append]

/-- A slice of a slice. -/
theorem slice_slice {buf : List UInt8} {n width offset k : ℕ} (h : k + n ≤ width) :
    slice n (slice width buf offset) k = slice n buf (offset + k) := by
  rw [slice, slice, slice, List.drop_take, List.drop_drop, List.take_take,
    Nat.min_eq_left (Nat.le_sub_of_add_le' h)]

/-- The blocks of one width that a list is laid out as stand at the multiples of the width. -/
theorem slice_flatMap {α : Type*} {front rest : List UInt8} {f : α → List UInt8} {width : ℕ}
    (hwidth : ∀ a, (f a).length = width) {l : List α} {i : ℕ} (hi : i < l.length) :
    slice width (front ++ (l.flatMap f ++ rest)) (front.length + i * width) = f l[i] := by
  induction l generalizing front i with
  | nil => exact absurd hi (Nat.not_lt_zero i)
  | cons a l ih =>
    rw [List.flatMap_cons, List.append_assoc]
    cases i with
    | zero =>
      rw [Nat.zero_mul, Nat.add_zero]
      rw [slice_append_right le_rfl, Nat.sub_self]
      exact slice_append_left (hwidth a)
    | succ i =>
      have hoffset : front.length + (i + 1) * width = (front ++ f a).length + i * width := by
        rw [List.length_append, hwidth, Nat.add_mul]
        omega
      rw [hoffset, ← List.append_assoc]
      exact ih (Nat.lt_of_succ_lt_succ hi)

end Library.LittleEndian
