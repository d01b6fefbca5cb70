import Mathlib.Data.List.Infix
import Mathlib.Data.Nat.Bitwise
import Mathlib.Tactic.Ring

set_option relaxedAutoImplicit false
set_option autoImplicit false

/-!
# Strings of bits

Numbers of so many bits, written one after the other, the highest bit first. A code that regroups
bits, such as one that writes bytes as characters of six bits each, is right when both sides are the
same string of bits, but for what one side has at its end.

## Main definitions

* `Library.bits` — a number as a string of bits.
* `Library.ofDigits` — the number with given digits of so many bits.

## Main results

* `Library.bits_add` — a string of bits in two parts.
* `Library.bits_ofDigits` — the bits of a number are those of its digits.
* `Library.eq_of_bits_prefix` — bytes are determined by the bits they start.
* `Library.toChunks_append` — the first group of a list.
-/

namespace Library

/-! ## Numbers -/

/-- The last `w` bits of a number, the highest one first. -/
def bits : ℕ → ℕ → List Bool
  | 0, _ => []
  | w + 1, n => n.testBit w :: bits w n

/-- So many bits are that many. -/
@[simp] theorem length_bits (w n : ℕ) : (bits w n).length = w := by
  induction w with
  | zero => rfl
  | succ w ih => rw [bits, List.length_cons, ih]

/-- A string of bits in two parts. -/
theorem bits_add (a b n : ℕ) : bits (a + b) n = bits a (n / 2 ^ b) ++ bits b n := by
  induction a with
  | zero => rw [Nat.zero_add, bits, List.nil_append]
  | succ a ih =>
    rw [Nat.add_right_comm, bits, bits, Nat.testBit_div_two_pow, ih, List.cons_append]

/-- The last bits of a number depend on nothing but what it leaves. -/
theorem bits_mod (w n : ℕ) : bits w (n % 2 ^ w) = bits w n := by
  have hbits : ∀ k ≤ w, bits k (n % 2 ^ w) = bits k n := by
    intro k hk
    induction k with
    | zero => rfl
    | succ k ih =>
      rw [bits, bits, Nat.testBit_mod_two_pow, ih (by omega), decide_eq_true (by omega : k < w),
        Bool.true_and]
  exact hbits w le_rfl

/-- The bits of a number determine what it leaves. -/
theorem mod_eq_of_bits {w m n : ℕ} (h : bits w m = bits w n) : m % 2 ^ w = n % 2 ^ w := by
  induction w with
  | zero => rw [pow_zero, Nat.mod_one, Nat.mod_one]
  | succ w ih =>
    obtain ⟨hbit, hrest⟩ := List.cons.inj h
    refine Nat.eq_of_testBit_eq fun i => ?_
    have hi := congrArg (Nat.testBit · i) (ih hrest)
    simp only [Nat.testBit_mod_two_pow] at hi ⊢
    by_cases hlt : i < w
    · simpa [hlt, Nat.lt_succ_of_lt hlt] using hi
    · by_cases heq : i = w
      · rw [heq, hbit]
      · rw [decide_eq_false (by omega : ¬ i < w + 1), Bool.false_and, Bool.false_and]

/-! ## Digits -/

/-- The number with given digits of `w` bits, the highest one first. -/
def ofDigits (w : ℕ) (digits : List ℕ) : ℕ := digits.foldl (fun acc d => acc * 2 ^ w + d) 0

/-- A number with one more digit. -/
theorem ofDigits_concat (w : ℕ) (digits : List ℕ) (d : ℕ) :
    ofDigits w (digits ++ [d]) = ofDigits w digits * 2 ^ w + d := by
  rw [ofDigits, List.foldl_append]
  rfl

/-- **Digits.** The bits of a number are those of its digits. -/
theorem bits_ofDigits {w : ℕ} {digits : List ℕ} (h : ∀ d ∈ digits, d < 2 ^ w) :
    bits (w * digits.length) (ofDigits w digits) = digits.flatMap (bits w) := by
  induction digits using List.reverseRecOn with
  | nil => rfl
  | append_singleton digits d ih =>
    have hd : d < 2 ^ w := h d (by simp)
    have hdiv : (ofDigits w digits * 2 ^ w + d) / 2 ^ w = ofDigits w digits := by
      rw [Nat.mul_comm, Nat.mul_add_div (Nat.two_pow_pos w), Nat.div_eq_of_lt hd, Nat.add_zero]
    have hmod : bits w (ofDigits w digits * 2 ^ w + d) = bits w d := by
      rw [← bits_mod, Nat.mul_comm, Nat.mul_add_mod, bits_mod]
    rw [ofDigits_concat, List.length_append, List.length_singleton, Nat.mul_add, Nat.mul_one,
      bits_add, hdiv, hmod, ih fun d hd => h d (by simp [hd]), List.flatMap_append,
      List.flatMap_singleton]

/-- So many numbers of `w` bits are that many bits. -/
theorem length_flatMap_bits (w : ℕ) (l : List ℕ) : (l.flatMap (bits w)).length = w * l.length := by
  induction l with
  | nil => rfl
  | cons n l ih =>
    rw [List.flatMap_cons, List.length_append, length_bits, ih, List.length_cons, Nat.mul_succ,
      Nat.add_comm]

/-- Numbers of `w` bits are determined by a string of bits that they start, and by how many they
are. -/
theorem eq_of_bits_prefix {w : ℕ} {l l' : List ℕ} {s : List Bool} (hl : ∀ n ∈ l, n < 2 ^ w)
    (hl' : ∀ n ∈ l', n < 2 ^ w) (hlength : l.length = l'.length) (h : l.flatMap (bits w) <+: s)
    (h' : l'.flatMap (bits w) <+: s) : l = l' := by
  have hsize : (l.flatMap (bits w)).length = (l'.flatMap (bits w)).length := by
    rw [length_flatMap_bits, length_flatMap_bits, hlength]
  have hsame : l.flatMap (bits w) = l'.flatMap (bits w) :=
    (List.prefix_of_prefix_length_le h h' hsize.le).eq_of_length hsize
  clear h h' hsize
  induction l generalizing l' with
  | nil => exact (List.length_eq_zero_iff.mp hlength.symm).symm
  | cons n l ih =>
    obtain ⟨n', l', rfl⟩ := List.exists_cons_of_length_eq_add_one hlength.symm
    obtain ⟨hn, hl⟩ := List.forall_mem_cons.mp hl
    obtain ⟨hn', hl'⟩ := List.forall_mem_cons.mp hl'
    rw [List.flatMap_cons, List.flatMap_cons] at hsame
    obtain ⟨hfirst, hrest⟩ := List.append_inj hsame (by rw [length_bits, length_bits])
    have heq := mod_eq_of_bits hfirst
    rw [Nat.mod_eq_of_lt hn, Nat.mod_eq_of_lt hn'] at heq
    rw [heq, ih hl hl' (Nat.succ.inj hlength) hrest]

/-! ## Groups -/

variable {α : Type}

/-- A group is filled first. -/
theorem toChunks_go_append (n : ℕ) (l rest : List α) (group : Array α) (groups : Array (List α))
    (h : group.size + l.length ≤ n) :
    List.toChunks.go n (l ++ rest) group groups =
      List.toChunks.go n rest (group ++ l.toArray) groups := by
  induction l generalizing group with
  | nil => simp
  | cons a l ih =>
    rw [List.length_cons] at h
    have hsize : group.size ≠ n := by omega
    rw [List.cons_append, List.toChunks.go, if_neg (by simpa using hsize),
      ih _ (by rw [Array.size_push]; omega)]
    simp

/-- The groups so far stand in front of those that follow. -/
theorem toChunks_go_eq (n : ℕ) (l : List α) (group : Array α) (groups : Array (List α)) :
    List.toChunks.go n l group groups = groups.toList ++ List.toChunks.go n l group #[] := by
  induction l generalizing group groups with
  | nil => simp [List.toChunks.go]
  | cons a l ih =>
    rw [List.toChunks.go, List.toChunks.go]
    split
    · rw [ih, ih _ (#[].push group.toList)]
      simp
    · exact ih _ _

/-- **Groups.** The first group of a list, and those of the rest. -/
theorem toChunks_append {n : ℕ} {l : List α} (hl : l.length = n) (hn : 0 < n) (rest : List α) :
    (l ++ rest).toChunks n = l :: rest.toChunks n := by
  obtain ⟨a, l, rfl⟩ := List.exists_cons_of_length_pos (hl ▸ hn)
  obtain ⟨k, rfl⟩ := Nat.exists_eq_add_of_lt hn
  rw [List.length_cons] at hl
  have hfirst : ∀ (a : α) (l : List α), (a :: l).toChunks (0 + k + 1) =
      List.toChunks.go (0 + k + 1) l #[a] #[] := fun _ _ => rfl
  rw [List.cons_append, hfirst, toChunks_go_append _ _ _ _ _ (by simp; omega)]
  cases rest with
  | nil => simp [List.toChunks.go, List.toChunks]
  | cons b rest =>
    rw [List.toChunks.go, if_pos (by simp; omega), toChunks_go_eq, hfirst]
    simp

/-- The only group of a short list. -/
theorem toChunks_of_length_le {n : ℕ} {l : List α} (hl : l.length ≤ n) (hpos : 0 < l.length) :
    l.toChunks n = [l] := by
  obtain ⟨a, l, rfl⟩ := List.exists_cons_of_length_pos hpos
  rw [List.length_cons] at hl
  obtain ⟨k, rfl⟩ := Nat.exists_eq_add_of_lt (by omega : 0 < n)
  show List.toChunks.go (0 + k + 1) l #[a] #[] = _
  have hfill := toChunks_go_append (0 + k + 1) l [] #[a] #[] (by simp; omega)
  rw [List.append_nil] at hfill
  rw [hfill]
  simp [List.toChunks.go]

end Library
