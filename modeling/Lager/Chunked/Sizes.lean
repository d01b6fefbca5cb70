import Lager.Chunked.Reader

set_option relaxedAutoImplicit false
set_option autoImplicit false

/-!
# Chunk sizes

What the parser of size lines takes for a size: the digits in front of the first `;`, and also a
plus sign in front of them, which the integer parser of the standard library lets through.

## Main definitions

* `Lager.SaysSize` — a line says a size, perhaps behind a sign.
* `Lager.SizesExact` — a line is accepted just when it says a size without a sign.

## Main results

* `Lager.parseSize_eq_ok_iff` — the lines the parser accepts.
* `Lager.sizesExact_iff` — a line is read as it should be, unless it says a size behind a sign.
-/

namespace Lager

open Library

/-- In front of the first `;` of a line stand, between white space, a sign and a hex number below
`2 ^ 64`. -/
def SaysSize (sign : List Char) (line : List UInt8) (n : ℕ) : Prop :=
  n < 2 ^ 64 ∧ ∃ left digits right : List Char,
    line.takeWhile (· != semicolon) = asBytes (left ++ (sign ++ digits) ++ right) ∧
      (∀ c ∈ left ++ right, isWhitespace c = true) ∧ IsNumeral 16 digits n

/-- A line is a size just when it says one without a sign, and any other line is refused as
invalid. -/
structure SizesExact (line : List UInt8) : Prop where
  accepts (n : ℕ) : parseSize line = .ok n ↔ SaysSize [] line n
  refuses (e : IoError) : parseSize line = .error e → e.kind = .invalidData

/-- The part of a line before its first `;`, as a span. -/
theorem beforeExtension_eq (line : List UInt8) :
    beforeExtension line = line.takeWhile (· != semicolon) := by
  rw [beforeExtension]
  cases hcut : cut semicolon line with
  | none =>
    have hnone := cut_eq_none_iff.mp hcut
    refine (List.takeWhile_eq_self_iff.mpr fun b hb => ?_).symm
    exact bne_iff_ne.mpr fun heq => hnone (heq ▸ hb)
  | some p =>
    obtain ⟨rfl, hfront⟩ := cut_eq_some_iff.mp hcut
    have hall : ∀ b ∈ p.1, (b != semicolon) = true := fun b hb =>
      bne_iff_ne.mpr fun heq => hfront (heq ▸ hb)
    rw [List.takeWhile_append_of_pos hall, List.takeWhile_cons_of_neg (by simp), List.append_nil]

/-- A numeral behind a sign has no white space around it. -/
theorem trim_signed {radix n : ℕ} {sign digits : List Char} (hsign : sign = [] ∨ sign = ['+'])
    (h : IsNumeral radix digits n) : trim (sign ++ digits) = sign ++ digits := by
  refine trim_eq_self fun c hc => ?_
  rcases List.mem_append.mp hc with hc | hc
  · rcases hsign with rfl | rfl
    · cases hc
    · obtain rfl := List.mem_singleton.mp hc
      rfl
  · exact isWhitespace_of_toDigit (h.digits c hc)

/-- **The size lines the parser accepts.** They say a size, perhaps behind a plus sign. -/
theorem parseSize_eq_ok_iff {line : List UInt8} {n : ℕ} :
    parseSize line = .ok n ↔ SaysSize [] line n ∨ SaysSize ['+'] line n := by
  have hsaid : parseSize line = .ok n ↔
      ∃ sign, (sign = [] ∨ sign = ['+']) ∧ SaysSize sign line n := by
    unfold parseSize
    rw [beforeExtension_eq]
    constructor
    · intro h
      cases hutf8 : fromUtf8 (line.takeWhile (· != semicolon)) with
      | none => simp [hutf8] at h
      | some text =>
        rw [hutf8] at h
        cases hread : fromStrRadix 16 (2 ^ 64) (trim text) with
        | none =>
          simp only [hread] at h
          cases h
        | some size =>
          simp only [hread] at h
          obtain rfl := Except.ok.inj h
          obtain ⟨hlt, sign, digits, htrim, hsign, hdigits⟩ :=
            (fromStrRadix_eq_some_iff (by decide)).mp hread
          obtain ⟨left, right, htext, hblank⟩ := exists_trim text
          refine ⟨sign, hsign, hlt, left, digits, right, ?_, hblank, hdigits⟩
          rw [← htrim, ← htext]
          exact fromUtf8_eq_some_iff.mp hutf8
    · rintro ⟨sign, hsign, hlt, left, digits, right, hbytes, hblank, hdigits⟩
      have htrim : trim (left ++ (sign ++ digits) ++ right) = sign ++ digits := by
        rw [trim_between hblank, trim_signed hsign hdigits]
      have hread : fromStrRadix 16 (2 ^ 64) (sign ++ digits) = some n :=
        (fromStrRadix_eq_some_iff (by decide)).mpr ⟨hlt, sign, digits, rfl, hsign, hdigits⟩
      rw [hbytes, fromUtf8_asBytes]
      simp only [htrim, hread]
  rw [hsaid]
  constructor
  · rintro ⟨sign, rfl | rfl, hsize⟩
    · exact .inl hsize
    · exact .inr hsize
  · rintro (hsize | hsize)
    · exact ⟨[], .inl rfl, hsize⟩
    · exact ⟨['+'], .inr rfl, hsize⟩

/-- A line does not say a size both behind a sign and without one. -/
theorem not_saysSize_both {line : List UInt8} {n m : ℕ} (h : SaysSize [] line n) :
    ¬ SaysSize ['+'] line m := by
  rintro ⟨-, left', digits', right', hbytes', hblank', hdigits'⟩
  obtain ⟨-, left, digits, right, hbytes, hblank, hdigits⟩ := h
  have htext := asBytes_injective (hbytes.symm.trans hbytes')
  have htrim := congrArg trim htext
  rw [trim_between hblank, trim_between hblank', trim_signed (.inl rfl) hdigits,
    trim_signed (.inr rfl) hdigits', List.nil_append] at htrim
  exact not_isNumeral_plus (htrim ▸ hdigits)

/-- **Exact chunk sizes.** A line is accepted just when hex digits for a number below `2 ^ 64` stand
in front of its first `;`, between white space, and refused as invalid otherwise, unless such digits
stand there behind a plus sign. -/
theorem sizesExact_iff (line : List UInt8) :
    SizesExact line ↔ ¬ ∃ n, SaysSize ['+'] line n := by
  constructor
  · rintro hexact ⟨n, hsigned⟩
    have hplain := (hexact.accepts n).mp (parseSize_eq_ok_iff.mpr (.inr hsigned))
    exact not_saysSize_both hplain hsigned
  · intro hunsigned
    refine ⟨fun n => ?_, fun e => parseSize_error⟩
    rw [parseSize_eq_ok_iff]
    exact or_iff_left fun hsigned => hunsigned ⟨n, hsigned⟩

/-- A line with a sign in front of a digit is taken for a size. -/
theorem not_sizesExact_plus :
    parseSize [43, 53] = .ok 5 ∧ ¬ ∀ line, SizesExact line := by
  have hread : parseSize [43, 53] = .ok 5 := by decide +kernel
  have hsigned : SaysSize ['+'] [43, 53] 5 :=
    ⟨by decide, [], ['5'], [], by decide +kernel, by simp, by decide +kernel⟩
  exact ⟨hread, fun h => not_saysSize_both (((h [43, 53]).accepts 5).mp hread) hsigned⟩

end Lager
