import Lager.Library.Cut
import Mathlib.Algebra.Group.Nat.Defs
import Mathlib.Data.List.Infix
import Mathlib.Data.List.TakeWhile

set_option relaxedAutoImplicit false
set_option autoImplicit false

/-!
# Text

The string operations of the standard library that the crate parses with, on the characters of
a string: UTF-8 decoding, whitespace trimming and number parsing. Lean's own decoder accepts
the same byte strings as `str::from_utf8` (no surrogates, no overlong forms), so it is used
directly; Lean's `Char.isWhitespace` knows only ASCII, so the Unicode set Rust trims is spelled
out.

## Main definitions

* `Lager.fromUtf8` — `str::from_utf8`.
* `Lager.trim` — `str::trim`.
* `Lager.fromStrRadix` — `u64::from_str_radix` and its siblings for unsigned types.
* `Lager.IsNumeral` — digits that denote a number.

## Main results

* `Lager.fromUtf8_ascii` — ASCII bytes decode to themselves.
* `Lager.fromUtf8_asBytes` — the bytes of a string decode to the string.
* `Lager.fromStrRadix_digits` — a string of digits parses to the number it denotes, if that
  fits.
* `Lager.fromStrRadix_eq_some_iff` — nothing else is parsed, but for a sign.
-/

namespace Lager

open Library

/-- `str::from_utf8`: the characters the bytes encode, if they are well formed. -/
def fromUtf8 (bs : List UInt8) : Option (List Char) :=
  bs.toByteArray.utf8Decode?.map Array.toList

/-- `char::is_whitespace`: the Unicode property `White_Space`. -/
def isWhitespace (c : Char) : Bool :=
  let n := c.toNat
  (9 ≤ n && n ≤ 13) || n == 0x20 || n == 0x85 || n == 0xA0 || n == 0x1680 ||
    (0x2000 ≤ n && n ≤ 0x200A) || n == 0x2028 || n == 0x2029 || n == 0x202F || n == 0x205F ||
    n == 0x3000

/-- `char::is_ascii_whitespace`. -/
def isAsciiWhitespace (c : Char) : Bool :=
  c == ' ' || c == '\t' || c == '\n' || c == '\x0C' || c == '\r'

/-- `str::trim_start`. -/
def trimStart (s : List Char) : List Char := s.dropWhile isWhitespace

/-- `str::trim_end`. -/
def trimEnd (s : List Char) : List Char := (s.reverse.dropWhile isWhitespace).reverse

/-- `str::trim`. -/
def trim (s : List Char) : List Char := trimEnd (trimStart s)

/-- `str::trim_end_matches` with a character. -/
def trimEndMatches (c : Char) (s : List Char) : List Char :=
  (s.reverse.dropWhile (· == c)).reverse

/-- `str::trim_start_matches` with a character. -/
def trimStartMatches (c : Char) (s : List Char) : List Char := s.dropWhile (· == c)

/-- `str::as_bytes`. -/
def asBytes (s : List Char) : List UInt8 := s.flatMap String.utf8EncodeChar

/-- `str::as_bytes`, for a string. -/
def utf8 (s : String) : List UInt8 := asBytes s.toList

/-- `str::split_once` with a string: the parts before and after its first occurrence. -/
def splitOnce (pat : List Char) : List Char → Option (List Char × List Char)
  | [] => if pat = [] then some ([], []) else none
  | c :: cs =>
    if pat <+: c :: cs then some ([], (c :: cs).drop pat.length)
    else (splitOnce pat cs).map fun p => (c :: p.1, p.2)

/-- `str::rsplit_once` with a character: the parts before and after its last occurrence. -/
def rsplitOnce (c : Char) (s : List Char) : Option (List Char × List Char) :=
  (cut c s.reverse).map fun p => (p.2.reverse, p.1.reverse)

/-- Put a character in front of the first line. -/
def consChar (c : Char) : List (List Char) → List (List Char)
  | [] => [[c]]
  | line :: lines => (c :: line) :: lines

/-- `str::split` with `"\r\n"`. -/
def splitCrlf : List Char → List (List Char)
  | [] => [[]]
  | [c] => [[c]]
  | c :: d :: rest =>
    if c = '\r' ∧ d = '\n' then [] :: splitCrlf rest else consChar c (splitCrlf (d :: rest))

/-- `str::contains` with a string. -/
def contains (pat s : List Char) : Bool := decide (pat <:+: s)

/-- `str::to_ascii_lowercase`. -/
def toAsciiLowercase (s : List Char) : List Char := s.map Char.toLower

/-- `str::eq_ignore_ascii_case`. -/
def eqIgnoreAsciiCase (s t : List Char) : Bool := toAsciiLowercase s == toAsciiLowercase t

/-- `char::to_digit` for a radix up to 16. -/
def toDigit (radix : ℕ) (c : Char) : Option ℕ :=
  let n := c.toNat
  let d :=
    if '0'.toNat ≤ n ∧ n ≤ '9'.toNat then n - '0'.toNat
    else if 'a'.toNat ≤ n ∧ n ≤ 'f'.toNat then n - 'a'.toNat + 10
    else if 'A'.toNat ≤ n ∧ n ≤ 'F'.toNat then n - 'A'.toNat + 10
    else radix
  if d < radix then some d else none

/-- The digit loop of `from_str_radix`, most significant digit first: `none` at a character
that is no digit and as soon as the value reaches `bound`. -/
def parseDigits (radix bound : ℕ) : ℕ → List Char → Option ℕ
  | acc, [] => some acc
  | acc, c :: cs =>
    match toDigit radix c with
    | none => none
    | some d =>
      if acc * radix + d < bound then parseDigits radix bound (acc * radix + d) cs else none

/-- `from_str_radix` for an unsigned type with values below `bound`: one leading `+` is
allowed, an empty string or a lone sign is not. -/
def fromStrRadix (radix bound : ℕ) : List Char → Option ℕ
  | [] => none
  | ['+'] => none
  | '+' :: cs => parseDigits radix bound 0 cs
  | cs => parseDigits radix bound 0 cs

/-! ## ASCII -/

/-- The character of an ASCII byte. -/
def asciiChar (b : UInt8) : Char := Char.ofUInt8 b

/-- An ASCII byte is its character's code point. -/
@[simp] theorem toNat_asciiChar (b : UInt8) : (asciiChar b).toNat = b.toNat := by
  exact UInt8.toNat_toUInt32 b

/-- An ASCII character is that of its code point as a byte. -/
theorem asciiChar_ofNat {c : Char} (h : c.toNat < 128) : asciiChar (UInt8.ofNat c.toNat) = c := by
  have hnat : (UInt8.ofNat c.toNat).toNat = c.toNat := by
    rw [UInt8.toNat_ofNat']
    omega
  exact Char.toNat_inj.mp ((toNat_asciiChar _).trans hnat)

/-- An ASCII byte is the UTF-8 encoding of its character. -/
theorem utf8EncodeChar_asciiChar {b : UInt8} (h : b.toNat < 128) :
    String.utf8EncodeChar (asciiChar b) = [b] := by
  have hv : (asciiChar b).val.toNat = b.toNat := toNat_asciiChar b
  simp only [String.utf8EncodeChar, hv]
  rw [if_pos (by omega)]
  simp

/-- ASCII bytes decode to their characters. -/
theorem fromUtf8_ascii {bs : List UInt8} (h : ∀ b ∈ bs, b.toNat < 128) :
    fromUtf8 bs = some (bs.map asciiChar) := by
  have he : (bs.map asciiChar).utf8Encode = bs.toByteArray := by
    rw [List.utf8Encode]
    congr 1
    induction bs with
    | nil => rfl
    | cons b bs ih =>
      simp only [List.mem_cons, forall_eq_or_imp] at h
      rw [List.map_cons, List.flatMap_cons, utf8EncodeChar_asciiChar h.1, ih h.2]
      rfl
  rw [fromUtf8, ← he, List.utf8Decode?_utf8Encode]
  simp

/-- The bytes of a string decode to its characters. -/
theorem fromUtf8_asBytes (s : List Char) : fromUtf8 (asBytes s) = some s := by
  have he : (asBytes s).toByteArray = s.utf8Encode := rfl
  rw [fromUtf8, he, List.utf8Decode?_utf8Encode]
  simp

/-- Bytes decode to a string just when they are its bytes. -/
theorem fromUtf8_eq_some_iff {bs : List UInt8} {s : List Char} :
    fromUtf8 bs = some s ↔ bs = asBytes s := by
  constructor
  · intro h
    obtain ⟨chars, hdecode, -⟩ := Option.map_eq_some_iff.mp h
    have hsome : bs.toByteArray.utf8Decode?.isSome := by rw [hdecode]; rfl
    obtain ⟨t, ht⟩ := ByteArray.isSome_utf8Decode?_iff.mp hsome
    have hbytes : bs = asBytes t := by
      have hlist := congrArg (fun b : ByteArray => b.data.toList) ht
      simpa [List.utf8Encode, asBytes] using hlist
    rw [hbytes, fromUtf8_asBytes] at h
    rw [hbytes, Option.some.inj h]
  · rintro rfl
    exact fromUtf8_asBytes s

/-- Different strings have different bytes. -/
theorem asBytes_injective {s t : List Char} (h : asBytes s = asBytes t) : s = t := by
  have hs := fromUtf8_asBytes s
  rw [h, fromUtf8_asBytes] at hs
  exact (Option.some.inj hs).symm

/-- The bytes of the first character, and then the others. -/
theorem asBytes_cons (c : Char) (s : List Char) :
    asBytes (c :: s) = String.utf8EncodeChar c ++ asBytes s := List.flatMap_cons

/-- As many bytes as the first character has, and those of the others. -/
theorem length_asBytes_cons (c : Char) (s : List Char) :
    (asBytes (c :: s)).length = c.utf8Size + (asBytes s).length := by
  rw [asBytes_cons, List.length_append, String.length_utf8EncodeChar]

/-- The bytes of a string of two parts. -/
theorem asBytes_append (s t : List Char) : asBytes (s ++ t) = asBytes s ++ asBytes t :=
  List.flatMap_append

/-- The bytes of a string of two parts. -/
theorem utf8_append (s t : String) : utf8 (s ++ t) = utf8 s ++ utf8 t := by
  rw [utf8, String.toList_append, asBytes_append]
  rfl

/-- What a string starts with, it starts with when more follows. -/
theorem head?_utf8_append {s : String} {b : UInt8} (h : (utf8 s).head? = some b) (t : String) :
    (utf8 (s ++ t)).head? = some b := by
  rw [utf8_append, List.head?_append, h]
  rfl

/-- The bytes of an ASCII string are its code points. -/
theorem asBytes_ascii {s : List Char} (h : ∀ c ∈ s, c.toNat < 128) :
    asBytes s = s.map fun c => UInt8.ofNat c.toNat := by
  induction s with
  | nil => rfl
  | cons c s ih =>
    obtain ⟨hc, hs⟩ := List.forall_mem_cons.mp h
    have hchar : String.utf8EncodeChar c = [UInt8.ofNat c.toNat] := by
      have hv : c.val.toNat ≤ 127 := Nat.le_of_lt_succ hc
      rw [String.utf8EncodeChar]
      simp only [hv, if_true]
      rfl
    calc asBytes (c :: s) = String.utf8EncodeChar c ++ asBytes s := List.flatMap_cons
      _ = _ := by rw [hchar, ih hs, List.map_cons, List.singleton_append]

/-- A byte below 128 stands for itself. -/
theorem toNat_of_mem_utf8EncodeChar {c : Char} {b : UInt8} (h : b ∈ String.utf8EncodeChar c)
    (hb : b.toNat < 128) : c.toNat = b.toNat := by
  have hlarge : ∀ n, 128 ≤ n % 256 → ¬ (UInt8.ofNat n).toNat < 128 := by
    intro n hn
    rw [UInt8.toNat_ofNat']
    omega
  rw [String.utf8EncodeChar] at h
  split_ifs at h with h₁ h₂ h₃
  · rw [List.mem_singleton] at h
    rw [h, UInt8.toNat_ofNat']
    show c.val.toNat = _
    omega
  all_goals simp only [List.mem_cons, List.not_mem_nil, or_false] at h
  · rcases h with rfl | rfl <;> exact absurd hb (hlarge _ (by omega))
  · rcases h with rfl | rfl | rfl <;> exact absurd hb (hlarge _ (by omega))
  · rcases h with rfl | rfl | rfl | rfl <;> exact absurd hb (hlarge _ (by omega))

/-- A byte below 128 is in a string as the character it stands for. -/
theorem mem_of_mem_asBytes {s : List Char} {b : UInt8} (h : b ∈ asBytes s) (hb : b.toNat < 128) :
    asciiChar b ∈ s := by
  obtain ⟨c, hc, hbyte⟩ := List.mem_flatMap.mp h
  have hchar : c = asciiChar b :=
    Char.toNat_inj.mp ((toNat_of_mem_utf8EncodeChar hbyte hb).trans (toNat_asciiChar b).symm)
  exact hchar ▸ hc

/-- Splitting at a string whose first character does not occur before. -/
theorem splitOnce_of_notMem {c : Char} {pat front : List Char} (h : c ∉ front)
    (back : List Char) :
    splitOnce (c :: pat) (front ++ (c :: pat ++ back)) = some (front, back) := by
  induction front with
  | nil =>
    rw [List.nil_append, List.cons_append, splitOnce,
      if_pos (List.cons_append ▸ List.prefix_append (c :: pat) back), ← List.cons_append,
      List.drop_left]
  | cons a front ih =>
    obtain ⟨hne, hfront⟩ := not_or.mp (List.mem_cons.not.mp h)
    rw [List.cons_append, splitOnce, if_neg fun hp => hne (List.cons_prefix_cons.mp hp).1,
      ih hfront]
    rfl

/-- A text is made up of what it is split into. -/
theorem splitOnce_eq {pat s front back : List Char} (h : splitOnce pat s = some (front, back)) :
    s = front ++ (pat ++ back) := by
  induction s generalizing front with
  | nil =>
    rw [splitOnce] at h
    split_ifs at h with hpat
    obtain ⟨rfl, rfl⟩ := Prod.mk.inj (Option.some.inj h)
    rw [hpat, List.nil_append, List.nil_append]
  | cons c s ih =>
    rw [splitOnce] at h
    split_ifs at h with hpat
    · obtain ⟨rfl, rfl⟩ := Prod.mk.inj (Option.some.inj h)
      obtain ⟨rest, hrest⟩ := hpat
      rw [← hrest, List.drop_left, List.nil_append]
    · obtain ⟨⟨front', back'⟩, hrest, heq⟩ := Option.map_eq_some_iff.mp h
      obtain ⟨rfl, rfl⟩ := Prod.mk.inj heq
      rw [ih hrest, List.cons_append]

/-- What a text is split into does not depend on what comes behind. -/
theorem splitOnce_append {pat s front back : List Char} (h : splitOnce pat s = some (front, back))
    (x : List Char) : splitOnce pat (front ++ (pat ++ x)) = some (front, x) := by
  induction s generalizing front with
  | nil =>
    rw [splitOnce] at h
    split_ifs at h with hpat
    obtain ⟨rfl, rfl⟩ := Prod.mk.inj (Option.some.inj h)
    subst hpat
    cases x with
    | nil => rfl
    | cons c x => rw [List.nil_append, List.nil_append, splitOnce, if_pos List.nil_prefix]; rfl
  | cons c s ih =>
    rw [splitOnce] at h
    split_ifs at h with hpat
    · obtain ⟨rfl, rfl⟩ := Prod.mk.inj (Option.some.inj h)
      rw [List.nil_append]
      cases hx : pat ++ x with
      | nil =>
        obtain ⟨rfl, rfl⟩ := List.append_eq_nil_iff.mp hx
        rfl
      | cons d rest =>
        rw [splitOnce, if_pos (hx ▸ List.prefix_append pat x), ← hx, List.drop_left]
    · obtain ⟨⟨front', back'⟩, hrest, heq⟩ := Option.map_eq_some_iff.mp h
      obtain ⟨rfl, rfl⟩ := Prod.mk.inj heq
      have hnot : ¬ pat <+: c :: (front' ++ (pat ++ x)) := by
        intro hp
        have hlong : pat <+: c :: (front' ++ pat) := by
          refine List.prefix_of_prefix_length_le hp ⟨x, by simp⟩ ?_
          simp only [List.length_cons, List.length_append]
          omega
        refine hpat (hlong.trans ⟨back', ?_⟩)
        rw [splitOnce_eq hrest, List.cons_append, List.append_assoc]
      rw [List.cons_append, splitOnce, if_neg hnot, ih hrest]
      rfl

/-- Splitting behind a line. -/
theorem splitCrlf_append {line : List Char} (h : '\r' ∉ line) (rest : List Char) :
    splitCrlf (line ++ '\r' :: '\n' :: rest) = line :: splitCrlf rest := by
  induction line with
  | nil => rw [List.nil_append, splitCrlf, if_pos ⟨rfl, rfl⟩]
  | cons c line ih =>
    obtain ⟨hne, hline⟩ := not_or.mp (List.mem_cons.not.mp h)
    have hrest := ih hline
    cases line with
    | nil =>
      rw [List.nil_append] at hrest
      rw [List.singleton_append, splitCrlf, if_neg fun heq => hne heq.1.symm, hrest, consChar]
    | cons d line =>
      rw [List.cons_append] at hrest
      rw [List.cons_append, List.cons_append, splitCrlf, if_neg fun heq => hne heq.1.symm, hrest,
        consChar]

/-- Splitting at the last occurrence. -/
theorem rsplitOnce_eq_some {c : Char} {s front back : List Char} :
    rsplitOnce c s = some (front, back) ↔ s = front ++ c :: back ∧ c ∉ back := by
  have hreverse : ∀ t, s.reverse = back.reverse ++ c :: t ↔ s = t.reverse ++ c :: back := by
    intro t
    rw [← List.reverse_inj, List.reverse_reverse]
    simp
  rw [rsplitOnce, Option.map_eq_some_iff]
  constructor
  · rintro ⟨⟨p, q⟩, hcut, heq⟩
    obtain ⟨rfl, rfl⟩ := Prod.mk.inj heq
    obtain ⟨hs, hmem⟩ := cut_eq_some_iff.mp hcut
    rw [List.reverse_reverse] at hreverse
    exact ⟨(hreverse q).mp hs, by rwa [List.mem_reverse]⟩
  · rintro ⟨rfl, hmem⟩
    refine ⟨(back.reverse, front.reverse), ?_, by simp⟩
    rw [List.reverse_append, List.reverse_cons, List.append_assoc, List.singleton_append]
    exact cut_append_cons (by rwa [List.mem_reverse])

/-- There is nothing to split at. -/
theorem rsplitOnce_eq_none {c : Char} {s : List Char} : rsplitOnce c s = none ↔ c ∉ s := by
  rw [rsplitOnce, Option.map_eq_none_iff, cut_eq_none_iff, List.mem_reverse]

/-- The first of the parts between the occurrences of a character. -/
theorem headD_splitOn (c : Char) (s default : List Char) :
    (s.splitOn c).headD default = s.takeWhile (· ≠ c) := by
  induction s with
  | nil => simp
  | cons d s ih =>
    rw [List.splitOn_cons_eq_if_modifyHead]
    by_cases hd : d = c
    · simp [hd]
    · obtain ⟨first, rest, hsplit⟩ := List.exists_cons_of_ne_nil (List.splitOn_ne_nil c s)
      rw [hsplit] at ih ⊢
      simp only [List.headD_cons] at ih
      simp [hd, ih]

/-! ## Trimming and digits -/

/-- A text is not trimmed at its start where it does not start with the character. -/
theorem trimStartMatches_eq_self {c : Char} {s : List Char} :
    trimStartMatches c s = s ↔ s.head? ≠ some c := by
  cases s with
  | nil => simp [trimStartMatches]
  | cons d s =>
    by_cases hd : d = c
    · have hlength := (List.dropWhile_suffix (l := s) (· == c)).length_le
      simp only [trimStartMatches, hd, List.dropWhile_cons, beq_self_eq_true, if_true,
        List.head?_cons, ne_eq, not_true_eq_false, iff_false]
      intro heq
      have := congrArg List.length heq
      rw [List.length_cons] at this
      omega
    · simp [trimStartMatches, hd]

/-- A text is not trimmed at its end where it does not end with the character. -/
theorem trimEndMatches_eq_self {c : Char} {s : List Char} :
    trimEndMatches c s = s ↔ s.getLast? ≠ some c := by
  have hstart := @trimStartMatches_eq_self c s.reverse
  rw [List.head?_reverse] at hstart
  rw [← hstart, trimEndMatches, trimStartMatches, List.reverse_eq_iff]

/-- What is trimmed at the end is the character, so many times. -/
theorem trimEndMatches_append (c : Char) (s : List Char) :
    ∃ back, s = trimEndMatches c s ++ back ∧ ∀ d ∈ back, d = c := by
  refine ⟨(s.reverse.takeWhile (· == c)).reverse, ?_, fun d hd => ?_⟩
  · rw [trimEndMatches, ← List.reverse_append, List.takeWhile_append_dropWhile,
      List.reverse_reverse]
  · have hchar := List.mem_takeWhile_imp (List.mem_reverse.mp hd)
    exact beq_iff_eq.mp hchar

/-- ASCII white space is white space. -/
theorem isWhitespace_of_ascii {c : Char} (h : isAsciiWhitespace c = true) :
    isWhitespace c = true := by
  simp only [isAsciiWhitespace, Bool.or_eq_true, beq_iff_eq] at h
  rcases h with (((rfl | rfl) | rfl) | rfl) | rfl <;> rfl

/-- White space in front of a text is trimmed. -/
theorem trim_append_left {blank : List Char} (h : ∀ c ∈ blank, isWhitespace c = true)
    (s : List Char) : trim (blank ++ s) = trim s := by
  rw [trim, trimStart, List.dropWhile_append_of_pos h]
  rfl

/-- White space behind a text is trimmed. -/
theorem trim_append_right {blank : List Char} (h : ∀ c ∈ blank, isWhitespace c = true)
    (s : List Char) : trim (s ++ blank) = trim s := by
  have hend : ∀ t, trimEnd (t ++ blank) = trimEnd t := by
    intro t
    have hreverse : ∀ c ∈ blank.reverse, isWhitespace c = true := by simpa using h
    rw [trimEnd, List.reverse_append, List.dropWhile_append_of_pos hreverse]
    rfl
  rw [trim, trimStart, List.dropWhile_append, trim, trimStart]
  split_ifs with hall
  · have hdrop : (blank ++ []).dropWhile isWhitespace = [] := List.dropWhile_append_of_pos h
    rw [List.append_nil] at hdrop
    rw [hdrop, List.isEmpty_iff.mp hall]
  · exact hend _

/-- White space around a text is trimmed. -/
theorem trim_between {left right : List Char} (h : ∀ c ∈ left ++ right, isWhitespace c = true)
    (s : List Char) : trim (left ++ s ++ right) = trim s := by
  rw [trim_append_right fun c hc => h c (List.mem_append_right _ hc),
    trim_append_left fun c hc => h c (List.mem_append_left _ hc)]

/-- Text that is empty or has no white space at its ends is not trimmed. -/
theorem trim_of_ends {s : List Char} (hfirst : ∀ c, s.head? = some c → isWhitespace c = false)
    (hlast : ∀ c, s.getLast? = some c → isWhitespace c = false) : trim s = s := by
  have key : ∀ l : List Char, (∀ c, l.head? = some c → isWhitespace c = false) →
      l.dropWhile isWhitespace = l := by
    intro l hl
    cases l with
    | nil => rfl
    | cons c cs => exact List.dropWhile_cons_of_neg (by simp [hl c rfl])
  have hreverse : ∀ c, s.reverse.head? = some c → isWhitespace c = false := by
    rwa [List.head?_reverse]
  rw [trim, trimStart, key s hfirst, trimEnd, key s.reverse hreverse, List.reverse_reverse]

/-- Text without white space is not trimmed. -/
theorem trim_eq_self {s : List Char} (h : ∀ c ∈ s, isWhitespace c = false) : trim s = s :=
  trim_of_ends (fun c hc => h c (List.mem_of_mem_head? hc))
    (fun c hc => h c (List.mem_of_getLast? hc))

/-- A text is what is left of it without the white space around it, and that white space. -/
theorem exists_trim (s : List Char) : ∃ left right, s = left ++ trim s ++ right ∧
    ∀ c ∈ left ++ right, isWhitespace c = true := by
  have hblank : ∀ (l : List Char) (c : Char),
      c ∈ l.takeWhile isWhitespace → isWhitespace c = true :=
    fun l c => List.mem_takeWhile_imp
  refine ⟨s.takeWhile isWhitespace, ((trimStart s).reverse.takeWhile isWhitespace).reverse, ?_, ?_⟩
  · have hend : trim s ++ ((trimStart s).reverse.takeWhile isWhitespace).reverse = trimStart s := by
      rw [trim, trimEnd, ← List.reverse_append, List.takeWhile_append_dropWhile,
        List.reverse_reverse]
    rw [List.append_assoc, hend, trimStart, List.takeWhile_append_dropWhile]
  · intro c hc
    rcases List.mem_append.mp hc with hc | hc
    · exact hblank s c hc
    · exact hblank _ c (List.mem_reverse.mp hc)

/-- The code point of a lower case. -/
theorem toNat_toLower (c : Char) :
    c.toLower.toNat = if 65 ≤ c.toNat ∧ c.toNat ≤ 90 then c.toNat + 32 else c.toNat := by
  have hiff : ('A'.val ≤ c.val ∧ c.val ≤ 'Z'.val) ↔ (65 ≤ c.toNat ∧ c.toNat ≤ 90) := Iff.rfl
  delta Char.toLower
  split
  next h =>
    have h' := hiff.mp h
    rw [if_pos h']
    show (c.toNat + 32) % 2 ^ 32 = c.toNat + 32
    omega
  next h => rw [if_neg (fun h' => h (hiff.mpr h'))]

/-- The number a digit string denotes after `acc`, reading a character that is no digit as
zero. -/
def digitsValue (radix : ℕ) (acc : ℕ) (cs : List Char) : ℕ :=
  cs.foldl (fun acc c => acc * radix + (toDigit radix c).getD 0) acc

/-- Reading more digits never makes the number smaller. -/
theorem le_digitsValue {radix : ℕ} (hr : 0 < radix) (cs : List Char) :
    ∀ acc, acc ≤ digitsValue radix acc cs := by
  induction cs with
  | nil => exact fun _ => Nat.le_refl _
  | cons c cs ih =>
    intro acc
    calc acc ≤ acc * radix := Nat.le_mul_of_pos_right acc hr
      _ ≤ acc * radix + (toDigit radix c).getD 0 := Nat.le_add_right _ _
      _ ≤ digitsValue radix acc (c :: cs) := ih _

/-- The digit loop computes the number denoted, if it stays below the bound. -/
theorem parseDigits_eq {radix bound : ℕ} (hr : 0 < radix) (cs : List Char) :
    ∀ acc, (∀ c ∈ cs, (toDigit radix c).isSome) → digitsValue radix acc cs < bound →
      parseDigits radix bound acc cs = some (digitsValue radix acc cs) := by
  induction cs with
  | nil => exact fun _ _ _ => rfl
  | cons c cs ih =>
    intro acc hd hb
    simp only [List.mem_cons, forall_eq_or_imp] at hd
    obtain ⟨d, hc⟩ := Option.isSome_iff_exists.mp hd.1
    have hv : digitsValue radix acc (c :: cs) = digitsValue radix (acc * radix + d) cs := by
      simp [digitsValue, hc]
    have hlt : acc * radix + d < bound :=
      Nat.lt_of_le_of_lt (le_digitsValue hr cs _) (hv ▸ hb)
    rw [parseDigits, hc, hv]
    simp only [hlt, ↓reduceIte]
    exact ih _ hd.2 (hv ▸ hb)

/-- A non-empty digit string parses to the number it denotes, if that fits the type. -/
theorem fromStrRadix_digits {radix bound : ℕ} (hr : 0 < radix) {cs : List Char} (hne : cs ≠ [])
    (hd : ∀ c ∈ cs, (toDigit radix c).isSome) (hb : digitsValue radix 0 cs < bound) :
    fromStrRadix radix bound cs = some (digitsValue radix 0 cs) := by
  cases cs with
  | nil => exact absurd rfl hne
  | cons c cs =>
    have hplus : c ≠ '+' := by
      rintro rfl
      have := hd '+' (by simp)
      simp [toDigit] at this
    rw [← parseDigits_eq hr _ 0 hd hb]
    unfold fromStrRadix
    split <;> simp_all

/-- A character of a decimal number is its digit. -/
theorem toDigit_of_isDigit {c : Char} (h : c.isDigit = true) :
    toDigit 10 c = some (c.toNat - '0'.toNat) := by
  have hrange : '0'.toNat ≤ c.toNat ∧ c.toNat ≤ '9'.toNat := by
    simp only [Char.isDigit, Bool.and_eq_true, decide_eq_true_eq] at h
    exact ⟨h.1, h.2⟩
  have hlt : c.toNat - '0'.toNat < 10 := by
    have hnine : '9'.toNat = '0'.toNat + 9 := rfl
    omega
  simp only [toDigit]
  rw [if_pos hrange, if_pos hlt]

/-- The number some decimal digits denote. -/
theorem digitsValue_ten {cs : List Char} (h : ∀ c ∈ cs, c.isDigit = true) (acc : ℕ) :
    digitsValue 10 acc cs = Nat.ofDigitChars 10 cs acc := by
  induction cs generalizing acc with
  | nil => rfl
  | cons c cs ih =>
    obtain ⟨hc, hcs⟩ := List.forall_mem_cons.mp h
    rw [Nat.ofDigitChars_cons, ← ih hcs, digitsValue, List.foldl_cons, toDigit_of_isDigit hc,
      Option.getD_some, Nat.mul_comm acc]
    rfl

/-- A decimal number is parsed back, if it fits the type. -/
theorem fromStrRadix_toDigits {n bound : ℕ} (h : n < bound) :
    fromStrRadix 10 bound (Nat.toDigits 10 n) = some n := by
  have hdigits : ∀ c ∈ Nat.toDigits 10 n, c.isDigit = true := fun c hc =>
    Nat.isDigit_of_mem_toDigits (by decide) (by decide) hc
  have hvalue : digitsValue 10 0 (Nat.toDigits 10 n) = n := by
    rw [digitsValue_ten hdigits, Nat.ofDigitChars_ten_toDigits]
  have hne : Nat.toDigits 10 n ≠ [] := List.ne_nil_of_length_pos Nat.length_toDigits_pos
  rw [fromStrRadix_digits (by decide) hne, hvalue]
  · exact fun c hc => by rw [toDigit_of_isDigit (hdigits c hc)]; rfl
  · rwa [hvalue]

/-- What is read is read of a digit and what follows it, if it fits the type so far. -/
theorem parseDigits_cons_eq_some {radix bound acc n : ℕ} {c : Char} {cs : List Char}
    (h : parseDigits radix bound acc (c :: cs) = some n) :
    ∃ d, toDigit radix c = some d ∧ acc * radix + d < bound ∧
      parseDigits radix bound (acc * radix + d) cs = some n := by
  rw [parseDigits] at h
  cases hdigit : toDigit radix c with
  | none => simp [hdigit] at h
  | some d =>
    simp only [hdigit] at h
    split_ifs at h with hlt
    exact ⟨d, rfl, hlt, h⟩

/-- What is read digit by digit consists of digits. -/
theorem toDigit_of_parseDigits {radix bound acc n : ℕ} {cs : List Char}
    (h : parseDigits radix bound acc cs = some n) : ∀ c ∈ cs, (toDigit radix c).isSome := by
  induction cs generalizing acc with
  | nil => simp
  | cons c cs ih =>
    obtain ⟨d, hdigit, -, hrest⟩ := parseDigits_cons_eq_some h
    exact List.forall_mem_cons.mpr ⟨by rw [hdigit]; rfl, ih hrest⟩

/-- What is read digit by digit is the number denoted. -/
theorem eq_of_parseDigits {radix bound acc n : ℕ} {cs : List Char}
    (h : parseDigits radix bound acc cs = some n) : n = digitsValue radix acc cs := by
  induction cs generalizing acc with
  | nil => exact (Option.some.inj h).symm
  | cons c cs ih =>
    obtain ⟨d, hdigit, -, hrest⟩ := parseDigits_cons_eq_some h
    rw [ih hrest, digitsValue, digitsValue, List.foldl_cons, hdigit]
    rfl

/-- A number consists of digits, and perhaps a sign. -/
theorem toDigit_of_fromStrRadix {radix bound n : ℕ} {cs : List Char}
    (h : fromStrRadix radix bound cs = some n) : ∀ c ∈ cs, c = '+' ∨ (toDigit radix c).isSome := by
  intro c hc
  unfold fromStrRadix at h
  split at h
  · cases h
  · cases h
  · rcases List.mem_cons.mp hc with rfl | hc
    · exact .inl rfl
    · exact .inr (toDigit_of_parseDigits h c hc)
  · exact .inr (toDigit_of_parseDigits h c hc)

/-- A digit is no whitespace. -/
theorem isWhitespace_of_toDigit {radix : ℕ} {c : Char} (h : (toDigit radix c).isSome) :
    isWhitespace c = false := by
  simp only [toDigit] at h
  simp only [isWhitespace]
  split_ifs at h <;> simp_all <;> omega

/-- Digits, at least one, that denote a number. -/
structure IsNumeral (radix : ℕ) (text : List Char) (n : ℕ) : Prop where
  nonempty : text ≠ []
  digits : ∀ c ∈ text, (toDigit radix c).isSome
  value : digitsValue radix 0 text = n

instance (radix : ℕ) (text : List Char) (n : ℕ) : Decidable (IsNumeral radix text n) :=
  decidable_of_iff (text ≠ [] ∧ text.all (fun c => (toDigit radix c).isSome) = true ∧
    digitsValue radix 0 text = n)
    ⟨fun h => ⟨h.1, List.all_eq_true.mp h.2.1, h.2.2⟩,
      fun h => ⟨h.nonempty, List.all_eq_true.mpr h.digits, h.value⟩⟩

/-- A sign is no digit. -/
theorem not_isNumeral_plus {radix : ℕ} {text : List Char} {n : ℕ} :
    ¬ IsNumeral radix ('+' :: text) n := by
  intro h
  have hdigit := h.digits '+' List.mem_cons_self
  simp [toDigit] at hdigit

/-- What is read digit by digit fits the type. -/
theorem lt_of_parseDigits {radix bound acc n : ℕ} {cs : List Char} (hacc : acc < bound ∨ cs ≠ [])
    (h : parseDigits radix bound acc cs = some n) : n < bound := by
  induction cs generalizing acc with
  | nil =>
    obtain rfl := Option.some.inj h
    exact hacc.resolve_right fun hne => hne rfl
  | cons c cs ih =>
    obtain ⟨d, -, hlt, hrest⟩ := parseDigits_cons_eq_some h
    exact ih (.inl hlt) hrest

/-- The digit loop reads numerals of numbers that fit the type. -/
theorem parseDigits_eq_some_iff {radix bound n : ℕ} (hr : 0 < radix) {cs : List Char}
    (hne : cs ≠ []) :
    parseDigits radix bound 0 cs = some n ↔ n < bound ∧ IsNumeral radix cs n := by
  constructor
  · intro h
    exact ⟨lt_of_parseDigits (.inr hne) h, hne, toDigit_of_parseDigits h,
      (eq_of_parseDigits h).symm⟩
  · rintro ⟨hlt, -, hdigits, rfl⟩
    exact parseDigits_eq hr cs 0 hdigits hlt

/-- **Reading a number.** What is read is a numeral, perhaps behind a plus sign, of a number that
fits the type. -/
theorem fromStrRadix_eq_some_iff {radix bound n : ℕ} (hr : 0 < radix) {cs : List Char} :
    fromStrRadix radix bound cs = some n ↔
      n < bound ∧ ∃ sign digits, cs = sign ++ digits ∧ (sign = [] ∨ sign = ['+']) ∧
        IsNumeral radix digits n := by
  constructor
  · intro h
    unfold fromStrRadix at h
    split at h
    · cases h
    · cases h
    · next digits hne =>
      obtain ⟨hlt, hdigits⟩ := (parseDigits_eq_some_iff hr fun hnil => hne (by rw [hnil])).mp h
      exact ⟨hlt, ['+'], digits, rfl, .inr rfl, hdigits⟩
    · next hne _ _ =>
      obtain ⟨hlt, hdigits⟩ := (parseDigits_eq_some_iff hr fun hnil => hne hnil).mp h
      exact ⟨hlt, [], cs, rfl, .inl rfl, hdigits⟩
  · rintro ⟨hlt, sign, digits, rfl, rfl | rfl, hdigits⟩
    · have hread := fromStrRadix_digits hr hdigits.nonempty hdigits.digits (by rwa [hdigits.value])
      rw [List.nil_append, hread, hdigits.value]
    · have hread := (parseDigits_eq_some_iff hr hdigits.nonempty).mpr ⟨hlt, hdigits⟩
      obtain ⟨d, ds, rfl⟩ := List.exists_cons_of_ne_nil hdigits.nonempty
      exact hread

end Lager
