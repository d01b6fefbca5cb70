import Lager.Nets.Debug
import Lager.Nets.Sio

set_option relaxedAutoImplicit false
set_option autoImplicit false

/-!
# Hexadecimal data

Bytes go over the wire as hexadecimal digits. There are two codecs, one for the answers of commands
and one for the streaming sessions; both leave it to the parser of integers to read two digits, and
that parser also takes a sign. Only the first one makes sure that a text is ASCII before it slices
it by its bytes.

## Main definitions

* `Lager.hexEncode` — the encoder for commands.
* `Lager.Denotes` — the bytes that pairs of digits denote.
* `Lager.HexExact`, `Lager.HasSignedPair` — a text is accepted just when it consists of digits, and
  what is accepted besides.
* `Lager.SameCodec`, `Lager.SplitsCharacter` — the two decoders do the same, and where the second
  one panics.

## Main results

* `Lager.hexExact_iff` — which texts are accepted exactly.
* `Lager.sameCodec_iff` — on which texts the two decoders do the same.
* `Lager.hexDecode_spelled` — both decoders read what either encoder writes.
-/

namespace Lager

open Library

/-! ## Digits -/

/-- `hex_encode`. -/
def hexEncode (data : List UInt8) : String := String.ofList (data.flatMap lowerHex)

/-- The digits, but for upper case. -/
def hexDigits : List Char :=
  ['0', '1', '2', '3', '4', '5', '6', '7', '8', '9', 'a', 'b', 'c', 'd', 'e', 'f']

/-- A digit, in lower or upper case. -/
def IsHexDigit (c : Char) : Prop := c.toLower ∈ hexDigits

/-- The value of a digit. -/
def hexValue (c : Char) : ℕ := hexDigits.idxOf c.toLower

/-- A text of pairs of characters. -/
def unpair (pairs : List (Char × Char)) : List Char := pairs.flatMap fun p => [p.1, p.2]

/-- A text consists of pairs of digits that denote these bytes. -/
def Denotes (text : List Char) (bytes : List UInt8) : Prop :=
  ∃ pairs, text = unpair pairs ∧ List.Forall₂ (fun p b => IsHexDigit p.1 ∧ IsHexDigit p.2 ∧
    b = UInt8.ofNat (16 * hexValue p.1 + hexValue p.2)) pairs bytes

/-- A character with the lower case of a digit is read as that digit. -/
theorem toDigit_of_toLower {c : Char} {n : ℕ} (hn : n < 16) (h : c.toLower = lowerDigit n) :
    toDigit 16 c = some n := by
  have hnat := congrArg Char.toNat h
  have hdigit : (lowerDigit n).toNat = if n < 10 then 48 + n else 87 + n := by
    interval_cases n <;> rfl
  rw [toNat_toLower, hdigit] at hnat
  simp only [toDigit, Char.reduceToNat]
  split_ifs at hnat ⊢ <;> first | omega | exact congrArg some (by omega)

/-- A character that is read is a digit, with that value. -/
theorem toLower_of_toDigit {c : Char} {n : ℕ} (h : toDigit 16 c = some n) :
    n < 16 ∧ c.toLower = lowerDigit n := by
  simp only [toDigit, Char.reduceToNat] at h
  have hn : n < 16 := by
    split_ifs at h <;> cases h <;> omega
  have hdigit : (lowerDigit n).toNat = if n < 10 then 48 + n else 87 + n := by
    interval_cases n <;> rfl
  refine ⟨hn, Char.toNat_inj.mp ?_⟩
  rw [toNat_toLower, hdigit]
  split_ifs at h <;> cases h <;> split_ifs <;> omega

/-- The digits in lower case, by their values. -/
theorem lowerDigit_mem {n : ℕ} (hn : n < 16) :
    lowerDigit n ∈ hexDigits ∧ hexDigits.idxOf (lowerDigit n) = n := by
  interval_cases n <;> decide

/-- A character is read as a digit just when it is one. -/
theorem toDigit_eq_some_iff {c : Char} {n : ℕ} :
    toDigit 16 c = some n ↔ IsHexDigit c ∧ hexValue c = n := by
  constructor
  · intro h
    obtain ⟨hn, hlower⟩ := toLower_of_toDigit h
    obtain ⟨hmem, hvalue⟩ := lowerDigit_mem hn
    rw [IsHexDigit, hexValue, hlower]
    exact ⟨hmem, hvalue⟩
  · rintro ⟨hdigit, rfl⟩
    have hlt : hexValue c < 16 := List.idxOf_lt_length_of_mem hdigit
    refine toDigit_of_toLower hlt ?_
    have hget : hexDigits.get ⟨hexValue c, hlt⟩ = c.toLower := List.getElem_idxOf hlt
    have hall : ∀ n (hn : n < 16), hexDigits.get ⟨n, hn⟩ = lowerDigit n := by
      intro n hn
      interval_cases n <;> rfl
    rw [← hget]
    exact hall _ hlt

/-- A character that is no digit is not read. -/
theorem toDigit_eq_none_iff {c : Char} : toDigit 16 c = none ↔ ¬ IsHexDigit c := by
  rw [Option.eq_none_iff_forall_not_mem]
  constructor
  · intro h hdigit
    exact h _ (toDigit_eq_some_iff.mpr ⟨hdigit, rfl⟩)
  · intro h n hn
    exact h (toDigit_eq_some_iff.mp hn).1

/-- The value of a digit. -/
theorem hexValue_lt {c : Char} (h : IsHexDigit c) : hexValue c < 16 :=
  List.idxOf_lt_length_of_mem h

/-- One character more is read as a digit of a byte. -/
theorem parseDigits_sixteen {acc : ℕ} (hacc : acc < 16) (c : Char) (cs : List Char) :
    parseDigits 16 256 acc (c :: cs) =
      (toDigit 16 c).bind fun d => parseDigits 16 256 (acc * 16 + d) cs := by
  rw [parseDigits]
  cases hc : toDigit 16 c with
  | none => rfl
  | some d =>
    have hd := (toLower_of_toDigit hc).1
    exact if_pos (by omega)

/-- **Two characters.** They are read when they are two digits, and also when they are a sign and a
digit. -/
theorem fromStrRadix_pair {h l : Char} {n : ℕ} :
    fromStrRadix 16 256 [h, l] = some n ↔ IsHexDigit l ∧
      (IsHexDigit h ∧ n = 16 * hexValue h + hexValue l ∨ h = '+' ∧ n = hexValue l) := by
  by_cases hplus : h = '+'
  · subst hplus
    have hsign : ¬ IsHexDigit '+' := by
      rw [IsHexDigit]
      decide
    show parseDigits 16 256 0 [l] = some n ↔ _
    rw [parseDigits_sixteen (by decide), Option.bind_eq_some_iff]
    simp only [parseDigits, toDigit_eq_some_iff, Option.some.injEq, hsign, false_and, true_and,
      false_or]
    constructor
    · rintro ⟨d, ⟨hl, hd⟩, rfl⟩
      exact ⟨hl, by omega⟩
    · rintro ⟨hl, rfl⟩
      exact ⟨_, ⟨hl, rfl⟩, by omega⟩
  · have hread : fromStrRadix 16 256 [h, l] = parseDigits 16 256 0 [h, l] := by
      unfold fromStrRadix
      split <;> simp_all
    rw [hread, parseDigits_sixteen (by decide), Option.bind_eq_some_iff]
    constructor
    · rintro ⟨d, hd, hrest⟩
      have hlt := (toLower_of_toDigit hd).1
      rw [parseDigits_sixteen (by omega), Option.bind_eq_some_iff] at hrest
      obtain ⟨e, he, hrest⟩ := hrest
      obtain ⟨hh, rfl⟩ := toDigit_eq_some_iff.mp hd
      obtain ⟨hl, rfl⟩ := toDigit_eq_some_iff.mp he
      have hn := Option.some.inj hrest
      exact ⟨hl, .inl ⟨hh, by omega⟩⟩
    · rintro ⟨hl, ⟨hh, rfl⟩ | ⟨rfl, -⟩⟩
      · refine ⟨_, toDigit_eq_some_iff.mpr ⟨hh, rfl⟩, ?_⟩
        have hlt := hexValue_lt hh
        rw [parseDigits_sixteen (by omega), toDigit_eq_some_iff.mpr ⟨hl, rfl⟩]
        exact congrArg some (by omega)
      · exact absurd rfl hplus

/-! ## Pairs -/

/-- A pair in front of others. -/
@[simp] theorem unpair_cons (p : Char × Char) (pairs : List (Char × Char)) :
    unpair (p :: pairs) = p.1 :: p.2 :: unpair pairs := rfl

/-- The characters of pairs. -/
theorem mem_unpair {c : Char} {pairs : List (Char × Char)} :
    c ∈ unpair pairs ↔ ∃ p ∈ pairs, c = p.1 ∨ c = p.2 := by
  simp [unpair]

/-- Pairs of characters are an even number. -/
theorem length_unpair (pairs : List (Char × Char)) : (unpair pairs).length = 2 * pairs.length := by
  induction pairs with
  | nil => rfl
  | cons p pairs ih =>
    rw [unpair_cons, List.length_cons, List.length_cons, ih, List.length_cons]
    omega

/-- An even number of characters is pairs. -/
theorem exists_unpair (text : List Char) (h : text.length % 2 = 0) :
    ∃ pairs, text = unpair pairs := by
  match text with
  | [] => exact ⟨[], rfl⟩
  | [_] => cases h
  | c :: d :: rest =>
    obtain ⟨pairs, hrest⟩ := exists_unpair rest (by
      rw [List.length_cons, List.length_cons] at h
      omega)
    exact ⟨(c, d) :: pairs, by rw [hrest, unpair_cons]⟩

/-- The bytes of a text are those of its pairs. -/
theorem hexBytes_eq_some_iff {text : List Char} {bytes : List UInt8} :
    hexBytes text = some bytes ↔ ∃ pairs, text = unpair pairs ∧ List.Forall₂ (fun p b =>
      ∃ n, fromStrRadix 16 256 [p.1, p.2] = some n ∧ b = UInt8.ofNat n) pairs bytes := by
  induction text using hexBytes.induct generalizing bytes with
  | case1 =>
    rw [hexBytes, Option.some.injEq]
    constructor
    · rintro rfl
      exact ⟨[], rfl, .nil⟩
    · rintro ⟨_ | ⟨p, pairs⟩, htext, hbytes⟩
      · cases hbytes
        rfl
      · cases htext
  | case2 c =>
    refine ⟨nofun, ?_⟩
    rintro ⟨pairs, htext, -⟩
    have hlength := congrArg List.length htext
    rw [length_unpair, List.length_singleton] at hlength
    omega
  | case3 h l rest ih =>
    simp only [hexBytes, Option.bind_eq_bind, Option.bind_eq_some_iff, Option.pure_def,
      Option.some.injEq]
    constructor
    · rintro ⟨n, hpair, others, hrest, rfl⟩
      obtain ⟨pairs, rfl, hpairs⟩ := ih.mp hrest
      exact ⟨(h, l) :: pairs, rfl, .cons ⟨n, hpair, rfl⟩ hpairs⟩
    · rintro ⟨_ | ⟨p, pairs⟩, htext, hbytes⟩
      · cases htext
      · cases htext
        obtain ⟨b, others, ⟨n, hpair, rfl⟩, hrest, rfl⟩ := List.forall₂_cons_left_iff.mp hbytes
        exact ⟨n, hpair, others, ih.mpr ⟨pairs, rfl, hrest⟩, rfl⟩

/-- A pair is read as a byte. -/
def IsPair (p : Char × Char) : Prop := (IsHexDigit p.1 ∨ p.1 = '+') ∧ IsHexDigit p.2

/-- A pair is read as a byte when it is two digits, or a sign and a digit. -/
theorem isSome_pair {p : Char × Char} : (fromStrRadix 16 256 [p.1, p.2]).isSome ↔ IsPair p := by
  rw [Option.isSome_iff_exists]
  constructor
  · rintro ⟨n, hn⟩
    obtain ⟨hl, hh⟩ := fromStrRadix_pair.mp hn
    exact ⟨hh.imp And.left And.left, hl⟩
  · rintro ⟨hh | hh, hl⟩
    · exact ⟨_, fromStrRadix_pair.mpr ⟨hl, .inl ⟨hh, rfl⟩⟩⟩
    · exact ⟨_, fromStrRadix_pair.mpr ⟨hl, .inr ⟨hh, rfl⟩⟩⟩

/-- A text is read when it is pairs that are. -/
theorem isSome_hexBytes {text : List Char} :
    (∃ bytes, hexBytes text = some bytes) ↔
      ∃ pairs, text = unpair pairs ∧ ∀ p ∈ pairs, IsPair p := by
  constructor
  · rintro ⟨bytes, h⟩
    obtain ⟨pairs, rfl, hpairs⟩ := hexBytes_eq_some_iff.mp h
    refine ⟨pairs, rfl, fun p hp => ?_⟩
    obtain ⟨b, -, n, hn, -⟩ := exists_of_mem_left hpairs p hp
    exact isSome_pair.mp (by rw [hn]; rfl)
  · rintro ⟨pairs, rfl, hpairs⟩
    induction pairs with
    | nil => exact ⟨[], rfl⟩
    | cons p pairs ih =>
      obtain ⟨hp, hrest⟩ := List.forall_mem_cons.mp hpairs
      obtain ⟨n, hn⟩ := Option.isSome_iff_exists.mp (isSome_pair.mpr hp)
      obtain ⟨bytes, hbytes⟩ := ih hrest
      exact ⟨UInt8.ofNat n :: bytes, by rw [unpair_cons, hexBytes, hn, hbytes]; rfl⟩

/-- A digit is ASCII. -/
theorem ascii_of_isHexDigit {c : Char} (h : IsHexDigit c) : c.toNat < 128 := by
  have hread := toDigit_eq_some_iff.mpr ⟨h, rfl⟩
  simp only [toDigit, Char.reduceToNat] at hread
  split_ifs at hread <;> omega

/-- What is read as bytes is ASCII. -/
theorem ascii_of_hexBytes {text : List Char} {bytes : List UInt8} (h : hexBytes text = some bytes) :
    ∀ c ∈ text, c.toNat < 128 := by
  obtain ⟨pairs, rfl, hpairs⟩ := isSome_hexBytes.mp ⟨bytes, h⟩
  intro c hc
  obtain ⟨p, hp, hc⟩ := mem_unpair.mp hc
  obtain ⟨hh, hl⟩ := hpairs p hp
  rcases hc with rfl | rfl
  · rcases hh with hh | hh
    · exact ascii_of_isHexDigit hh
    · rw [hh]
      decide
  · exact ascii_of_isHexDigit hl

/-- A text that is read denotes what it is read as, if there is no sign in it. -/
theorem denotes_of_hexBytes {text : List Char} {bytes : List UInt8} (h : hexBytes text = some bytes)
    (hsign : '+' ∉ text) : Denotes text bytes := by
  obtain ⟨pairs, rfl, hpairs⟩ := hexBytes_eq_some_iff.mp h
  refine ⟨pairs, rfl, ?_⟩
  induction hpairs with
  | nil => exact .nil
  | @cons p b pairs bytes hpair hrest ih =>
    obtain ⟨n, hn, rfl⟩ := hpair
    obtain ⟨hl, ⟨hh, rfl⟩ | ⟨hplus, -⟩⟩ := fromStrRadix_pair.mp hn
    · refine .cons ⟨hh, hl, rfl⟩ (ih ?_ ?_)
      · exact hexBytes_eq_some_iff.mpr ⟨pairs, rfl, hrest⟩
      · exact fun hmem => hsign (List.mem_cons_of_mem _ (List.mem_cons_of_mem _ hmem))
    · exact absurd (hplus ▸ List.mem_cons_self) hsign

/-! ## What is accepted -/

/-- **The decoder for answers.** It reads the pairs of a text, but for white space around it. -/
theorem hexDecode_eq_ok_iff {s : String} {bytes : List UInt8} :
    hexDecode s = .ok bytes ↔ hexBytes (trim s.toList) = some bytes := by
  simp only [hexDecode]
  by_cases hascii : (trim s.toList).all fun c => c.toNat < 128
  · rw [if_pos hascii]
    cases hexBytes (trim s.toList) <;> simp
  · rw [if_neg hascii]
    refine ⟨nofun, fun h => absurd ?_ hascii⟩
    simpa using ascii_of_hexBytes h

/-- A text is accepted just when it is an even number of digits, but for white space around it, and
then read as the bytes these denote; any other text is an error. -/
structure HexExact (s : String) : Prop where
  accepts : (∃ bytes, hexDecode s = .ok bytes) ↔
    (trim s.toList).length % 2 = 0 ∧ ∀ c ∈ trim s.toList, IsHexDigit c
  reads : ∀ bytes, hexDecode s = .ok bytes → Denotes (trim s.toList) bytes
  refuses : ∀ err, hexDecode s = .error err → ∃ message, err = .decode message

/-- A text consists of pairs that are two digits, or a sign and a digit, and there is a sign. -/
def HasSignedPair (text : List Char) : Prop :=
  ∃ pairs, text = unpair pairs ∧ (∀ p ∈ pairs, IsPair p) ∧ ∃ p ∈ pairs, p.1 = '+'

/-- A sign is no digit. -/
theorem not_isHexDigit_plus : ¬ IsHexDigit '+' := by
  rw [IsHexDigit]
  decide

/-- **Accepted texts.** A text is accepted exactly, unless it has signs in front of digits. -/
theorem hexExact_iff (s : String) : HexExact s ↔ ¬ HasSignedPair (trim s.toList) := by
  generalize htrim : trim s.toList = text
  constructor
  · rintro hexact ⟨pairs, rfl, hpairs, p, hp, hplus⟩
    obtain ⟨bytes, hbytes⟩ := isSome_hexBytes.mpr ⟨pairs, rfl, hpairs⟩
    have hdigits := (hexact.accepts.mp ⟨bytes, hexDecode_eq_ok_iff.mpr (htrim ▸ hbytes)⟩).2
    refine not_isHexDigit_plus (hplus ▸ hdigits p.1 ?_)
    rw [htrim]
    exact mem_unpair.mpr ⟨p, hp, .inl rfl⟩
  · intro hsigned
    have hsign : ∀ bytes, hexBytes text = some bytes → '+' ∉ text := by
      intro bytes hbytes hmem
      obtain ⟨pairs, rfl, hpairs⟩ := isSome_hexBytes.mp ⟨bytes, hbytes⟩
      obtain ⟨p, hp, hplus | hplus⟩ := mem_unpair.mp hmem
      · exact hsigned ⟨pairs, rfl, hpairs, p, hp, hplus.symm⟩
      · exact not_isHexDigit_plus (hplus ▸ (hpairs p hp).2)
    refine ⟨?_, ?_, ?_⟩
    · simp only [hexDecode_eq_ok_iff, htrim]
      constructor
      · rintro ⟨bytes, hbytes⟩
        obtain ⟨pairs, htext, hdigits⟩ := denotes_of_hexBytes hbytes (hsign bytes hbytes)
        refine ⟨by rw [htext, length_unpair]; omega, fun c hc => ?_⟩
        obtain ⟨p, hp, hc⟩ := mem_unpair.mp (htext ▸ hc)
        obtain ⟨b, -, hh, hl, -⟩ := exists_of_mem_left hdigits p hp
        rcases hc with rfl | rfl
        · exact hh
        · exact hl
      · rintro ⟨heven, hdigits⟩
        obtain ⟨pairs, rfl⟩ := exists_unpair text heven
        refine isSome_hexBytes.mpr ⟨pairs, rfl, fun p hp => ⟨.inl ?_, ?_⟩⟩
        · exact hdigits _ (mem_unpair.mpr ⟨p, hp, .inl rfl⟩)
        · exact hdigits _ (mem_unpair.mpr ⟨p, hp, .inr rfl⟩)
    · intro bytes hbytes
      rw [hexDecode_eq_ok_iff, htrim] at hbytes
      exact htrim ▸ denotes_of_hexBytes hbytes (hsign bytes hbytes)
    · intro err herr
      simp only [hexDecode] at herr
      split at herr
      · cases herr
      · exact ⟨_, (Except.error.inj herr).symm⟩

/-- A text with a sign in front of a digit is accepted as a byte, also where it is what was read
from memory. -/
theorem not_hexExact_plus :
    hexDecode "+f" = .ok [15] ∧ debugMemoryBytes (.object [("data", .string "+f")]) = .ok [15] ∧
      ¬ ∀ s, HexExact s := by
  have hread : hexDecode "+f" = .ok [15] := by decide +kernel
  have hmemory : debugMemoryBytes (.object [("data", .string "+f")]) = .ok [15] := by
    decide +kernel
  refine ⟨hread, hmemory, fun h => ?_⟩
  have hdigits := ((h "+f").accepts.mp ⟨_, hread⟩).2
  exact not_isHexDigit_plus (hdigits '+' (by decide +kernel))

/-! ## The decoder of the sessions -/

/-- The two decoders do the same: the one of the sessions does not panic, and returns bytes just
when the other one does, the same bytes. -/
def SameCodec (s : String) : Prop :=
  ∃ r, Evaluates (sio.hexDecode s) r ∧ ∀ bytes, r = .ok bytes ↔ hexDecode s = .ok bytes

/-- Behind pairs that are read, and perhaps one more character, comes a character that does not end
where a pair ends. -/
def SplitsPair (text : List Char) : Prop :=
  ∃ pairs lone c back, text = unpair pairs ++ (lone ++ c :: back) ∧ (∀ p ∈ pairs, IsPair p) ∧
    (lone = [] ∧ 3 ≤ c.utf8Size ∨ ∃ a, lone = [a] ∧ a.utf8Size = 1 ∧ 2 ≤ c.utf8Size)

/-- A text that has an even number of bytes, and in which a character does not end where a pair ends
before any pair is refused. -/
def SplitsCharacter (text : List Char) : Prop := (asBytes text).length % 2 = 0 ∧ SplitsPair text

/-- Nothing is split in a text without characters. -/
theorem not_splitsPair_nil : ¬ SplitsPair [] := by
  rintro ⟨pairs, lone, c, back, htext, -⟩
  simp at htext

/-- A character of one byte is ASCII. -/
theorem utf8Size_eq_one {c : Char} : c.utf8Size = 1 ↔ c.toNat < 128 := by
  rw [Char.utf8Size_eq_one_iff]
  exact Nat.lt_succ_iff.symm

/-- The characters of a pair that is read are ASCII. -/
theorem IsPair.ascii {p : Char × Char} (h : IsPair p) : p.1.utf8Size = 1 ∧ p.2.utf8Size = 1 := by
  obtain ⟨hh | hh, hl⟩ := h
  · exact ⟨utf8Size_eq_one.mpr (ascii_of_isHexDigit hh),
      utf8Size_eq_one.mpr (ascii_of_isHexDigit hl)⟩
  · exact ⟨by rw [hh]; rfl, utf8Size_eq_one.mpr (ascii_of_isHexDigit hl)⟩

/-- Nothing is split in a text that is ASCII. -/
theorem not_splitsPair_of_ascii {text : List Char} (h : ∀ c ∈ text, c.utf8Size = 1) :
    ¬ SplitsPair text := by
  rintro ⟨pairs, lone, c, back, rfl, -, hcase⟩
  have hc := h c (by simp)
  obtain ⟨-, hwide⟩ | ⟨-, -, -, hwide⟩ := hcase <;> omega

/-- A character that is not ASCII is split when it is longer than a pair. -/
theorem splitsPair_of_wide {c : Char} (hc : 2 ≤ c.utf8Size) (rest : List Char) :
    SplitsPair (c :: rest) ↔ 3 ≤ c.utf8Size := by
  constructor
  · rintro ⟨pairs, lone, c', back, htext, hpairs, hcase⟩
    cases pairs with
    | nil =>
      obtain ⟨rfl, hwide⟩ | ⟨a, rfl, ha, -⟩ := hcase
      · obtain ⟨rfl, -⟩ := List.cons.inj htext
        exact hwide
      · obtain ⟨rfl, -⟩ := List.cons.inj htext
        omega
    | cons p pairs =>
      obtain ⟨rfl, -⟩ := List.cons.inj htext
      have hascii := (hpairs p List.mem_cons_self).ascii.1
      omega
  · intro hwide
    exact ⟨[], [], c, rest, rfl, by simp, .inl ⟨rfl, hwide⟩⟩

/-- A character that is not ASCII is split behind one that is. -/
theorem splitsPair_of_lone {a c : Char} (ha : a.utf8Size = 1) (hc : 2 ≤ c.utf8Size)
    (rest : List Char) : SplitsPair (a :: c :: rest) :=
  ⟨[], [a], c, rest, rfl, by simp, .inr ⟨a, rfl, ha, hc⟩⟩

/-- Behind two characters that are ASCII, a character is split when the two are read. -/
theorem splitsPair_cons_cons {h l : Char} (hh : h.utf8Size = 1) (hl : l.utf8Size = 1)
    (rest : List Char) : SplitsPair (h :: l :: rest) ↔ IsPair (h, l) ∧ SplitsPair rest := by
  constructor
  · rintro ⟨pairs, lone, c, back, htext, hpairs, hcase⟩
    cases pairs with
    | nil =>
      obtain ⟨rfl, hwide⟩ | ⟨a, rfl, -, hwide⟩ := hcase
      · obtain ⟨rfl, -⟩ := List.cons.inj htext
        omega
      · obtain ⟨-, htext⟩ := List.cons.inj htext
        obtain ⟨rfl, -⟩ := List.cons.inj htext
        omega
    | cons p pairs =>
      obtain ⟨h', l'⟩ := p
      replace htext : h :: l :: rest = h' :: l' :: (unpair pairs ++ (lone ++ c :: back)) := htext
      simp only [List.cons.injEq] at htext
      obtain ⟨rfl, rfl, htext⟩ := htext
      obtain ⟨hp, hpairs⟩ := List.forall_mem_cons.mp hpairs
      exact ⟨hp, pairs, lone, c, back, htext, hpairs, hcase⟩
  · rintro ⟨hp, pairs, lone, c, back, rfl, hpairs, hcase⟩
    exact ⟨(h, l) :: pairs, lone, c, back, rfl, List.forall_mem_cons.mpr ⟨hp, hpairs⟩, hcase⟩

/-! ### Slices -/

/-- A text is cut behind its first character, and then somewhere. -/
theorem splitAtByte_add (c : Char) (s : List Char) (i : ℕ) :
    splitAtByte (i + c.utf8Size) (c :: s) = (splitAtByte i s).map fun p => (c :: p.1, p.2) := by
  obtain ⟨k, hk⟩ := Nat.exists_eq_add_of_lt c.utf8Size_pos
  have hsize : i + c.utf8Size = i + k + 1 := by omega
  rw [hsize, splitAtByte, if_pos (by omega)]
  congr 2
  omega

/-- Nothing is cut inside the first character of a text. -/
theorem splitAtByte_of_lt {c : Char} {i : ℕ} (hpos : 0 < i) (hi : i < c.utf8Size) (s : List Char) :
    splitAtByte i (c :: s) = none := by
  obtain ⟨k, rfl⟩ := Nat.exists_eq_add_of_lt hpos
  rw [Nat.zero_add, splitAtByte, if_neg (by omega)]

/-- Nothing stands in front of a text. -/
@[simp] theorem splitAtByte_zero (s : List Char) : splitAtByte 0 s = some ([], s) := by
  cases s <;> rfl

/-- A slice from the start of a text. -/
theorem sliceText_zero (s : List Char) (j : ℕ) :
    sliceText s 0 j = match splitAtByte j s with
      | some p => .ok p.1
      | none => .error .outOfRange := by
  rw [sliceText, splitAtByte_zero]
  rfl

/-- A slice behind the first character of a text. -/
theorem sliceText_add (c : Char) (s : List Char) (i j : ℕ) :
    sliceText (c :: s) (i + c.utf8Size) (j + c.utf8Size) = sliceText s i j := by
  rw [sliceText, splitAtByte_add, sliceText]
  cases hi : splitAtByte i s with
  | none => rfl
  | some p =>
    have hend : (if i + c.utf8Size ≤ j + c.utf8Size then
        splitAtByte (j + c.utf8Size - (i + c.utf8Size)) p.2 else none) =
          if i ≤ j then splitAtByte (j - i) p.2 else none := by
      rw [Nat.add_sub_add_right]
      simp only [Nat.add_le_add_iff_right]
    exact congrArg (fun o => match o with
      | some p => Except.ok p.1
      | none => Except.error Panic.outOfRange) hend

/-- The places behind two characters that are ASCII. -/
theorem byteAt_add_two {h l : Char} (hh : h.utf8Size = 1) (hl : l.utf8Size = 1) (rest : List Char)
    (i : ℕ) : sio.byteAt (h :: l :: rest) (i + 2) = sio.byteAt rest i := by
  have hslice : sliceText (h :: l :: rest) (i + 2) (i + 2 + 2) = sliceText rest i (i + 2) := by
    have hfirst := sliceText_add h (l :: rest) (i + 1) (i + 2 + 1)
    have hsecond := sliceText_add l rest i (i + 2)
    rw [hh] at hfirst
    rw [hl] at hsecond
    exact hfirst.trans hsecond
  rw [sio.byteAt, sio.byteAt, hslice]

/-- The first two characters of a text, when they are ASCII. -/
theorem byteAt_zero {h l : Char} (hh : h.utf8Size = 1) (hl : l.utf8Size = 1) (rest : List Char) :
    sio.byteAt (h :: l :: rest) 0 = match fromStrRadix 16 256 [h, l] with
      | some byte => pure (UInt8.ofNat byte)
      | none => Fallible.throw () := by
  have hslice : sliceText (h :: l :: rest) 0 (0 + 2) = .ok [h, l] := by
    have hsecond := splitAtByte_add l rest 0
    have hfirst := splitAtByte_add h (l :: rest) 1
    rw [hl] at hsecond
    rw [hh, hsecond, splitAtByte_zero] at hfirst
    rw [sliceText_zero, hfirst]
    rfl
  rw [sio.byteAt, hslice]
  rfl

/-- A first character of two bytes is refused. -/
theorem byteAt_zero_of_two {c : Char} (hc : c.utf8Size = 2) (rest : List Char) :
    Evaluates (sio.byteAt (c :: rest) 0) (.error ()) := by
  have hslice : sliceText (c :: rest) 0 (0 + 2) = .ok [c] := by
    have hfirst := splitAtByte_add c rest 0
    rw [hc, splitAtByte_zero] at hfirst
    rw [sliceText_zero, hfirst]
    rfl
  have hread : fromStrRadix 16 256 [c] = none := by
    have hascii : ¬ c.toNat < 128 := by
      rw [← utf8Size_eq_one]
      omega
    have hdigit : toDigit 16 c = none := by
      rw [toDigit_eq_none_iff]
      exact fun h => hascii (ascii_of_isHexDigit h)
    have hplus : c ≠ '+' := by
      rintro rfl
      exact hascii (by decide)
    have hparse : fromStrRadix 16 256 [c] = parseDigits 16 256 0 [c] := by
      unfold fromStrRadix
      split <;> simp_all
    rw [hparse, parseDigits_sixteen (by decide), hdigit]
    rfl
  rw [sio.byteAt, hslice]
  show Evaluates (match fromStrRadix 16 256 [c] with
    | some byte => pure (UInt8.ofNat byte)
    | none => Fallible.throw ()) _
  rw [hread]
  exact Evaluates.throw ()

/-- A slice that ends inside a character panics. -/
theorem byteAt_zero_of_split {text : List Char} (h : splitAtByte 2 text = none) :
    (sio.byteAt text 0).run = .error .outOfRange := by
  have hslice : sliceText text 0 (0 + 2) = .error .outOfRange := by
    rw [sliceText_zero, h]
  rw [sio.byteAt, hslice]
  rfl

/-! ### The decoder -/

/-- The bytes at the first places of a text. -/
def readPairs (text : List Char) (n : ℕ) : Fallible Unit (List UInt8) :=
  (List.range n).mapM fun k => sio.byteAt text (2 * k)

/-- The first place of a text, and then the others. -/
theorem readPairs_succ (text : List Char) (n : ℕ) :
    readPairs text (n + 1) = sio.byteAt text 0 >>= fun b =>
      ((List.range n).mapM fun k => sio.byteAt text (2 * k + 2)) >>= fun bs => pure (b :: bs) := by
  rw [readPairs, List.range_succ_eq_map, List.mapM_cons, List.mapM_map]
  rfl

/-- Two characters that are ASCII, and then the others. -/
theorem readPairs_cons_cons {h l : Char} (hh : h.utf8Size = 1) (hl : l.utf8Size = 1)
    (rest : List Char) (n : ℕ) :
    readPairs (h :: l :: rest) (n + 1) = sio.byteAt (h :: l :: rest) 0 >>= fun b =>
      readPairs rest n >>= fun bs => pure (b :: bs) := by
  rw [readPairs_succ]
  simp only [byteAt_add_two hh hl]
  rfl

/-- What follows a computation that panics does not matter. -/
theorem run_bind_of_panic {α β ε : Type} {p : Fallible ε α} {panic : Panic}
    (h : p.run = .error panic) (f : α → Fallible ε β) : (p >>= f).run = .error panic := by
  show (p.bind f).run = _
  rw [Fallible.bind, h]

/-- Reading the first places of a text panics when a character is split, and otherwise comes to the
bytes of the text. -/
def ReadsPairs (text : List Char) (n : ℕ) : Prop :=
  (SplitsPair text → ∃ panic, (readPairs text n).run = .error panic) ∧
    (¬ SplitsPair text → ∃ r, Evaluates (readPairs text n) r ∧
      ∀ bytes, r = .ok bytes ↔ hexBytes text = some bytes)

/-- A character that is not ASCII is longer than one byte. -/
theorem two_le_utf8Size {c : Char} (hc : c.utf8Size ≠ 1) : 2 ≤ c.utf8Size := by
  have hpos := c.utf8Size_pos
  omega

/-- A text that begins with a character that is not ASCII. -/
theorem readsPairs_wide {c : Char} (hc : c.utf8Size ≠ 1) (rest : List Char) (n : ℕ) :
    ReadsPairs (c :: rest) (n + 1) := by
  have hwide := two_le_utf8Size hc
  rw [ReadsPairs, splitsPair_of_wide hwide, readPairs_succ]
  refine ⟨fun h => ?_, fun h => ⟨.error (), ?_, fun bytes => ⟨nofun, fun hbytes => ?_⟩⟩⟩
  · have hcut := splitAtByte_of_lt (by decide) h rest
    exact ⟨_, run_bind_of_panic (byteAt_zero_of_split hcut) _⟩
  · exact Evaluates.bind_error (byteAt_zero_of_two (by omega) rest)
  · exact absurd (utf8Size_eq_one.mpr (ascii_of_hexBytes hbytes _ List.mem_cons_self)) hc

/-- A text with a character that is not ASCII in the second place. -/
theorem readsPairs_lone {c d : Char} (hc : c.utf8Size = 1) (hd : d.utf8Size ≠ 1)
    (rest : List Char) (n : ℕ) : ReadsPairs (c :: d :: rest) (n + 1) := by
  have hwide := two_le_utf8Size hd
  refine ⟨fun _ => ?_, fun h => absurd (splitsPair_of_lone hc hwide rest) h⟩
  have hcut : splitAtByte 2 (c :: d :: rest) = none := by
    have hfirst := splitAtByte_add c (d :: rest) 1
    rw [hc, splitAtByte_of_lt Nat.one_pos hwide] at hfirst
    exact hfirst
  exact ⟨_, readPairs_succ _ n ▸ run_bind_of_panic (byteAt_zero_of_split hcut) _⟩

/-- A text that begins with two characters that are ASCII: the pair is refused, or it is read, and
then the others are. -/
theorem readsPairs_cons_cons {c d : Char} (hc : c.utf8Size = 1) (hd : d.utf8Size = 1)
    {rest : List Char} {n : ℕ} (h : ReadsPairs rest n) : ReadsPairs (c :: d :: rest) (n + 1) := by
  have hbyte := byteAt_zero hc hd rest
  obtain ⟨hpanics, hevaluates⟩ := h
  rw [ReadsPairs, splitsPair_cons_cons hc hd, readPairs_cons_cons hc hd]
  cases hread : fromStrRadix 16 256 [c, d] with
  | none =>
    have hpair : ¬ IsPair (c, d) := by
      rw [← isSome_pair, hread]
      decide
    rw [hread] at hbyte
    refine ⟨fun h => absurd h.1 hpair, fun _ => ⟨.error (), ?_, fun bytes => ?_⟩⟩
    · exact Evaluates.bind_error (hbyte ▸ Evaluates.throw ())
    · simp [hexBytes, hread]
  | some b =>
    have hpair : IsPair (c, d) := isSome_pair.mp (by rw [hread]; rfl)
    rw [hread] at hbyte
    rw [hbyte, pure_bind]
    refine ⟨fun h => ?_, fun h => ?_⟩
    · obtain ⟨panic, hpanic⟩ := hpanics h.2
      exact ⟨panic, run_bind_of_panic hpanic _⟩
    · obtain ⟨r, hr, hsame⟩ := hevaluates fun hsplits => h ⟨hpair, hsplits⟩
      cases r with
      | error e =>
        refine ⟨.error e, Evaluates.bind_error hr, fun bytes => ?_⟩
        have hnone : hexBytes rest = none :=
          Option.eq_none_iff_forall_not_mem.mpr fun bs hbs => nomatch (hsame bs).mpr hbs
        simp [hexBytes, hnone]
      | ok bs =>
        refine ⟨.ok (UInt8.ofNat b :: bs), Evaluates.bind hr (Evaluates.pure _), ?_⟩
        simp [hexBytes, hread, (hsame bs).mp rfl]

/-- **Reading pairs.** Reading a text pair by pair panics when a character is split, and otherwise
comes to the bytes of the text.

**Proof sketch.** Induction on the number of pairs. The first character is wider than a byte, or the
second one is, or the two are a pair that is refused, or they are one that is read, and then the
others follow. -/
theorem readPairs_spec {n : ℕ} {text : List Char} (hn : (asBytes text).length = 2 * n) :
    ReadsPairs text n := by
  induction n generalizing text with
  | zero =>
    cases text with
    | nil =>
      refine ⟨fun h => absurd h not_splitsPair_nil, fun _ => ?_⟩
      exact ⟨_, Evaluates.pure [], fun bytes => by simp [hexBytes]⟩
    | cons c rest =>
      have hpos := c.utf8Size_pos
      rw [length_asBytes_cons] at hn
      omega
  | succ n ih =>
    cases text with
    | nil => cases hn
    | cons c rest =>
      by_cases hc : c.utf8Size = 1
      · cases rest with
        | nil =>
          rw [length_asBytes_cons, hc, show (asBytes []).length = 0 from rfl] at hn
          omega
        | cons d rest =>
          by_cases hd : d.utf8Size = 1
          · rw [length_asBytes_cons, length_asBytes_cons] at hn
            exact readsPairs_cons_cons hc hd (ih (by omega))
          · exact readsPairs_lone hc hd rest n
      · exact readsPairs_wide hc rest n

/-- **The two decoders.** They do the same, unless a character is split. -/
theorem sameCodec_iff (s : String) : SameCodec s ↔ ¬ SplitsCharacter (trim s.toList) := by
  simp only [SameCodec, hexDecode_eq_ok_iff, sio.hexDecode]
  generalize trim s.toList = text
  by_cases heven : (asBytes text).length % 2 = 0
  · obtain ⟨hpanics, hevaluates⟩ :=
      @readPairs_spec ((asBytes text).length / 2) text (by omega)
    rw [if_neg (not_not.mpr heven)]
    constructor
    · rintro ⟨r, hr, -⟩ ⟨-, hsplits⟩
      obtain ⟨panic, hpanic⟩ := hpanics hsplits
      cases hpanic.symm.trans hr
    · exact fun h => hevaluates fun hsplits => h ⟨heven, hsplits⟩
  · rw [if_pos heven]
    refine ⟨fun _ h => heven h.1, fun _ => ⟨_, Evaluates.throw (), fun bytes => ⟨nofun, ?_⟩⟩⟩
    intro hbytes
    obtain ⟨pairs, rfl, -⟩ := isSome_hexBytes.mp ⟨bytes, hbytes⟩
    rw [asBytes_ascii (ascii_of_hexBytes hbytes), List.length_map, length_unpair] at heven
    omega

/-- A letter between two others that is not ASCII makes the decoder of the sessions panic, and is an
error of the other one. -/
theorem not_sameCodec_accent :
    (sio.hexDecode "aéa").run = .error .outOfRange ∧
      hexDecode "aéa" = .error (.decode (.invalidHex "aéa".toList)) ∧ ¬ ∀ s, SameCodec s := by
  have hpanic : (sio.hexDecode "aéa").run = .error .outOfRange := by decide +kernel
  have hrefused : hexDecode "aéa" = .error (.decode (.invalidHex "aéa".toList)) := by
    decide +kernel
  refine ⟨hpanic, hrefused, fun h => ?_⟩
  obtain ⟨r, hr, -⟩ := h "aéa"
  cases hpanic.symm.trans hr

/-! ## Round trips -/

/-- The two encoders write the same. -/
theorem sio.hexEncode_eq (data : List UInt8) : sio.hexEncode data = Lager.hexEncode data := by
  have hfold : ∀ s : String, data.foldl (fun s b => s ++ String.ofList (lowerHex b)) s =
      s ++ String.ofList (data.flatMap lowerHex) := by
    induction data with
    | nil => simp
    | cons b data ih =>
      intro s
      rw [List.foldl_cons, ih, List.flatMap_cons, String.ofList_append, String.append_assoc]
  rw [sio.hexEncode, hfold, String.empty_append]
  rfl

/-- What the encoders write is in lower case. -/
theorem toAsciiLowercase_lowerHex (data : List UInt8) :
    toAsciiLowercase (data.flatMap lowerHex) = data.flatMap lowerHex := by
  have hdigit : ∀ n, n < 16 → (lowerDigit n).toLower = lowerDigit n := by
    intro n hn
    interval_cases n <;> rfl
  rw [toAsciiLowercase, List.map_flatMap]
  congr 1
  funext b
  have hb : b.toNat < 256 := b.toNat_lt
  simp [lowerHex, hdigit (b.toNat / 16) (by omega), hdigit (b.toNat % 16) (by omega)]

/-- What an encoder writes consists of digits, and is read as the data, in either case. -/
theorem hexBytes_of_lower {data : List UInt8} {text : List Char}
    (h : toAsciiLowercase text = data.flatMap lowerHex) :
    hexBytes text = some data ∧ ∀ c ∈ text, (toDigit 16 c).isSome := by
  induction data generalizing text with
  | nil =>
    obtain rfl := List.map_eq_nil_iff.mp h
    exact ⟨rfl, by simp⟩
  | cons b data ih =>
    obtain ⟨c, text, rfl, hc, h⟩ := List.map_eq_cons_iff.mp h
    obtain ⟨d, text, rfl, hd, h⟩ := List.map_eq_cons_iff.mp h
    obtain ⟨hrest, hdigits⟩ := ih h
    have hb : b.toNat < 256 := b.toNat_lt
    have hhigh := toDigit_of_toLower (by omega) hc
    have hlow := toDigit_of_toLower (by omega) hd
    obtain ⟨hh, hvalue⟩ := toDigit_eq_some_iff.mp hhigh
    obtain ⟨hl, hvalue'⟩ := toDigit_eq_some_iff.mp hlow
    have hread : fromStrRadix 16 256 [c, d] = some b.toNat :=
      fromStrRadix_pair.mpr ⟨hl, .inl ⟨hh, by rw [hvalue, hvalue']; omega⟩⟩
    refine ⟨?_, List.forall_mem_cons.mpr ⟨by rw [hhigh]; rfl,
      List.forall_mem_cons.mpr ⟨by rw [hlow]; rfl, hdigits⟩⟩⟩
    simp [hexBytes, hread, hrest]

/-- **Round trips.** Both decoders read what either encoder writes, in whatever case the letters are
and with white space around it. -/
theorem hexDecode_spelled (data : List UInt8) {encoded : String} {left text right : List Char}
    (hencoded : encoded = hexEncode data ∨ encoded = sio.hexEncode data)
    (htext : eqIgnoreAsciiCase text encoded.toList = true)
    (hleft : ∀ c ∈ left, isAsciiWhitespace c = true)
    (hright : ∀ c ∈ right, isAsciiWhitespace c = true) :
    hexDecode (String.ofList (left ++ text ++ right)) = .ok data ∧
      Evaluates (sio.hexDecode (String.ofList (left ++ text ++ right))) (.ok data) := by
  have hlower : toAsciiLowercase text = data.flatMap lowerHex := by
    rw [sio.hexEncode_eq, or_self] at hencoded
    have hsame := beq_iff_eq.mp htext
    rw [hencoded, hexEncode, String.toList_ofList, toAsciiLowercase_lowerHex] at hsame
    exact hsame
  obtain ⟨hread, hdigits⟩ := hexBytes_of_lower hlower
  have htrim : trim (left ++ text ++ right) = text := by
    rw [trim_append_right fun c hc => isWhitespace_of_ascii (hright c hc),
      trim_append_left fun c hc => isWhitespace_of_ascii (hleft c hc)]
    exact trim_eq_self fun c hc => isWhitespace_of_toDigit (hdigits c hc)
  have hdecode : hexDecode (String.ofList (left ++ text ++ right)) = .ok data := by
    rw [hexDecode_eq_ok_iff, String.toList_ofList, htrim]
    exact hread
  refine ⟨hdecode, ?_⟩
  have hascii : ∀ c ∈ text, c.utf8Size = 1 := fun c hc =>
    utf8Size_eq_one.mpr (ascii_of_hexBytes hread c hc)
  obtain ⟨r, hr, hsame⟩ := (sameCodec_iff (String.ofList (left ++ text ++ right))).mpr (by
    rw [String.toList_ofList, htrim]
    exact fun h => not_splitsPair_of_ascii hascii h.2)
  rwa [(hsame data).mpr hdecode] at hr

/-- An example. -/
theorem hexDecode_spelled_example :
    hexDecode " \n0Fa5\t" = .ok [0x0F, 0xA5] ∧
      Evaluates (sio.hexDecode " \n0Fa5\t") (.ok [0x0F, 0xA5]) :=
  @hexDecode_spelled [0x0F, 0xA5] (sio.hexEncode [0x0F, 0xA5]) [' ', '\n'] ['0', 'F', 'a', '5']
    ['\t'] (.inr rfl) (by decide +kernel) (by simp [isAsciiWhitespace])
    (by simp [isAsciiWhitespace])

end Lager
