import Lager.Auth.Store
import Lager.Library.Bits
import Lager.Nets.Debug

set_option relaxedAutoImplicit false
set_option autoImplicit false

/-!
# Base64

Firmware, scripts and pictures go over the wire in Base64, and the tokens of the gateway have a part
in base64url. There are two decoders. The one puts the six bits of each character where they belong
among the 24 bits of a group, the other shifts them in from the right and aligns a short group at
the end; both are described by the string of bits that the characters are.

## Main definitions

* `Lager.base64Decode` — the decoder of the standard alphabet.
* `Lager.IsBase64` — a text in Base64, with white space and with or without its padding.
* `Lager.Base64Denotes` — the bytes that a text denotes.

## Main results

* `Lager.base64_codec` — which texts are accepted and what they are read as; what the encoder writes
  is read back.
* `Lager.base64urlDecode_eq` — the two decoders do the same.
-/

namespace Lager

open Library

/-! ## The decoder -/

/-- `u8::is_ascii_whitespace`. -/
def isAsciiWhitespaceByte (b : UInt8) : Bool := b == 32 || b == 9 || b == 10 || b == 12 || b == 13

/-- `sextet`: the six bits a character stands for. -/
def base64Sextet (c : UInt8) : Option ℕ :=
  let n := c.toNat
  if 65 ≤ n ∧ n ≤ 90 then some (n - 65)
  else if 97 ≤ n ∧ n ≤ 122 then some (n - 97 + 26)
  else if 48 ≤ n ∧ n ≤ 57 then some (n - 48 + 52)
  else if n = 43 then some 62
  else if n = 47 then some 63
  else none

/-- The bytes of a group of up to four characters. -/
def base64Chunk (chunk : List UInt8) : Option (List UInt8) := do
  let n ← chunk.zipIdx.foldlM
    (fun n c => (base64Sextet c.1).map fun v => n ||| v <<< (18 - 6 * c.2)) 0
  return UInt8.ofNat (n >>> 16) ::
    ((if 2 < chunk.length then [UInt8.ofNat (n >>> 8)] else []) ++
      if 3 < chunk.length then [UInt8.ofNat n] else [])

/-- The characters in front of the padding; nothing may follow it, and it may not be longer than two
characters. -/
def unpadded (digits : List UInt8) : Option (List UInt8) :=
  match digits.findIdx? (· == 61) with
  | some pad =>
    if (digits.drop pad).all (· == 61) ∧ digits.length - pad ≤ 2 then some (digits.take pad)
    else none
  | none => some digits

/-- `base64_decode`. -/
def base64Decode (input : String) : Option (List UInt8) := do
  let digits ← unpadded ((utf8 input).filter (!isAsciiWhitespaceByte ·))
  if digits.length % 4 = 1 then none
  else ((digits.toChunks 4).mapM base64Chunk).map List.flatten

/-! ## What a text denotes -/

/-- The six bits of a character of the alphabet. -/
def base64Value (c : Char) : ℕ := base64Alphabet.idxOf c

/-- The bytes a text denotes: as many as it has bits for, and the bits they have are those at its
start. -/
structure Base64Denotes (digits : List Char) (bytes : List UInt8) : Prop where
  length : bytes.length = 6 * digits.length / 8
  bits : bytes.flatMap (fun b => bits 8 b.toNat) <+: digits.flatMap fun c => bits 6 (base64Value c)

/-- A text is Base64 with these characters of the alphabet, but for white space: up to two equals
signs may follow them, and they are not one more than full groups. -/
structure IsBase64 (text digits : List Char) : Prop where
  padded : ∃ k ≤ 2, text.filter (!isAsciiWhitespace ·) = digits ++ List.replicate k '='
  alphabet : ∀ c ∈ digits, c ∈ base64Alphabet
  length : digits.length % 4 ≠ 1

/-! ## Groups -/

/-- The bytes of a group of up to four times six bits. -/
def groupBytes (values : List ℕ) : List UInt8 :=
  let n := ofDigits 6 values * 2 ^ (24 - 6 * values.length)
  UInt8.ofNat (n / 2 ^ 16) ::
    ((if 2 < values.length then [UInt8.ofNat (n / 2 ^ 8)] else []) ++
      if 3 < values.length then [UInt8.ofNat n] else [])

/-- The bytes of six bits each, in groups of four. -/
def bytesOf : List ℕ → List UInt8
  | a :: b :: c :: d :: rest => groupBytes [a, b, c, d] ++ bytesOf rest
  | [] => []
  | values => groupBytes values

/-- Putting the bits of each character where they belong makes up the number of the group. -/
theorem foldl_place {values : List ℕ} (h : ∀ v ∈ values, v < 2 ^ 6) (i a : ℕ)
    (hi : i + values.length ≤ 4) :
    (values.zipIdx i).foldl (fun n v => n ||| v.1 <<< (18 - 6 * v.2)) (a * 2 ^ (24 - 6 * i)) =
      values.foldl (fun acc v => acc * 2 ^ 6 + v) a * 2 ^ (24 - 6 * (i + values.length)) := by
  induction values generalizing i a with
  | nil => simp
  | cons v values ih =>
    obtain ⟨hv, hrest⟩ := List.forall_mem_cons.mp h
    rw [List.length_cons] at hi
    have hplace : a * 2 ^ (24 - 6 * i) ||| v <<< (18 - 6 * i) =
        (a * 2 ^ 6 + v) * 2 ^ (24 - 6 * (i + 1)) := by
      obtain ⟨e, he⟩ : ∃ e, 18 - 6 * i = e := ⟨_, rfl⟩
      have hthis : 24 - 6 * i = e + 6 := by omega
      have hnext : 24 - 6 * (i + 1) = e := by omega
      have hlt : v * 2 ^ e < 2 ^ (e + 6) := by
        rw [Nat.pow_add, Nat.mul_comm]
        exact Nat.mul_lt_mul_of_pos_left hv (Nat.two_pow_pos e)
      rw [hthis, hnext, he, Nat.shiftLeft_eq, Nat.mul_comm a, ← Nat.two_pow_add_eq_or_of_lt hlt]
      ring
    rw [List.zipIdx_cons, List.foldl_cons, List.foldl_cons, hplace, ih hrest _ _ (by omega),
      List.length_cons, Nat.add_assoc, Nat.add_comm 1]

/-- Capital letters, small letters, digits, a plus sign and a slash stand for six bits, in this
order. -/
theorem base64Sextet_ranges {c : UInt8} {v : ℕ} (h : base64Sextet c = some v) :
    v < 26 ∧ c.toNat = v + 65 ∨ 26 ≤ v ∧ v < 52 ∧ c.toNat = v + 71 ∨
      52 ≤ v ∧ v < 62 ∧ c.toNat + 4 = v ∨ v = 62 ∧ c.toNat = 43 ∨ v = 63 ∧ c.toNat = 47 := by
  simp only [base64Sextet] at h
  split_ifs at h <;> cases h <;> omega

/-- The six bits of a character are a number of six bits. -/
theorem base64Sextet_lt {c : UInt8} {v : ℕ} (h : base64Sextet c = some v) : v < 2 ^ 6 := by
  have hranges := base64Sextet_ranges h
  omega

/-- No two bytes are read as the same six bits. -/
theorem base64Sextet_inj {b b' : UInt8} {v : ℕ} (h : base64Sextet b = some v)
    (h' : base64Sextet b' = some v) : b = b' := by
  have hranges := base64Sextet_ranges h
  have hranges' := base64Sextet_ranges h'
  apply UInt8.toNat_inj.mp
  omega

/-- A loop that goes on with a value for each element, or stops. -/
theorem foldlM_map {α β σ : Type} (val : α → Option β) (f : σ → β × ℕ → σ) (l : List α) (i : ℕ)
    (s : σ) :
    (l.zipIdx i).foldlM (fun s a => (val a.1).map fun v => f s (v, a.2)) s =
      (l.mapM val).map fun values => (values.zipIdx i).foldl f s := by
  induction l generalizing i s with
  | nil => rfl
  | cons a l ih =>
    rw [List.zipIdx_cons, List.foldlM_cons, List.mapM_cons]
    cases val a with
    | none => rfl
    | some v =>
      show (l.zipIdx (i + 1)).foldlM _ (f s (v, i)) = _
      rw [ih]
      cases l.mapM val <;> rfl

/-- What a list is read as has its length. -/
theorem length_of_mapM {α β : Type} {val : α → Option β} {l : List α} {values : List β}
    (h : l.mapM val = some values) : values.length = l.length := by
  induction l generalizing values with
  | nil =>
    cases h
    rfl
  | cons a l ih =>
    rw [List.mapM_cons] at h
    obtain ⟨v, -, h⟩ := Option.bind_eq_some_iff.mp h
    obtain ⟨others, hothers, h⟩ := Option.bind_eq_some_iff.mp h
    cases h
    rw [List.length_cons, List.length_cons, ih hothers]

/-- Each element that a list is read as is what one of its elements is read as. -/
theorem exists_of_mem_mapM {α β : Type} {val : α → Option β} {l : List α} {values : List β}
    (h : l.mapM val = some values) : ∀ v ∈ values, ∃ a ∈ l, val a = some v := by
  induction l generalizing values with
  | nil =>
    cases h
    simp
  | cons a l ih =>
    rw [List.mapM_cons] at h
    obtain ⟨v, hv, h⟩ := Option.bind_eq_some_iff.mp h
    obtain ⟨others, hothers, h⟩ := Option.bind_eq_some_iff.mp h
    cases h
    refine List.forall_mem_cons.mpr ⟨⟨a, List.mem_cons_self, hv⟩, fun v' hv' => ?_⟩
    obtain ⟨a', ha', hread⟩ := ih hothers v' hv'
    exact ⟨a', List.mem_cons_of_mem _ ha', hread⟩

/-- A list is read in the same way by functions that read its elements in the same way. -/
theorem mapM_congr {α β : Type} {val val' : α → Option β} {l : List α}
    (h : ∀ a ∈ l, val a = val' a) : l.mapM val = l.mapM val' := by
  induction l with
  | nil => rfl
  | cons a l ih =>
    obtain ⟨ha, hrest⟩ := List.forall_mem_cons.mp h
    rw [List.mapM_cons, List.mapM_cons, ha, ih hrest]

/-- A group of the standard alphabet. -/
theorem base64Chunk_eq {chunk : List UInt8} (h : chunk.length ≤ 4) :
    base64Chunk chunk = (chunk.mapM base64Sextet).map groupBytes := by
  rw [base64Chunk, foldlM_map base64Sextet (fun n v => n ||| v.1 <<< (18 - 6 * v.2))]
  cases hread : chunk.mapM base64Sextet with
  | none => rfl
  | some values =>
    have hlength := length_of_mapM hread
    have hlt : ∀ v ∈ values, v < 2 ^ 6 := by
      intro v hv
      obtain ⟨c, -, hc⟩ := exists_of_mem_mapM hread v hv
      exact base64Sextet_lt hc
    have hplace := foldl_place hlt 0 0 (by omega)
    rw [Nat.zero_mul, Nat.zero_add] at hplace
    simp only [Option.map_some, Option.bind_eq_bind, Option.bind_some, Option.pure_def, hplace,
      ← hlength, Nat.shiftRight_eq_div_pow]
    rfl

/-- A group of base64url. -/
theorem base64urlChunk_eq {chunk : List UInt8} :
    base64urlChunk chunk = (chunk.mapM base64urlVal).map groupBytes := by
  have hloop : ∀ (l : List UInt8) (acc : ℕ),
      l.foldlM (fun acc c => (base64urlVal c).map fun v => acc * 64 + v) acc =
        (l.mapM base64urlVal).map fun values =>
          values.foldl (fun acc v => acc * 2 ^ 6 + v) acc := by
    intro l
    induction l with
    | nil =>
      intro acc
      rfl
    | cons c l ih =>
      intro acc
      rw [List.foldlM_cons, List.mapM_cons]
      cases base64urlVal c with
      | none => rfl
      | some v =>
        show l.foldlM _ (acc * 64 + v) = _
        rw [ih]
        cases l.mapM base64urlVal <;> rfl
  rw [base64urlChunk, hloop]
  cases hread : chunk.mapM base64urlVal with
  | none => rfl
  | some values =>
    rw [← length_of_mapM hread, Nat.mul_comm values.length]
    rfl

/-- A short group is the last one. -/
theorem bytesOf_of_lt {values : List ℕ} (hpos : 0 < values.length) (hlt : values.length < 4) :
    bytesOf values = groupBytes values := by
  match values with
  | [_] | [_, _] | [_, _, _] => rfl
  | _ :: _ :: _ :: _ :: rest =>
    simp only [List.length_cons] at hlt
    omega

/-- The groups of a text, one after the other. -/
theorem mapM_toChunks {α : Type} {val : α → Option ℕ} {chunk : List α → Option (List UInt8)}
    (h : ∀ l, l.length ≤ 4 → chunk l = (l.mapM val).map groupBytes) (digits : List α) :
    ((digits.toChunks 4).mapM chunk).map List.flatten = (digits.mapM val).map bytesOf := by
  have hshort : ∀ l : List α, 0 < l.length → l.length < 4 →
      ((l.toChunks 4).mapM chunk).map List.flatten = (l.mapM val).map bytesOf := by
    intro l hpos hlt
    rw [toChunks_of_length_le hlt.le hpos, List.mapM_cons, h l hlt.le]
    cases hread : l.mapM val with
    | none => rfl
    | some values =>
      have hlength := length_of_mapM hread
      show some [groupBytes values].flatten = some (bytesOf values)
      rw [bytesOf_of_lt (by omega) (by omega), List.flatten_singleton]
  match digits with
  | [] => rfl
  | [_] | [_, _] | [_, _, _] => exact hshort _ (by simp) (by simp)
  | a :: b :: c :: d :: rest =>
    have hgroups : ([a, b, c, d] ++ rest).toChunks 4 = [a, b, c, d] :: rest.toChunks 4 :=
      @toChunks_append α 4 [a, b, c, d] rfl (by decide) rest
    have hdigits : (a :: b :: c :: d :: rest).mapM val =
        ([a, b, c, d].mapM val).bind fun group => (rest.mapM val).map (group ++ ·) := by
      show ([a, b, c, d] ++ rest).mapM val = _
      rw [List.mapM_append]
      cases [a, b, c, d].mapM val <;> cases rest.mapM val <;> rfl
    have ih := mapM_toChunks h rest
    rw [hdigits, show a :: b :: c :: d :: rest = [a, b, c, d] ++ rest from rfl, hgroups,
      List.mapM_cons, h [a, b, c, d] le_rfl]
    cases hread : [a, b, c, d].mapM val with
    | none => rfl
    | some group =>
      obtain ⟨v₁, v₂, v₃, v₄, rfl⟩ : ∃ v₁ v₂ v₃ v₄, group = [v₁, v₂, v₃, v₄] := by
        have hlength := length_of_mapM hread
        match group with
        | [v₁, v₂, v₃, v₄] => exact ⟨v₁, v₂, v₃, v₄, rfl⟩
      have hfirst : ((some (groupBytes [v₁, v₂, v₃, v₄])).bind fun bytes =>
          ((rest.toChunks 4).mapM chunk).bind fun others => some (bytes :: others)).map
            List.flatten = (((rest.toChunks 4).mapM chunk).map List.flatten).map
              (groupBytes [v₁, v₂, v₃, v₄] ++ ·) := by
        cases (rest.toChunks 4).mapM chunk <;> rfl
      refine hfirst.trans ?_
      rw [ih]
      cases rest.mapM val <;> rfl

/-! ## Bits -/

/-- The bits of a byte. -/
theorem bits_ofNat (n : ℕ) : bits 8 (UInt8.ofNat n).toNat = bits 8 n := by
  rw [UInt8.toNat_ofNat', ← bits_mod 8 n]

/-- The bytes of a group are the bits that it starts with. -/
theorem bits_groupBytes {values : List ℕ} (h : ∀ v ∈ values, v < 2 ^ 6)
    (hlow : 2 ≤ values.length) (hhigh : values.length ≤ 4) :
    (groupBytes values).length = 6 * values.length / 8 ∧
      (groupBytes values).flatMap (fun b => bits 8 b.toNat) <+: values.flatMap (bits 6) := by
  rw [← bits_ofDigits h, groupBytes]
  generalize ofDigits 6 values = m
  generalize hn : values.length = n at hlow hhigh
  -- a group of so many characters has eight bits for each of its bytes, and some more
  have hparts : ∀ k, 6 * n = 8 * (n - 1) + k →
      bits (8 * (n - 1)) (m / 2 ^ k) <+: bits (6 * n) m := by
    intro k hk
    rw [hk, bits_add]
    exact List.prefix_append _ _
  obtain rfl | rfl | rfl : n = 2 ∨ n = 3 ∨ n = 4 := by omega
  · refine ⟨rfl, ?_⟩
    show List.flatMap _ [UInt8.ofNat (m * 2 ^ 12 / 2 ^ 16)] <+: _
    have hfirst : m * 2 ^ 12 / 2 ^ 16 = m / 2 ^ 4 := by omega
    rw [List.flatMap_singleton, bits_ofNat, hfirst]
    exact hparts 4 rfl
  · refine ⟨rfl, ?_⟩
    show List.flatMap _ [UInt8.ofNat (m * 2 ^ 6 / 2 ^ 16), UInt8.ofNat (m * 2 ^ 6 / 2 ^ 8)] <+: _
    have hfirst : m * 2 ^ 6 / 2 ^ 16 = m / 2 ^ 2 / 2 ^ 8 := by omega
    have hsecond : m * 2 ^ 6 / 2 ^ 8 = m / 2 ^ 2 := by omega
    rw [List.flatMap_cons, List.flatMap_singleton, bits_ofNat, bits_ofNat, hfirst, hsecond,
      ← bits_add]
    exact hparts 2 rfl
  · refine ⟨rfl, ?_⟩
    show List.flatMap _ [UInt8.ofNat (m * 2 ^ 0 / 2 ^ 16), UInt8.ofNat (m * 2 ^ 0 / 2 ^ 8),
      UInt8.ofNat (m * 2 ^ 0)] <+: _
    have hfirst : m * 2 ^ 0 / 2 ^ 16 = m / 2 ^ 8 / 2 ^ 8 := by omega
    have hsecond : m * 2 ^ 0 / 2 ^ 8 = m / 2 ^ 8 := by omega
    have hthird : m * 2 ^ 0 = m := by omega
    rw [List.flatMap_cons, List.flatMap_cons, List.flatMap_singleton, bits_ofNat, bits_ofNat,
      bits_ofNat, hfirst, hsecond, hthird, ← List.append_assoc, ← bits_add, ← bits_add]

/-- The bytes of a text are the bits that it starts with. -/
theorem bits_bytesOf {values : List ℕ} (h : ∀ v ∈ values, v < 2 ^ 6)
    (hlength : values.length % 4 ≠ 1) :
    (bytesOf values).length = 6 * values.length / 8 ∧
      (bytesOf values).flatMap (fun b => bits 8 b.toNat) <+: values.flatMap (bits 6) := by
  match values with
  | [] => exact ⟨rfl, List.prefix_rfl⟩
  | [_] => exact absurd rfl hlength
  | [_, _] | [_, _, _] =>
    rw [bytesOf_of_lt (by simp) (by simp)]
    exact bits_groupBytes h (by simp) (by simp)
  | a :: b :: c :: d :: rest =>
    have hgroup : ∀ v ∈ [a, b, c, d], v < 2 ^ 6 := fun v hv =>
      h v (List.mem_append_left rest hv)
    obtain ⟨hlen, hbits⟩ := bits_groupBytes hgroup (by simp) (by simp)
    have hrest : rest.length % 4 ≠ 1 := by
      simp only [List.length_cons] at hlength
      omega
    obtain ⟨hlen', hbits'⟩ :=
      bits_bytesOf (fun v hv => h v (List.mem_append_right [a, b, c, d] hv)) hrest
    have hfull : (groupBytes [a, b, c, d]).flatMap (fun b => bits 8 b.toNat) =
        [a, b, c, d].flatMap (bits 6) := by
      refine hbits.eq_of_length ?_
      have hbytes : ∀ l : List UInt8,
          (l.flatMap fun b => bits 8 b.toNat).length = 8 * l.length := by
        intro l
        rw [← List.flatMap_map, length_flatMap_bits, List.length_map]
      rw [hbytes, hlen, length_flatMap_bits]
      simp
    rw [bytesOf]
    refine ⟨?_, ?_⟩
    · rw [List.length_append, hlen, hlen']
      simp only [List.length_cons, List.length_nil]
      omega
    · rw [List.flatMap_append, hfull, show a :: b :: c :: d :: rest = [a, b, c, d] ++ rest from rfl,
        List.flatMap_append]
      exact List.prefix_append_right_inj _ |>.mpr hbits'

/-! ## The alphabet -/

/-- The alphabet has as many characters as there are numbers of six bits. They are ASCII, and the
decoder reads each as its place. -/
theorem base64Alphabet_spec : base64Alphabet.length = 2 ^ 6 ∧ ∀ p ∈ base64Alphabet.zipIdx,
    p.1.toNat < 128 ∧ base64Sextet (UInt8.ofNat p.1.toNat) = some p.2 := by
  decide +kernel

/-- The alphabet is ASCII, and its characters are read as their places. -/
theorem alphabet_getElem {i : ℕ} {c : Char} (h : base64Alphabet[i]? = some c) :
    c.toNat < 128 ∧ base64Sextet (UInt8.ofNat c.toNat) = some i :=
  base64Alphabet_spec.2 (c, i) (List.mem_zipIdx_iff_getElem?.mpr h)

/-- A character of the alphabet stands at the place that is its value. -/
theorem getElem?_base64Value {c : Char} (h : c ∈ base64Alphabet) :
    base64Alphabet[base64Value c]? = some c := by
  have hplace : base64Value c < base64Alphabet.length := List.idxOf_lt_length_of_mem h
  exact List.getElem?_eq_some_iff.mpr ⟨hplace, List.getElem_idxOf hplace⟩

/-- A character of the alphabet is read as its value. -/
theorem base64Sextet_ofNat {c : Char} (h : c ∈ base64Alphabet) :
    base64Sextet (UInt8.ofNat c.toNat) = some (base64Value c) :=
  (alphabet_getElem (getElem?_base64Value h)).2

/-- The alphabet is ASCII, and the equals sign is not in it. -/
theorem ascii_of_mem_alphabet {c : Char} (h : c ∈ base64Alphabet) : c.toNat < 128 ∧ c ≠ '=' := by
  refine ⟨(alphabet_getElem (getElem?_base64Value h)).1, ?_⟩
  rintro rfl
  cases base64Sextet_ofNat h

/-- The value of the character at a place is the place. -/
theorem base64Value_of_getElem? {i : ℕ} {c : Char} (h : base64Alphabet[i]? = some c) :
    base64Value c = i := by
  have hmem : c ∈ base64Alphabet := List.mem_of_getElem? h
  exact Option.some.inj ((base64Sextet_ofNat hmem).symm.trans (alphabet_getElem h).2)

/-- The characters of the alphabet, as bytes. -/
theorem base64Sextet_eq_some_iff {b : UInt8} {v : ℕ} :
    base64Sextet b = some v ↔
      b.toNat < 128 ∧ asciiChar b ∈ base64Alphabet ∧ base64Value (asciiChar b) = v := by
  constructor
  · intro h
    have hplace : v < base64Alphabet.length := base64Alphabet_spec.1 ▸ base64Sextet_lt h
    have hchar : base64Alphabet[v]? = some base64Alphabet[v] := List.getElem?_eq_getElem hplace
    obtain ⟨hascii, hread⟩ := alphabet_getElem hchar
    have hbyte := base64Sextet_inj h hread
    have hsame : asciiChar b = base64Alphabet[v] := by
      rw [hbyte]
      exact asciiChar_ofNat hascii
    rw [← hsame] at hchar
    rw [← hsame, toNat_asciiChar] at hascii
    exact ⟨hascii, List.mem_of_getElem? hchar, base64Value_of_getElem? hchar⟩
  · rintro ⟨-, hmem, rfl⟩
    have hread := base64Sextet_ofNat hmem
    rwa [toNat_asciiChar, UInt8.ofNat_toNat] at hread

/-- The bytes of a text without white space. -/
theorem filter_asBytes (s : List Char) :
    (asBytes s).filter (!isAsciiWhitespaceByte ·) = asBytes (s.filter (!isAsciiWhitespace ·)) := by
  induction s with
  | nil => rfl
  | cons c s ih =>
    have hbyte : ∀ b ∈ String.utf8EncodeChar c, isAsciiWhitespaceByte b = isAsciiWhitespace c := by
      intro b hb
      rw [Bool.eq_iff_iff]
      simp only [isAsciiWhitespaceByte, isAsciiWhitespace, Bool.or_eq_true, beq_iff_eq,
        ← UInt8.toNat_inj, ← Char.toNat_inj, UInt8.reduceToNat, Char.reduceToNat]
      by_cases hlt : b.toNat < 128
      · rw [toNat_of_mem_utf8EncodeChar hb hlt]
      · have hwide : ¬ c.toNat < 128 := by
          intro hc
          have hchar := @asBytes_ascii [c] (by simpa using hc)
          rw [asBytes, List.flatMap_singleton] at hchar
          obtain rfl : b = UInt8.ofNat c.toNat := by simpa [hchar] using hb
          rw [UInt8.toNat_ofNat'] at hlt
          omega
        omega
    rw [asBytes_cons, List.filter_append, ih, List.filter_cons]
    cases hc : isAsciiWhitespace c with
    | true =>
      have hnone : (String.utf8EncodeChar c).filter (!isAsciiWhitespaceByte ·) = [] := by
        rw [List.filter_eq_nil_iff]
        intro b hb
        simp [hbyte b hb, hc]
      rw [hnone]
      rfl
    | false =>
      have hall : (String.utf8EncodeChar c).filter (!isAsciiWhitespaceByte ·) =
          String.utf8EncodeChar c := by
        rw [List.filter_eq_self]
        intro b hb
        simp [hbyte b hb, hc]
      rw [hall]
      exact (asBytes_cons c _).symm

/-- What stands in front of the padding. -/
theorem unpadded_eq_some_iff {digits front : List UInt8} :
    unpadded digits = some front ↔ 61 ∉ front ∧ ∃ k ≤ 2, digits = front ++ List.replicate k 61 := by
  constructor
  · intro h
    unfold unpadded at h
    split at h
    · rename_i pad hpad
      obtain ⟨hlt, -, hfirst⟩ := List.findIdx?_eq_some_iff_getElem.mp hpad
      split_ifs at h with hrest
      obtain rfl := Option.some.inj h
      refine ⟨fun hmem => ?_, digits.length - pad, hrest.2, ?_⟩
      · obtain ⟨i, hi, hget⟩ := List.mem_take_iff_getElem.mp hmem
        simpa [hget] using hfirst i (by omega)
      · have hpads : digits.drop pad = List.replicate (digits.length - pad) 61 := by
          rw [List.eq_replicate_iff]
          refine ⟨List.length_drop, fun b hb => ?_⟩
          simpa using List.all_eq_true.mp hrest.1 b hb
        rw [← hpads, List.take_append_drop]
    · rename_i hnone
      obtain rfl := Option.some.inj h
      refine ⟨fun hmem => ?_, 0, by omega, by simp⟩
      simpa using List.findIdx?_eq_none_iff.mp hnone 61 hmem
  · rintro ⟨hmem, k, hk, rfl⟩
    have hfront : front.findIdx? (· == 61) = none := by
      rw [List.findIdx?_eq_none_iff]
      intro b hb
      simp only [beq_eq_false_iff_ne, ne_eq]
      rintro rfl
      exact hmem hb
    cases k with
    | zero => simp [unpadded, hfront]
    | succ k =>
      have hpad : (front ++ List.replicate (k + 1) 61).findIdx? (· == 61) = some front.length := by
        rw [List.findIdx?_append, hfront, List.replicate_succ, List.findIdx?_cons]
        simp
      simp only [unpadded, hpad]
      rw [if_pos (by simp; omega), List.take_left]

/-- Only the characters of the alphabet are read, as their values. -/
theorem mapM_base64Sextet {bs : List UInt8} {values : List ℕ} :
    bs.mapM base64Sextet = some values ↔ ∃ digits, bs = asBytes digits ∧
      (∀ c ∈ digits, c ∈ base64Alphabet) ∧ values = digits.map base64Value := by
  constructor
  · intro h
    induction bs generalizing values with
    | nil =>
      cases h
      exact ⟨[], rfl, by simp, rfl⟩
    | cons b bs ih =>
      rw [List.mapM_cons] at h
      obtain ⟨v, hv, h⟩ := Option.bind_eq_some_iff.mp h
      obtain ⟨others, hothers, h⟩ := Option.bind_eq_some_iff.mp h
      cases h
      obtain ⟨hascii, hmem, rfl⟩ := base64Sextet_eq_some_iff.mp hv
      obtain ⟨digits, rfl, hdigits, rfl⟩ := ih hothers
      refine ⟨asciiChar b :: digits, ?_, List.forall_mem_cons.mpr ⟨hmem, hdigits⟩, rfl⟩
      rw [asBytes_cons, utf8EncodeChar_asciiChar hascii]
      rfl
  · rintro ⟨digits, rfl, hdigits, rfl⟩
    rw [asBytes_ascii fun c hc => (ascii_of_mem_alphabet (hdigits c hc)).1]
    induction digits with
    | nil => rfl
    | cons c digits ih =>
      obtain ⟨hc, hrest⟩ := List.forall_mem_cons.mp hdigits
      rw [List.map_cons, List.mapM_cons, base64Sextet_ofNat hc, ih hrest]
      rfl

/-- Equals signs as bytes. -/
theorem asBytes_pad (k : ℕ) : asBytes (List.replicate k '=') = List.replicate k 61 := by
  rw [asBytes_ascii (by simp), List.map_replicate]
  rfl

/-- So many characters of the alphabet are that many bytes. -/
theorem length_asBytes_digits {digits : List Char} (h : ∀ c ∈ digits, c ∈ base64Alphabet) :
    (asBytes digits).length = digits.length := by
  rw [asBytes_ascii fun c hc => (ascii_of_mem_alphabet (h c hc)).1, List.length_map]

/-- **The decoder.** It reads the texts that are Base64, group by group. -/
theorem base64Decode_eq_some_iff {input : String} {bytes : List UInt8} :
    base64Decode input = some bytes ↔
      ∃ digits, IsBase64 input.toList digits ∧ bytes = bytesOf (digits.map base64Value) := by
  rw [base64Decode, utf8, filter_asBytes, Option.bind_eq_bind, Option.bind_eq_some_iff]
  simp only [mapM_toChunks fun l hl => @base64Chunk_eq l hl]
  constructor
  · rintro ⟨front, hfront, h⟩
    obtain ⟨-, k, hk, htext⟩ := unpadded_eq_some_iff.mp hfront
    split_ifs at h with hlength
    obtain ⟨values, hvalues, rfl⟩ := Option.map_eq_some_iff.mp h
    obtain ⟨digits, rfl, hdigits, rfl⟩ := mapM_base64Sextet.mp hvalues
    refine ⟨digits, ⟨⟨k, hk, ?_⟩, hdigits, ?_⟩, rfl⟩
    · apply asBytes_injective
      rw [htext, asBytes_append, asBytes_pad]
    · rwa [length_asBytes_digits hdigits] at hlength
  · rintro ⟨digits, ⟨⟨k, hk, htext⟩, hdigits, hlength⟩, rfl⟩
    refine ⟨asBytes digits, unpadded_eq_some_iff.mpr ⟨fun hmem => ?_, k, hk, ?_⟩, ?_⟩
    · have hchar : '=' ∈ digits := mem_of_mem_asBytes hmem (by decide)
      exact (ascii_of_mem_alphabet (hdigits _ hchar)).2 rfl
    · rw [htext, asBytes_append, asBytes_pad]
    · rw [if_neg (by rwa [length_asBytes_digits hdigits]),
        mapM_base64Sextet.mpr ⟨digits, rfl, hdigits, rfl⟩]
      rfl

/-! ## What a text denotes -/

/-- The value of a character of the alphabet. -/
theorem base64Value_lt {c : Char} (h : c ∈ base64Alphabet) : base64Value c < 2 ^ 6 :=
  base64Sextet_lt (base64Sextet_ofNat h)

/-- A text denotes the bytes that are read from it. -/
theorem denotes_bytesOf {text digits : List Char} (h : IsBase64 text digits) :
    Base64Denotes digits (bytesOf (digits.map base64Value)) := by
  have hlt : ∀ v ∈ digits.map base64Value, v < 2 ^ 6 := by
    intro v hv
    obtain ⟨c, hc, rfl⟩ := List.mem_map.mp hv
    exact base64Value_lt (h.alphabet c hc)
  obtain ⟨hlength, hbits⟩ := bits_bytesOf hlt (by rw [List.length_map]; exact h.length)
  rw [List.length_map] at hlength
  rw [List.flatMap_map] at hbits
  exact ⟨hlength, hbits⟩

/-- A text denotes nothing else. -/
theorem Base64Denotes.unique {digits : List Char} {bytes bytes' : List UInt8}
    (h : Base64Denotes digits bytes) (h' : Base64Denotes digits bytes') : bytes = bytes' := by
  have hlt : ∀ l : List UInt8, ∀ n ∈ l.map UInt8.toNat, n < 2 ^ 8 := by
    intro l n hn
    obtain ⟨b, -, rfl⟩ := List.mem_map.mp hn
    exact b.toNat_lt
  have hbits := h.bits
  have hbits' := h'.bits
  rw [← List.flatMap_map] at hbits hbits'
  have hlength : (bytes.map UInt8.toNat).length = (bytes'.map UInt8.toNat).length := by
    rw [List.length_map, List.length_map, h.length, h'.length]
  have hsame := eq_of_bits_prefix (hlt bytes) (hlt bytes') hlength hbits hbits'
  exact List.map_injective_iff.mpr (fun _ _ => UInt8.toNat_inj.mp) hsame

/-- The characters of a text in Base64 are determined by it. -/
theorem IsBase64.unique {text digits digits' : List Char} (h : IsBase64 text digits)
    (h' : IsBase64 text digits') : digits = digits' := by
  have hfront : ∀ {digits}, IsBase64 text digits →
      (text.filter (!isAsciiWhitespace ·)).takeWhile (· ≠ '=') = digits := by
    rintro digits ⟨⟨k, -, htext⟩, hdigits, -⟩
    rw [htext, List.takeWhile_append_of_pos]
    · cases k <;> simp
    · intro c hc
      simpa using (ascii_of_mem_alphabet (hdigits c hc)).2
  rw [← hfront h, hfront h']

/-- The bits of a number of 24 bits, six at a time. -/
theorem bits_sextets (n : ℕ) :
    bits 24 n =
      bits 6 (n / 2 ^ 18) ++ (bits 6 (n / 2 ^ 12) ++ (bits 6 (n / 2 ^ 6) ++ bits 6 n)) := by
  show bits (6 + (6 + (6 + 6))) n = _
  rw [bits_add, bits_add, bits_add]

/-- The bits of a number of 24 bits, eight at a time. -/
theorem bits_octets (a b c : UInt8) :
    bits 24 (a.toNat * 2 ^ 16 + b.toNat * 2 ^ 8 + c.toNat) =
      bits 8 a.toNat ++ (bits 8 b.toNat ++ bits 8 c.toNat) := by
  have hlt : ∀ n ∈ [a.toNat, b.toNat, c.toNat], n < 2 ^ 8 := by
    simp [a.toNat_lt, b.toNat_lt, c.toNat_lt]
  have hbits := bits_ofDigits hlt
  have hnumber : ofDigits 8 [a.toNat, b.toNat, c.toNat] =
      a.toNat * 2 ^ 16 + b.toNat * 2 ^ 8 + c.toNat := by
    simp only [ofDigits, List.foldl_cons, List.foldl_nil]
    omega
  rw [hnumber] at hbits
  simpa using hbits

/-- The character of six bits. -/
theorem sextet_spec (n : ℕ) :
    sextet n ∈ base64Alphabet ∧ bits 6 (base64Value (sextet n)) = bits 6 n := by
  have hplace : n % 64 < base64Alphabet.length :=
    base64Alphabet_spec.1 ▸ Nat.mod_lt n (by decide)
  have hchar : base64Alphabet[n % 64]? = some (sextet n) := by
    rw [sextet, List.getD_eq_getElem?_getD, List.getElem?_eq_getElem hplace, Option.getD_some]
  refine ⟨List.mem_of_getElem? hchar, ?_⟩
  rw [base64Value_of_getElem? hchar]
  exact bits_mod 6 n

/-- What the encoder writes is in Base64, and denotes the data. -/
theorem base64Chars_spec (data : List UInt8) :
    ∃ digits k, k ≤ 2 ∧ base64Chars data = digits ++ List.replicate k '=' ∧
      (∀ c ∈ digits, c ∈ base64Alphabet) ∧ digits.length % 4 ≠ 1 ∧ Base64Denotes digits data := by
  induction data using base64Chars.induct with
  | case1 =>
    exact ⟨[], 0, by omega, rfl, by simp, by simp, rfl, List.prefix_rfl⟩
  | case2 a =>
    obtain ⟨n, hn⟩ : ∃ n, a.toNat * 2 ^ 16 = n := ⟨_, rfl⟩
    refine ⟨[sextet (n / 2 ^ 18), sextet (n / 2 ^ 12)], 2, le_rfl, by rw [← hn]; rfl, ?_,
      by simp, by simp, ?_⟩
    · simp [(sextet_spec _).1]
    · have hgroup := bits_octets a 0 0
      rw [UInt8.toNat_zero, Nat.zero_mul, Nat.add_zero, hn] at hgroup
      have hbits : bits 8 a.toNat <+: bits 24 n := ⟨_, hgroup.symm⟩
      rw [bits_sextets, ← List.append_assoc] at hbits
      have hdigits := List.prefix_append (bits 6 (n / 2 ^ 18) ++ bits 6 (n / 2 ^ 12))
        (bits 6 (n / 2 ^ 6) ++ bits 6 n)
      simpa [(sextet_spec _).2] using List.prefix_of_prefix_length_le hbits hdigits (by simp)
  | case3 a b =>
    obtain ⟨n, hn⟩ : ∃ n, a.toNat * 2 ^ 16 + b.toNat * 2 ^ 8 = n := ⟨_, rfl⟩
    refine ⟨[sextet (n / 2 ^ 18), sextet (n / 2 ^ 12), sextet (n / 2 ^ 6)], 1, by omega,
      by rw [← hn]; rfl, ?_, by simp, by simp, ?_⟩
    · simp [(sextet_spec _).1]
    · have hgroup := bits_octets a b 0
      rw [UInt8.toNat_zero, Nat.add_zero, hn, ← List.append_assoc] at hgroup
      have hbits : bits 8 a.toNat ++ bits 8 b.toNat <+: bits 24 n := ⟨_, hgroup.symm⟩
      have hdigits : bits 6 (n / 2 ^ 18) ++ (bits 6 (n / 2 ^ 12) ++ bits 6 (n / 2 ^ 6)) <+:
          bits 24 n := by
        refine ⟨bits 6 n, ?_⟩
        rw [bits_sextets, List.append_assoc, List.append_assoc]
      simpa [(sextet_spec _).2] using List.prefix_of_prefix_length_le hbits hdigits (by simp)
  | case4 a b c rest ih =>
    obtain ⟨n, hn⟩ : ∃ n, a.toNat * 2 ^ 16 + b.toNat * 2 ^ 8 + c.toNat = n := ⟨_, rfl⟩
    obtain ⟨digits, k, hk, hchars, halphabet, hlength, hdenotes⟩ := ih
    refine ⟨[sextet (n / 2 ^ 18), sextet (n / 2 ^ 12), sextet (n / 2 ^ 6), sextet n] ++ digits, k,
      hk, ?_, ?_, ?_, ?_, ?_⟩
    · rw [base64Chars, hchars, hn, List.append_assoc]
    · rw [List.forall_mem_append]
      exact ⟨by simp [(sextet_spec _).1], halphabet⟩
    · rw [List.length_append, List.length_cons]
      simp only [List.length_cons, List.length_nil]
      omega
    · rw [List.length_append, List.length_cons, List.length_cons, List.length_cons,
        hdenotes.length]
      simp only [List.length_cons, List.length_nil]
      omega
    · have hgroup := bits_octets a b c
      rw [hn, bits_sextets] at hgroup
      have hfirst : [a, b, c].flatMap (fun b => bits 8 b.toNat) =
          [sextet (n / 2 ^ 18), sextet (n / 2 ^ 12), sextet (n / 2 ^ 6), sextet n].flatMap
            fun c => bits 6 (base64Value c) := by
        simpa [(sextet_spec _).2] using hgroup.symm
      show List.flatMap _ ([a, b, c] ++ rest) <+: _
      rw [List.flatMap_append, List.flatMap_append, hfirst]
      exact (List.prefix_append_right_inj _).mpr hdenotes.bits

/-- **Base64.** A text is accepted just when it is Base64, but for white space, and then read as the
bytes it denotes; what the encoder writes is read back, also with white space in it and without some
of its padding. -/
theorem base64_codec (input : String) :
    ((base64Decode input).isSome ↔ ∃ digits, IsBase64 input.toList digits) ∧
      (∀ bytes digits, base64Decode input = some bytes → IsBase64 input.toList digits →
        Base64Denotes digits bytes) ∧
      ∀ data k, (base64Encode data).toList =
          input.toList.filter (!isAsciiWhitespace ·) ++ List.replicate k '=' →
        base64Decode input = some data := by
  refine ⟨?_, ?_, ?_⟩
  · rw [Option.isSome_iff_exists]
    constructor
    · rintro ⟨bytes, hbytes⟩
      obtain ⟨digits, hdigits, -⟩ := base64Decode_eq_some_iff.mp hbytes
      exact ⟨digits, hdigits⟩
    · rintro ⟨digits, hdigits⟩
      exact ⟨_, base64Decode_eq_some_iff.mpr ⟨digits, hdigits, rfl⟩⟩
  · intro bytes digits hbytes hdigits
    obtain ⟨digits', hdigits', rfl⟩ := base64Decode_eq_some_iff.mp hbytes
    rw [hdigits.unique hdigits']
    exact denotes_bytesOf hdigits'
  · intro data k hencoded
    obtain ⟨digits, n, hn, hchars, halphabet, hlength, hdenotes⟩ := base64Chars_spec data
    rw [base64Encode, String.toList_ofList, hchars] at hencoded
    have hle : k ≤ n := by
      by_contra hlt
      have hpads : List.replicate k '=' = List.replicate (k - n) '=' ++ List.replicate n '=' := by
        rw [List.replicate_append_replicate, Nat.sub_add_cancel (by omega)]
      rw [hpads, ← List.append_assoc] at hencoded
      have hmem : '=' ∈ digits := by
        rw [List.append_cancel_right hencoded]
        simp
        omega
      exact (ascii_of_mem_alphabet (halphabet _ hmem)).2 rfl
    have htext : IsBase64 input.toList digits := by
      refine ⟨⟨n - k, by omega, ?_⟩, halphabet, hlength⟩
      have hpads : List.replicate n '=' = List.replicate (n - k) '=' ++ List.replicate k '=' := by
        rw [List.replicate_append_replicate, Nat.sub_add_cancel hle]
      rw [hpads, ← List.append_assoc] at hencoded
      exact (List.append_cancel_right hencoded).symm
    rw [hdenotes.unique (denotes_bytesOf htext)]
    exact base64Decode_eq_some_iff.mpr ⟨digits, htext, rfl⟩

/-- An example. -/
theorem base64_codec_example : base64Decode "Zm9v\nYmE" = some "fooba".toUTF8.toList :=
  (base64_codec "Zm9v\nYmE").2.2 "fooba".toUTF8.toList 1 (by decide +kernel)

/-! ## The two alphabets -/

/-- A character of base64url as the standard alphabet has it. -/
def toStandard (c : Char) : Char := if c = '-' then '+' else if c = '_' then '/' else c

/-- The same of its byte. -/
def toStandardByte (b : UInt8) : UInt8 := if b = 45 then 43 else if b = 95 then 47 else b

/-- A byte that is in neither alphabet or in both has the same value in both; the others are
translated. -/
theorem base64Sextet_toStandardByte {b : UInt8} (hplus : b ≠ 43) (hslash : b ≠ 47) :
    base64Sextet (toStandardByte b) = base64urlVal b := by
  have hneq (n : UInt8) (h : b ≠ n) : b.toNat ≠ n.toNat := fun heq => h (UInt8.toNat_inj.mp heq)
  by_cases hminus : b = 45
  · rw [hminus]
    rfl
  by_cases hunder : b = 95
  · rw [hunder]
    rfl
  have hnone : b.toNat ≠ 43 ∧ b.toNat ≠ 47 ∧ b.toNat ≠ 45 ∧ b.toNat ≠ 95 :=
    ⟨hneq 43 hplus, hneq 47 hslash, hneq 45 hminus, hneq 95 hunder⟩
  rw [toStandardByte, if_neg hminus, if_neg hunder]
  simp only [base64Sextet, base64urlVal, hnone, if_false]

/-- The bytes of a translated text. -/
theorem asBytes_toStandard (s : List Char) :
    asBytes (s.map toStandard) = (asBytes s).map toStandardByte := by
  induction s with
  | nil => rfl
  | cons c s ih =>
    rw [List.map_cons, asBytes_cons, asBytes_cons, List.map_append, ih]
    congr 1
    by_cases hminus : c = '-'
    · rw [hminus]
      decide
    · by_cases hunder : c = '_'
      · rw [hunder]
        decide
      · rw [toStandard, if_neg hminus, if_neg hunder]
        have hsame : ∀ b ∈ String.utf8EncodeChar c, toStandardByte b = b := by
          intro b hb
          have hchar : ∀ n < 128, b = UInt8.ofNat n → c.toNat = n := by
            rintro n hn rfl
            have hnat : (UInt8.ofNat n).toNat = n := by
              rw [UInt8.toNat_ofNat']
              omega
            rw [toNat_of_mem_utf8EncodeChar hb (by omega), hnat]
          rw [toStandardByte, if_neg, if_neg]
          · exact fun h => hunder (Char.toNat_inj.mp (hchar 95 (by decide) h))
          · exact fun h => hminus (Char.toNat_inj.mp (hchar 45 (by decide) h))
        calc String.utf8EncodeChar c = (String.utf8EncodeChar c).map id := (List.map_id _).symm
          _ = (String.utf8EncodeChar c).map toStandardByte :=
            List.map_congr_left fun b hb => (hsame b hb).symm

/-- Padding is no part of a text. -/
theorem trimEndMatches_pad (s : List Char) (k : ℕ) :
    trimEndMatches '=' (s ++ List.replicate k '=') = trimEndMatches '=' s := by
  rw [trimEndMatches, List.reverse_append, List.dropWhile_append_of_pos (by simp)]
  rfl

/-- **The two decoders.** Where a text has nothing in it that only one of them reads, they do the
same, but for the two characters in which their alphabets differ. Padding does not matter to the
decoder of base64url. -/
theorem base64urlDecode_eq (s : String) :
    ((∀ c ∈ s.toList, isAsciiWhitespace c = false ∧ c ≠ '=' ∧ c ≠ '+' ∧ c ≠ '/') →
        base64urlDecode s.toList = base64Decode (String.ofList (s.toList.map toStandard))) ∧
      ∀ k, base64urlDecode (s.toList ++ List.replicate k '=') = base64urlDecode s.toList := by
  refine ⟨fun h => ?_, fun k => ?_⟩
  · have htrim : trimEndMatches '=' s.toList = s.toList := by
      rw [trimEndMatches_eq_self]
      exact fun hlast => (h '=' (List.mem_of_getLast? hlast)).2.1 rfl
    have hclean : (s.toList.map toStandard).filter (!isAsciiWhitespace ·) =
        s.toList.map toStandard := by
      rw [List.filter_eq_self]
      intro c hc
      obtain ⟨d, hd, rfl⟩ := List.mem_map.mp hc
      have hwhite := (h d hd).1
      unfold toStandard
      split_ifs
      · rfl
      · rfl
      · rw [hwhite]
        rfl
    have hunpadded : unpadded ((asBytes s.toList).map toStandardByte) =
        some ((asBytes s.toList).map toStandardByte) := by
      rw [unpadded_eq_some_iff]
      refine ⟨fun hmem => ?_, 0, by omega, by simp⟩
      obtain ⟨b, hb, heq⟩ := List.mem_map.mp hmem
      unfold toStandardByte at heq
      split_ifs at heq
      · cases heq
      · cases heq
      · subst heq
        exact (h '=' (mem_of_mem_asBytes hb (by decide))).2.1 rfl
    have hread : ((asBytes s.toList).map toStandardByte).mapM base64Sextet =
        (asBytes s.toList).mapM base64urlVal := by
      rw [List.mapM_map]
      apply mapM_congr
      intro b hb
      apply base64Sextet_toStandardByte
      · rintro rfl
        exact (h '+' (mem_of_mem_asBytes hb (by decide))).2.2.1 rfl
      · rintro rfl
        exact (h '/' (mem_of_mem_asBytes hb (by decide))).2.2.2 rfl
    rw [base64Decode, utf8, String.toList_ofList, filter_asBytes, hclean, asBytes_toStandard,
      hunpadded, base64urlDecode, htrim]
    simp only [Option.bind_eq_bind, Option.bind_some, List.length_map,
      mapM_toChunks fun l hl => @base64Chunk_eq l hl,
      mapM_toChunks fun l _ => @base64urlChunk_eq l, hread]
  · simp only [base64urlDecode, trimEndMatches_pad]

/-- An example. -/
theorem base64urlDecode_eq_example :
    base64urlDecode "-_8".toList = base64Decode "+/8" ∧
      base64urlDecode "-_8".toList = some [251, 255] :=
  ⟨(base64urlDecode_eq "-_8").1 (by simp [isAsciiWhitespace]), by decide +kernel⟩

end Lager
