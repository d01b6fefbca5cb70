import Lager.Library.Checked
import Lager.Rust.Text
import Mathlib.Data.List.Infix

set_option relaxedAutoImplicit false
set_option autoImplicit false

/-!
# Helpers of the streaming sessions

The data of the sessions is hexadecimal text; `take_through` is how they look for a needle in what
they have buffered.

## Main definitions

* `Lager.sio.hexEncode`, `Lager.sio.hexDecode` — the codec. Decoding slices a text by its bytes,
  which may panic.
* `Lager.takeThrough` — split a buffer behind the first occurrence of a needle.
* `Lager.ShortestThrough` — the shortest prefix of a stream that ends with a needle.

## Main results

* `Lager.takeThrough_spec` — what `takeThrough` returns is that prefix of the buffer.
* `Lager.ShortestThrough.append` — and of every stream the buffer is the front of.
-/

namespace Lager

open Library

/-! ## Hexadecimal data -/

/-- A hexadecimal digit in lower case. -/
def lowerDigit (n : ℕ) : Char := Char.ofNat (if n < 10 then 48 + n else 87 + n)

/-- `{b:02x}`: a byte as two digits. -/
def lowerHex (b : UInt8) : List Char := [lowerDigit (b.toNat / 16), lowerDigit (b.toNat % 16)]

/-- The characters of a text in front of a byte and from it on, if a character starts there or the
text ends there. -/
def splitAtByte : ℕ → List Char → Option (List Char × List Char)
  | 0, s => some ([], s)
  | _ + 1, [] => none
  | i + 1, c :: s =>
    if c.utf8Size ≤ i + 1 then (splitAtByte (i + 1 - c.utf8Size) s).map fun p => (c :: p.1, p.2)
    else none

/-- `&s[i..j]`, a slice of a text by its bytes: a panic inside a character. -/
def sliceText (s : List Char) (i j : ℕ) : Checked (List Char) :=
  match (splitAtByte i s).bind fun p => if i ≤ j then splitAtByte (j - i) p.2 else none with
  | some p => .ok p.1
  | none => .error .outOfRange

namespace sio

/-- `hex_encode`. -/
def hexEncode (data : List UInt8) : String :=
  data.foldl (fun s b => s ++ String.ofList (lowerHex b)) ""

/-- The byte of the two characters at a place of a text. -/
def byteAt (s : List Char) (i : ℕ) : Fallible Unit UInt8 := do
  let pair ← sliceText s i (i + 2)
  match fromStrRadix 16 256 pair with
  | some byte => return UInt8.ofNat byte
  | none => Fallible.throw ()

/-- `hex_decode`, with an error for `None`. -/
def hexDecode (s : String) : Fallible Unit (List UInt8) :=
  let s := trim s.toList
  if (asBytes s).length % 2 ≠ 0 then Fallible.throw ()
  else (List.range ((asBytes s).length / 2)).mapM fun k => byteAt s (2 * k)

end sio

/-! ## Searching a buffer -/

/-- `slice::windows`: every stretch of `n` consecutive bytes, in order. -/
def windows (n : ℕ) (buf : List UInt8) : List (List UInt8) :=
  (List.range (buf.length + 1 - n)).map fun i => (buf.drop i).take n

/-- `take_through`: everything up to and including the first occurrence of `needle`, and the rest
of the buffer. -/
def takeThrough (buf needle : List UInt8) : Option (List UInt8 × List UInt8) :=
  match (windows needle.length buf).findIdx? (· == needle) with
  | none => none
  | some pos => some (buf.take (pos + needle.length), buf.drop (pos + needle.length))

/-- `found` is the shortest prefix of `stream` that ends with `needle`. -/
structure ShortestThrough (needle found stream : List UInt8) : Prop where
  isPrefix : found <+: stream
  ends : needle <:+ found
  shortest : ∀ p, p <+: stream → needle <:+ p → found.length ≤ p.length

/-- The window at a position, when there is one. -/
theorem windows_getElem? {n i : ℕ} {buf : List UInt8} (h : i + n ≤ buf.length) :
    (windows n buf)[i]? = some ((buf.drop i).take n) := by
  rw [windows, List.getElem?_map, List.getElem?_range (by omega)]
  rfl

/-- A prefix that ends with the needle has it in its last window. -/
theorem window_of_isSuffix {needle p buf : List UInt8} (hp : p <+: buf) (hn : needle <:+ p) :
    ∃ i, i + needle.length = p.length ∧ (buf.drop i).take needle.length = needle := by
  obtain ⟨more, rfl⟩ := hp
  obtain ⟨front, rfl⟩ := hn
  refine ⟨front.length, by rw [List.length_append], ?_⟩
  rw [List.append_assoc, List.drop_left, List.take_left]

/-- **Searching a buffer.** `takeThrough` splits the buffer behind the shortest prefix that ends
with the needle. -/
theorem takeThrough_spec {buf needle found rest : List UInt8}
    (h : takeThrough buf needle = some (found, rest)) :
    found ++ rest = buf ∧ ShortestThrough needle found buf := by
  unfold takeThrough at h
  split at h
  · simp at h
  · rename_i pos hpos
    simp only [Option.some.injEq, Prod.mk.injEq] at h
    obtain ⟨rfl, rfl⟩ := h
    obtain ⟨hlt, heq, hfirst⟩ := List.findIdx?_eq_some_iff_getElem.mp hpos
    have hlen : pos + needle.length ≤ buf.length := by
      rw [windows, List.length_map, List.length_range] at hlt
      omega
    have hwin : (buf.drop pos).take needle.length = needle := by
      have hw := windows_getElem? hlen
      rw [List.getElem?_eq_getElem hlt, Option.some.injEq] at hw
      rw [← hw]
      simpa using heq
    refine ⟨List.take_append_drop _ _, List.take_prefix _ _, ⟨buf.take pos, ?_⟩, ?_⟩
    · rw [List.take_add, hwin]
    · intro p hp hn
      obtain ⟨i, hi, hwi⟩ := window_of_isSuffix hp hn
      have hple := hp.length_le
      rw [List.length_take, Nat.min_eq_left hlen, ← hi]
      by_contra hlt'
      have hi' : i < pos := by omega
      have hw := windows_getElem? (show i + needle.length ≤ buf.length by omega)
      have hne := hfirst i hi'
      rw [List.getElem?_eq_getElem (by omega), Option.some.injEq] at hw
      rw [hw, hwi] at hne
      simp at hne

/-- The shortest prefix stays the shortest when the stream goes on. -/
theorem ShortestThrough.append {needle found stream : List UInt8}
    (h : ShortestThrough needle found stream) (more : List UInt8) :
    ShortestThrough needle found (stream ++ more) := by
  refine ⟨h.isPrefix.trans (List.prefix_append _ _), h.ends, fun p hp hn => ?_⟩
  by_contra hlt
  have hle := h.isPrefix.length_le
  have hp' : p <+: stream :=
    List.prefix_of_prefix_length_le hp (List.prefix_append stream more) (by omega)
  exact hlt (h.shortest p hp' hn)

end Lager
