import Lager.Chunked.Refinement

set_option relaxedAutoImplicit false
set_option autoImplicit false

/-!
# The chunked round trip

The encodings the chunk decoders are there for: a size line, the payload and a line end for
each chunk, then a zero size line, trailers and an empty line. Whatever the payloads look
like, however the encoding arrives and whatever follows it, both decoders deliver the
payloads and stop.

## Main definitions

* `Lager.Encodes` — the chunked encodings of a list of payloads, from `Lager.SizeLine`,
  `Lager.LineEnd` and `Lager.Trailers`.

## Main results

* `Lager.decode_encodes` — `decode` inverts every encoding, under any rule that lets short
  lines through.
* `Lager.chunked_roundTrip` — so do the two decoders.
-/

namespace Lager

/-! ## Encodings -/

/-- How a line may end. -/
inductive LineEnd : List UInt8 → Prop
  | lf : LineEnd [LF]
  | crlf : LineEnd [CR, LF]

/-- Text with no line end in it. -/
def OnLine (t : List UInt8) : Prop := CR ∉ t ∧ LF ∉ t

/-- Hex digits of either case for a number, with any leading zeros. -/
structure HexDigits (n : ℕ) (ds : List UInt8) : Prop where
  nonempty : ds ≠ []
  digits : ∀ d ∈ ds, (toDigit 16 (asciiChar d)).isSome
  value : digitsValue 16 0 (ds.map asciiChar) = n

/-- What may follow the digits of a size line. -/
inductive Extension : List UInt8 → Prop
  | absent : Extension []
  | present {t : List UInt8} : OnLine t → Extension (semicolon :: t)

/-- The size lines for a number. -/
inductive SizeLine (n : ℕ) : List UInt8 → Prop
  | mk {ds ext e : List UInt8} : HexDigits n ds → Extension ext → LineEnd e →
      (ds ++ ext ++ e).length ≤ maxSizeLine → SizeLine n (ds ++ ext ++ e)

/-- Trailer lines and the empty line after them. -/
inductive Trailers : List UInt8 → Prop
  | blank {e : List UInt8} : LineEnd e → Trailers e
  | line {t e s : List UInt8} : t ≠ [] → OnLine t → LineEnd e → (t ++ e).length ≤ maxSizeLine →
      Trailers s → Trailers (t ++ e ++ s)

/-- The chunked encodings of a list of payloads. A payload is never so long that its length
would not fit the `u64` of its size line. -/
inductive Encodes : List (List UInt8) → List UInt8 → Prop
  | last {h t : List UInt8} : SizeLine 0 h → Trailers t → Encodes [] (h ++ t)
  | chunk {p h e s : List UInt8} {ps : List (List UInt8)} : p ≠ [] → p.length < 2 ^ 64 →
      SizeLine p.length h → LineEnd e → Encodes ps s → Encodes (p :: ps) (h ++ p ++ e ++ s)

/-! ## Size lines -/

/-- A hex digit is ASCII. -/
theorem lt_of_toDigit {b : UInt8} (h : (toDigit 16 (asciiChar b)).isSome) : b.toNat < 128 := by
  simp only [toDigit, toNat_asciiChar] at h
  split_ifs at h <;> simp_all <;> omega

/-- A hex digit is no character of the framing. -/
theorem ne_of_toDigit {b : UInt8} (h : (toDigit 16 (asciiChar b)).isSome) :
    b ≠ semicolon ∧ b ≠ CR ∧ b ≠ LF := by
  refine ⟨?_, ?_, ?_⟩ <;> rintro rfl <;> revert h <;> decide

/-- **The size line parser inverts size lines.** -/
theorem parseSize_sizeLine {n : ℕ} (hn : n < 2 ^ 64) {ds ext : List UInt8}
    (hd : HexDigits n ds) (he : Extension ext) : parseSize (ds ++ ext) = .ok n := by
  have hsemi : semicolon ∉ ds := fun h => (ne_of_toDigit (hd.digits _ h)).1 rfl
  have hbefore : beforeExtension (ds ++ ext) = ds := by
    cases he with
    | absent =>
      rw [List.append_nil, beforeExtension, Library.cut_eq_none_iff.mpr hsemi]
    | present _ => rw [beforeExtension, Library.cut_append_cons hsemi]
  have hutf8 : fromUtf8 ds = some (ds.map asciiChar) :=
    fromUtf8_ascii fun b hb => lt_of_toDigit (hd.digits b hb)
  have hdigits : ∀ c ∈ ds.map asciiChar, (toDigit 16 c).isSome := by
    simpa using hd.digits
  have htrim : trim (ds.map asciiChar) = ds.map asciiChar :=
    trim_eq_self fun c hc => isWhitespace_of_toDigit (hdigits c hc)
  have hparse : fromStrRadix 16 (2 ^ 64) (ds.map asciiChar) = some n := by
    rw [fromStrRadix_digits (by decide) (by simpa using hd.nonempty) hdigits (by rwa [hd.value]),
      hd.value]
  rw [parseSize, hbefore, hutf8]
  simp only [htrim, hparse]

/-! ## Decoding an encoding -/

section Decode

variable {β : Type} {byte : β → UInt8} {refuses : List β → Bool → Bool}

/-- Text on a line does not end in a carriage return. -/
theorem stripCr_of_onLine {t : List UInt8} (ht : OnLine t) : stripCr t = t := by
  have hlast : t.getLast? ≠ some CR := fun h => ht.1 (List.mem_of_getLast? h)
  rw [stripCr, if_neg hlast]

/-- A line end is what `stripCr` and the line feed take off. -/
theorem LineEnd.cases_append {e : List UInt8} (he : LineEnd e) {t : List UInt8} (ht : OnLine t) :
    ∃ front, e = front ++ [LF] ∧ LF ∉ front ∧ stripCr (t ++ front) = t := by
  cases he with
  | lf =>
    refine ⟨[], rfl, by simp, ?_⟩
    rw [List.append_nil, stripCr_of_onLine ht]
  | crlf => exact ⟨[CR], rfl, by decide, by simp [stripCr]⟩

/-- A short line of an encoding is the next line of the stream. -/
theorem nextLine_lineEnd
    (hshort : ∀ line closed, line.length < maxSizeLine → refuses line closed = false)
    {s : List β} {t e more : List UInt8} (hs : s.map byte = t ++ e ++ more) (ht : OnLine t)
    (he : LineEnd e) (hlen : (t ++ e).length ≤ maxSizeLine) :
    ∃ rest, nextLine byte refuses s = .ok (some (t, rest)) ∧ rest.map byte = more := by
  obtain ⟨front, rfl, hfront, hstrip⟩ := he.cases_append ht
  have hs' : s.map byte = (t ++ front) ++ LF :: more := by
    rw [hs]
    simp
  obtain ⟨line, tail, rfl, hline, htail⟩ := List.map_eq_append_iff.mp hs'
  obtain ⟨x, rest, rfl, hx, hrest⟩ := List.map_eq_cons_iff.mp htail
  have hn : ∀ y ∈ line, byte y ≠ LF := by
    intro y hy h
    have hmem : LF ∈ t ++ front := hline ▸ h ▸ List.mem_map_of_mem hy
    rcases List.mem_append.mp hmem with h | h
    · exact ht.2 h
    · exact hfront h
  have hlt : line.length < maxSizeLine := by
    have := congrArg List.length hline
    simp only [List.length_map, List.length_append, List.length_cons, List.length_nil] at this hlen
    omega
  refine ⟨rest, ?_, hrest⟩
  rw [nextLine_cons hn hx, hshort line true hlt, hline, hstrip]
  rfl

/-- Trailers decode to the end of the body. -/
theorem decode_trailers
    (hshort : ∀ line closed, line.length < maxSizeLine → refuses line closed = false)
    {t : List UInt8} (ht : Trailers t) {s : List β} {more : List UInt8}
    (hs : s.map byte = t ++ more) : decode byte refuses .trailers s = ⟨[], none⟩ := by
  induction ht generalizing s with
  | @blank e he =>
    have hlen : ([] ++ e).length ≤ maxSizeLine := by
      cases he <;> decide
    obtain ⟨rest, hn, -⟩ := nextLine_lineEnd hshort hs (by simp [OnLine]) he hlen
    exact (decode_line .trailers hn rfl).trans (decode_done rest)
  | line hne honline he hlen _ ih =>
    rw [List.append_assoc] at hs
    obtain ⟨rest, hn, hrest⟩ := nextLine_lineEnd hshort hs honline he hlen
    rw [decode_line .trailers hn (congrArg Except.ok (if_neg hne))]
    exact ih hrest

/-- The digits of a size line and its extension stand on one line. -/
theorem onLine_sizeLine {n : ℕ} {ds ext : List UInt8} (hd : HexDigits n ds)
    (he : Extension ext) : OnLine (ds ++ ext) := by
  have hds : OnLine ds :=
    ⟨fun h => (ne_of_toDigit (hd.digits _ h)).2.1 rfl,
      fun h => (ne_of_toDigit (hd.digits _ h)).2.2 rfl⟩
  have hext : OnLine ext := by
    cases he with
    | absent => exact ⟨by simp, by simp⟩
    | present ht =>
      exact ⟨by simpa [semicolon, CR] using ht.1, by simpa [semicolon, LF] using ht.2⟩
  exact ⟨by simpa using ⟨hds.1, hext.1⟩, by simpa using ⟨hds.2, hext.2⟩⟩

/-- A size line leads to the state its number says. -/
theorem decode_sizeLine
    (hshort : ∀ line closed, line.length < maxSizeLine → refuses line closed = false) {n : ℕ}
    (hn : n < 2 ^ 64) {h : List UInt8} (hsize : SizeLine n h) {s : List β}
    {more : List UInt8} (hs : s.map byte = h ++ more) :
    ∃ rest, rest.map byte = more ∧ decode byte refuses .size s =
      decode byte refuses (if n = 0 then .trailers else .data n) rest := by
  obtain ⟨hd, hext, he, hlen⟩ := hsize
  obtain ⟨rest, hline, hrest⟩ := nextLine_lineEnd hshort hs (onLine_sizeLine hd hext) he hlen
  have hp := parseSize_sizeLine hn hd hext
  refine ⟨rest, hrest, decode_line .size hline ?_⟩
  rw [afterLine]
  split
  · simp_all
  · simp_all
  · rename_i size hz hp'
    obtain rfl : size = n := by simpa [hp] using hp'.symm
    rw [if_neg hz]

/-- **Decoding inverts every encoding.** Under a rule that lets short lines through, what
follows the encoding makes no difference.

**Proof sketch.** Induction on the encoding. The size line is the next line of the stream and
parses to the payload's length, so the payload is delivered by its length, whatever its bytes;
the line end after it is an empty line, and the rest is the encoding of the other payloads. -/
theorem decode_encodes
    (hshort : ∀ line closed, line.length < maxSizeLine → refuses line closed = false)
    {ps : List (List UInt8)} {enc : List UInt8} (h : Encodes ps enc) {s : List β}
    {more : List UInt8} (hs : s.map byte = enc ++ more) :
    decode byte refuses .size s = ⟨ps.flatten, none⟩ := by
  induction h generalizing s with
  | last hsize ht =>
    rw [List.append_assoc] at hs
    obtain ⟨rest, hrest, hdec⟩ := decode_sizeLine hshort (by decide) hsize hs
    rw [hdec]
    exact decode_trailers hshort ht hrest
  | @chunk p h e enc ps hne hlt hsize he _ ih =>
    simp only [List.append_assoc] at hs
    obtain ⟨rest, hrest, hdec⟩ := decode_sizeLine hshort hlt hsize hs
    obtain ⟨payload, tail, rfl, hpayload, htail⟩ := List.map_eq_append_iff.mp hrest
    have hlen : payload.length = p.length := by
      rw [← hpayload, List.length_map]
    rw [hdec, if_neg (by simpa using hne), ← hlen, decode_data,
      if_neg (by rw [List.length_append]; omega), List.drop_left, List.take_left]
    have hblank : ([] ++ e).length ≤ maxSizeLine := by
      cases he <;> decide
    obtain ⟨rest', hline, hrest'⟩ := nextLine_lineEnd hshort htail (by simp [OnLine]) he hblank
    rw [decode_line .dataEnd hline rfl, ih hrest', hpayload]
    rfl

end Decode

/-! ## The decoders -/

/-- The blocking rule lets short lines through. -/
theorem bounded_short {β : Type} (line : List β) (closed : Bool) (h : line.length < maxSizeLine) :
    bounded line closed = false := by
  cases closed <;> simp [bounded] <;> omega

/-- So does the async rule, however they were fetched. -/
theorem fetchedLate_short (line : List Marked) (closed : Bool) (h : line.length < maxSizeLine) :
    fetchedLate line closed = false := by
  rw [fetchedLate, List.drop_eq_nil_of_le (by omega)]
  rfl

/-- `3 CRLF abc CRLF 0 CRLF CRLF` is an encoding of `abc`. -/
theorem encodes_abc :
    Encodes [[97, 98, 99]] [51, 13, 10, 97, 98, 99, 13, 10, 48, 13, 10, 13, 10] := by
  have hlastSize : SizeLine 0 ([48] ++ [] ++ [CR, LF]) :=
    ⟨⟨by decide, List.forall_mem_singleton.mpr (by decide), by decide⟩, .absent, .crlf, by decide⟩
  have hsize : SizeLine [97, 98, 99].length ([51] ++ [] ++ [CR, LF]) :=
    ⟨⟨by decide, List.forall_mem_singleton.mpr (by decide), by decide⟩, .absent, .crlf, by decide⟩
  have henc : Encodes [[97, 98, 99]] ([51] ++ [] ++ [CR, LF] ++ [97, 98, 99] ++ [CR, LF] ++
      ([48] ++ [] ++ [CR, LF] ++ [CR, LF])) :=
    .chunk (by decide) (by decide) hsize .crlf (.last hlastSize (.blank .crlf))
  exact henc

/-- **Chunked round trip.** A chunked encoding of any payloads, followed by anything: both
decoders deliver exactly the payloads and then the end of the stream, for every way the
source splits its bytes over reads and every sequence of non-empty caller buffers, and no
later read of either delivers a byte more. -/
theorem chunked_roundTrip {payloads : List (List UInt8)} {enc : List UInt8}
    (h : Encodes payloads enc) (further : List UInt8) :
    (∀ src : Source, src.Clean → src.content = enc ++ further →
      ∀ bufs : ℕ → ℕ, (∀ i, 0 < bufs i) →
        ∃ r, (ChunkedReader.new src).drain bufs 0 = (⟨payloads.flatten, none⟩, r) ∧
          ∀ n, r.read n = (.ok [], r)) ∧
    (∀ inner : BufReader, inner.Clean → inner.content = enc ++ further →
      ∀ (length : Option ℕ) (bufs : ℕ → ℕ), (∀ i, 0 < bufs i) →
        ∃ b, (AsyncBody.new inner true length).drain bufs 0 = (⟨payloads.flatten, none⟩, b) ∧
          ∀ n, b.pollRead n = (.ready (.ok []), b)) := by
  constructor
  · intro src hk hc bufs hbufs
    have hcont : (ChunkedReader.new src).content = enc ++ further := hc
    obtain ⟨hd, hdone⟩ := ChunkedReader.drain_eq_decode hbufs 0 (r := ChunkedReader.new src) hk
      (by simp [ChunkedReader.new, State.Wf])
    have hrest : (ChunkedReader.new src).rest = ⟨payloads.flatten, none⟩ :=
      decode_encodes bounded_short h (by rw [List.map_id, hcont])
    refine ⟨_, Prod.ext (hd.trans hrest) rfl, fun n => ChunkedReader.read_of_done n (hdone ?_)⟩
    rw [hd, hrest]
  · intro inner hk hc length bufs hbufs
    obtain ⟨hd, hdone⟩ := AsyncBody.drain_eq_decode hbufs 0 (AsyncBody.ready_new hk length)
    have hbytes : (AsyncBody.new inner true length).stream.map Marked.byte = enc ++ further := by
      rw [← hc, ← BufReader.map_byte_fetches]
      rfl
    have hrest : (AsyncBody.new inner true length).rest .size = ⟨payloads.flatten, none⟩ :=
      decode_encodes fetchedLate_short h hbytes
    refine ⟨_, Prod.ext (hd.trans hrest) rfl, fun n => AsyncBody.pollRead_of_done n (hdone ?_)⟩
    rw [hd, hrest]

/-- `3 CRLF abc CRLF 0 CRLF CRLF *`, in three arrivals and read two bytes at a time, is `abc` to
both decoders. -/
theorem chunked_roundTrip_abc :
    let src : Source := .bytes 51 [13] (.pending (.bytes 10 [97, 98, 99, 13, 10, 48, 13]
      (.bytes 10 [13, 10, 42] .done)))
    (∃ r, (ChunkedReader.new src).drain (fun _ => 2) 0 = (⟨[[97, 98, 99]].flatten, none⟩, r) ∧
      ∀ n, r.read n = (.ok [], r)) ∧
    ∃ b, (AsyncBody.new (BufReader.new src) true none).drain (fun _ => 2) 0 =
        (⟨[[97, 98, 99]].flatten, none⟩, b) ∧
      ∀ n, b.pollRead n = (.ready (.ok []), b) := by
  intro src
  have hclean : src.Clean := by simp [src, Source.Clean]
  obtain ⟨hblocking, hasync⟩ := chunked_roundTrip encodes_abc [42]
  exact ⟨hblocking src hclean (by decide) _ (fun _ => by decide),
    hasync (BufReader.new src) hclean (by decide) none _ (fun _ => by decide)⟩

end Lager
