import Lager.Chunked.RoundTrip

set_option relaxedAutoImplicit false
set_option autoImplicit false

/-!
# Truncated and malformed chunked streams

What the chunk decoders make of streams that are not an encoding. The blocking decoder gives one
answer for one stream of bytes, whatever the stream is. An encoding that is cut short is told
apart from a whole one by both decoders, unless it is cut where a chunk could have started, or
after the zero-size line where a trailer line could have.

## Main definitions

* `Lager.Inside` — a cut within a piece of the encoding.
* `Lager.Cut` — the places an encoding can be cut at, with the payload before them and whether the
  decoders take them for the end of the body.

## Main results

* `Lager.drain_of_content` — the blocking decoder depends only on the bytes.
* `Lager.Encodes.cut` — every proper prefix of an encoding is cut at one of these places.
* `Lager.decode_cut` — what a cut encoding decodes to.
* `Lager.chunked_cut` — what the two decoders deliver of a cut encoding.
-/

namespace Lager

/-! ## Any stream -/

section Decode

variable {β : Type} {byte : β → UInt8} {refuses : List β → Bool → Bool}

/-- A line read fails because the line is too long or not closed. -/
theorem nextLine_error {s : List β} {kind : ErrorKind}
    (h : nextLine byte refuses s = .error kind) :
    kind = .unexpectedEof ∨ kind = .invalidData := by
  obtain hl | ⟨line, e, rest, rfl, hl, he⟩ := line_cases byte s
  · rw [nextLine_unclosed hl] at h
    split_ifs at h <;> simp_all
  · rw [nextLine_cons hl he] at h
    split_ifs at h
    simp_all

/-- A line is refused because it is not what the framing asks for. -/
theorem afterLine_error {st : State} {line : List UInt8} {kind : ErrorKind}
    (h : afterLine st line = .error kind) : kind = .invalidData := by
  cases st with
  | size =>
    simp only [afterLine] at h
    split at h
    · rename_i e hp
      simpa [parseSize_error hp] using h.symm
    · simp at h
    · simp at h
  | dataEnd =>
    simp only [afterLine] at h
    split_ifs at h
    simpa using h.symm
  | data => simp [afterLine] at h
  | trailers => simp [afterLine] at h
  | done => simp [afterLine] at h

/-- A turn that stops ends cleanly, or with one of the two kinds of error. -/
theorem turn_ending {st : State} {s : List β} {d : Delivered}
    (h : turn byte refuses st s = .stop d) :
    d.ending = none ∨ d.ending = some .unexpectedEof ∨ d.ending = some .invalidData := by
  have hline : ∀ {st : State}, st.AtLine → turn byte refuses st s = .stop d →
      d.ending = none ∨ d.ending = some .unexpectedEof ∨ d.ending = some .invalidData := by
    intro st hst h
    rw [turn_atLine hst] at h
    split at h
    · rename_i kind hn
      obtain rfl : _ = d := Turn.stop.inj h
      rcases nextLine_error hn with rfl | rfl <;> simp
    · obtain rfl : _ = d := Turn.stop.inj h
      cases hst <;> simp [atClose]
    · split at h
      · rename_i kind ha
        obtain rfl : _ = d := Turn.stop.inj h
        simp [afterLine_error ha]
      · simp at h
  cases st with
  | size => exact hline .size h
  | dataEnd => exact hline .dataEnd h
  | trailers => exact hline .trailers h
  | done =>
    obtain rfl : _ = d := Turn.stop.inj h
    simp
  | data left =>
    simp only [turn] at h
    split_ifs at h
    obtain rfl : _ = d := Turn.stop.inj h
    simp

/-- Whatever the stream, decoding it ends in one of three ways. -/
theorem decode_ending (st : State) (s : List β) :
    (decode byte refuses st s).ending = none ∨
      (decode byte refuses st s).ending = some .unexpectedEof ∨
      (decode byte refuses st s).ending = some .invalidData := by
  fun_induction decode byte refuses st s with
  | case1 st s d h => exact turn_ending h
  | case2 st s bytes st' rest h ih => exact ih

end Decode

/-- **The blocking decoder depends only on the bytes.** Over any two sources that hand over the
same bytes, well-formed or not, and with any two sequences of non-empty caller buffers, it
delivers the same bytes up to its first terminal result, and that result is the same: a clean
end, `UnexpectedEof` or `InvalidData`. -/
theorem drain_of_content {src src' : Source} (hk : src.Clean) (hk' : src'.Clean)
    (h : src.content = src'.content) {bufs bufs' : ℕ → ℕ} (hb : ∀ i, 0 < bufs i)
    (hb' : ∀ i, 0 < bufs' i) :
    ((ChunkedReader.new src).drain bufs 0).1 = ((ChunkedReader.new src').drain bufs' 0).1 ∧
      (((ChunkedReader.new src).drain bufs 0).1.ending = none ∨
        ((ChunkedReader.new src).drain bufs 0).1.ending = some .unexpectedEof ∨
        ((ChunkedReader.new src).drain bufs 0).1.ending = some .invalidData) := by
  have hwf : State.Wf .size := by simp [State.Wf]
  have hd := (ChunkedReader.drain_eq_decode hb 0 (r := ChunkedReader.new src) hk hwf).1
  have hd' := (ChunkedReader.drain_eq_decode hb' 0 (r := ChunkedReader.new src') hk' hwf).1
  have hrest : (ChunkedReader.new src).rest = (ChunkedReader.new src').rest :=
    congrArg (decode id bounded .size) h
  rw [hd, hd', hrest]
  exact ⟨rfl, decode_ending .size _⟩

/-- `3 LF ab`, in one arrival or in two, read one byte or eight at a time: `ab`, then an
unexpected end. -/
theorem drain_of_content_ab :
    let src : Source := .bytes 51 [10, 97, 98] .done
    let src' : Source := .bytes 51 [10, 97] (.pending (.bytes 98 [] .done))
    ((ChunkedReader.new src).drain (fun _ => 1) 0).1 =
        ((ChunkedReader.new src').drain (fun _ => 8) 0).1 ∧
      (((ChunkedReader.new src).drain (fun _ => 1) 0).1.ending = none ∨
        ((ChunkedReader.new src).drain (fun _ => 1) 0).1.ending = some .unexpectedEof ∨
        ((ChunkedReader.new src).drain (fun _ => 1) 0).1.ending = some .invalidData) := by
  intro src src'
  have hk : src.Clean := by simp [src, Source.Clean]
  have hk' : src'.Clean := by simp [src', Source.Clean]
  exact drain_of_content hk hk' rfl (fun _ => by decide) (fun _ => by decide)

/-! ## Cuts -/

/-- A cut within a piece of an encoding, past its first byte and before its end. -/
structure Inside (pre piece : List UInt8) : Prop where
  nonempty : pre ≠ []
  isPrefix : pre <+: piece
  proper : pre ≠ piece

/-- The places trailers can be cut at. The cut is clean where a line could start. -/
inductive TrailersCut : List UInt8 → List UInt8 → Bool → Prop
  /-- At a line boundary. -/
  | boundary {t : List UInt8} : Trailers t → TrailersCut t [] true
  /-- Within the empty line that ends the trailers. -/
  | inBlank {e pre : List UInt8} : LineEnd e → Inside pre e → TrailersCut e pre false
  /-- Within a trailer line. -/
  | inLine {t e s pre : List UInt8} : t ≠ [] → OnLine t → LineEnd e →
      (t ++ e).length ≤ maxSizeLine → Trailers s → Inside pre (t ++ e) →
      TrailersCut (t ++ e ++ s) pre false
  /-- Past a trailer line. -/
  | past {t e s pre : List UInt8} {clean : Bool} : t ≠ [] → OnLine t → LineEnd e →
      (t ++ e).length ≤ maxSizeLine → TrailersCut s pre clean →
      TrailersCut (t ++ e ++ s) (t ++ e ++ pre) clean

/-- A chunk of an encoding: its size line, its payload and its line end. -/
structure Chunk (h p e : List UInt8) : Prop where
  nonempty : p ≠ []
  fits : p.length < 2 ^ 64
  size : SizeLine p.length h
  lineEnd : LineEnd e

/-- The places an encoding of some payloads can be cut at, with the payload bytes before the cut.
The cut is clean before the first byte of a size line, and at a line boundary after the zero-size
line. -/
inductive Cut : List (List UInt8) → List UInt8 → List UInt8 → List UInt8 → Bool → Prop
  /-- Before the first byte of a size line. -/
  | atSize {ps : List (List UInt8)} {enc : List UInt8} : Encodes ps enc → Cut ps enc [] [] true
  /-- Within the zero-size line. -/
  | inLast {h t pre : List UInt8} : SizeLine 0 h → Trailers t → Inside pre h →
      Cut [] (h ++ t) pre [] false
  /-- After the zero-size line. -/
  | afterLast {h t pre : List UInt8} {clean : Bool} : SizeLine 0 h → TrailersCut t pre clean →
      Cut [] (h ++ t) (h ++ pre) [] clean
  /-- Within the size line of a chunk. -/
  | inSize {p h e s pre : List UInt8} {ps : List (List UInt8)} : Chunk h p e → Encodes ps s →
      Inside pre h → Cut (p :: ps) (h ++ p ++ e ++ s) pre [] false
  /-- After the size line of a chunk, before its line end: with some of its payload, or none, or
  all. -/
  | inPayload {p h e s pre : List UInt8} {ps : List (List UInt8)} : Chunk h p e → Encodes ps s →
      pre <+: p → Cut (p :: ps) (h ++ p ++ e ++ s) (h ++ pre) pre false
  /-- Within the line end of a chunk. -/
  | inLineEnd {p h e s pre : List UInt8} {ps : List (List UInt8)} : Chunk h p e → Encodes ps s →
      Inside pre e → Cut (p :: ps) (h ++ p ++ e ++ s) (h ++ p ++ pre) p false
  /-- Past a chunk. -/
  | past {p h e s pre payload : List UInt8} {ps : List (List UInt8)} {clean : Bool} :
      Chunk h p e → Cut ps s pre payload clean →
      Cut (p :: ps) (h ++ p ++ e ++ s) (h ++ p ++ e ++ pre) (p ++ payload) clean

/-- A prefix of two pieces ends within the first or reaches over it. -/
theorem prefix_append_cases {pre piece more : List UInt8} (h : pre <+: piece ++ more) :
    pre = [] ∨ Inside pre piece ∨ ∃ pre', pre = piece ++ pre' ∧ pre' <+: more := by
  rcases List.prefix_or_prefix_of_prefix h (List.prefix_append piece more) with hp | hp
  · by_cases hnil : pre = []
    · exact .inl hnil
    · by_cases heq : pre = piece
      · exact .inr (.inr ⟨[], by simp [heq], List.nil_prefix⟩)
      · exact .inr (.inl ⟨hnil, hp, heq⟩)
  · obtain ⟨pre', rfl⟩ := hp
    exact .inr (.inr ⟨pre', rfl, (List.prefix_append_right_inj piece).mp h⟩)

/-- Every proper prefix of trailers is cut at one of these places. -/
theorem Trailers.cut {t pre : List UInt8} (ht : Trailers t) (hp : pre <+: t) (hne : pre ≠ t) :
    ∃ clean, TrailersCut t pre clean := by
  induction ht generalizing pre with
  | @blank e he =>
    by_cases hnil : pre = []
    · exact ⟨true, hnil ▸ .boundary (.blank he)⟩
    · exact ⟨false, .inBlank he ⟨hnil, hp, hne⟩⟩
  | @line t e s ht honline he hlen hs ih =>
    rcases prefix_append_cases hp with rfl | hin | ⟨pre', rfl, hp'⟩
    · exact ⟨true, .boundary (.line ht honline he hlen hs)⟩
    · exact ⟨false, .inLine ht honline he hlen hs hin⟩
    · obtain ⟨clean, hc⟩ := ih hp' (fun h => hne (by rw [h]))
      exact ⟨clean, .past ht honline he hlen hc⟩

/-- **Every proper prefix of an encoding is cut at one of these places.** -/
theorem Encodes.cut {ps : List (List UInt8)} {enc pre : List UInt8} (henc : Encodes ps enc)
    (hp : pre <+: enc) (hne : pre ≠ enc) : ∃ payload clean, Cut ps enc pre payload clean := by
  induction henc generalizing pre with
  | @last h t hsize ht =>
    rcases prefix_append_cases hp with rfl | hin | ⟨pre', rfl, hp'⟩
    · exact ⟨[], true, .atSize (.last hsize ht)⟩
    · exact ⟨[], false, .inLast hsize ht hin⟩
    · obtain ⟨clean, hc⟩ := ht.cut hp' (fun h => hne (by rw [h]))
      exact ⟨[], clean, .afterLast hsize hc⟩
  | @chunk p h e s ps hpne hlt hsize he hs ih =>
    have hchunk : Chunk h p e := ⟨hpne, hlt, hsize, he⟩
    rw [List.append_assoc, List.append_assoc] at hp
    rcases prefix_append_cases hp with rfl | hin | ⟨pre', rfl, hp'⟩
    · exact ⟨[], true, .atSize (.chunk hpne hlt hsize he hs)⟩
    · exact ⟨[], false, .inSize hchunk hs hin⟩
    · rcases prefix_append_cases hp' with rfl | hin | ⟨pre'', rfl, hp''⟩
      · exact ⟨[], false, .inPayload hchunk hs List.nil_prefix⟩
      · exact ⟨pre', false, .inPayload hchunk hs hin.isPrefix⟩
      · rcases prefix_append_cases hp'' with rfl | hin | ⟨tail, rfl, htail⟩
        · exact ⟨p, false, by simpa using Cut.inPayload hchunk hs (List.prefix_refl p)⟩
        · exact ⟨p, false, by simpa using Cut.inLineEnd hchunk hs hin⟩
        · obtain ⟨payload, clean, hc⟩ := ih htail (fun h => hne (by simp [h]))
          exact ⟨p ++ payload, clean, by simpa using Cut.past hchunk hc⟩

/-! ## Decoding a cut encoding -/

section Decode

variable {β : Type} {byte : β → UInt8} {refuses : List β → Bool → Bool}

/-- A line that is cut has no line feed. -/
theorem Inside.not_mem_lf {pre t e : List UInt8} (h : Inside pre (t ++ e)) (ht : OnLine t)
    (he : LineEnd e) : LF ∉ pre := by
  obtain ⟨front, rfl, hfront, -⟩ := he.cases_append ht
  obtain ⟨rest, hrest⟩ := h.isPrefix
  rw [← List.append_assoc] at hrest
  obtain ⟨rest', rfl⟩ : ∃ rest', rest = rest' ++ [LF] := by
    rcases List.eq_nil_or_concat rest with rfl | ⟨rest', x, rfl⟩
    · exact absurd (by simpa using hrest) h.proper
    · rw [List.concat_eq_append, ← List.append_assoc] at hrest
      have hx : x = LF := by simpa using (List.append_inj' hrest rfl).2
      exact ⟨rest', by rw [List.concat_eq_append, hx]⟩
  rw [← List.append_assoc] at hrest
  have hpre : pre ++ rest' = t ++ front := (List.append_inj' hrest rfl).1
  intro hmem
  rcases List.mem_append.mp (hpre ▸ List.mem_append_left rest' hmem) with hm | hm
  · exact ht.2 hm
  · exact hfront hm

/-- A line that is cut is an unexpected end. -/
theorem decode_inside
    (hshort : ∀ line closed, line.length < maxSizeLine → refuses line closed = false) {st : State}
    (hst : st.AtLine) {t e pre : List UInt8} (h : Inside pre (t ++ e)) (ht : OnLine t)
    (he : LineEnd e) (hlen : (t ++ e).length ≤ maxSizeLine) {s : List β} (hs : s.map byte = pre) :
    decode byte refuses st s = ⟨[], some .unexpectedEof⟩ := by
  have hline : ∀ x ∈ s, byte x ≠ LF := fun x hx hlf =>
    h.not_mem_lf ht he (hs ▸ hlf ▸ List.mem_map_of_mem hx)
  have hne : s ≠ [] := by
    rintro rfl
    exact h.nonempty hs.symm
  have hlt : s.length < maxSizeLine := by
    have hle := h.isPrefix.length_le
    have hneq : pre.length ≠ (t ++ e).length := fun heq => h.proper (h.isPrefix.eq_of_length heq)
    have hmap : s.length = pre.length := by rw [← hs, List.length_map]
    omega
  refine decode_line_error hst ?_
  rw [nextLine_unclosed hline, if_neg hne, hshort s false hlt]
  rfl

/-- A stream that is over where a line is due. -/
theorem decode_line_nil {st : State} (hst : st.AtLine) :
    decode byte refuses st [] = ⟨[], atClose st⟩ :=
  decode_line_closed hst (by simp [nextLine])

/-- The way the body ends at a cut. -/
def endingAt (clean : Bool) : Option ErrorKind := if clean then none else some .unexpectedEof

/-- A line end on its own is a short line. -/
theorem LineEnd.length_le {e : List UInt8} (he : LineEnd e) :
    ([] ++ e).length ≤ maxSizeLine := by
  cases he <;> decide

/-- What cut trailers decode to. -/
theorem decode_trailersCut
    (hshort : ∀ line closed, line.length < maxSizeLine → refuses line closed = false)
    {t pre : List UInt8} {clean : Bool} (hc : TrailersCut t pre clean) {s : List β}
    (hs : s.map byte = pre) : decode byte refuses .trailers s = ⟨[], endingAt clean⟩ := by
  induction hc generalizing s with
  | boundary =>
    obtain rfl : s = [] := List.map_eq_nil_iff.mp hs
    exact decode_line_nil .trailers
  | inBlank he hin =>
    exact decode_inside hshort .trailers (t := []) hin (by simp [OnLine]) he he.length_le hs
  | inLine _ honline he hlen _ hin => exact decode_inside hshort .trailers hin honline he hlen hs
  | past hne honline he hlen _ ih =>
    obtain ⟨rest, hn, hrest⟩ := nextLine_lineEnd hshort hs honline he hlen
    rw [decode_line .trailers hn (congrArg Except.ok (if_neg hne))]
    exact ih hrest

/-- A size line that is cut is an unexpected end. -/
theorem decode_insideSize
    (hshort : ∀ line closed, line.length < maxSizeLine → refuses line closed = false) {n : ℕ}
    {h pre : List UInt8} (hsize : SizeLine n h) (hin : Inside pre h) {s : List β}
    (hs : s.map byte = pre) : decode byte refuses .size s = ⟨[], some .unexpectedEof⟩ := by
  obtain ⟨hd, hext, he, hlen⟩ := hsize
  exact decode_inside hshort .size hin (onLine_sizeLine hd hext) he hlen hs

/-- The size line of a chunk leads to its payload. -/
theorem decode_chunk
    (hshort : ∀ line closed, line.length < maxSizeLine → refuses line closed = false)
    {h p e : List UInt8} (hchunk : Chunk h p e) {s : List β} {more : List UInt8}
    (hs : s.map byte = h ++ more) :
    ∃ rest, rest.map byte = more ∧
      decode byte refuses .size s = decode byte refuses (.data p.length) rest := by
  obtain ⟨rest, hrest, hdec⟩ := decode_sizeLine hshort hchunk.fits hchunk.size hs
  refine ⟨rest, hrest, ?_⟩
  rw [hdec, if_neg (by simpa using hchunk.nonempty)]

/-- The whole payload of a chunk is delivered, and its line end is due. -/
theorem decode_payload {p more : List UInt8} {s : List β} (hs : s.map byte = p ++ more) :
    ∃ rest, rest.map byte = more ∧ decode byte refuses (.data p.length) s =
      (decode byte refuses .dataEnd rest).after p := by
  obtain ⟨payload, rest, rfl, hpayload, hrest⟩ := List.map_eq_append_iff.mp hs
  have hlen : payload.length = p.length := by rw [← hpayload, List.length_map]
  refine ⟨rest, hrest, ?_⟩
  rw [← hlen, decode_data, if_neg (by rw [List.length_append]; omega), List.drop_left,
    List.take_left, hpayload]

/-- **What a cut encoding decodes to.** Under a rule that lets short lines through, the payload
before the cut is delivered, and the end is clean or unexpected as the place of the cut says. -/
theorem decode_cut
    (hshort : ∀ line closed, line.length < maxSizeLine → refuses line closed = false)
    {ps : List (List UInt8)} {enc pre payload : List UInt8} {clean : Bool}
    (hc : Cut ps enc pre payload clean) {s : List β} (hs : s.map byte = pre) :
    decode byte refuses .size s = ⟨payload, endingAt clean⟩ := by
  induction hc generalizing s with
  | atSize =>
    obtain rfl : s = [] := List.map_eq_nil_iff.mp hs
    exact decode_line_nil .size
  | inLast hsize _ hin => exact decode_insideSize hshort hsize hin hs
  | afterLast hsize hc =>
    obtain ⟨rest, hrest, hdec⟩ := decode_sizeLine hshort (by decide) hsize hs
    rw [hdec]
    exact decode_trailersCut hshort hc hrest
  | inSize hchunk _ hin => exact decode_insideSize hshort hchunk.size hin hs
  | @inPayload p h e s' pre ps hchunk _ hp =>
    obtain ⟨rest, hrest, hdec⟩ := decode_chunk hshort hchunk hs
    rw [hdec]
    by_cases hall : pre = p
    · subst hall
      obtain ⟨rest', hrest', hpay⟩ := @decode_payload β byte refuses pre [] rest
        (by rw [hrest, List.append_nil])
      obtain rfl : rest' = [] := List.map_eq_nil_iff.mp hrest'
      rw [hpay, decode_line_nil .dataEnd]
      simp [Delivered.after, atClose, endingAt]
    · have hlt : rest.length < p.length := by
        have hle := hp.length_le
        have hneq : pre.length ≠ p.length := fun heq => hall (hp.eq_of_length heq)
        have hmap : rest.length = pre.length := by rw [← hrest, List.length_map]
        omega
      rw [decode_data, if_pos hlt, hrest]
      rfl
  | @inLineEnd p h e s' pre ps hchunk _ hin =>
    rw [List.append_assoc] at hs
    obtain ⟨rest, hrest, hdec⟩ := decode_chunk hshort hchunk hs
    obtain ⟨rest', hrest', hpay⟩ := @decode_payload β byte refuses p _ rest hrest
    rw [hdec, hpay, decode_inside hshort .dataEnd (t := []) hin (by simp [OnLine])
      hchunk.lineEnd hchunk.lineEnd.length_le hrest']
    simp [Delivered.after, endingAt]
  | @past p h e s' pre payload ps clean hchunk _ ih =>
    simp only [List.append_assoc] at hs
    obtain ⟨rest, hrest, hdec⟩ := decode_chunk hshort hchunk hs
    obtain ⟨rest', hrest', hpay⟩ := @decode_payload β byte refuses p _ rest hrest
    obtain ⟨rest'', hline, hrest''⟩ := nextLine_lineEnd (t := []) hshort hrest' (by simp [OnLine])
      hchunk.lineEnd hchunk.lineEnd.length_le
    rw [hdec, hpay, decode_line .dataEnd hline rfl, ih hrest'']
    rfl

end Decode

/-! ## The decoders -/

/-- **A cut chunked stream never passes for a whole one.** For every proper prefix of an encoding,
however it arrives and with any non-empty caller buffers: the prefix is cut at one of the places
of `Lager.Cut`, and both decoders deliver exactly the payload bytes before the cut and then
report a clean end if the cut is clean, before a size line or at a line boundary after the
zero-size line, and `UnexpectedEof` if it is anywhere else. -/
theorem chunked_cut {payloads : List (List UInt8)} {enc pre : List UInt8}
    (h : Encodes payloads enc) (hp : pre <+: enc) (hne : pre ≠ enc) :
    (∃ payload clean, Cut payloads enc pre payload clean) ∧
      ∀ payload clean, Cut payloads enc pre payload clean →
        (∀ src : Source, src.Clean → src.content = pre →
          ∀ bufs : ℕ → ℕ, (∀ i, 0 < bufs i) →
            ((ChunkedReader.new src).drain bufs 0).1 = ⟨payload, endingAt clean⟩) ∧
        ∀ inner : BufReader, inner.Clean → inner.content = pre →
          ∀ (length : Option ℕ) (bufs : ℕ → ℕ), (∀ i, 0 < bufs i) →
            ((AsyncBody.new inner true length).drain bufs 0).1 = ⟨payload, endingAt clean⟩ := by
  refine ⟨h.cut hp hne, fun payload clean hc => ⟨?_, ?_⟩⟩
  · intro src hk hcontent bufs hbufs
    have hd := (ChunkedReader.drain_eq_decode hbufs 0 (r := ChunkedReader.new src) hk
      (by simp [ChunkedReader.new, State.Wf])).1
    rw [hd]
    exact decode_cut bounded_short hc (by rw [List.map_id]; exact hcontent)
  · intro inner hk hcontent length bufs hbufs
    have hd := (AsyncBody.drain_eq_decode hbufs 0 (AsyncBody.ready_new hk length)).1
    have hbytes : (AsyncBody.new inner true length).stream.map Marked.byte = pre := by
      rw [← hcontent, ← BufReader.map_byte_fetches]
      rfl
    rw [hd]
    exact decode_cut fetchedLate_short hc hbytes

/-- `3 CRLF ab`, cut off within the chunk, is cut at one place, and to both decoders it is `ab` and
an unexpected end. -/
theorem chunked_cut_ab :
    (∃ payload clean, Cut [[97, 98, 99]] [51, 13, 10, 97, 98, 99, 13, 10, 48, 13, 10, 13, 10]
        [51, 13, 10, 97, 98] payload clean) ∧
      ∀ payload clean, Cut [[97, 98, 99]] [51, 13, 10, 97, 98, 99, 13, 10, 48, 13, 10, 13, 10]
          [51, 13, 10, 97, 98] payload clean →
        (∀ src : Source, src.Clean → src.content = [51, 13, 10, 97, 98] →
          ∀ bufs : ℕ → ℕ, (∀ i, 0 < bufs i) →
            ((ChunkedReader.new src).drain bufs 0).1 = ⟨payload, endingAt clean⟩) ∧
        ∀ inner : BufReader, inner.Clean → inner.content = [51, 13, 10, 97, 98] →
          ∀ (length : Option ℕ) (bufs : ℕ → ℕ), (∀ i, 0 < bufs i) →
            ((AsyncBody.new inner true length).drain bufs 0).1 = ⟨payload, endingAt clean⟩ :=
  chunked_cut encodes_abc (by decide) (by decide)

end Lager
