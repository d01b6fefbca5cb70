import Lager.Chunked.AsyncBody
import Lager.Chunked.Framing

set_option relaxedAutoImplicit false
set_option autoImplicit false

/-!
# The decoders compute `decode`

Both decoders, read to their end over a source that does not fail, deliver what `decode` says
of the stream: the blocking one under the rule `bounded` on its bytes, the async one under
the rule `fetchedLate` on its bytes with the ends of fetches marked. The caller's buffers, the
polls that find nothing and the boundaries between reads are gone from the right-hand sides;
only the async rule still sees where fetches ended.

## Main results

* `Lager.ChunkedReader.drain_eq_decode` — the blocking decoder.
* `Lager.AsyncBody.drain_eq_decode` — the async decoder.
* `Lager.ChunkedReader.read_of_done`, `Lager.AsyncBody.pollRead_of_done` — a decoder that is
  done stays done.
-/

namespace Lager

open Library

/-! ## The blocking decoder -/

/-- A decoder is never inside a chunk with nothing left. -/
def State.Wf (st : State) : Prop := st ≠ .data 0

/-- The state after some payload is inside the chunk only if there is some left. -/
theorem State.wf_left (left : ℕ) : State.Wf (if left = 0 then .dataEnd else .data left) := by
  split_ifs with h
  · simp [State.Wf]
  · simpa [State.Wf] using h

/-- A line never announces an empty chunk. -/
theorem afterLine_wf {st st' : State} (hst : st.AtLine) {line : List UInt8}
    (h : afterLine st line = .ok st') : st'.Wf := by
  cases hst <;> simp only [afterLine] at h <;> split at h <;> cases h <;> simp_all [State.Wf]

namespace ChunkedReader

/-- Every byte the decoder's source will still hand over. -/
def content (r : ChunkedReader) : List UInt8 := r.inner.content

/-- The next line under the blocking rule is what a bounded line read leaves to `readLine`. -/
theorem nextLine_eq_takeLine {s : List UInt8} :
    nextLine id bounded s =
      let line := (takeLine (maxSizeLine + 2) LF s).1
      if line.length = 0 then .ok none
      else if line.getLast? ≠ some LF then
        .error (if line.length > maxSizeLine then .invalidData else .unexpectedEof)
      else .ok (some (chomp line, (takeLine (maxSizeLine + 2) LF s).2)) := by
  obtain hl | ⟨line, e, rest, rfl, hl, he⟩ := line_cases id s
  · have hn : LF ∉ s.take (maxSizeLine + 2) := fun h => hl LF (List.mem_of_mem_take h) rfl
    have ht : takeLine (maxSizeLine + 2) LF s =
        (s.take (maxSizeLine + 2), s.drop (maxSizeLine + 2)) := by
      simp [takeLine, cut_eq_none_iff.mpr hn]
    have hlast : (s.take (maxSizeLine + 2)).getLast? ≠ some LF :=
      fun h => hn (List.mem_of_getLast? h)
    rw [nextLine_unclosed hl, ht]
    simp only [hlast, ne_eq, not_false_eq_true, ↓reduceIte, List.length_take]
    by_cases h0 : s = []
    · simp [h0]
    · have hpos := List.length_pos_iff.mpr h0
      have hlen : min (maxSizeLine + 2) s.length > maxSizeLine ↔ maxSizeLine < s.length := by
        omega
      have hne : ¬ min (maxSizeLine + 2) s.length = 0 := by omega
      rw [if_neg h0, if_neg hne]
      simp [bounded, hlen]
  · have hn : LF ∉ line := fun h => hl LF h rfl
    rw [nextLine_cons hl he]
    obtain rfl : e = LF := he
    by_cases hlong : maxSizeLine + 1 < line.length
    · -- the line feed is out of reach, so the read comes back full and without it
      have ht : takeLine (maxSizeLine + 2) LF (line ++ LF :: rest) =
          (line.take (maxSizeLine + 2), (line ++ LF :: rest).drop (maxSizeLine + 2)) := by
        rw [takeLine, List.take_append_of_le_length (by omega),
          cut_eq_none_iff.mpr fun h => hn (List.mem_of_mem_take h)]
      have hlast : (line.take (maxSizeLine + 2)).getLast? ≠ some LF :=
        fun h => hn (List.mem_of_mem_take (List.mem_of_getLast? h))
      have hlen : (line.take (maxSizeLine + 2)).length = maxSizeLine + 2 := by
        rw [List.length_take]
        omega
      simp [ht, hlast, hlen, bounded, hlong]
    · have ht : takeLine (maxSizeLine + 2) LF (line ++ LF :: rest) = (line ++ [LF], rest) := by
        have hc : cut LF ((line ++ LF :: rest).take (maxSizeLine + 2)) =
            some (line, rest.take (maxSizeLine + 2 - (line.length + 1))) :=
          cut_take (cut_append_cons hn) (by omega)
        simp [takeLine, hc]
      simp [ht, bounded, hlong]

/-- What the stream holds for a decoder in its present state. -/
def rest (r : ChunkedReader) : Delivered := decode id bounded r.state r.content

/-- The state decides what the stream holds. -/
theorem rest_eq {r : ChunkedReader} {st : State} (hs : r.state = st) :
    r.rest = decode id bounded st r.content := by
  rw [rest, hs]

/-- On a source that does not fail, a line read is the next line under the blocking rule. -/
theorem readLine_refines {r : ChunkedReader} (hk : r.inner.Clean) :
    match r.readLine with
    | (.error e, _) => nextLine id bounded r.content = .error e.kind
    | (.ok none, r') => nextLine id bounded r.content = .ok none ∧ r'.inner.Clean
    | (.ok (some line), r') => nextLine id bounded r.content = .ok (some (line, r'.content)) ∧
        r'.inner.Clean ∧ r'.state = r.state := by
  obtain ⟨inner, hr, hcont, hk', -⟩ := r.inner.readUntil_spec (maxSizeLine + 2) LF [] hk
  simp only [content, nextLine_eq_takeLine, readLine, hr, List.nil_append]
  split_ifs with h0 hlf hlong
  · exact ⟨rfl, hk'⟩
  · rfl
  · rfl
  · exact ⟨by rw [hcont], hk', rfl⟩

/-- Skipping trailers is what is left to do after the last size line. -/
theorem skipTrailers_refines {r : ChunkedReader} (hk : r.inner.Clean) :
    match r.skipTrailers with
    | (.error e, _) => decode id bounded .trailers r.content = ⟨[], some e.kind⟩
    | (.ok (), r') => decode id bounded .trailers r.content = ⟨[], none⟩ ∧ r'.inner.Clean := by
  fun_induction skipTrailers r with
  | case1 r e r' h =>
    have hl := readLine_refines hk
    rw [h] at hl
    exact decode_line_error .trailers hl
  | case2 r r' h =>
    have hl := readLine_refines hk
    rw [h] at hl
    exact ⟨decode_line_closed .trailers hl.1, hl.2⟩
  | case3 r r' h =>
    have hl := readLine_refines hk
    rw [h] at hl
    exact ⟨(decode_line .trailers hl.1 rfl).trans (decode_done _), hl.2.1⟩
  | case4 r line r' h hne ih =>
    have hl := readLine_refines hk
    rw [h] at hl
    rw [decode_line .trailers hl.1 (congrArg Except.ok (if_neg hne))]
    exact ih hl.2.1

/-- A decoder that is done delivers nothing more. -/
theorem read_of_done (n : ℕ) {r : ChunkedReader} (h : r.state = .done) :
    r.read n = (.ok [], r) := by
  fun_cases read n r <;> simp_all

/-- A read from the trailers on: behind them the decoder is done. -/
def finish (r : ChunkedReader) : Except IoError (List UInt8) × ChunkedReader :=
  match r.skipTrailers with
  | (.error e, r') => (.error e, r')
  | (.ok (), r') => (.ok [], { r' with state := .done })

/-- A read, by the state. -/
theorem read_eq {n : ℕ} (hn : 0 < n) (r : ChunkedReader) :
    r.read n =
      match r.state with
      | .done => (.ok [], r)
      | .trailers => r.finish
      | .size =>
        match r.readLine with
        | (.error e, r') => (.error e, r')
        | (.ok none, r') => (.ok [], { r' with state := .done })
        | (.ok (some line), r') =>
          match parseSize line with
          | .error e => (.error e, r')
          | .ok 0 => r'.finish
          | .ok size => read n { r' with state := .data size }
      | .data left =>
        match r.inner.read (min n left) with
        | (.error e, inner) => (.error e, { r with inner })
        | (.ok bs, inner) =>
          if bs.length = 0 then
            (.error (unexpectedEof "stream closed inside a chunk"), { r with inner })
          else
            let left := left - bs.length
            (.ok bs, { inner, state := if left = 0 then .dataEnd else .data left })
      | .dataEnd =>
        match r.readLine with
        | (.error e, r') => (.error e, r')
        | (.ok none, r') => (.error (unexpectedEof "stream closed before a chunk's CRLF"), r')
        | (.ok (some line), r') =>
          if line = [] then read n { r' with state := .size }
          else (.error (invalid "chunk payload longer than its size"), r') := by
  fun_cases read n r <;> simp_all [finish, read_of_done]
  rfl

/-- A read that came back, as the front of what the stream holds. -/
def Refines (d : Delivered) : Except IoError (List UInt8) × ChunkedReader → Prop
  | (.error e, _) => d = ⟨[], some e.kind⟩
  | (.ok [], r') => d = ⟨[], none⟩ ∧ r'.state = .done
  | (.ok (b :: bs), r') => d = r'.rest.after (b :: bs) ∧ r'.inner.Clean ∧ r'.state.Wf

/-- A read from the trailers on delivers nothing. -/
theorem refines_finish {r : ChunkedReader} (hk : r.inner.Clean) :
    Refines (decode id bounded .trailers r.content) r.finish := by
  have h := skipTrailers_refines hk
  unfold finish
  rcases ht : r.skipTrailers with ⟨e | _, r'⟩ <;> rw [ht] at h
  · exact h
  · exact ⟨h.1, rfl⟩

/-- A read where a size line is due, if one inside the chunk refines what is left there. -/
theorem refines_size {n : ℕ} (hn : 0 < n) {r : ChunkedReader} (hk : r.inner.Clean)
    (hs : r.state = .size)
    (ih : ∀ r₁ : ChunkedReader, r₁.work < r.work → r₁.inner.Clean → r₁.state.Wf →
      Refines r₁.rest (r₁.read n)) : Refines r.rest (r.read n) := by
  have h := readLine_refines hk
  rw [read_eq hn, hs, rest_eq hs]
  rcases hl : r.readLine with ⟨e | _ | line, r'⟩ <;> rw [hl] at h <;> dsimp only
  · exact decode_line_error .size h
  · exact ⟨decode_line_closed .size h.1, rfl⟩
  · rcases hp : parseSize line with e | size
    · exact decode_line_refused .size h.1 (by simp [afterLine, hp])
    · cases size with
      | zero =>
        have ha : afterLine .size line = .ok .trailers := by simp [afterLine, hp]
        rw [decode_line .size h.1 ha]
        exact refines_finish h.2.1
      | succ size =>
        have ha : afterLine .size line = .ok (.data (size + 1)) := by simp [afterLine, hp]
        have hless := work_of_readLine hl (by simp [hs]) r'.inner le_rfl (.data (size + 1))
        rw [decode_line .size h.1 ha]
        exact ih { r' with state := .data (size + 1) } hless h.2.1 (by simp [State.Wf])

/-- A read inside a chunk. -/
theorem refines_data {n left : ℕ} (hn : 0 < n) {r : ChunkedReader} (hk : r.inner.Clean)
    (hl : left ≠ 0) (hs : r.state = .data left) : Refines r.rest (r.read n) := by
  have h := BufReader.read_spec (n := min n left) (by omega) r.inner
  rw [read_eq hn, hs, rest_eq hs]
  rcases hr : r.inner.read (min n left) with ⟨e | bs, inner⟩ <;> rw [hr] at h <;> simp only [hr]
  · exact absurd hk h.2.2
  · by_cases hz : bs.length = 0
    · have hc : r.content = [] := h.2.2.1 (List.length_eq_zero_iff.mp hz)
      rw [if_pos hz, hc, decode_data_nil hl]
      rfl
    · rw [if_neg hz]
      have hle := BufReader.read_length hr
      obtain ⟨b, bs, rfl⟩ := List.exists_cons_of_length_pos (Nat.pos_of_ne_zero hz)
      have hdrop : inner.content = r.content.drop (b :: bs).length := by
        rw [content, h.1, List.drop_left]
      have htake : b :: bs = (r.content.take (b :: bs).length).map id := by
        rw [content, h.1, List.take_left, List.map_id]
      have hlen : (b :: bs).length ≤ r.content.length := by
        rw [content, h.1, List.length_append]
        omega
      exact ⟨decode_data_take (by omega) hlen hdrop htake, h.2.2.2 hk, State.wf_left _⟩

/-- A read where the line is due that closes a payload, if one behind it refines what is left
there. -/
theorem refines_dataEnd {n : ℕ} (hn : 0 < n) {r : ChunkedReader} (hk : r.inner.Clean)
    (hs : r.state = .dataEnd)
    (ih : ∀ r₁ : ChunkedReader, r₁.work < r.work → r₁.inner.Clean → r₁.state.Wf →
      Refines r₁.rest (r₁.read n)) : Refines r.rest (r.read n) := by
  have h := readLine_refines hk
  rw [read_eq hn, hs, rest_eq hs]
  rcases hl : r.readLine with ⟨e | _ | line, r'⟩ <;> rw [hl] at h <;> dsimp only
  · exact decode_line_error .dataEnd h
  · exact decode_line_closed .dataEnd h.1
  · split_ifs with hline
    · have hless := work_of_readLine hl (by simp [hs]) r'.inner le_rfl .size
      rw [decode_line .dataEnd h.1 (if_pos hline)]
      exact ih { r' with state := .size } hless h.2.1 (by simp [State.Wf])
    · exact decode_line_refused .dataEnd h.1 (if_neg hline)

/-- **Every read delivers the front of what the stream holds.**

**Proof sketch.** Induction on the work left, by the state of the decoder. Only where a line is due
does a read go on, with less work. -/
theorem read_refines {n : ℕ} (hn : 0 < n) {r : ChunkedReader} (hk : r.inner.Clean)
    (hw : r.state.Wf) : Refines r.rest (r.read n) := by
  induction hwork : r.work using Nat.strong_induction_on generalizing r with
  | _ work ih =>
    subst hwork
    have ih : ∀ r₁ : ChunkedReader, r₁.work < r.work → r₁.inner.Clean → r₁.state.Wf →
        Refines r₁.rest (r₁.read n) := fun r₁ hless hk₁ hw₁ => ih r₁.work hless hk₁ hw₁ rfl
    cases hs : r.state with
    | size => exact refines_size hn hk hs ih
    | data left => exact refines_data hn hk (by simpa [State.Wf, hs] using hw) hs
    | dataEnd => exact refines_dataEnd hn hk hs ih
    | trailers =>
      rw [read_eq hn, hs, rest_eq hs]
      exact refines_finish hk
    | done =>
      rw [read_of_done n hs, rest_eq hs, decode_done]
      exact ⟨rfl, hs⟩

/-- **The blocking decoder computes `decode`.** Read to its end with any non-empty caller
buffers, over a source that does not fail, it delivers what the stream holds under the
blocking rule, however the source splits its bytes; at a clean end it is done. -/
theorem drain_eq_decode {bufs : ℕ → ℕ} (hbufs : ∀ i, 0 < bufs i) (i : ℕ) {r : ChunkedReader}
    (hk : r.inner.Clean) (hw : r.state.Wf) :
    (r.drain bufs i).1 = r.rest ∧
      ((r.drain bufs i).1.ending = none → (r.drain bufs i).2.state = .done) := by
  fun_induction drain bufs i r with
  | case1 i r e r' h =>
    have hr := read_refines (hbufs i) hk hw
    rw [h] at hr
    exact ⟨hr.symm, by simp⟩
  | case2 i r r' h =>
    have hr := read_refines (hbufs i) hk hw
    rw [h] at hr
    exact ⟨hr.1.symm, fun _ => hr.2⟩
  | case3 i r b bs r' h ih =>
    have hr := read_refines (hbufs i) hk hw
    rw [h] at hr
    obtain ⟨hd, hdone⟩ := ih hr.2.1 hr.2.2
    exact ⟨by rw [hr.1, hd], hdone⟩

end ChunkedReader

/-! ## Where fetches end -/

/-- The bytes of one arrival, fetched at most `cap` at a time. -/
def fetchesOf (cap : ℕ) (hcap : 0 < cap) : List UInt8 → List Marked
  | [] => []
  | b :: bs => fetched ((b :: bs).take cap) ++ fetchesOf cap hcap ((b :: bs).drop cap)
termination_by bs => bs.length
decreasing_by
  rw [List.length_drop, List.length_cons]
  omega

/-- The bytes a source hands over to a buffer of capacity `cap`, with the ends of the fetches
marked. -/
def Source.fetches (cap : ℕ) (hcap : 0 < cap) : Source → List Marked
  | .done => []
  | .bytes b bs src => fetchesOf cap hcap (b :: bs) ++ src.fetches cap hcap
  | .fail _ src => src.fetches cap hcap
  | .pending src => src.fetches cap hcap

/-- Marking the ends of fetches changes no byte of an arrival. -/
theorem map_byte_fetchesOf {cap : ℕ} (hcap : 0 < cap) (bs : List UInt8) :
    (fetchesOf cap hcap bs).map Marked.byte = bs := by
  fun_induction fetchesOf cap hcap bs with
  | case1 => rfl
  | case2 b bs ih => rw [List.map_append, map_byte_fetched, ih, List.take_append_drop]

/-- Marking the ends of fetches changes no byte of a source. -/
theorem Source.map_byte_fetches {cap : ℕ} (hcap : 0 < cap) (src : Source) :
    (src.fetches cap hcap).map Marked.byte = src.content := by
  induction src with
  | done => rfl
  | bytes b bs src ih =>
    rw [fetches, content, List.map_append, map_byte_fetchesOf, ih]
  | fail e src ih => exact ih
  | pending src ih => exact ih

/-- Bytes put back are fetched again like an arrival. -/
theorem Source.fetches_pushBack {cap : ℕ} (hcap : 0 < cap) (bs : List UInt8) (src : Source) :
    (pushBack bs src).fetches cap hcap = fetchesOf cap hcap bs ++ src.fetches cap hcap := by
  cases bs with
  | nil => simp [pushBack, fetchesOf]
  | cons b bs => rfl

namespace BufReader

/-- Every byte the reader will still hand over, with the ends of the fetches marked. -/
def fetches (r : BufReader) : List Marked := fetched r.buf ++ r.inner.fetches r.cap r.cap_pos

@[simp] theorem map_byte_fetches (r : BufReader) : r.fetches.map Marked.byte = r.content := by
  rw [fetches, List.map_append, map_byte_fetched, Source.map_byte_fetches, content]

/-- Consuming buffered bytes moves no end of a fetch. -/
theorem fetches_consume {n : ℕ} {r : BufReader} (h : n ≤ r.buf.length) :
    (r.consume n).fetches = r.fetches.drop n := by
  rw [fetches, fetches, List.drop_append_of_le_length (by simpa using h), consume_buf,
    fetched_drop]
  rfl

/-- A polled fetch is the next of the marked ones. -/
theorem pollFillBuf_fetches (r : BufReader) :
    match r.pollFillBuf with
    | (.ready (.error _), _) => True
    | (_, r') => r'.fetches = r.fetches := by
  unfold pollFillBuf
  by_cases hb : r.buf = []
  · rw [if_pos hb]
    cases hi : r.inner with
    | done => simp [Source.pollRead, fetches, hb, hi]
    | bytes b bs src =>
      simp only [Source.pollRead, fetches, hb, hi, Source.fetches_pushBack, Source.fetches]
      rw [fetchesOf.eq_2]
      simp [fetched]
    | fail e src => trivial
    | pending src => simp [Source.pollRead, fetches, hb, hi, Source.fetches]
  · rw [if_neg hb]

end BufReader

/-! ## The async decoder -/

/-- Dropping at least a prefix. -/
private theorem drop_append_of_length_le {α : Type} {n : ℕ} {pre : List α} (l : List α)
    (h : pre.length ≤ n) : (pre ++ l).drop n = l.drop (n - pre.length) := by
  rw [List.drop_append, List.drop_eq_nil_of_le h, List.nil_append]

/-- Dropping a prefix and the element after it. -/
private theorem drop_past {α : Type} {n : ℕ} {pre : List α} (h : pre.length = n) (a : α)
    (l : List α) : (pre ++ a :: l).drop (n + 1) = l := by
  subst h
  simp

/-- Under the async rule, how the first `maxSizeLine + 1` bytes of a line were fetched makes no
difference. -/
theorem nextLine_fetchedLate {pre pre' : List Marked}
    (hb : pre.map Marked.byte = pre'.map Marked.byte) (hn : LF ∉ pre.map Marked.byte)
    (hlen : pre.length ≤ maxSizeLine + 1) (s : List Marked) :
    nextLine Marked.byte fetchedLate (pre ++ s) = nextLine Marked.byte fetchedLate (pre' ++ s) := by
  have hlen' : pre.length = pre'.length := by
    simpa using congrArg List.length hb
  have hl : ∀ x ∈ pre, x.byte ≠ LF := ne_lf_of_bytes hn
  have hl' : ∀ x ∈ pre', x.byte ≠ LF := ne_lf_of_bytes (hb ▸ hn)
  have hlate : ∀ line closed,
      fetchedLate (pre ++ line) closed = fetchedLate (pre' ++ line) closed := by
    intro line closed
    rw [fetchedLate, fetchedLate, drop_append_of_length_le line hlen,
      drop_append_of_length_le line (hlen' ▸ hlen), hlen']
  obtain hs | ⟨line, e, rest, rfl, hs, he⟩ := line_cases Marked.byte s
  · rw [nextLine_unclosed (by simpa [or_imp, forall_and] using ⟨hl, hs⟩),
      nextLine_unclosed (by simpa [or_imp, forall_and] using ⟨hl', hs⟩), hlate]
    have hnil : pre ++ s = [] ↔ pre' ++ s = [] := by
      rw [List.append_eq_nil_iff, List.append_eq_nil_iff, ← List.length_eq_zero_iff, hlen',
        List.length_eq_zero_iff]
    simp only [hnil]
  · rw [← List.append_assoc, ← List.append_assoc,
      nextLine_cons (by simpa [or_imp, forall_and] using ⟨hl, hs⟩) he,
      nextLine_cons (by simpa [or_imp, forall_and] using ⟨hl', hs⟩) he, hlate, List.map_append,
      List.map_append, hb]

namespace AsyncBody

/-- The stream as the body will still decode it: the part of a line in hand, then what its
reader will hand over. -/
def stream (b : AsyncBody) : List Marked := unfetched b.line ++ b.inner.fetches

/-- The part of a line in hand is short enough and has no line feed. -/
def LineWf (b : AsyncBody) : Prop := LF ∉ b.line ∧ b.line.length ≤ maxSizeLine + 1

/-- The stream of a body whose reader fetched something. -/
theorem stream_of_pollFillBuf {b : AsyncBody} {available : List UInt8} {inner : BufReader}
    (h : b.inner.pollFillBuf = (.ready (.ok available), inner)) :
    b.stream =
      (unfetched b.line ++ fetched available) ++ inner.inner.fetches inner.cap inner.cap_pos := by
  have hs := b.inner.pollFillBuf_spec
  have hf := b.inner.pollFillBuf_fetches
  rw [h] at hs hf
  rw [stream, ← hf, BufReader.fetches, hs.1, List.append_assoc]

/-- On a source that does not fail, a polled line is the next line under the async rule. -/
theorem pollLine_refines {b : AsyncBody} (hk : b.inner.Clean) (hw : b.LineWf) :
    match b.pollLine with
    | (.ready (.error e), _) => nextLine Marked.byte fetchedLate b.stream = .error e.kind
    | (.ready (.ok none), b') => nextLine Marked.byte fetchedLate b.stream = .ok none ∧
        b'.line = [] ∧ b'.inner.Clean
    | (.ready (.ok (some line)), b') =>
        nextLine Marked.byte fetchedLate b.stream = .ok (some (line, b'.stream)) ∧
        b'.line = [] ∧ b'.inner.Clean
    | (.pending, b') => nextLine Marked.byte fetchedLate b.stream =
        nextLine Marked.byte fetchedLate b'.stream ∧ b'.LineWf ∧ b'.inner.Clean := by
  fun_induction pollLine b with
  | case1 b e inner h =>
    have hs := b.inner.pollFillBuf_spec
    rw [h] at hs
    exact absurd hk hs.2.2
  | case2 b inner h =>
    have hs := b.inner.pollFillBuf_spec
    have hf := b.inner.pollFillBuf_fetches
    rw [h] at hs hf
    exact ⟨by rw [stream, stream, hf], hw, hs.2.2 hk⟩
  | case3 b inner h =>
    have hs := b.inner.pollFillBuf_spec
    rw [h] at hs
    have hstream : b.stream = unfetched b.line := by
      have hf : b.inner.fetches.map Marked.byte = [] := by
        rw [BufReader.map_byte_fetches, hs.2.2.2.1 rfl]
      rw [stream, List.map_eq_nil_iff.mp hf, List.append_nil]
    have hn : ∀ x ∈ unfetched b.line, x.byte ≠ LF := ne_lf_of_bytes (by simpa using hw.1)
    rw [hstream, nextLine_unclosed hn, fetchedLate_unfetched]
    by_cases hnil : b.line = []
    · simp [hnil, unfetched, hs.2.2.2.2 hk]
    · simp [hnil, unfetched, unexpectedEof]
  | case4 b available inner h hne before after hc =>
    have hs := b.inner.pollFillBuf_spec
    have hf := b.inner.pollFillBuf_fetches
    rw [h] at hs hf
    obtain ⟨rfl, hb⟩ := cut_eq_some_iff.mp hc
    obtain ⟨e, he, hcons⟩ := fetched_cons LF after
    have hstream : b.stream =
        unfetched (b.line ++ before) ++ e :: (inner.consume (before.length + 1)).fetches := by
      rw [BufReader.fetches_consume (by rw [hs.1]; simp), stream, ← hf, BufReader.fetches, hs.1,
        fetched_append (by simp), hcons, unfetched_append]
      simp [drop_past (length_unfetched before)]
    have hn : ∀ x ∈ unfetched (b.line ++ before), x.byte ≠ LF :=
      ne_lf_of_bytes (by simpa using ⟨hw.1, hb⟩)
    refine ⟨?_, rfl, hs.2.2.2.2 hk⟩
    rw [hstream, nextLine_cons hn he, fetchedLate_unfetched, map_byte_unfetched, chomp_append_lf]
    rfl
  | case5 b available inner h hne hc b' hlong =>
    have hn : ∀ x ∈ unfetched b.line ++ fetched available, x.byte ≠ LF :=
      ne_lf_of_bytes (by simpa using ⟨hw.1, cut_eq_none_iff.mp hc⟩)
    rw [stream_of_pollFillBuf h]
    exact nextLine_late hn (fetchedLate_fetched hne (by simpa [b'] using hlong)) _
  | case6 b available inner h hne hc b' hshort ih =>
    have hs := b.inner.pollFillBuf_spec
    rw [h] at hs
    have hn : LF ∉ b.line ++ available := by simpa using ⟨hw.1, cut_eq_none_iff.mp hc⟩
    have hlen : (b.line ++ available).length ≤ maxSizeLine + 1 := Nat.le_of_not_lt hshort
    have hstream' : b'.stream =
        unfetched (b.line ++ available) ++ inner.inner.fetches inner.cap inner.cap_pos := by
      simp [b', stream, BufReader.fetches, hs.1, fetched]
    have hnext : nextLine Marked.byte fetchedLate b.stream =
        nextLine Marked.byte fetchedLate b'.stream := by
      rw [stream_of_pollFillBuf h, hstream']
      exact nextLine_fetchedLate (by simp) (by simpa using hn) (by simpa using hlen) _
    rw [hnext]
    exact ih (hs.2.2.2.2 hk) ⟨hn, hlen⟩

/-- A body that is done delivers nothing more. -/
theorem pollRead_of_done (n : ℕ) {b : AsyncBody} (h : b.framing = .chunked .done) :
    b.pollRead n = (.ready (.ok []), b) := by
  fun_cases pollRead n b <;> simp_all

/-- A poll, by the framing. -/
theorem pollRead_eq {n : ℕ} (hn : 0 < n) (b : AsyncBody) :
    b.pollRead n =
      match b.framing with
      | .untilClose =>
        match b.inner.pollRead n with
        | (res, inner) => (res, { b with inner })
      | .length 0 => (.ready (.ok []), b)
      | .chunked .done => (.ready (.ok []), b)
      | .length left =>
        match b.pollPayload n left with
        | (.ready (.error e), b) => (.ready (.error e), b)
        | (.pending, b) => (.pending, b)
        | (.ready (.ok bs), b) =>
          if bs.length = 0 then
            (.ready (.error (unexpectedEof "stream closed inside the body")), b)
          else (.ready (.ok bs), { b with framing := .length (left - bs.length) })
      | .chunked (.data left) =>
        match b.pollPayload n left with
        | (.ready (.error e), b) => (.ready (.error e), b)
        | (.pending, b) => (.pending, b)
        | (.ready (.ok bs), b) =>
          if bs.length = 0 then
            (.ready (.error (unexpectedEof "stream closed inside a chunk")), b)
          else
            let left := left - bs.length
            (.ready (.ok bs),
              { b with framing := .chunked (if left = 0 then .dataEnd else .data left) })
      | .chunked .size =>
        match b.pollLine with
        | (.ready (.error e), b') => (.ready (.error e), b')
        | (.pending, b') => (.pending, b')
        | (.ready (.ok none), b') => (.ready (.ok []), { b' with framing := .chunked .done })
        | (.ready (.ok (some line)), b') =>
          match parseSize line with
          | .error e => (.ready (.error e), b')
          | .ok 0 => pollRead n { b' with framing := .chunked .trailers }
          | .ok size => pollRead n { b' with framing := .chunked (.data size) }
      | .chunked .dataEnd =>
        match b.pollLine with
        | (.ready (.error e), b') => (.ready (.error e), b')
        | (.pending, b') => (.pending, b')
        | (.ready (.ok none), b') =>
          (.ready (.error (unexpectedEof "stream closed before a chunk's CRLF")), b')
        | (.ready (.ok (some line)), b') =>
          if line = [] then pollRead n { b' with framing := .chunked .size }
          else (.ready (.error (invalid "chunk payload longer than its size")), b')
      | .chunked .trailers =>
        match b.pollLine with
        | (.ready (.error e), b') => (.ready (.error e), b')
        | (.pending, b') => (.pending, b')
        | (.ready (.ok none), b') => (.ready (.ok []), { b' with framing := .chunked .done })
        | (.ready (.ok (some line)), b') =>
          if line = [] then (.ready (.ok []), { b' with framing := .chunked .done })
          else pollRead n b' := by
  fun_cases pollRead n b <;> simp_all [pollRead_of_done]
  rfl

/-- A body that stands in a state of the chunk framing, over a source that does not fail. Only
where a line is due may there be part of one in hand. -/
structure Ready (b : AsyncBody) (st : State) : Prop where
  framing : b.framing = .chunked st
  clean : b.inner.Clean
  wf : st.Wf
  lineWf : b.LineWf
  idle : ¬ st.AtLine → b.line = []

/-- A body with no part of a line in hand may go to any state. -/
theorem ready_of_idle {b : AsyncBody} {st : State} (hk : b.inner.Clean) (hw : st.Wf)
    (h : b.line = []) : Ready { b with framing := .chunked st } st :=
  ⟨rfl, hk, hw, by simp [LineWf, h], fun _ => h⟩

/-- A chunked body starts where a size line is due. -/
theorem ready_new {inner : BufReader} (hk : inner.Clean) (length : Option ℕ) :
    (AsyncBody.new inner true length).Ready .size :=
  ⟨rfl, hk, by simp [State.Wf], by simp [LineWf, new], fun _ => rfl⟩

/-- What the stream holds for a body in a state. -/
def rest (b : AsyncBody) (st : State) : Delivered := decode Marked.byte fetchedLate st b.stream

/-- A poll that came back, as the front of what the stream holds. -/
def Refines (d : Delivered) : Poll (Except IoError (List UInt8)) × AsyncBody → Prop
  | (.pending, b') => ∃ st, b'.Ready st ∧ d = b'.rest st
  | (.ready (.error e), _) => d = ⟨[], some e.kind⟩
  | (.ready (.ok []), b') => d = ⟨[], none⟩ ∧ b'.framing = .chunked .done
  | (.ready (.ok (x :: xs)), b') => ∃ st, b'.Ready st ∧ d = (b'.rest st).after (x :: xs)

/-- A poll that finds the rest of a line missing leaves everything as it was. -/
theorem refines_line_pending {b b' : AsyncBody} {st : State} (hr : b.Ready st)
    (hst : st.AtLine) (hl : b.pollLine = (.pending, b')) : Refines (b.rest st) (.pending, b') := by
  have h := pollLine_refines hr.clean hr.lineWf
  have hw := pollLine_work b
  rw [hl] at h hw
  refine ⟨st, ⟨hw.2.trans hr.framing, h.2.2, hr.wf, h.2.1, fun hn => absurd hst hn⟩, ?_⟩
  exact decode_congr h.1 hst

/-- A polled payload read takes its bytes off the front of the fetches. -/
theorem pollPayload_fetches (n left : ℕ) (b : AsyncBody) :
    match b.pollPayload n left with
    | (.ready (.ok bs), b') => b'.inner.fetches = b.inner.fetches.drop bs.length
    | (.ready (.error _), _) => True
    | (.pending, b') => b'.inner.fetches = b.inner.fetches := by
  have hs := b.inner.pollFillBuf_spec
  have hf := b.inner.pollFillBuf_fetches
  unfold pollPayload
  rcases hr : b.inner.pollFillBuf with ⟨(e | available) | _, inner⟩ <;> rw [hr] at hs hf
  · trivial
  · have hlen : (available.take (min (min available.length n) left)).length =
        min (min available.length n) left := by
      rw [List.length_take]
      omega
    show (inner.consume _).fetches = _
    rw [hlen, BufReader.fetches_consume (by rw [hs.1]; omega), hf]
  · exact hf

/-- Inside a payload there is no part of a line in hand. -/
theorem stream_data {b : AsyncBody} {left : ℕ} (hr : b.Ready (.data left)) :
    b.stream = b.inner.fetches := by
  rw [stream, hr.idle (by rintro ⟨⟩)]
  rfl

/-- A poll that finds no payload yet leaves everything as it was. -/
theorem refines_payload_pending {n left : ℕ} {b b' : AsyncBody} (hr : b.Ready (.data left))
    (hp : b.pollPayload n left = (.pending, b')) :
    Refines (b.rest (.data left)) (.pending, b') := by
  have hs := pollPayload_spec n left b
  have hf := pollPayload_fetches n left b
  rw [hp] at hs hf
  obtain ⟨-, -, hk, hline, hframing⟩ := hs
  have hready : b'.Ready (.data left) := by
    refine ⟨hframing.trans hr.framing, hk hr.clean, hr.wf, ?_, fun hn => hline.trans (hr.idle hn)⟩
    rw [LineWf, hline]
    exact hr.lineWf
  refine ⟨_, hready, ?_⟩
  rw [rest, rest, stream_data hr, stream_data hready, hf]

/-- A poll that finds the stream at its end inside a payload. -/
theorem rest_of_payload_nil {n left : ℕ} {b b' : AsyncBody} (hn : 0 < n)
    (hr : b.Ready (.data left)) (hp : b.pollPayload n left = (.ready (.ok []), b')) :
    b.rest (.data left) = ⟨[], some .unexpectedEof⟩ := by
  have hs := pollPayload_spec n left b
  rw [hp] at hs
  have hl : left ≠ 0 := by simpa [State.Wf] using hr.wf
  have hf : b.inner.fetches = [] := by
    have hc := hs.2.2.2.1 hn (Nat.pos_of_ne_zero hl) rfl
    rwa [← BufReader.map_byte_fetches, List.map_eq_nil_iff] at hc
  rw [rest, stream_data hr, hf, decode_data_nil hl]

/-- A poll that finds payload delivers its front. -/
theorem refines_payload {n left : ℕ} {b b' : AsyncBody} {bs : List UInt8}
    (hr : b.Ready (.data left)) (hne : bs ≠ [])
    (hp : b.pollPayload n left = (.ready (.ok bs), b')) :
    Refines (b.rest (.data left)) (.ready (.ok bs),
      { b' with framing := .chunked (if left - bs.length = 0 then .dataEnd
          else .data (left - bs.length)) }) := by
  have hs := pollPayload_spec n left b
  have hf := pollPayload_fetches n left b
  rw [hp] at hs hf
  obtain ⟨hc, hle, -, -, hk, hline, -⟩ := hs
  have hline : b'.line = [] := hline.trans (hr.idle (by rintro ⟨⟩))
  have hlen : bs.length ≤ b.inner.fetches.length := by
    rw [← List.length_map Marked.byte, BufReader.map_byte_fetches, hc, List.length_append]
    omega
  have hbs : bs = (b.inner.fetches.take bs.length).map Marked.byte := by
    rw [List.map_take, BufReader.map_byte_fetches, hc, List.take_left]
  have hstream : unfetched b'.line ++ b'.inner.fetches = b.inner.fetches.drop bs.length := by
    rw [hline, hf]
    rfl
  obtain ⟨x, xs, rfl⟩ := List.exists_cons_of_ne_nil hne
  refine ⟨_, ready_of_idle (hk hr.clean) (State.wf_left _) hline, ?_⟩
  rw [rest, stream_data hr]
  exact decode_data_take hle hlen hstream hbs

/-- A line moves the body to the next state, which holds the same. -/
theorem rest_of_line {b b' : AsyncBody} {st st' : State} {line : List UInt8} (hr : b.Ready st)
    (hst : st.AtLine) (hl : b.pollLine = (.ready (.ok (some line)), b'))
    (ha : afterLine st line = .ok st') :
    Ready { b' with framing := .chunked st' } st' ∧
      b.rest st = rest { b' with framing := .chunked st' } st' := by
  have h := pollLine_refines hr.clean hr.lineWf
  rw [hl] at h
  exact ⟨ready_of_idle h.2.2 (afterLine_wf hst ha) h.2.1, decode_line hst h.1 ha⟩

/-- A line that will not do, or none, ends the body. -/
theorem rest_of_line_refused {b b' : AsyncBody} {st : State} (hr : b.Ready st)
    (hst : st.AtLine) {res : Except IoError (Option (List UInt8))}
    (hl : b.pollLine = (.ready res, b')) :
    match res with
    | .error e => b.rest st = ⟨[], some e.kind⟩
    | .ok none => b.rest st = ⟨[], atClose st⟩ ∧
        Ready { b' with framing := .chunked .done } .done
    | .ok (some line) => ∀ kind, afterLine st line = .error kind → b.rest st = ⟨[], some kind⟩ := by
  have h := pollLine_refines hr.clean hr.lineWf
  rw [hl] at h
  rcases res with e | _ | line
  · exact decode_line_error hst h
  · exact ⟨decode_line_closed hst h.1, ready_of_idle h.2.2 (by simp [State.Wf]) h.2.1⟩
  · exact fun kind ha => decode_line_refused hst h.1 ha

/-- A poll where a size line is due, if one behind it refines what is left there. -/
theorem refines_size {n : ℕ} (hn : 0 < n) {b : AsyncBody} (hr : b.Ready .size)
    (ih : ∀ (b₁ : AsyncBody) (st : State), b₁.work < b.work → b₁.Ready st →
      Refines (b₁.rest st) (b₁.pollRead n)) : Refines (b.rest .size) (b.pollRead n) := by
  rw [pollRead_eq hn, hr.framing]
  rcases hl : b.pollLine with ⟨(e | _ | line) | _, b'⟩ <;> dsimp only
  · exact rest_of_line_refused hr .size hl
  · exact ⟨(rest_of_line_refused hr .size hl).1, rfl⟩
  · have hgoes : ∀ st, afterLine .size line = .ok st →
        Refines (b.rest .size) (pollRead n { b' with framing := .chunked st }) := by
      intro st ha
      obtain ⟨hr', hrest⟩ := rest_of_line hr .size hl ha
      rw [hrest]
      exact ih _ st (work_of_line hl (by simp [hr.framing]) _) hr'
    rcases hp : parseSize line with e | size
    · exact rest_of_line_refused hr .size hl e.kind (by simp [afterLine, hp])
    · cases size with
      | zero => exact hgoes .trailers (by simp [afterLine, hp])
      | succ size => exact hgoes (.data (size + 1)) (by simp [afterLine, hp])
  · exact refines_line_pending hr .size hl

/-- A poll inside a chunk. -/
theorem refines_data {n left : ℕ} (hn : 0 < n) {b : AsyncBody} (hr : b.Ready (.data left)) :
    Refines (b.rest (.data left)) (b.pollRead n) := by
  rw [pollRead_eq hn, hr.framing]
  rcases hp : b.pollPayload n left with ⟨(e | bs) | _, b'⟩ <;> simp only [hp]
  · have h := pollPayload_spec n left b
    rw [hp] at h
    exact absurd hr.clean h
  · by_cases hz : bs.length = 0
    · obtain rfl := List.length_eq_zero_iff.mp hz
      exact rest_of_payload_nil hn hr hp
    · rw [if_neg hz]
      exact refines_payload hr (fun h => hz (List.length_eq_zero_iff.mpr h)) hp
  · exact refines_payload_pending hr hp

/-- A poll where the line is due that closes a payload, if one behind it refines what is left
there. -/
theorem refines_dataEnd {n : ℕ} (hn : 0 < n) {b : AsyncBody} (hr : b.Ready .dataEnd)
    (ih : ∀ (b₁ : AsyncBody) (st : State), b₁.work < b.work → b₁.Ready st →
      Refines (b₁.rest st) (b₁.pollRead n)) : Refines (b.rest .dataEnd) (b.pollRead n) := by
  rw [pollRead_eq hn, hr.framing]
  rcases hl : b.pollLine with ⟨(e | _ | line) | _, b'⟩ <;> dsimp only
  · exact rest_of_line_refused hr .dataEnd hl
  · exact (rest_of_line_refused hr .dataEnd hl).1
  · split_ifs with hline
    · obtain ⟨hr', hrest⟩ := rest_of_line hr .dataEnd hl (if_pos hline)
      rw [hrest]
      exact ih _ .size (work_of_line hl (by simp [hr.framing]) _) hr'
    · exact rest_of_line_refused hr .dataEnd hl .invalidData (if_neg hline)
  · exact refines_line_pending hr .dataEnd hl

/-- A poll among the trailers, if one behind their first line refines what is left there. -/
theorem refines_trailers {n : ℕ} (hn : 0 < n) {b : AsyncBody} (hr : b.Ready .trailers)
    (ih : ∀ (b₁ : AsyncBody) (st : State), b₁.work < b.work → b₁.Ready st →
      Refines (b₁.rest st) (b₁.pollRead n)) : Refines (b.rest .trailers) (b.pollRead n) := by
  rw [pollRead_eq hn, hr.framing]
  rcases hl : b.pollLine with ⟨(e | _ | line) | _, b'⟩ <;> dsimp only
  · exact rest_of_line_refused hr .trailers hl
  · exact ⟨(rest_of_line_refused hr .trailers hl).1, rfl⟩
  · obtain ⟨hr', hrest⟩ := rest_of_line hr .trailers hl rfl
    rw [hrest]
    split_ifs at hr' ⊢ with hline
    · exact ⟨by rw [rest, decode_done], rfl⟩
    · have hb : ({ b' with framing := .chunked .trailers } : AsyncBody) = b' := by
        have hw := pollLine_work b
        rw [hl] at hw
        rw [← hr.framing, ← hw.2]
      have hless := work_of_line hl (by simp [hr.framing]) (.chunked .trailers)
      rw [hb] at hr' hless ⊢
      exact ih b' .trailers hless hr'
  · exact refines_line_pending hr .trailers hl

/-- **Every poll delivers the front of what the stream holds.**

**Proof sketch.** Induction on the work left, by the state of the body. Only a line leads on, and
was paid for. -/
theorem pollRead_refines {n : ℕ} (hn : 0 < n) {b : AsyncBody} {st : State} (hr : b.Ready st) :
    Refines (b.rest st) (b.pollRead n) := by
  induction hwork : b.work using Nat.strong_induction_on generalizing b st with
  | _ work ih =>
    subst hwork
    have ih : ∀ (b₁ : AsyncBody) (st : State), b₁.work < b.work → b₁.Ready st →
        Refines (b₁.rest st) (b₁.pollRead n) := fun b₁ st hless hr₁ => ih b₁.work hless hr₁ rfl
    cases st with
    | size => exact refines_size hn hr ih
    | data left => exact refines_data hn hr
    | dataEnd => exact refines_dataEnd hn hr ih
    | trailers => exact refines_trailers hn hr ih
    | done =>
      rw [pollRead_of_done n hr.framing, rest, decode_done]
      exact ⟨rfl, hr.framing⟩

/-- **The async decoder computes `decode`.** Polled to its end with any non-empty caller
buffers, over a source that does not fail, a chunked body delivers what the stream holds under
the async rule; at a clean end it is done. -/
theorem drain_eq_decode {bufs : ℕ → ℕ} (hbufs : ∀ i, 0 < bufs i) (i : ℕ) {b : AsyncBody}
    {st : State} (hr : b.Ready st) :
    (b.drain bufs i).1 = b.rest st ∧
      ((b.drain bufs i).1.ending = none → (b.drain bufs i).2.framing = .chunked .done) := by
  fun_induction drain bufs i b generalizing st with
  | case1 i b b' h ih =>
    have hp := pollRead_refines (hbufs i) hr
    rw [h] at hp
    obtain ⟨st', hr', hd⟩ := hp
    rw [hd]
    exact ih hr'
  | case2 i b e b' h =>
    have hp := pollRead_refines (hbufs i) hr
    rw [h] at hp
    exact ⟨hp.symm, by simp⟩
  | case3 i b b' h =>
    have hp := pollRead_refines (hbufs i) hr
    rw [h] at hp
    exact ⟨hp.1.symm, fun _ => hp.2⟩
  | case4 i b x xs b' h ih =>
    have hp := pollRead_refines (hbufs i) hr
    rw [h] at hp
    obtain ⟨st', hr', hd⟩ := hp
    obtain ⟨hd', hdone⟩ := ih hr'
    exact ⟨by rw [hd, hd'], hdone⟩

end AsyncBody

end Lager
