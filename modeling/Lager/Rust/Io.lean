import Lager.Library.Cut

set_option relaxedAutoImplicit false
set_option autoImplicit false

/-!
# Byte sources and buffered readers

The part of the standard library's and tokio's I/O that the decoders stand on. A source hands
over the bytes of a connection in pieces of its own choosing; a buffered reader fetches a
piece at a time into a buffer of fixed capacity and serves its caller from there. Both
libraries' readers are the same machine up to how they wait: a blocking read sits out a
moment without data, a poll reports it.

## Main definitions

* `Lager.ErrorKind`, `Lager.IoError` — what a failed read reports.
* `Lager.Source` — what a source does, read by read.
* `Lager.Source.read`, `Lager.Source.pollRead` — one read of at most `n` bytes.
* `Lager.BufReader` — the buffered reader, with `fillBuf`, `consume`, `read`,
  `readUntil` (through `Take`) for the blocking side and `pollFillBuf`, `pollRead` for the
  async side.
* `Lager.BufReader.content` — every byte the reader will still hand over.

## Main results

* `Lager.BufReader.fillBuf_spec`, `Lager.BufReader.pollFillBuf_spec` — a fetch keeps the
  content and never grows the work left.
* `Lager.BufReader.readUntil_spec` — on a source that does not fail, a bounded line read is a
  function of the content alone.
-/

namespace Lager

open Library

/-- The variants of `io::ErrorKind` that the crate produces or reacts to. -/
inductive ErrorKind
  | invalidData
  | unexpectedEof
  | interrupted
  | wouldBlock
  | timedOut
  | other
  deriving DecidableEq, Repr

/-- `io::Error`: its kind and the text it carries. -/
structure IoError where
  kind : ErrorKind
  message : String
  deriving DecidableEq, Repr

/-- The outcome of a poll. -/
inductive Poll (α : Type)
  | ready (a : α)
  | pending
  deriving DecidableEq, Repr

/-- A source of bytes, told by what it does read by read: it hands over at least one byte,
fails, or has none yet. Once it is at its end it stays there. -/
inductive Source
  | done
  | bytes (b : UInt8) (bs : List UInt8) (next : Source)
  | fail (e : IoError) (next : Source)
  | pending (next : Source)
  deriving DecidableEq, Repr

namespace Source

/-- Put bytes that a short read left behind back in front. -/
def pushBack : List UInt8 → Source → Source
  | [], src => src
  | b :: bs, src => .bytes b bs src

/-- Every byte the source will hand over. -/
def content : Source → List UInt8
  | .done => []
  | .bytes b bs src => b :: bs ++ src.content
  | .fail _ src => src.content
  | .pending src => src.content

/-- The source never fails. -/
def Clean : Source → Prop
  | .done => True
  | .bytes _ _ src => src.Clean
  | .fail _ _ => False
  | .pending src => src.Clean

/-- The work left in a source: its bytes and its arrivals. -/
def size : Source → ℕ
  | .done => 0
  | .bytes _ bs src => bs.length + 2 + src.size
  | .fail _ src => 1 + src.size
  | .pending src => 1 + src.size

/-- A blocking read of at most `n` bytes. It waits while no data is there. -/
def read (n : ℕ) : Source → Except IoError (List UInt8) × Source
  | .done => (.ok [], .done)
  | .bytes b bs src => (.ok ((b :: bs).take n), pushBack ((b :: bs).drop n) src)
  | .fail e src => (.error e, src)
  | .pending src => src.read n

/-- A poll for at most `n` bytes. -/
def pollRead (n : ℕ) : Source → Poll (Except IoError (List UInt8)) × Source
  | .done => (.ready (.ok []), .done)
  | .bytes b bs src => (.ready (.ok ((b :: bs).take n)), pushBack ((b :: bs).drop n) src)
  | .fail e src => (.ready (.error e), src)
  | .pending src => (.pending, src)

@[simp] theorem content_pushBack (l : List UInt8) (src : Source) :
    (pushBack l src).content = l ++ src.content := by
  cases l <;> simp [pushBack, content]

@[simp] theorem clean_pushBack (l : List UInt8) (src : Source) :
    (pushBack l src).Clean ↔ src.Clean := by
  cases l <;> simp [pushBack, Clean]

/-- Bytes put back cost at most one arrival more than themselves. -/
theorem size_pushBack (l : List UInt8) (src : Source) :
    (pushBack l src).size ≤ l.length + 1 + src.size := by
  cases l <;> simp only [pushBack, size, List.length_nil, List.length_cons] <;> omega

/-- A blocking read takes bytes off the front of the content: none only at the end. -/
theorem read_spec {n : ℕ} (hn : 0 < n) (src : Source) :
    match src.read n with
    | (.ok bs, src') => src.content = bs ++ src'.content ∧ bs.length + src'.size ≤ src.size ∧
        (bs = [] → src.content = []) ∧ (src.Clean → src'.Clean)
    | (.error _, src') => src.content = src'.content ∧ src'.size < src.size ∧ ¬ src.Clean := by
  induction src with
  | done => simp [read, size, content]
  | bytes b bs src =>
    have hs := size_pushBack ((b :: bs).drop n) src
    have hl : ((b :: bs).take n).length + ((b :: bs).drop n).length = bs.length + 1 := by
      rw [← List.length_append, List.take_append_drop, List.length_cons]
    obtain ⟨k, rfl⟩ : ∃ k, n = k + 1 := ⟨n - 1, by omega⟩
    simp only [read, content, size, Clean, content_pushBack, clean_pushBack, imp_self, and_true]
    exact ⟨by rw [← List.append_assoc, List.take_append_drop], by omega, by simp⟩
  | fail e src => simp [read, content, size, Clean]
  | pending src ih =>
    simp only [read, content, size, Clean]
    rcases hr : src.read n with ⟨e | bs, src'⟩ <;> rw [hr] at ih
    · exact ⟨ih.1, by dsimp only at ih; omega, ih.2.2⟩
    · exact ⟨ih.1, by dsimp only at ih; omega, ih.2.2.1, ih.2.2.2⟩

/-- A read hands over at most what it was asked for. -/
theorem read_length (n : ℕ) (src : Source) :
    match src.read n with
    | (.ok bs, _) => bs.length ≤ n
    | (.error _, _) => True := by
  induction src with
  | done => simp [read]
  | bytes b bs src => exact List.length_take_le _ _
  | fail e src => simp [read]
  | pending src ih => exact ih

/-- A poll takes bytes off the front of the content, like a read; a poll that reports no data
yet has used up that moment. -/
theorem pollRead_spec {n : ℕ} (hn : 0 < n) (src : Source) :
    match src.pollRead n with
    | (.ready (.ok bs), src') => src.content = bs ++ src'.content ∧
        bs.length + src'.size ≤ src.size ∧ (bs = [] → src.content = []) ∧
        (src.Clean → src'.Clean)
    | (.ready (.error _), src') => src.content = src'.content ∧ src'.size < src.size ∧
        ¬ src.Clean
    | (.pending, src') => src.content = src'.content ∧ src'.size < src.size ∧
        (src.Clean → src'.Clean) := by
  cases src with
  | done => simp [pollRead, size, content]
  | bytes b bs src =>
    have hs := size_pushBack ((b :: bs).drop n) src
    have hl : ((b :: bs).take n).length + ((b :: bs).drop n).length = bs.length + 1 := by
      rw [← List.length_append, List.take_append_drop, List.length_cons]
    obtain ⟨k, rfl⟩ : ∃ k, n = k + 1 := ⟨n - 1, by omega⟩
    simp only [pollRead, content, size, Clean, content_pushBack, clean_pushBack, imp_self,
      and_true]
    exact ⟨by rw [← List.append_assoc, List.take_append_drop], by omega, by simp⟩
  | fail e src => simp [pollRead, content, size, Clean]
  | pending src => simp [pollRead, content, size, Clean]

end Source

/-! ## Buffered readers -/

/-- The byte that ends a line. -/
def LF : UInt8 := 10

/-- The byte that may stand before it. -/
def CR : UInt8 := 13

/-- The capacity `BufReader::new` gives its buffer, in both libraries. -/
def defaultBufSize : ℕ := 8 * 1024

/-- A buffered reader: the fetched bytes not yet consumed, the source they came from, and the
capacity of the buffer, which is never zero. -/
structure BufReader where
  buf : List UInt8
  inner : Source
  cap : ℕ
  cap_pos : 0 < cap

namespace BufReader

/-- `BufReader::new`. -/
def new (inner : Source) : BufReader := ⟨[], inner, defaultBufSize, by decide⟩

/-- Every byte the reader will still hand over. -/
def content (r : BufReader) : List UInt8 := r.buf ++ r.inner.content

/-- The source under the reader never fails. -/
def Clean (r : BufReader) : Prop := r.inner.Clean

/-- The work left: buffered bytes and what the source holds. -/
def work (r : BufReader) : ℕ := r.buf.length + r.inner.size

/-- `fill_buf`: the buffered bytes, fetching once when there are none. -/
def fillBuf (r : BufReader) : Except IoError (List UInt8) × BufReader :=
  if r.buf = [] then
    match r.inner.read r.cap with
    | (.ok bs, inner) => (.ok bs, { r with buf := bs, inner })
    | (.error e, inner) => (.error e, { r with inner })
  else (.ok r.buf, r)

/-- `poll_fill_buf`: the same on the async side. -/
def pollFillBuf (r : BufReader) : Poll (Except IoError (List UInt8)) × BufReader :=
  if r.buf = [] then
    match r.inner.pollRead r.cap with
    | (.ready (.ok bs), inner) => (.ready (.ok bs), { r with buf := bs, inner })
    | (.ready (.error e), inner) => (.ready (.error e), { r with inner })
    | (.pending, inner) => (.pending, { r with inner })
  else (.ready (.ok r.buf), r)

/-- `consume`: drop bytes from the front of the buffer. -/
def consume (n : ℕ) (r : BufReader) : BufReader := { r with buf := r.buf.drop n }

@[simp] theorem consume_buf (n : ℕ) (r : BufReader) : (r.consume n).buf = r.buf.drop n := rfl

@[simp] theorem consume_inner (n : ℕ) (r : BufReader) : (r.consume n).inner = r.inner := rfl

@[simp] theorem consume_cap (n : ℕ) (r : BufReader) : (r.consume n).cap = r.cap := rfl

/-- Consuming buffered bytes takes them off the front of the content. -/
theorem content_consume {n : ℕ} {r : BufReader} (h : n ≤ r.buf.length) :
    (r.consume n).content = r.content.drop n := by
  simp [content, List.drop_append_of_le_length h]

/-- Consuming buffered bytes is progress. -/
theorem work_consume {n : ℕ} {r : BufReader} (h : n ≤ r.buf.length) :
    (r.consume n).work + n = r.work := by
  simp only [work, consume_buf, consume_inner, List.length_drop]
  omega

/-- A fetch moves bytes from the source to the buffer and changes nothing else; it comes up
empty only at the end of the content, and fails only on a source that fails. -/
theorem fillBuf_spec (r : BufReader) :
    match r.fillBuf with
    | (.ok avail, r') => r'.buf = avail ∧ r'.content = r.content ∧ r'.work ≤ r.work ∧
        (avail = [] → r.content = []) ∧ (r.Clean → r'.Clean)
    | (.error _, r') => r'.content = r.content ∧ r'.work < r.work ∧ ¬ r.Clean := by
  unfold fillBuf
  by_cases hb : r.buf = []
  · have hs := Source.read_spec r.cap_pos r.inner
    rw [if_pos hb]
    rcases hr : r.inner.read r.cap with ⟨e | bs, src'⟩ <;> rw [hr] at hs
    · exact ⟨by simp [content, hs.1], by simpa [work] using hs.2.1, hs.2.2⟩
    · refine ⟨rfl, by simp [content, hb, hs.1], ?_, fun h => ?_, hs.2.2.2⟩
      · simpa [work, hb] using hs.2.1
      · simpa [content, hb] using hs.2.2.1 h
  · rw [if_neg hb]
    exact ⟨rfl, rfl, le_rfl, fun h => absurd h hb, id⟩

/-- The same for a polled fetch, which may also report that nothing is there yet. -/
theorem pollFillBuf_spec (r : BufReader) :
    match r.pollFillBuf with
    | (.ready (.ok avail), r') => r'.buf = avail ∧ r'.content = r.content ∧ r'.work ≤ r.work ∧
        (avail = [] → r.content = []) ∧ (r.Clean → r'.Clean)
    | (.ready (.error _), r') => r'.content = r.content ∧ r'.work < r.work ∧ ¬ r.Clean
    | (.pending, r') => r'.content = r.content ∧ r'.work < r.work ∧ (r.Clean → r'.Clean) := by
  unfold pollFillBuf
  by_cases hb : r.buf = []
  · have hs := Source.pollRead_spec r.cap_pos r.inner
    rw [if_pos hb]
    rcases hr : r.inner.pollRead r.cap with ⟨(e | bs) | _, src'⟩ <;> rw [hr] at hs
    · exact ⟨by simp [content, hs.1], by simpa [work] using hs.2.1, hs.2.2⟩
    · refine ⟨rfl, by simp [content, hb, hs.1], ?_, fun h => ?_, hs.2.2.2⟩
      · simpa [work, hb] using hs.2.1
      · simpa [content, hb] using hs.2.2.1 h
    · exact ⟨by simp [content, hs.1], by simpa [work] using hs.2.1, hs.2.2⟩
  · rw [if_neg hb]
    exact ⟨rfl, rfl, le_rfl, fun h => absurd h hb, id⟩

/-- `BufReader::read` for a buffer of `n` bytes: a read as large as an empty buffer goes to the
source directly, any other is served from the buffer. -/
def read (n : ℕ) (r : BufReader) : Except IoError (List UInt8) × BufReader :=
  if r.buf = [] ∧ r.cap ≤ n then
    match r.inner.read n with
    | (res, inner) => (res, { r with inner })
  else
    match r.fillBuf with
    | (.ok avail, r) => (.ok (avail.take n), r.consume (avail.take n).length)
    | (.error e, r) => (.error e, r)

/-- tokio's `BufReader::poll_read`, which takes the same shortcut. -/
def pollRead (n : ℕ) (r : BufReader) : Poll (Except IoError (List UInt8)) × BufReader :=
  if r.buf = [] ∧ r.cap ≤ n then
    match r.inner.pollRead n with
    | (res, inner) => (res, { r with inner })
  else
    match r.pollFillBuf with
    | (.ready (.ok avail), r) => (.ready (.ok (avail.take n)), r.consume (avail.take n).length)
    | (.ready (.error e), r) => (.ready (.error e), r)
    | (.pending, r) => (.pending, r)

/-- A list is what is taken of it, then what is left. -/
private theorem take_append_drop_length (n : ℕ) (l : List UInt8) :
    l.take n ++ l.drop (l.take n).length = l := by
  rcases Nat.le_total n l.length with h | h
  · rw [List.length_take, Nat.min_eq_left h, List.take_append_drop]
  · rw [List.take_of_length_le h, List.drop_length, List.append_nil]

/-- A read hands over at most what it was asked for. -/
theorem read_length {n : ℕ} {r r' : BufReader} {bs : List UInt8} (h : r.read n = (.ok bs, r')) :
    bs.length ≤ n := by
  unfold read at h
  split_ifs at h
  · have hl := Source.read_length n r.inner
    rcases hr : r.inner.read n with ⟨e | bs', src'⟩ <;> rw [hr] at h hl
    · simp at h
    · simp only [Prod.mk.injEq, Except.ok.injEq] at h
      rw [← h.1]
      exact hl
  · split at h
    · simp only [Prod.mk.injEq, Except.ok.injEq] at h
      rw [← h.1]
      exact List.length_take_le n _
    · simp at h

/-- Taking what is asked for off what was fetched. -/
theorem consume_take_spec {n : ℕ} (hn : 0 < n) {r r' : BufReader} {avail : List UInt8}
    (hb : r'.buf = avail) (hc : r'.content = r.content) (hw : r'.work ≤ r.work)
    (he : avail = [] → r.content = []) :
    r.content = avail.take n ++ (r'.consume (avail.take n).length).content ∧
      (avail.take n).length + (r'.consume (avail.take n).length).work ≤ r.work ∧
      (avail.take n = [] → r.content = []) := by
  have hle : (avail.take n).length ≤ r'.buf.length := by
    rw [hb]
    exact List.length_take_le' n avail
  refine ⟨?_, ?_, fun h0 => he ?_⟩
  · rw [content_consume hle, ← hc, content, hb] at *
    rw [List.drop_append_of_le_length hle, ← List.append_assoc, take_append_drop_length]
  · have := work_consume hle
    omega
  · exact (List.take_eq_nil_iff.mp h0).resolve_left (by omega)

/-- A read takes bytes off the front of the content, none only at its end. -/
theorem read_spec {n : ℕ} (hn : 0 < n) (r : BufReader) :
    match r.read n with
    | (.ok bs, r') => r.content = bs ++ r'.content ∧ bs.length + r'.work ≤ r.work ∧
        (bs = [] → r.content = []) ∧ (r.Clean → r'.Clean)
    | (.error _, r') => r'.content = r.content ∧ r'.work < r.work ∧ ¬ r.Clean := by
  unfold read
  split_ifs with h
  · have hs := Source.read_spec hn r.inner
    rcases hr : r.inner.read n with ⟨e | bs, src'⟩ <;> rw [hr] at hs
    · exact ⟨by simp [content, hs.1], by simpa [work] using hs.2.1, hs.2.2⟩
    · refine ⟨by simp [content, h.1, hs.1], ?_, fun hb => ?_, hs.2.2.2⟩
      · simpa [work, h.1] using hs.2.1
      · simpa [content, h.1] using hs.2.2.1 hb
  · have hf := fillBuf_spec r
    rcases hr : r.fillBuf with ⟨e | avail, r'⟩ <;> rw [hr] at hf
    · exact hf
    · obtain ⟨hb, hc, hw, he, hk⟩ := hf
      obtain ⟨hcontent, hwork, hempty⟩ := consume_take_spec hn hb hc hw he
      exact ⟨hcontent, hwork, hempty, hk⟩

/-- A polled read does the same, or uses up a moment without data. -/
theorem pollRead_spec {n : ℕ} (hn : 0 < n) (r : BufReader) :
    match r.pollRead n with
    | (.ready (.ok bs), r') => r.content = bs ++ r'.content ∧ bs.length + r'.work ≤ r.work ∧
        (bs = [] → r.content = []) ∧ (r.Clean → r'.Clean)
    | (.ready (.error _), r') => r'.content = r.content ∧ r'.work < r.work ∧ ¬ r.Clean
    | (.pending, r') => r'.content = r.content ∧ r'.work < r.work ∧ (r.Clean → r'.Clean) := by
  unfold pollRead
  split_ifs with h
  · have hs := Source.pollRead_spec hn r.inner
    rcases hr : r.inner.pollRead n with ⟨(e | bs) | _, src'⟩ <;> rw [hr] at hs
    · exact ⟨by simp [content, hs.1], by simpa [work] using hs.2.1, hs.2.2⟩
    · refine ⟨by simp [content, h.1, hs.1], ?_, fun hb => ?_, hs.2.2.2⟩
      · simpa [work, h.1] using hs.2.1
      · simpa [content, h.1] using hs.2.2.1 hb
    · exact ⟨by simp [content, hs.1], by simpa [work] using hs.2.1, hs.2.2⟩
  · have hf := pollFillBuf_spec r
    rcases hr : r.pollFillBuf with ⟨(e | avail) | _, r'⟩ <;> rw [hr] at hf
    · exact hf
    · obtain ⟨hb, hc, hw, he, hk⟩ := hf
      obtain ⟨hcontent, hwork, hempty⟩ := consume_take_spec hn hb hc hw he
      exact ⟨hcontent, hwork, hempty, hk⟩
    · exact hf

/-- `Take::fill_buf` over the reader: an exhausted limit reads as the end of the stream. -/
def takeFillBuf (limit : ℕ) (r : BufReader) : Except IoError (List UInt8) × BufReader :=
  if limit = 0 then (.ok [], r)
  else
    match r.fillBuf with
    | (.ok avail, r) => (.ok (avail.take limit), r)
    | (.error e, r) => (.error e, r)

/-- A limited fetch is a fetch, cut off at the limit. -/
theorem takeFillBuf_spec (limit : ℕ) (r : BufReader) :
    match r.takeFillBuf limit with
    | (.ok avail, r') => avail = r'.buf.take limit ∧ r'.content = r.content ∧
        r'.work ≤ r.work ∧ (avail = [] → limit = 0 ∨ r.content = []) ∧ (r.Clean → r'.Clean)
    | (.error _, r') => r'.content = r.content ∧ r'.work < r.work ∧ ¬ r.Clean := by
  unfold takeFillBuf
  split_ifs with hl
  · exact ⟨by simp [hl], rfl, le_rfl, fun _ => .inl hl, id⟩
  · have hf := fillBuf_spec r
    rcases hr : r.fillBuf with ⟨e | avail, r'⟩ <;> rw [hr] at hf
    · exact hf
    · obtain ⟨hb, hc, hw, he, hk⟩ := hf
      refine ⟨by rw [hb], hc, hw, fun h => .inr (he ?_), hk⟩
      exact (List.take_eq_nil_iff.mp h).resolve_left hl

/-- What a limited fetch offers is at the front of the buffer and of the content. -/
theorem takeFillBuf_front {limit : ℕ} {r r' : BufReader} {avail : List UInt8}
    (h : r.takeFillBuf limit = (.ok avail, r')) :
    avail.length ≤ limit ∧ avail.length ≤ r'.buf.length ∧
      r'.content = avail ++ (r'.buf.drop limit ++ r'.inner.content) := by
  have hs := takeFillBuf_spec limit r
  rw [h] at hs
  obtain ⟨rfl, -⟩ := hs
  refine ⟨List.length_take_le _ _, List.length_take_le' _ _, ?_⟩
  rw [← List.append_assoc, List.take_append_drop, content]

/-- `read_until` through `Take`: append to `line` up to and including the first `delim`, but at
most `limit` bytes, stopping early at the end of the stream. An interrupted fetch is tried
again; any other failure drops what was appended. -/
def readUntil (limit : ℕ) (delim : UInt8) (line : List UInt8) (r : BufReader) :
    Except IoError (List UInt8) × BufReader :=
  match _h : r.takeFillBuf limit with
  | (.error e, r') =>
    if e.kind = .interrupted then readUntil limit delim line r' else (.error e, r')
  | (.ok avail, r') =>
    match cut delim avail with
    | some (before, _) => (.ok (line ++ before ++ [delim]), r'.consume (before.length + 1))
    | none =>
      if avail = [] then (.ok line, r')
      else readUntil (limit - avail.length) delim (line ++ avail) (r'.consume avail.length)
termination_by r.work
decreasing_by
  · have hs := takeFillBuf_spec limit r
    rw [_h] at hs
    exact hs.2.1
  · rename_i hne
    have hs := takeFillBuf_spec limit r
    rw [_h] at hs
    have hle : avail.length ≤ r'.buf.length := by
      rw [hs.1]
      exact List.length_take_le' _ _
    have := work_consume hle
    have := List.length_pos_iff.mpr hne
    omega

/-- A line read pays for every byte it appends. -/
theorem readUntil_work (limit : ℕ) (delim : UInt8) (line : List UInt8) (r : BufReader) :
    match r.readUntil limit delim line with
    | (.ok l, r') => l.length + r'.work ≤ line.length + r.work
    | (.error _, r') => r'.work ≤ r.work := by
  fun_induction readUntil limit delim line r with
  | case1 limit line r e r' h hi ih =>
    have hs := takeFillBuf_spec limit r
    rw [h] at hs
    rcases hr : r'.readUntil limit delim line with ⟨e' | l, r''⟩ <;> rw [hr] at ih
    · exact ih.trans hs.2.1.le
    · exact ih.trans (Nat.add_le_add_left hs.2.1.le _)
  | case2 limit line r e r' h hi =>
    have hs := takeFillBuf_spec limit r
    rw [h] at hs
    exact hs.2.1.le
  | case3 limit line r avail r' h before after hc =>
    have hs := takeFillBuf_spec limit r
    rw [h] at hs
    have hle : before.length + 1 ≤ r'.buf.length := by
      have hlen : avail.length ≤ r'.buf.length := by
        rw [hs.1]
        exact List.length_take_le' _ _
      obtain ⟨rfl, -⟩ := cut_eq_some_iff.mp hc
      simp only [List.length_append, List.length_cons] at hlen
      omega
    have := work_consume hle
    have := hs.2.2.1
    simp only [List.length_append, List.length_cons, List.length_nil]
    omega
  | case4 limit line r r' h hc =>
    have hs := takeFillBuf_spec limit r
    rw [h] at hs
    exact Nat.add_le_add_left hs.2.2.1 _
  | case5 limit line r avail r' h hc hne ih =>
    have hs := takeFillBuf_spec limit r
    rw [h] at hs
    have hle : avail.length ≤ r'.buf.length := by
      rw [hs.1]
      exact List.length_take_le' _ _
    have := work_consume hle
    have := hs.2.2.1
    rcases hr : (r'.consume avail.length).readUntil (limit - avail.length) delim (line ++ avail)
      with ⟨e' | l, r''⟩ <;> rw [hr] at ih <;>
      simp only [List.length_append] at ih <;> dsimp only <;> omega

end BufReader

/-- What a bounded line read takes off the front of `s`: up to and including the first
`delim`, but at most `limit` bytes. -/
def takeLine (limit : ℕ) (delim : UInt8) (s : List UInt8) : List UInt8 × List UInt8 :=
  match cut delim (s.take limit) with
  | some (before, _) => (before ++ [delim], s.drop (before.length + 1))
  | none => (s.take limit, s.drop limit)

/-- A delimiter within the limit ends the line. -/
theorem takeLine_of_cut {limit : ℕ} {delim : UInt8} {avail before after : List UInt8}
    (rest : List UInt8) (hl : avail.length ≤ limit) (h : cut delim avail = some (before, after)) :
    takeLine limit delim (avail ++ rest) = (before ++ [delim], after ++ rest) := by
  have ht : (avail ++ rest).take limit = avail ++ rest.take (limit - avail.length) := by
    rw [List.take_append, List.take_of_length_le hl]
  unfold takeLine
  rw [ht, cut_append_left _ h]
  obtain ⟨rfl, -⟩ := cut_eq_some_iff.mp h
  simp

/-- Without one, the line goes on in what follows, with the limit that is left. -/
theorem takeLine_of_not_mem {limit : ℕ} {delim : UInt8} {avail : List UInt8}
    (rest : List UInt8) (hl : avail.length ≤ limit) (h : delim ∉ avail) :
    takeLine limit delim (avail ++ rest) =
      (avail ++ (takeLine (limit - avail.length) delim rest).1,
        (takeLine (limit - avail.length) delim rest).2) := by
  have ht : (avail ++ rest).take limit = avail ++ rest.take (limit - avail.length) := by
    rw [List.take_append, List.take_of_length_le hl]
  unfold takeLine
  rw [ht, cut_append_right _ h]
  cases hc : cut delim (rest.take (limit - avail.length)) with
  | none => simp [List.drop_append, List.drop_eq_nil_of_le hl]
  | some p => simp [List.drop_append, Nat.add_assoc]

namespace BufReader

/-- **Bounded line reads depend on the content only.** On a source that does not fail, a line
read appends the front of the content that `takeLine` describes and leaves the rest,
however the source splits its bytes over reads.

**Proof sketch.** Induction along `readUntil`. A fetch exposes a prefix of the content. If the
delimiter is in it, so it is in the content, at the same place; if not, the prefix is
appended whole and the limit shrinks by its length, which is what `takeLine` does with it. -/
theorem readUntil_spec (limit : ℕ) (delim : UInt8) (line : List UInt8) (r : BufReader)
    (hk : r.Clean) :
    ∃ r', r.readUntil limit delim line =
        (.ok (line ++ (takeLine limit delim r.content).1), r') ∧
      r'.content = (takeLine limit delim r.content).2 ∧ r'.Clean ∧
      r'.work + (takeLine limit delim r.content).1.length ≤ r.work := by
  fun_induction readUntil limit delim line r with
  | case1 limit line r e r' h hi ih =>
    have hs := takeFillBuf_spec limit r
    rw [h] at hs
    exact absurd hk hs.2.2
  | case2 limit line r e r' h hi =>
    have hs := takeFillBuf_spec limit r
    rw [h] at hs
    exact absurd hk hs.2.2
  | case3 limit line r avail r' h before after hc =>
    have hs := takeFillBuf_spec limit r
    rw [h] at hs
    obtain ⟨-, hcont, hw, -, hk'⟩ := hs
    obtain ⟨hl, hlen, hsplit⟩ := takeFillBuf_front h
    have hle : before.length + 1 ≤ r'.buf.length := by
      obtain ⟨rfl, -⟩ := cut_eq_some_iff.mp hc
      simp only [List.length_append, List.length_cons] at hlen
      omega
    have hline := takeLine_of_cut (r'.buf.drop limit ++ r'.inner.content) hl hc
    rw [← hcont, hsplit, hline]
    refine ⟨r'.consume (before.length + 1), by simp, ?_, hk' hk, ?_⟩
    · rw [content_consume hle, hsplit]
      obtain ⟨rfl, -⟩ := cut_eq_some_iff.mp hc
      simp
    · have := work_consume hle
      simp only [List.length_append, List.length_cons, List.length_nil]
      omega
  | case4 limit line r r' h hc =>
    have hs := takeFillBuf_spec limit r
    rw [h] at hs
    obtain ⟨hb, hcont, hw, he, hk'⟩ := hs
    have hline : takeLine limit delim r.content = ([], r.content) := by
      rcases he rfl with hl | hr
      · simp [takeLine, hl]
      · simp [takeLine, hr]
    exact ⟨r', by rw [hline]; simp, by rw [hline, hcont], hk' hk, by rw [hline]; simpa using hw⟩
  | case5 limit line r avail r' h hc hne ih =>
    have hs := takeFillBuf_spec limit r
    rw [h] at hs
    obtain ⟨-, hcont, hw, -, hk'⟩ := hs
    obtain ⟨hl, hle, hsplit⟩ := takeFillBuf_front h
    have hrest : (r'.consume avail.length).content = r'.buf.drop limit ++ r'.inner.content := by
      rw [content_consume hle, hsplit, List.drop_left]
    obtain ⟨r'', hr, hc'', hk'', hw''⟩ := ih (hk' hk)
    rw [hrest] at hr hc'' hw''
    have hline := takeLine_of_not_mem (r'.buf.drop limit ++ r'.inner.content) hl
      (cut_eq_none_iff.mp hc)
    rw [← hcont, hsplit, hline]
    refine ⟨r'', by rw [hr, List.append_assoc], hc'', hk'', ?_⟩
    have := work_consume hle
    simp only [List.length_append]
    omega

end BufReader

end Lager
