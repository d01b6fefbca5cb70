import Lager.Rust.Io
import Lager.Rust.Text

set_option relaxedAutoImplicit false
set_option autoImplicit false

/-!
# The blocking chunk decoder

`ChunkedReader` strips the chunk framing that the debug service writes into its RTT stream. It
is a five-state machine over a buffered reader: size line, payload, the line end that closes
a payload, trailers, done. This file translates it, with the size-line parser that both
decoders share, and the way a caller reads it to its end.

## Main definitions

* `Lager.State`, `Lager.parseSize`, `Lager.maxSizeLine` — shared by both decoders.
* `Lager.ChunkedReader` — the decoder, with `readLine`, `skipTrailers` and `read`.
* `Lager.ChunkedReader.drain` — read with a sequence of caller buffers until the first end of
  stream or error.

## Implementation notes

A loop of the source is a recursion on the work left in the reader
(`Lager.BufReader.work`): every turn of it takes at least a line off the stream.
-/

namespace Lager

open Library

/-- `MAX_SIZE_LINE`: the longest chunk-size line accepted, extensions included. -/
def maxSizeLine : ℕ := 1024

/-- Where a decoder stands in the framing. -/
inductive State
  /-- Expecting a chunk-size line. -/
  | size
  /-- Inside a chunk with this many payload bytes left. -/
  | data (left : ℕ)
  /-- Expecting the line end that closes a chunk's payload. -/
  | dataEnd
  /-- After the zero-size chunk: skipping trailer lines. -/
  | trailers
  /-- The terminating chunk was seen, or the stream closed between chunks. -/
  | done
  deriving DecidableEq, Repr

/-- `invalid`: an `InvalidData` error. -/
def invalid (msg : String) : IoError := ⟨.invalidData, msg⟩

/-- `unexpected_eof`: an `UnexpectedEof` error. -/
def unexpectedEof (msg : String) : IoError := ⟨.unexpectedEof, msg⟩

/-- The byte that starts a chunk extension, `;`. -/
def semicolon : UInt8 := 59

/-- The part of a line before its first `;`. -/
def beforeExtension (line : List UInt8) : List UInt8 :=
  match cut semicolon line with
  | some (digits, _) => digits
  | none => line

/-- `parse_size`: the hex number before any `;extension`, as a `u64`. -/
def parseSize (line : List UInt8) : Except IoError ℕ :=
  match fromUtf8 (beforeExtension line) with
  | none => .error (invalid "chunk size is not ASCII")
  | some digits =>
    match fromStrRadix 16 (2 ^ 64) (trim digits) with
    | none => .error (invalid "chunk size is not hex")
    | some size => .ok size

/-- Every refusal of a size line is `InvalidData`. -/
theorem parseSize_error {line : List UInt8} {e : IoError} (h : parseSize line = .error e) :
    e.kind = .invalidData := by
  unfold parseSize at h
  split at h
  · cases h; rfl
  · split at h <;> cases h
    rfl

/-- Drop a line's terminator: the line feed, and a carriage return before it. -/
def chomp (line : List UInt8) : List UInt8 :=
  let line := line.dropLast
  if line.getLast? = some CR then line.dropLast else line

/-- What reading a body to its first terminal result gives: the bytes, and the kind of error it
ended in, `none` for a clean end. -/
structure Delivered where
  bytes : List UInt8
  ending : Option ErrorKind
  deriving DecidableEq, Repr

/-- Bytes delivered before the rest. -/
def Delivered.after (bs : List UInt8) (d : Delivered) : Delivered := ⟨bs ++ d.bytes, d.ending⟩

@[simp] theorem Delivered.after_nil (d : Delivered) : d.after [] = d := rfl

@[simp] theorem Delivered.after_after (bs bs' : List UInt8) (d : Delivered) :
    (d.after bs').after bs = d.after (bs ++ bs') := by
  simp [Delivered.after]

/-- The blocking decoder: a reader and a state. -/
structure ChunkedReader where
  inner : BufReader
  state : State

namespace ChunkedReader

/-- `ChunkedReader::new`. -/
def new (inner : Source) : ChunkedReader := ⟨BufReader.new inner, .size⟩

/-- `read_line`: one line without its terminator; `none` when the stream closed before any
byte of it. -/
def readLine (r : ChunkedReader) : Except IoError (Option (List UInt8)) × ChunkedReader :=
  match r.inner.readUntil (maxSizeLine + 2) LF [] with
  | (.error e, inner) => (.error e, { r with inner })
  | (.ok line, inner) =>
    if line.length = 0 then (.ok none, { r with inner })
    else if line.getLast? ≠ some LF then
      (.error (if line.length > maxSizeLine then invalid "chunk-size line too long"
        else unexpectedEof "stream closed inside a chunk-size line"), { r with inner })
    else (.ok (some (chomp line)), { r with inner })

/-- A line read keeps the state; a line it returns was paid for. -/
theorem readLine_work (r : ChunkedReader) :
    match r.readLine with
    | (.ok (some _), r') => r'.inner.work < r.inner.work ∧ r'.state = r.state
    | (_, r') => r'.inner.work ≤ r.inner.work ∧ r'.state = r.state := by
  have hw := r.inner.readUntil_work (maxSizeLine + 2) LF []
  unfold readLine
  rcases hr : r.inner.readUntil (maxSizeLine + 2) LF [] with ⟨e | line, inner⟩ <;> rw [hr] at hw
  · exact ⟨hw, rfl⟩
  · simp only [List.length_nil, Nat.zero_add] at hw
    dsimp only
    split_ifs <;> refine ⟨?_, rfl⟩ <;> dsimp only <;> omega

/-- `skip_trailers`: lines up to an empty one or the end of the stream. -/
def skipTrailers (r : ChunkedReader) : Except IoError Unit × ChunkedReader :=
  match _h : r.readLine with
  | (.error e, r') => (.error e, r')
  | (.ok none, r') => (.ok (), r')
  | (.ok (some line), r') => if line = [] then (.ok (), r') else skipTrailers r'
termination_by r.inner.work
decreasing_by
  have hw := readLine_work r
  rw [_h] at hw
  exact hw.1

/-- Skipping trailers makes no work. -/
theorem skipTrailers_work (r : ChunkedReader) :
    r.skipTrailers.2.inner.work ≤ r.inner.work := by
  fun_induction skipTrailers r with
  | case1 r e r' h =>
    have hw := readLine_work r
    rw [h] at hw
    exact hw.1
  | case2 r r' h =>
    have hw := readLine_work r
    rw [h] at hw
    exact hw.1
  | case3 r r' h =>
    have hw := readLine_work r
    rw [h] at hw
    exact hw.1.le
  | case4 r line r' h hne ih =>
    have hw := readLine_work r
    rw [h] at hw
    exact ih.trans hw.1.le

/-- The work a decoder has left: its reader's, and the turn that leaves a state other than
`done`. -/
def work (r : ChunkedReader) : ℕ := 2 * r.inner.work + if r.state = .done then 0 else 1

/-- After a line, whatever the next state, a decoder that was not done has less work. -/
theorem work_of_readLine {r r' : ChunkedReader} {line : List UInt8}
    (h : r.readLine = (.ok (some line), r')) (hs : r.state ≠ .done) (inner : BufReader)
    (hi : inner.work ≤ r'.inner.work) (st : State) :
    work { inner, state := st } < r.work := by
  have hw := readLine_work r
  rw [h] at hw
  simp only [work, if_neg hs]
  split_ifs <;> omega

/-- After the trailers the decoder is done, with less work than before. -/
theorem work_of_skipTrailers {r r' : ChunkedReader} {u : Unit}
    (h : r.skipTrailers = (.ok u, r')) (hs : r.state ≠ .done) :
    work { r' with state := .done } < r.work := by
  have hw := skipTrailers_work r
  rw [h] at hw
  simp only [work, if_neg hs, ↓reduceIte] at hw ⊢
  omega

/-- `read`, for a caller buffer of `n` bytes. -/
def read (n : ℕ) (r : ChunkedReader) : Except IoError (List UInt8) × ChunkedReader :=
  if n = 0 then (.ok [], r)
  else
    match _hs : r.state with
    | .done => (.ok [], r)
    | .trailers =>
      match _ht : r.skipTrailers with
      | (.error e, r') => (.error e, r')
      | (.ok (), r') => read n { r' with state := .done }
    | .size =>
      match _hl : r.readLine with
      | (.error e, r') => (.error e, r')
      | (.ok none, r') => (.ok [], { r' with state := .done })
      | (.ok (some line), r') =>
        match parseSize line with
        | .error e => (.error e, r')
        | .ok 0 =>
          match _ht : r'.skipTrailers with
          | (.error e, r'') => (.error e, r'')
          | (.ok (), r'') => read n { r'' with state := .done }
        | .ok size => read n { r' with state := .data size }
    | .data left =>
      match r.inner.read (min n left) with
      | (.error e, inner) => (.error e, { r with inner })
      | (.ok bs, inner) =>
        if bs.length = 0 then
          (.error (unexpectedEof "stream closed inside a chunk"), { r with inner })
        else
          let left := left - bs.length
          (.ok bs, { inner, state := if left = 0 then .dataEnd else .data left })
    | .dataEnd =>
      match _hl : r.readLine with
      | (.error e, r') => (.error e, r')
      | (.ok none, r') => (.error (unexpectedEof "stream closed before a chunk's CRLF"), r')
      | (.ok (some line), r') =>
        if line = [] then read n { r' with state := .size }
        else (.error (invalid "chunk payload longer than its size"), r')
termination_by r.work
decreasing_by
  · exact work_of_skipTrailers _ht (by simp [_hs])
  · have hw := skipTrailers_work r'
    rw [_ht] at hw
    exact work_of_readLine _hl (by simp [_hs]) _ hw _
  · exact work_of_readLine _hl (by simp [_hs]) _ le_rfl _
  · exact work_of_readLine _hl (by simp [_hs]) _ le_rfl _

/-- A read that returns bytes is progress. -/
theorem read_progress (n : ℕ) (r : ChunkedReader) {bs : List UInt8} {r' : ChunkedReader}
    (h : r.read n = (.ok bs, r')) (hne : bs ≠ []) : r'.work < r.work := by
  fun_induction read n r with
  | case4 r hn hs r₁ ht ih => exact (ih h).trans (work_of_skipTrailers ht (by simp [hs]))
  | case9 r hn hs line r₁ hl hp r₂ ht ih =>
    have hw := skipTrailers_work r₁
    rw [ht] at hw
    exact (ih h).trans (work_of_readLine hl (by simp [hs]) _ hw _)
  | case10 r hn hs line r₁ hl size hz hp ih =>
    exact (ih h).trans (work_of_readLine hl (by simp [hs]) _ le_rfl _)
  | case13 r hn left hs bs' inner hr hz _ =>
    simp only [Prod.mk.injEq, Except.ok.injEq] at h
    obtain ⟨rfl, rfl⟩ := h
    have hpos : 0 < min n left := by
      have := BufReader.read_length hr
      omega
    have hw := BufReader.read_spec hpos r.inner
    rw [hr] at hw
    simp only [work, hs]
    split_ifs <;> omega
  | case16 r hn hs r₁ hl ih =>
    exact (ih h).trans (work_of_readLine hl (by simp [hs]) _ le_rfl _)
  | _ => simp_all

/-- Read with caller buffers of `bufs i`, `bufs (i + 1)`, … bytes until a read returns nothing
or fails: the bytes delivered, the kind of error if there was one, and the reader then. -/
def drain (bufs : ℕ → ℕ) (i : ℕ) (r : ChunkedReader) : Delivered × ChunkedReader :=
  match _h : r.read (bufs i) with
  | (.error e, r') => (⟨[], some e.kind⟩, r')
  | (.ok [], r') => (⟨[], none⟩, r')
  | (.ok (b :: bs), r') => ((drain bufs (i + 1) r').1.after (b :: bs), (drain bufs (i + 1) r').2)
termination_by r.work
decreasing_by all_goals exact read_progress _ _ _h (by simp)

end ChunkedReader

end Lager
