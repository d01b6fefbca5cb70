import Lager.Chunked.Reader

set_option relaxedAutoImplicit false
set_option autoImplicit false

/-!
# The async response body

`AsyncBody` is the decoder the async client reads its RTT stream with: the same chunk framing
as `Lager.ChunkedReader`, or a body of known length, or one that ends with the connection. It
is polled, so a line can arrive in pieces with polls in between; the piece read so far is
kept in the body.

## Main definitions

* `Lager.Framing`, `Lager.AsyncBody` — the decoder, with `pollLine`, `pollPayload` and
  `pollRead`.
* `Lager.AsyncBody.drain` — poll with a sequence of caller buffers until the first end of
  stream or error.
-/

namespace Lager

open Library

/-- How the end of a body is found. -/
inductive Framing
  | chunked (state : State)
  | length (left : ℕ)
  | untilClose
  deriving DecidableEq, Repr

/-- The async decoder: a reader, the framing, and the part of a line read so far. -/
structure AsyncBody where
  inner : BufReader
  framing : Framing
  line : List UInt8

namespace AsyncBody

/-- `AsyncBody::new`: a body already positioned past the response head. The reader keeps
whatever the head read buffered. -/
def new (inner : BufReader) (chunked : Bool) (length : Option ℕ) : AsyncBody :=
  ⟨inner,
    match chunked, length with
    | true, _ => .chunked .size
    | false, some n => .length n
    | false, none => .untilClose,
    []⟩

/-- `poll_line`: one line without its terminator; `none` when the stream closed before any
byte of it. -/
def pollLine (b : AsyncBody) : Poll (Except IoError (Option (List UInt8))) × AsyncBody :=
  match _h : b.inner.pollFillBuf with
  | (.ready (.error e), inner) => (.ready (.error e), { b with inner })
  | (.pending, inner) => (.pending, { b with inner })
  | (.ready (.ok available), inner) =>
    if available = [] then
      (.ready (if b.line = [] then .ok none
        else .error (unexpectedEof "stream closed inside a chunk-size line")), { b with inner })
    else
      match cut LF available with
      | some (before, _) =>
        (.ready (.ok (some (chomp (b.line ++ before ++ [LF])))),
          { b with inner := inner.consume (before.length + 1), line := [] })
      | none =>
        let b' := { b with inner := inner.consume available.length, line := b.line ++ available }
        if b'.line.length > maxSizeLine + 1 then
          (.ready (.error (invalid "chunk-size line too long")), b')
        else pollLine b'
termination_by b.inner.work
decreasing_by
  rename_i hne _
  have hs := b.inner.pollFillBuf_spec
  rw [_h] at hs
  have hle : available.length ≤ inner.buf.length := by rw [hs.1]
  have := BufReader.work_consume hle
  have := List.length_pos_iff.mpr hne
  have := hs.2.2.1
  omega

/-- A polled line read keeps the framing and makes no work; a line it returns was paid for, and
so was a moment without data. -/
theorem pollLine_work (b : AsyncBody) :
    match b.pollLine with
    | (.ready (.ok (some _)), b') => b'.inner.work < b.inner.work ∧ b'.framing = b.framing
    | (.ready _, b') => b'.inner.work ≤ b.inner.work ∧ b'.framing = b.framing
    | (.pending, b') => b'.inner.work < b.inner.work ∧ b'.framing = b.framing := by
  fun_induction pollLine b with
  | case1 b e inner h =>
    have hs := b.inner.pollFillBuf_spec
    rw [h] at hs
    exact ⟨hs.2.1.le, rfl⟩
  | case2 b inner h =>
    have hs := b.inner.pollFillBuf_spec
    rw [h] at hs
    exact ⟨hs.2.1, rfl⟩
  | case3 b inner h =>
    have hs := b.inner.pollFillBuf_spec
    rw [h] at hs
    split_ifs <;> exact ⟨hs.2.2.1, rfl⟩
  | case4 b available inner h hne before after hc =>
    have hs := b.inner.pollFillBuf_spec
    rw [h] at hs
    have hle : before.length + 1 ≤ inner.buf.length := by
      obtain ⟨rfl, -⟩ := cut_eq_some_iff.mp hc
      rw [hs.1, List.length_append, List.length_cons]
      omega
    have := BufReader.work_consume hle
    have := hs.2.2.1
    refine ⟨?_, rfl⟩
    dsimp only
    omega
  | case5 b available inner h hne hc b' hlong =>
    have hs := b.inner.pollFillBuf_spec
    rw [h] at hs
    have hle : available.length ≤ inner.buf.length := by rw [hs.1]
    have := BufReader.work_consume hle
    have := hs.2.2.1
    refine ⟨?_, rfl⟩
    simp only [b']
    omega
  | case6 b available inner h hne hc b' hshort ih =>
    have hs := b.inner.pollFillBuf_spec
    rw [h] at hs
    have hle : available.length ≤ inner.buf.length := by rw [hs.1]
    have := BufReader.work_consume hle
    have := hs.2.2.1
    have hw : b'.inner.work ≤ b.inner.work := by
      simp only [b']
      omega
    rcases hr : b'.pollLine with ⟨(e | _ | l) | _, b''⟩ <;> rw [hr] at ih
    · exact ⟨ih.1.trans hw, ih.2⟩
    · exact ⟨ih.1.trans hw, ih.2⟩
    · exact ⟨ih.1.trans_le hw, ih.2⟩
    · exact ⟨ih.1.trans_le hw, ih.2⟩

/-- `poll_payload`: at most `left` bytes of payload for a buffer with room for `n`. -/
def pollPayload (n left : ℕ) (b : AsyncBody) : Poll (Except IoError (List UInt8)) × AsyncBody :=
  match b.inner.pollFillBuf with
  | (.ready (.error e), inner) => (.ready (.error e), { b with inner })
  | (.pending, inner) => (.pending, { b with inner })
  | (.ready (.ok available), inner) =>
    let k := min (min available.length n) left
    (.ready (.ok (available.take k)), { b with inner := inner.consume k })

/-- A polled payload read pays for what it delivers and leaves the line and framing alone. -/
theorem pollPayload_spec (n left : ℕ) (b : AsyncBody) :
    match b.pollPayload n left with
    | (.ready (.ok bs), b') => b.inner.content = bs ++ b'.inner.content ∧ bs.length ≤ left ∧
        bs.length + b'.inner.work ≤ b.inner.work ∧
        (0 < n → 0 < left → bs = [] → b.inner.content = []) ∧
        (b.inner.Clean → b'.inner.Clean) ∧ b'.line = b.line ∧ b'.framing = b.framing
    | (.ready (.error _), _) => ¬ b.inner.Clean
    | (.pending, b') => b'.inner.content = b.inner.content ∧ b'.inner.work < b.inner.work ∧
        (b.inner.Clean → b'.inner.Clean) ∧ b'.line = b.line ∧ b'.framing = b.framing := by
  have hs := b.inner.pollFillBuf_spec
  unfold pollPayload
  rcases hr : b.inner.pollFillBuf with ⟨(e | available) | _, inner⟩ <;> rw [hr] at hs
  · exact hs.2.2
  · obtain ⟨hb, hc, hw, he, hk⟩ := hs
    have hle : min (min available.length n) left ≤ inner.buf.length := by
      rw [hb]
      omega
    have hlen : (available.take (min (min available.length n) left)).length =
        min (min available.length n) left := by
      rw [List.length_take]
      omega
    refine ⟨?_, by rw [hlen]; omega, ?_, fun hn hl h0 => he ?_, hk, rfl, rfl⟩
    · rw [BufReader.content_consume hle, ← hc, BufReader.content, hb,
        List.drop_append_of_le_length (by omega), ← List.append_assoc, List.take_append_drop]
    · have := BufReader.work_consume hle
      dsimp only
      omega
    · rw [← List.length_eq_zero_iff, hlen] at h0
      exact List.length_eq_zero_iff.mp (by omega)
  · exact ⟨hs.1, hs.2.1, hs.2.2, rfl, rfl⟩

/-- The work a body has left: its reader's, and the turn that leaves a state other than
`done`. -/
def work (b : AsyncBody) : ℕ := 2 * b.inner.work + if b.framing = .chunked .done then 0 else 1

/-- After a line, whatever the next framing, a body that was not done has less work. -/
theorem work_of_line {b b' : AsyncBody} {line : List UInt8}
    (h : b.pollLine = (.ready (.ok (some line)), b')) (hd : b.framing ≠ .chunked .done)
    (f : Framing) : work { b' with framing := f } < b.work := by
  have hw := pollLine_work b
  rw [h] at hw
  simp only [work, if_neg hd]
  split_ifs <;> omega

/-- Once a line read has come back, entering `done` is less work. -/
theorem work_of_done {b b' : AsyncBody} {res : Except IoError (Option (List UInt8))}
    (h : b.pollLine = (.ready res, b')) (hd : b.framing ≠ .chunked .done) :
    work { b' with framing := .chunked .done } < b.work := by
  have hw := pollLine_work b
  rw [h] at hw
  have hle : b'.inner.work ≤ b.inner.work := by
    rcases res with e | _ | line
    · exact hw.1
    · exact hw.1
    · exact hw.1.le
  simp only [work, if_neg hd, ↓reduceIte]
  omega

/-- `poll_read`, for a buffer with room for `n` bytes. -/
def pollRead (n : ℕ) (b : AsyncBody) : Poll (Except IoError (List UInt8)) × AsyncBody :=
  if n = 0 then (.ready (.ok []), b)
  else
    match _hf : b.framing with
    | .untilClose =>
      match b.inner.pollRead n with
      | (res, inner) => (res, { b with inner })
    | .length 0 => (.ready (.ok []), b)
    | .chunked .done => (.ready (.ok []), b)
    | .length left =>
      match b.pollPayload n left with
      | (.ready (.error e), b) => (.ready (.error e), b)
      | (.pending, b) => (.pending, b)
      | (.ready (.ok bs), b) =>
        if bs.length = 0 then
          (.ready (.error (unexpectedEof "stream closed inside the body")), b)
        else (.ready (.ok bs), { b with framing := .length (left - bs.length) })
    | .chunked (.data left) =>
      match b.pollPayload n left with
      | (.ready (.error e), b) => (.ready (.error e), b)
      | (.pending, b) => (.pending, b)
      | (.ready (.ok bs), b) =>
        if bs.length = 0 then
          (.ready (.error (unexpectedEof "stream closed inside a chunk")), b)
        else
          let left := left - bs.length
          (.ready (.ok bs),
            { b with framing := .chunked (if left = 0 then .dataEnd else .data left) })
    | .chunked .size =>
      match _hl : b.pollLine with
      | (.ready (.error e), b') => (.ready (.error e), b')
      | (.pending, b') => (.pending, b')
      | (.ready (.ok none), b') => pollRead n { b' with framing := .chunked .done }
      | (.ready (.ok (some line)), b') =>
        match parseSize line with
        | .error e => (.ready (.error e), b')
        | .ok 0 => pollRead n { b' with framing := .chunked .trailers }
        | .ok size => pollRead n { b' with framing := .chunked (.data size) }
    | .chunked .dataEnd =>
      match _hl : b.pollLine with
      | (.ready (.error e), b') => (.ready (.error e), b')
      | (.pending, b') => (.pending, b')
      | (.ready (.ok none), b') =>
        (.ready (.error (unexpectedEof "stream closed before a chunk's CRLF")), b')
      | (.ready (.ok (some line)), b') =>
        if line = [] then pollRead n { b' with framing := .chunked .size }
        else (.ready (.error (invalid "chunk payload longer than its size")), b')
    | .chunked .trailers =>
      match _hl : b.pollLine with
      | (.ready (.error e), b') => (.ready (.error e), b')
      | (.pending, b') => (.pending, b')
      | (.ready (.ok none), b') => pollRead n { b' with framing := .chunked .done }
      | (.ready (.ok (some line)), b') =>
        if line = [] then pollRead n { b' with framing := .chunked .done } else pollRead n b'
termination_by b.work
decreasing_by
  · exact work_of_done _hl (by simp [_hf])
  · exact work_of_line _hl (by simp [_hf]) _
  · exact work_of_line _hl (by simp [_hf]) _
  · exact work_of_line _hl (by simp [_hf]) _
  · exact work_of_done _hl (by simp [_hf])
  · exact work_of_done _hl (by simp [_hf])
  · exact work_of_line _hl (by simp [_hf]) b'.framing

/-- What a poll leaves less than `w` of the work: one that returned bytes, and one that found
none there yet. -/
def Progress (w : ℕ) : Poll (Except IoError (List UInt8)) × AsyncBody → Prop
  | (.ready (.ok bs), b') => bs ≠ [] → b'.work < w
  | (.ready (.error _), _) => True
  | (.pending, b') => b'.work < w

/-- Progress from less work is progress from more. -/
theorem Progress.mono {w w' : ℕ} (hw : w ≤ w') :
    ∀ {res : Poll (Except IoError (List UInt8)) × AsyncBody}, Progress w res → Progress w' res
  | (.ready (.ok _), _), h => fun hne => (h hne).trans_le hw
  | (.ready (.error _), _), _ => trivial
  | (.pending, _), h => Nat.lt_of_lt_of_le h hw

/-- A moment without data inside a line is progress. -/
theorem progress_of_line_pending {b b' : AsyncBody} (h : b.pollLine = (.pending, b')) :
    Progress b.work (.pending, b') := by
  have hw := pollLine_work b
  rw [h] at hw
  simp only [Progress, work, hw.2]
  omega

/-- A moment without data inside a payload is progress. -/
theorem progress_of_payload_pending {n left : ℕ} {b b' : AsyncBody}
    (h : b.pollPayload n left = (.pending, b')) : Progress b.work (.pending, b') := by
  have hp := pollPayload_spec n left b
  rw [h] at hp
  obtain ⟨-, hw, -, -, hf⟩ := hp
  simp only [Progress, work, hf]
  omega

/-- Payload bytes are progress, whatever the next framing. -/
theorem progress_of_payload {n left : ℕ} {b b' : AsyncBody} {bs : List UInt8}
    (h : b.pollPayload n left = (.ready (.ok bs), b')) (hd : b.framing ≠ .chunked .done)
    (f : Framing) : Progress b.work (.ready (.ok bs), { b' with framing := f }) := by
  intro hne
  have hp := pollPayload_spec n left b
  rw [h] at hp
  have hw := hp.2.2.1
  have := List.length_pos_iff.mpr hne
  simp only [work, if_neg hd]
  split_ifs <;> omega

/-- A poll that returns bytes is progress, and so is one that finds none there yet. -/
theorem pollRead_progress (n : ℕ) (b : AsyncBody) : Progress b.work (b.pollRead n) := by
  fun_induction pollRead n b with
  | case2 b hn hf res inner hr =>
    have hs := BufReader.pollRead_spec (Nat.pos_of_ne_zero hn) b.inner
    rw [hr] at hs
    rcases res with (e | bs) | _
    · trivial
    · intro hne
      have hw := hs.2.1
      have := List.length_pos_iff.mpr hne
      simp only [work]
      omega
    · have hw := hs.2.1
      simp only [Progress, work]
      omega
  | case6 b hn left hz hf b' hp => exact progress_of_payload_pending hp
  | case8 b hn left hz hf bs b' hp hne => exact progress_of_payload hp (by simp [hf]) _
  | case10 b hn left hf b' hp => exact progress_of_payload_pending hp
  | case12 b hn left hf bs b' hp hne _ => exact progress_of_payload hp (by simp [hf]) _
  | case14 b hn hf b' hl => exact progress_of_line_pending hl
  | case15 b hn hf b' hl ih => exact ih.mono (work_of_done hl (by simp [hf])).le
  | case17 b hn hf line b' hl hz ih => exact ih.mono (work_of_line hl (by simp [hf]) _).le
  | case18 b hn hf line b' hl size hz hp ih => exact ih.mono (work_of_line hl (by simp [hf]) _).le
  | case20 b hn hf b' hl => exact progress_of_line_pending hl
  | case22 b hn hf b' hl ih => exact ih.mono (work_of_line hl (by simp [hf]) _).le
  | case25 b hn hf b' hl => exact progress_of_line_pending hl
  | case26 b hn hf b' hl ih => exact ih.mono (work_of_done hl (by simp [hf])).le
  | case27 b hn hf b' hl ih => exact ih.mono (work_of_line hl (by simp [hf]) _).le
  | case28 b hn hf line b' hl hne ih =>
    exact ih.mono (work_of_line hl (by simp [hf]) b'.framing).le
  | _ => simp_all [Progress]

/-- Poll with caller buffers of `bufs i`, `bufs (i + 1)`, … bytes, again whenever nothing is
there yet, until a poll returns nothing or fails: the bytes delivered, the kind of error if
there was one, and the body then. -/
def drain (bufs : ℕ → ℕ) (i : ℕ) (b : AsyncBody) : Delivered × AsyncBody :=
  match _h : b.pollRead (bufs i) with
  | (.pending, b') => drain bufs (i + 1) b'
  | (.ready (.error e), b') => (⟨[], some e.kind⟩, b')
  | (.ready (.ok []), b') => (⟨[], none⟩, b')
  | (.ready (.ok (x :: xs)), b') =>
    ((drain bufs (i + 1) b').1.after (x :: xs), (drain bufs (i + 1) b').2)
termination_by b.work
decreasing_by
  all_goals
    have hp := pollRead_progress (bufs i) b
    rw [_h] at hp
    first
    | exact hp
    | exact hp (by simp)

end AsyncBody

end Lager
