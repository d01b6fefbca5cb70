import Lager.Rust.Io

set_option relaxedAutoImplicit false
set_option autoImplicit false

/-!
# Sources without their transient errors

A source may fail for the moment: it would block, or a read times out. This file compares a source,
and a buffered reader over it, with the same source without those errors. A read or a poll is the
steady one's, or fails for the moment and leaves the steady one where it was; a line read that fails
so has taken bytes off the stream that are gone.

## Main definitions

* `Lager.Source.steady`, `Lager.BufReader.steady` — without the transient errors.
* `Lager.Source.FailsBehind`, `Lager.BufReader.FailsBehind` — where the transient errors are.

## Main results

* `Lager.BufReader.read_steady`, `Lager.BufReader.pollRead_steady` — reads and polls.
* `Lager.BufReader.readUntil_steady` — line reads.
-/

namespace Lager

open Library

/-- A failure of the moment. -/
def IoError.transient (e : IoError) : Bool := e.kind == .wouldBlock || e.kind == .timedOut

/-! ## Sources -/

namespace Source

/-- The source without its transient errors. -/
def steady : Source → Source
  | .done => .done
  | .bytes b bs src => .bytes b bs src.steady
  | .fail e src => if e.transient then src.steady else .fail e src.steady
  | .pending src => .pending src.steady

/-- Every transient error comes behind bytes of a kind, counted from some that came before. -/
def FailsBehind (P : List UInt8 → Prop) (front : List UInt8) : Source → Prop
  | .done => True
  | .bytes b bs src => src.FailsBehind P (front ++ b :: bs)
  | .fail e src => (e.transient = true → P front) ∧ src.FailsBehind P front
  | .pending src => src.FailsBehind P front

/-- Bytes put back stay in front. -/
@[simp] theorem steady_pushBack (l : List UInt8) (src : Source) :
    (pushBack l src).steady = pushBack l src.steady := by
  cases l <;> rfl

/-- Bytes put back count. -/
@[simp] theorem failsBehind_pushBack {P : List UInt8 → Prop} {front : List UInt8} (l : List UInt8)
    (src : Source) : (pushBack l src).FailsBehind P front ↔ src.FailsBehind P (front ++ l) := by
  cases l <;> simp [pushBack, FailsBehind]

/-- What holds behind more bytes of one kind holds behind more of another. -/
theorem FailsBehind.mono {P Q : List UInt8 → Prop} {front front' : List UInt8} {src : Source}
    (h : src.FailsBehind P front) (hPQ : ∀ more, P (front ++ more) → Q (front' ++ more)) :
    src.FailsBehind Q front' := by
  induction src generalizing front front' with
  | done => trivial
  | bytes b bs src ih =>
    refine ih h fun more hmore => ?_
    rw [List.append_assoc] at hmore ⊢
    exact hPQ _ hmore
  | fail e src ih =>
    refine ⟨fun he => ?_, ih h.2 hPQ⟩
    have hfront := hPQ []
    rw [List.append_nil, List.append_nil] at hfront
    exact hfront (h.1 he)
  | pending src ih => exact ih h hPQ

/-- Where every place will do, no failure is out of place. -/
theorem failsBehind_of_forall {P : List UInt8 → Prop} (h : ∀ front, P front)
    (front : List UInt8) (src : Source) : src.FailsBehind P front := by
  induction src generalizing front with
  | done => trivial
  | bytes b bs src ih => exact ih _
  | fail e src ih => exact ⟨fun _ => h front, ih front⟩
  | pending src ih => exact ih front

/-- A read of the source and of the steady one. After a transient error the steady source is read
as it was before. -/
theorem read_steady (n : ℕ) (src : Source) :
    match src.read n with
    | (.ok bs, src') => src.steady.read n = (.ok bs, src'.steady)
    | (.error e, src') => (e.transient = true → ∀ m, src.steady.read m = src'.steady.read m) ∧
        (e.transient = false → src.steady.read n = (.error e, src'.steady)) := by
  induction src with
  | done => rfl
  | bytes b bs src => simp [read, steady]
  | fail e src =>
    refine ⟨fun he m => ?_, fun he => ?_⟩
    · rw [steady, if_pos he]
    · rw [steady, if_neg (by simp [he])]
      rfl
  | pending src ih => simpa only [read, steady] using ih

/-- A read keeps to where the source fails. -/
theorem read_failsBehind {P : List UInt8 → Prop} {front : List UInt8} (n : ℕ) {src : Source}
    (h : src.FailsBehind P front) :
    match src.read n with
    | (.ok bs, src') => src'.FailsBehind P (front ++ bs)
    | (.error e, src') => (e.transient = true → P front) ∧ src'.FailsBehind P front := by
  induction src with
  | done => trivial
  | bytes b bs src =>
    simp only [read, failsBehind_pushBack, List.append_assoc, List.take_append_drop]
    exact h
  | fail e src => exact h
  | pending src ih => exact ih h

/-- A poll of the source and of the steady one. After a transient error the steady source is where
it was. -/
theorem pollRead_steady (n : ℕ) (src : Source) :
    match src.pollRead n with
    | (.ready (.error e), src') => (e.transient = true → src.steady = src'.steady) ∧
        (e.transient = false → src.steady.pollRead n = (.ready (.error e), src'.steady))
    | (res, src') => src.steady.pollRead n = (res, src'.steady) := by
  cases src with
  | done => rfl
  | bytes b bs src => simp [pollRead, steady]
  | fail e src =>
    refine ⟨fun he => ?_, fun he => ?_⟩
    · rw [steady, if_pos he]
    · rw [steady, if_neg (by simp [he])]
      rfl
  | pending src => rfl

end Source

/-! ## Buffered readers -/

namespace BufReader

/-- With an empty buffer, a fetch is a read of the source. -/
theorem fillBuf_of_empty {r : BufReader} (h : r.buf = []) :
    r.fillBuf = match r.inner.read r.cap with
      | (.ok bs, inner) => (.ok bs, { r with buf := bs, inner })
      | (.error e, inner) => (.error e, { r with inner }) := if_pos h

/-- With anything in the buffer, it is that. -/
theorem fillBuf_of_ne {r : BufReader} (h : r.buf ≠ []) : r.fillBuf = (.ok r.buf, r) := if_neg h

/-- A read past the buffer. -/
theorem read_direct {n : ℕ} {r : BufReader} (h : r.buf = [] ∧ r.cap ≤ n) :
    r.read n = match r.inner.read n with
      | (res, inner) => (res, { r with inner }) := if_pos h

/-- A read from the buffer. -/
theorem read_buffered {n : ℕ} {r : BufReader} (h : ¬ (r.buf = [] ∧ r.cap ≤ n)) :
    r.read n = match r.fillBuf with
      | (.ok avail, r) => (.ok (avail.take n), r.consume (avail.take n).length)
      | (.error e, r) => (.error e, r) := if_neg h

/-- A limited fetch within the limit. -/
theorem takeFillBuf_of_ne {limit : ℕ} (h : limit ≠ 0) (r : BufReader) :
    r.takeFillBuf limit = match r.fillBuf with
      | (.ok avail, r) => (.ok (avail.take limit), r)
      | (.error e, r) => (.error e, r) := if_neg h

/-- With an empty buffer, a polled fetch is a poll of the source. -/
theorem pollFillBuf_of_empty {r : BufReader} (h : r.buf = []) :
    r.pollFillBuf = match r.inner.pollRead r.cap with
      | (.ready (.ok bs), inner) => (.ready (.ok bs), { r with buf := bs, inner })
      | (.ready (.error e), inner) => (.ready (.error e), { r with inner })
      | (.pending, inner) => (.pending, { r with inner }) := if_pos h

/-- With anything in the buffer, it is that. -/
theorem pollFillBuf_of_ne {r : BufReader} (h : r.buf ≠ []) :
    r.pollFillBuf = (.ready (.ok r.buf), r) := if_neg h

/-- A polled read past the buffer. -/
theorem pollRead_direct {n : ℕ} {r : BufReader} (h : r.buf = [] ∧ r.cap ≤ n) :
    r.pollRead n = match r.inner.pollRead n with
      | (res, inner) => (res, { r with inner }) := if_pos h

/-- A polled read from the buffer. -/
theorem pollRead_buffered {n : ℕ} {r : BufReader} (h : ¬ (r.buf = [] ∧ r.cap ≤ n)) :
    r.pollRead n = match r.pollFillBuf with
      | (.ready (.ok avail), r) => (.ready (.ok (avail.take n)), r.consume (avail.take n).length)
      | (.ready (.error e), r) => (.ready (.error e), r)
      | (.pending, r) => (.pending, r) := if_neg h

/-- The reader over the steady source. -/
def steady (r : BufReader) : BufReader := { r with inner := r.inner.steady }

/-- The source under the reader fails behind bytes of a kind, counted from some that came before
those in the buffer. -/
def FailsBehind (P : List UInt8 → Prop) (front : List UInt8) (r : BufReader) : Prop :=
  r.inner.FailsBehind P (front ++ r.buf)

/-- With nothing in their buffers, readers do what their sources do. -/
theorem congr_of_empty {r r' : BufReader} (hb : r.buf = []) (hb' : r'.buf = [])
    (hcap : r.cap = r'.cap) (hread : ∀ m, r.inner.read m = r'.inner.read m) :
    r.fillBuf = r'.fillBuf ∧ ∀ m, r.read m = r'.read m := by
  obtain ⟨buf, inner, cap, hpos⟩ := r
  obtain ⟨buf', inner', cap', hpos'⟩ := r'
  obtain rfl : buf = [] := hb
  obtain rfl : buf' = [] := hb'
  obtain rfl : cap = cap' := hcap
  have hfill : fillBuf ⟨[], inner, cap, hpos⟩ = fillBuf ⟨[], inner', cap, hpos'⟩ := by
    simp only [fillBuf, if_true, hread cap]
  refine ⟨hfill, fun m => ?_⟩
  unfold read
  rw [hfill, hread m]

/-- A fetch of the reader and of the steady one. -/
theorem fillBuf_steady (r : BufReader) :
    match r.fillBuf with
    | (.ok avail, r') => r.steady.fillBuf = (.ok avail, r'.steady)
    | (.error e, r') =>
      (e.transient = true →
        r.steady.fillBuf = r'.steady.fillBuf ∧ ∀ m, r.steady.read m = r'.steady.read m) ∧
      (e.transient = false → r.steady.fillBuf = (.error e, r'.steady)) := by
  by_cases hb : r.buf = []
  · have hs := r.inner.read_steady r.cap
    have hsteady : r.steady.fillBuf = match r.inner.steady.read r.cap with
        | (.ok bs, inner) => (.ok bs, { r.steady with buf := bs, inner })
        | (.error e, inner) => (.error e, { r.steady with inner }) := fillBuf_of_empty hb
    rw [fillBuf_of_empty hb]
    rcases hr : r.inner.read r.cap with ⟨e | bs, src'⟩ <;> rw [hr] at hs
    · refine ⟨fun he => ?_, fun he => ?_⟩
      · exact @congr_of_empty r.steady (steady { r with inner := src' }) hb hb rfl (hs.1 he)
      · rw [hsteady, hs.2 he]
        rfl
    · dsimp only at hs ⊢
      rw [hsteady, hs]
      rfl
  · have hsteady : r.steady.fillBuf = (.ok r.buf, r.steady) := fillBuf_of_ne hb
    rw [fillBuf_of_ne hb, hsteady]

/-- A fetch keeps to where the source fails. -/
theorem fillBuf_failsBehind {P : List UInt8 → Prop} {front : List UInt8} {r : BufReader}
    (h : r.FailsBehind P front) :
    match r.fillBuf with
    | (.ok _, r') => r'.FailsBehind P front
    | (.error e, r') => (e.transient = true → P front) ∧ r'.FailsBehind P front := by
  by_cases hb : r.buf = []
  · have hinner : r.inner.FailsBehind P front := by simpa [FailsBehind, hb] using h
    have hs := Source.read_failsBehind r.cap hinner
    rw [fillBuf_of_empty hb]
    rcases hr : r.inner.read r.cap with ⟨e | bs, src'⟩ <;> rw [hr] at hs
    · exact ⟨hs.1, by simpa [FailsBehind, hb] using hs.2⟩
    · exact hs
  · rw [fillBuf_of_ne hb]
    exact h

/-- A read of the reader and of the steady one. -/
theorem read_steady (n : ℕ) (r : BufReader) :
    match r.read n with
    | (.ok bs, r') => r.steady.read n = (.ok bs, r'.steady)
    | (.error e, r') => (e.transient = true → ∀ m, r.steady.read m = r'.steady.read m) ∧
        (e.transient = false → r.steady.read n = (.error e, r'.steady)) := by
  by_cases hdirect : r.buf = [] ∧ r.cap ≤ n
  · have hs := r.inner.read_steady n
    have hsteady : r.steady.read n = match r.inner.steady.read n with
        | (res, inner) => (res, { r.steady with inner }) := read_direct hdirect
    rw [read_direct hdirect]
    rcases hr : r.inner.read n with ⟨e | bs, src'⟩ <;> rw [hr] at hs
    · refine ⟨fun he => ?_, fun he => ?_⟩
      · exact (@congr_of_empty r.steady (steady { r with inner := src' }) hdirect.1 hdirect.1 rfl
          (hs.1 he)).2
      · rw [hsteady, hs.2 he]
        rfl
    · dsimp only at hs ⊢
      rw [hsteady, hs]
      rfl
  · have hs := r.fillBuf_steady
    have hsteady : r.steady.read n = match r.steady.fillBuf with
        | (.ok avail, r) => (.ok (avail.take n), r.consume (avail.take n).length)
        | (.error e, r) => (.error e, r) := read_buffered hdirect
    rw [read_buffered hdirect]
    rcases hr : r.fillBuf with ⟨e | avail, r'⟩ <;> rw [hr] at hs
    · refine ⟨fun he => (hs.1 he).2, fun he => ?_⟩
      rw [hsteady, hs.2 he]
    · dsimp only at hs ⊢
      rw [hsteady, hs]
      rfl

/-- Consumed bytes come to those in front. -/
theorem failsBehind_consume {P : List UInt8 → Prop} {front : List UInt8} {r : BufReader} (n : ℕ) :
    (r.consume n).FailsBehind P (front ++ r.buf.take n) ↔ r.FailsBehind P front := by
  rw [FailsBehind, FailsBehind, consume_buf, consume_inner, List.append_assoc,
    List.take_append_drop]

/-- A limited fetch of the reader and of the steady one. It fails only within the limit. -/
theorem takeFillBuf_steady {P : List UInt8 → Prop} {front : List UInt8} {r : BufReader}
    (h : r.FailsBehind P front) (limit : ℕ) :
    match r.takeFillBuf limit with
    | (.ok avail, r') =>
      r.steady.takeFillBuf limit = (.ok avail, r'.steady) ∧ r'.FailsBehind P front
    | (.error e, r') => r'.FailsBehind P front ∧
        (e.transient = true → 0 < limit ∧ P front ∧
          r.steady.takeFillBuf limit = r'.steady.takeFillBuf limit) ∧
        (e.transient = false → r.steady.takeFillBuf limit = (.error e, r'.steady)) := by
  by_cases hl : limit = 0
  · have htake : ∀ r : BufReader, r.takeFillBuf limit = (.ok [], r) := fun r => if_pos hl
    rw [htake, htake]
    exact ⟨rfl, h⟩
  · have hs := r.fillBuf_steady
    have hf := fillBuf_failsBehind h
    rw [takeFillBuf_of_ne hl, takeFillBuf_of_ne hl]
    rcases hr : r.fillBuf with ⟨e | avail, r'⟩ <;> rw [hr] at hs hf
    · refine ⟨hf.2, fun he => ⟨Nat.pos_of_ne_zero hl, hf.1 he, ?_⟩, fun he => ?_⟩
      · rw [takeFillBuf_of_ne hl, (hs.1 he).1]
      · rw [hs.2 he]
    · dsimp only at hs
      rw [hs]
      exact ⟨rfl, hf⟩

/-- What a limited fetch comes up with is at the front of the buffer. -/
theorem take_of_takeFillBuf {limit k : ℕ} {avail : List UInt8} {r r' : BufReader}
    (h : r.takeFillBuf limit = (.ok avail, r')) (hk : k ≤ avail.length) :
    r'.buf.take k = avail.take k := by
  have hs := takeFillBuf_spec limit r
  rw [h] at hs
  have hle : k ≤ limit := hk.trans (by rw [hs.1]; exact List.length_take_le _ _)
  rw [hs.1, List.take_take, Nat.min_eq_left hle]

/-- A line read, by its first fetch. -/
theorem readUntil_eq (limit : ℕ) (delim : UInt8) (line : List UInt8) (r : BufReader) :
    r.readUntil limit delim line =
      match r.takeFillBuf limit with
      | (.error e, r') =>
        if e.kind = .interrupted then r'.readUntil limit delim line else (.error e, r')
      | (.ok avail, r') =>
        match cut delim avail with
        | some (before, _) => (.ok (line ++ before ++ [delim]), r'.consume (before.length + 1))
        | none =>
          if avail = [] then (.ok line, r')
          else
            (r'.consume avail.length).readUntil (limit - avail.length) delim (line ++ avail) := by
  rw [readUntil]
  split
  all_goals
    rename_i h
    rewrite [h]
    rfl

/-- **A line read and a transient error.** A line read of the reader and of the steady one. At a
transient error some bytes behind the front are gone: the steady reader, from there, reads the rest
of the line with them in hand.

**Proof sketch.** Induction along `readUntil`. Every fetch is one of the steady reader, or failed
for the moment; then the buffer is empty and the steady reader fetches what the next one will. -/
theorem readUntil_steady {P : List UInt8 → Prop} {limit : ℕ} {delim : UInt8} {line : List UInt8}
    {r : BufReader} (h : r.FailsBehind P line) :
    match r.readUntil limit delim line with
    | (.ok l, r') =>
      r.steady.readUntil limit delim line = (.ok l, r'.steady) ∧ r'.FailsBehind P l
    | (.error e, r') =>
      (e.transient = true → ∃ more, P (line ++ more) ∧ delim ∉ more ∧ more.length < limit ∧
        r'.FailsBehind P (line ++ more) ∧
        r.steady.readUntil limit delim line =
          r'.steady.readUntil (limit - more.length) delim (line ++ more)) ∧
      (e.transient = false → r.steady.readUntil limit delim line = (.error e, r'.steady)) := by
  fun_induction readUntil limit delim line r with
  | case1 limit line r e r' hr hi ih =>
    have hs := takeFillBuf_steady h limit
    rw [hr] at hs
    have hsteady := hs.2.2 (by simp [IoError.transient, hi])
    rw [readUntil_eq limit delim line r.steady, hsteady]
    dsimp only
    rw [if_pos hi]
    exact ih hs.1
  | case2 limit line r e r' hr hi =>
    have hs := takeFillBuf_steady h limit
    rw [hr] at hs
    refine ⟨fun he => ?_, fun he => ?_⟩
    · obtain ⟨hlimit, hP, hsame⟩ := hs.2.1 he
      refine ⟨[], by simpa using hP, by simp, hlimit, by simpa using hs.1, ?_⟩
      rw [List.append_nil, List.length_nil, Nat.sub_zero, readUntil_eq limit delim line r.steady,
        readUntil_eq limit delim line r'.steady, hsame]
    · rw [readUntil_eq, hs.2.2 he]
      dsimp only
      rw [if_neg hi]
  | case3 limit line r avail r' hr before after hc =>
    have hs := takeFillBuf_steady h limit
    rw [hr] at hs
    obtain ⟨rfl, -⟩ := cut_eq_some_iff.mp hc
    have htake : r'.buf.take (before.length + 1) = before ++ [delim] := by
      rw [take_of_takeFillBuf hr (by simp), List.take_append, List.take_of_length_le (by omega)]
      simp
    refine ⟨?_, ?_⟩
    · rw [readUntil_eq, hs.1]
      simp only [hc]
      rfl
    · rw [List.append_assoc, ← htake]
      exact (failsBehind_consume _).mpr hs.2
  | case4 limit line r r' hr hc =>
    have hs := takeFillBuf_steady h limit
    rw [hr] at hs
    refine ⟨?_, hs.2⟩
    rw [readUntil_eq, hs.1]
    simp only [hc, if_true]
  | case5 limit line r avail r' hr hc hne ih =>
    have hs := takeFillBuf_steady h limit
    have hspec := takeFillBuf_spec limit r
    rw [hr] at hs hspec
    have hle : avail.length ≤ limit := by
      rw [hspec.1]
      exact List.length_take_le _ _
    have htake : r'.buf.take avail.length = avail := by
      rw [take_of_takeFillBuf hr le_rfl, List.take_length]
    have hf := (@failsBehind_consume P line r' avail.length).mpr hs.2
    rw [htake] at hf
    have ih := ih hf
    have hsteady : r.steady.readUntil limit delim line =
        (r'.consume avail.length).steady.readUntil (limit - avail.length) delim
          (line ++ avail) := by
      rw [readUntil_eq, hs.1]
      simp only [hc, if_neg hne]
      rfl
    rw [hsteady]
    rcases hrest : (r'.consume avail.length).readUntil (limit - avail.length) delim (line ++ avail)
      with ⟨e | l, r''⟩ <;> rw [hrest] at ih
    · refine ⟨fun he => ?_, ih.2⟩
      obtain ⟨more, hP, hn, hlt, hf', hsame⟩ := ih.1 he
      refine ⟨avail ++ more, by rwa [← List.append_assoc], ?_, ?_, by rwa [← List.append_assoc],
        ?_⟩
      · simpa using ⟨cut_eq_none_iff.mp hc, hn⟩
      · rw [List.length_append]
        omega
      · rw [hsame, List.length_append, ← List.append_assoc, Nat.sub_sub]
    · exact ih

/-- A line read that fails has used up a failure of the source. -/
theorem readUntil_error_work {limit : ℕ} {delim : UInt8} {line : List UInt8} {e : IoError}
    {r r' : BufReader} (h : r.readUntil limit delim line = (.error e, r')) : r'.work < r.work := by
  fun_induction readUntil limit delim line r with
  | case1 limit line r e' r₁ hr hi ih =>
    have hs := takeFillBuf_spec limit r
    rw [hr] at hs
    exact (ih h).trans hs.2.1
  | case2 limit line r e' r₁ hr hi =>
    have hs := takeFillBuf_spec limit r
    rw [hr] at hs
    simp only [Prod.mk.injEq] at h
    rw [← h.2]
    exact hs.2.1
  | case3 limit line r avail r₁ hr before after hc => simp at h
  | case4 limit line r r₁ hr hc => simp at h
  | case5 limit line r avail r₁ hr hc hne ih =>
    have hs := takeFillBuf_spec limit r
    rw [hr] at hs
    have hlen : avail.length ≤ r₁.buf.length := by
      rw [hs.1]
      exact List.length_take_le' _ _
    have := work_consume hlen
    have := hs.2.2.1
    have := ih h
    omega

/-- A line read comes back with no more than the limit allows, and with the delimiter, if at all, at
the end only. -/
theorem readUntil_line {limit : ℕ} {delim : UInt8} {line l : List UInt8} {r r' : BufReader}
    (h : r.readUntil limit delim line = (.ok l, r')) :
    ∃ more, l = line ++ more ∧ more.length ≤ limit ∧
      (delim ∉ more ∨ ∃ before, more = before ++ [delim] ∧ delim ∉ before) := by
  fun_induction readUntil limit delim line r with
  | case1 limit line r e r₁ hr hi ih => exact ih h
  | case2 limit line r e r₁ hr hi => simp at h
  | case3 limit line r avail r₁ hr before after hc =>
    simp only [Prod.mk.injEq, Except.ok.injEq] at h
    have hs := takeFillBuf_spec limit r
    rw [hr] at hs
    obtain ⟨rfl, hn⟩ := cut_eq_some_iff.mp hc
    have hle := List.length_take_le limit r₁.buf
    rw [← hs.1, List.length_append, List.length_cons] at hle
    refine ⟨before ++ [delim], by rw [← h.1, List.append_assoc], ?_, .inr ⟨before, rfl, hn⟩⟩
    rw [List.length_append, List.length_singleton]
    omega
  | case4 limit line r r₁ hr hc =>
    simp only [Prod.mk.injEq, Except.ok.injEq] at h
    exact ⟨[], by rw [← h.1, List.append_nil], by simp, .inl (by simp)⟩
  | case5 limit line r avail r₁ hr hc hne ih =>
    obtain ⟨more, rfl, hle, hmore⟩ := ih h
    have hs := takeFillBuf_spec limit r
    rw [hr] at hs
    have hn := cut_eq_none_iff.mp hc
    have hlen := List.length_take_le limit r₁.buf
    rw [← hs.1] at hlen
    refine ⟨avail ++ more, List.append_assoc _ _ _, by rw [List.length_append]; omega, ?_⟩
    obtain hmore | ⟨before, rfl, hbefore⟩ := hmore
    · exact .inl (by simpa using ⟨hn, hmore⟩)
    · exact .inr ⟨avail ++ before, (List.append_assoc _ _ _).symm, by simpa using ⟨hn, hbefore⟩⟩

/-- A read keeps to where the source fails. -/
theorem read_failsBehind {P : List UInt8 → Prop} {front : List UInt8} (n : ℕ) {r : BufReader}
    (h : r.FailsBehind P front) :
    match r.read n with
    | (.ok bs, r') => r'.FailsBehind P (front ++ bs)
    | (.error e, r') => (e.transient = true → P front) ∧ r'.FailsBehind P front := by
  by_cases hdirect : r.buf = [] ∧ r.cap ≤ n
  · have hinner : r.inner.FailsBehind P front := by simpa [FailsBehind, hdirect.1] using h
    have hs := Source.read_failsBehind n hinner
    rw [read_direct hdirect]
    rcases hr : r.inner.read n with ⟨e | bs, src'⟩ <;> rw [hr] at hs
    · exact ⟨hs.1, by simpa [FailsBehind, hdirect.1] using hs.2⟩
    · simpa [FailsBehind, hdirect.1] using hs
  · have hf := fillBuf_failsBehind h
    have hb := r.fillBuf_spec
    rw [read_buffered hdirect]
    rcases hr : r.fillBuf with ⟨e | avail, r'⟩ <;> rw [hr] at hf hb
    · exact hf
    · have htake : r'.buf.take (avail.take n).length = avail.take n := by
        rw [hb.1, List.length_take, ← List.take_eq_take_min]
      have hconsume := (@failsBehind_consume P front r' (avail.take n).length).mpr hf
      rwa [htake] at hconsume

/-- A polled fetch of the reader and of the steady one. After a transient error the steady reader is
where it was. -/
theorem pollFillBuf_steady (r : BufReader) :
    match r.pollFillBuf with
    | (.ready (.error e), r') => (e.transient = true → r.steady = r'.steady) ∧
        (e.transient = false → r.steady.pollFillBuf = (.ready (.error e), r'.steady))
    | (res, r') => r.steady.pollFillBuf = (res, r'.steady) := by
  by_cases hb : r.buf = []
  · have hs := r.inner.pollRead_steady r.cap
    have hb' : r.steady.buf = [] := hb
    rw [pollFillBuf_of_empty hb, pollFillBuf_of_empty hb']
    rcases hr : r.inner.pollRead r.cap with ⟨(e | bs) | _, src'⟩ <;> rw [hr] at hs <;>
      dsimp only [steady] at hs ⊢
    · refine ⟨fun he => ?_, fun he => ?_⟩
      · rw [hs.1 he]
      · rw [hs.2 he]
    · rw [hs]
    · rw [hs]
  · have hb' : r.steady.buf ≠ [] := hb
    rw [pollFillBuf_of_ne hb, pollFillBuf_of_ne hb']
    rfl

/-- A polled read of the reader and of the steady one. -/
theorem pollRead_steady (n : ℕ) (r : BufReader) :
    match r.pollRead n with
    | (.ready (.error e), r') => (e.transient = true → r.steady = r'.steady) ∧
        (e.transient = false → r.steady.pollRead n = (.ready (.error e), r'.steady))
    | (res, r') => r.steady.pollRead n = (res, r'.steady) := by
  by_cases hdirect : r.buf = [] ∧ r.cap ≤ n
  · have hs := r.inner.pollRead_steady n
    have hdirect' : r.steady.buf = [] ∧ r.steady.cap ≤ n := hdirect
    rw [pollRead_direct hdirect, pollRead_direct hdirect']
    rcases hr : r.inner.pollRead n with ⟨(e | bs) | _, src'⟩ <;> rw [hr] at hs <;>
      dsimp only [steady] at hs ⊢
    · refine ⟨fun he => ?_, fun he => ?_⟩
      · rw [hs.1 he]
      · rw [hs.2 he]
    · rw [hs]
    · rw [hs]
  · have hs := r.pollFillBuf_steady
    have hdirect' : ¬ (r.steady.buf = [] ∧ r.steady.cap ≤ n) := hdirect
    rw [pollRead_buffered hdirect, pollRead_buffered hdirect']
    rcases hr : r.pollFillBuf with ⟨(e | avail) | _, r'⟩ <;> rw [hr] at hs <;> dsimp only at hs ⊢
    · refine ⟨hs.1, fun he => ?_⟩
      rw [hs.2 he]
    · rw [hs]
      rfl
    · rw [hs]

end BufReader

end Lager
