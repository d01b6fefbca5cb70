import Lager.Chunked.Resumption
import Lager.Chunked.Truncation
import Lager.Library.Retry

set_option relaxedAutoImplicit false
set_option autoImplicit false

/-!
# What an interruption loses

A source hands over some bytes, fails for the moment and goes on. This file follows the blocking
decoder up to that failure: where the bytes do not let it resume, it starts over where a line is
due, as if the part of the line that it had were never sent, and as if there were no trailers to
skip.

## Main definitions

* `Lager.BufReader.Breaks` — a reader hands over some bytes, fails and goes on as another source.
* `Lager.State.afterLoss` — the state in which the decoder starts over.

## Main results

* `Lager.ChunkedReader.read_breaks` — a read towards the failure.
* `Lager.ChunkedReader.concluded_of_towards` — reading towards it ends as the rest behind it does.
* `Lager.exists_ending_ne` — what is lost shows, if the right bytes follow.
-/

namespace Lager

open Library

/-! ## Readers that fail once -/

namespace BufReader

/-- The reader hands over the bytes `front`, fails with `e` and goes on as `after`. -/
def Breaks (front : List UInt8) (e : IoError) (after : Source) (r : BufReader) : Prop :=
  ∃ mid, front = r.buf ++ mid ∧ r.inner = .pushBack mid (.fail e after)

/-- A reader that has failed: nothing in its buffer, and the rest of the source ahead. -/
def Broken (after : Source) (r : BufReader) : Prop := r.buf = [] ∧ r.inner = after

/-- Consuming buffered bytes takes them off the front. -/
theorem consume_breaks {front : List UInt8} {e : IoError} {after : Source} {r : BufReader}
    (h : r.Breaks front e after) {n : ℕ} (hn : n ≤ r.buf.length) :
    (r.consume n).Breaks (front.drop n) e after := by
  obtain ⟨mid, rfl, hmid⟩ := h
  exact ⟨mid, by rw [List.drop_append_of_le_length hn, consume_buf], hmid⟩

/-- A read of the source reaches the failure only with no bytes in front of it. -/
theorem source_read_breaks (mid : List UInt8) (n : ℕ) (e : IoError) (after : Source) :
    Source.read n (.pushBack mid (.fail e after)) =
      if mid = [] then (.error e, after)
      else (.ok (mid.take n), .pushBack (mid.drop n) (.fail e after)) := by
  cases mid with
  | nil => rfl
  | cons b bs => rfl

/-- A fetch comes up with bytes, or fails where there are none. -/
theorem fillBuf_breaks {front : List UInt8} {e : IoError} {after : Source} {r : BufReader}
    (h : r.Breaks front e after) :
    match r.fillBuf with
    | (.ok avail, r') => avail ≠ [] ∧ r'.buf = avail ∧ r'.Breaks front e after
    | (.error e', r') => e' = e ∧ front = [] ∧ r'.Broken after := by
  obtain ⟨mid, rfl, hmid⟩ := h
  by_cases hb : r.buf = []
  · rw [fillBuf_of_empty hb, hmid, source_read_breaks, hb]
    by_cases h0 : mid = []
    · rw [if_pos h0]
      exact ⟨rfl, h0, rfl, rfl⟩
    · rw [if_neg h0]
      have hcap := r.cap_pos
      refine ⟨fun ht => ?_, rfl, mid.drop r.cap, (List.take_append_drop _ _).symm, rfl⟩
      exact (List.take_eq_nil_iff.mp ht).elim (by omega) h0
  · rw [fillBuf_of_ne hb]
    exact ⟨hb, rfl, mid, rfl, hmid⟩

/-- A read comes up with bytes, or fails where there are none. -/
theorem read_breaks {front : List UInt8} {e : IoError} {after : Source} {r : BufReader}
    (h : r.Breaks front e after) {n : ℕ} (hn : 0 < n) :
    match r.read n with
    | (.ok bs, r') => bs ≠ [] ∧ ∃ rest, front = bs ++ rest ∧ r'.Breaks rest e after
    | (.error e', _) => e' = e ∧ front = [] := by
  by_cases hdirect : r.buf = [] ∧ r.cap ≤ n
  · obtain ⟨mid, rfl, hmid⟩ := h
    rw [read_direct hdirect, hmid, source_read_breaks, hdirect.1]
    by_cases h0 : mid = []
    · rw [if_pos h0]
      exact ⟨rfl, h0⟩
    · rw [if_neg h0]
      exact ⟨fun ht => (List.take_eq_nil_iff.mp ht).elim (by omega) h0, mid.drop n,
        (List.take_append_drop _ _).symm, mid.drop n, rfl, rfl⟩
  · have hf := fillBuf_breaks h
    rw [read_buffered hdirect]
    rcases hr : r.fillBuf with ⟨e' | avail, r'⟩ <;> rw [hr] at hf
    · exact ⟨hf.1, hf.2.1⟩
    · obtain ⟨hne, hb, hbreaks⟩ := hf
      have hle : (avail.take n).length ≤ r'.buf.length := by
        rw [hb]
        exact List.length_take_le' n avail
      refine ⟨fun ht => (List.take_eq_nil_iff.mp ht).elim (by omega) hne, _, ?_,
        consume_breaks hbreaks hle⟩
      obtain ⟨mid, rfl, -⟩ := hbreaks
      rw [List.drop_append_of_le_length hle, ← List.append_assoc, hb, List.length_take,
        ← List.drop_eq_drop_min, List.take_append_drop]

/-- A limited fetch comes up with bytes within the limit, or fails where there are none. -/
theorem takeFillBuf_breaks {front : List UInt8} {e : IoError} {after : Source} {r : BufReader}
    (h : r.Breaks front e after) (limit : ℕ) :
    match r.takeFillBuf limit with
    | (.ok avail, r') => (avail = [] → limit = 0) ∧ avail.length ≤ limit ∧
        (∃ rest, front = avail ++ rest) ∧ r'.Breaks front e after
    | (.error e', r') => e' = e ∧ front = [] ∧ 0 < limit ∧ r'.Broken after := by
  by_cases hl : limit = 0
  · have htake : r.takeFillBuf limit = (.ok [], r) := if_pos hl
    rw [htake]
    exact ⟨fun _ => hl, by simp, ⟨front, rfl⟩, h⟩
  · have hf := fillBuf_breaks h
    rw [takeFillBuf_of_ne hl]
    rcases hr : r.fillBuf with ⟨e' | avail, r'⟩ <;> rw [hr] at hf
    · exact ⟨hf.1, hf.2.1, Nat.pos_of_ne_zero hl, hf.2.2⟩
    · obtain ⟨hne, hb, hbreaks⟩ := hf
      refine ⟨fun ht => (List.take_eq_nil_iff.mp ht).resolve_right hne,
        List.length_take_le _ _, ?_, hbreaks⟩
      obtain ⟨mid, rfl, -⟩ := hbreaks
      rw [hb]
      exact ⟨avail.drop limit ++ mid, by rw [← List.append_assoc, List.take_append_drop]⟩

/-- A line read comes up with its line or all that the limit allows, or fails behind all bytes. -/
theorem readUntil_breaks {front : List UInt8} {e : IoError} {after : Source} {r : BufReader}
    (h : r.Breaks front e after) (he : e.transient = true) (limit : ℕ) (delim : UInt8)
    (line : List UInt8) :
    match r.readUntil limit delim line with
    | (.ok l, r') => ∃ more rest, l = line ++ more ∧ front = more ++ rest ∧
        r'.Breaks rest e after ∧ ((∃ before, more = before ++ [delim] ∧ delim ∉ before) ∨
          delim ∉ more ∧ more.length = limit)
    | (.error e', r') => e' = e ∧ delim ∉ front ∧ front.length < limit ∧ r'.Broken after := by
  fun_induction readUntil limit delim line r generalizing front with
  | case1 limit line r e' r' hr hi ih =>
    have hf := takeFillBuf_breaks h limit
    rw [hr] at hf
    rw [hf.1] at hi
    simp [IoError.transient, hi] at he
  | case2 limit line r e' r' hr hi =>
    have hf := takeFillBuf_breaks h limit
    rw [hr] at hf
    obtain ⟨rfl, rfl, hpos, hbroken⟩ := hf
    exact ⟨rfl, by simp, hpos, hbroken⟩
  | case3 limit line r avail r' hr before after' hc =>
    have hf := takeFillBuf_breaks h limit
    have hs := takeFillBuf_spec limit r
    rw [hr] at hf hs
    obtain ⟨-, -, ⟨rest, rfl⟩, hbreaks⟩ := hf
    obtain ⟨rfl, hn⟩ := cut_eq_some_iff.mp hc
    have hle : before.length + 1 ≤ r'.buf.length := by
      have hlen : (before ++ delim :: after').length ≤ r'.buf.length := by
        rw [hs.1]
        exact List.length_take_le' _ _
      rw [List.length_append, List.length_cons] at hlen
      omega
    refine ⟨before ++ [delim], after' ++ rest, by simp, by simp, ?_, .inl ⟨before, rfl, hn⟩⟩
    have hconsume := consume_breaks hbreaks hle
    have hdrop : (before ++ delim :: after' ++ rest).drop (before.length + 1) = after' ++ rest := by
      simp
    rwa [hdrop] at hconsume
  | case4 limit line r r' hr hc =>
    have hf := takeFillBuf_breaks h limit
    rw [hr] at hf
    obtain ⟨hl, -, -, hbreaks⟩ := hf
    exact ⟨[], front, by simp, rfl, hbreaks, .inr ⟨by simp, by simp [hl rfl]⟩⟩
  | case5 limit line r avail r' hr hc hne ih =>
    have hf := takeFillBuf_breaks h limit
    have hs := takeFillBuf_spec limit r
    rw [hr] at hf hs
    obtain ⟨-, hlen, ⟨rest, rfl⟩, hbreaks⟩ := hf
    have hle : avail.length ≤ r'.buf.length := by
      rw [hs.1]
      exact List.length_take_le' _ _
    have hconsume := consume_breaks hbreaks hle
    rw [List.drop_left] at hconsume
    have ih := ih hconsume
    have hn := cut_eq_none_iff.mp hc
    rcases hrest : (r'.consume avail.length).readUntil (limit - avail.length) delim (line ++ avail)
      with ⟨e' | l, r''⟩ <;> rw [hrest] at ih
    · obtain ⟨rfl, hno, hlt, hbroken⟩ := ih
      exact ⟨rfl, by simpa using ⟨hn, hno⟩, by rw [List.length_append]; omega, hbroken⟩
    · obtain ⟨more, rest', rfl, rfl, hbreaks', hmore⟩ := ih
      refine ⟨avail ++ more, rest', by simp, by simp, hbreaks', ?_⟩
      obtain ⟨before, rfl, hno⟩ | ⟨hno, hlen'⟩ := hmore
      · exact .inl ⟨avail ++ before, by simp, by simpa using ⟨hn, hno⟩⟩
      · exact .inr ⟨by simpa using ⟨hn, hno⟩, by rw [List.length_append]; omega⟩

end BufReader

/-! ## The blocking decoder up to the failure -/

/-- The state in which the decoder is asked again after a failure in a state: it forgets the
trailers. -/
def State.afterLoss : State → State
  | .trailers => .size
  | st => st

/-- Where a line is due and the bytes do not lead out of it, they let the decoder resume once the
line is over. -/
theorem resumes_of_over {st : State} (hst : st.AtLine) {front : List UInt8} {d : Delivered}
    (h : turn id bounded st front = .stop d) (hover : lineOver front = true) :
    resumes st front = true := by
  rw [resumes_stop h]
  cases hst <;> simp [State.resumes, hover]

/-- A line that is refused lets the decoder resume: it has failed. -/
theorem resumes_refused {st : State} (hst : st.AtLine) {line : List UInt8} (hn : LF ∉ line)
    (hlen : line.length ≤ maxSizeLine + 1) {kind : ErrorKind}
    (ha : afterLine st (stripCr line) = .error kind) (rest : List UInt8) :
    resumes st (line ++ [LF] ++ rest) = true := by
  have hturn : turn id bounded st (line ++ [LF] ++ rest) = .stop ⟨[], some kind⟩ := by
    rw [turn_atLine hst, nextLine_short hn hlen]
    simp only [ha]
  exact resumes_of_over hst hturn (by simp [lineOver])

/-- So does a line that is too long. -/
theorem resumes_long {st : State} (hst : st.AtLine) {more : List UInt8} (hn : LF ∉ more)
    (hlen : more.length = maxSizeLine + 2) (rest : List UInt8) :
    resumes st (more ++ rest) = true := by
  have htake : takeLine (maxSizeLine + 2) LF (more ++ rest) = (more, rest) := by
    have hcut : cut LF ((more ++ rest).take (maxSizeLine + 2)) = none := by
      rw [← hlen, List.take_left, cut_eq_none_iff]
      exact hn
    rw [takeLine, hcut, ← hlen, List.take_left, List.drop_left]
  have hlast : more.getLast? ≠ some LF := fun h => hn (List.mem_of_getLast? h)
  have hnext : nextLine id bounded (more ++ rest) = .error .invalidData := by
    rw [ChunkedReader.nextLine_eq_takeLine, htake]
    simp [hlen, hlast]
  have hturn : turn id bounded st (more ++ rest) = .stop ⟨[], some .invalidData⟩ := by
    rw [turn_atLine hst, hnext]
  exact resumes_of_over hst hturn (by simp [lineOver, hlen])

namespace ChunkedReader

/-- A line read comes up with a line, or has failed where the decoder may resume, or meets the
failure of the source and has dropped all bytes before it. -/
theorem readLine_breaks {front : List UInt8} {e : IoError} {after : Source} {r : ChunkedReader}
    (h : r.inner.Breaks front e after) (he : e.transient = true) :
    match r.readLine with
    | (.ok none, _) => False
    | (.ok (some line), r') => ∃ l rest, front = l ++ [LF] ++ rest ∧ line = stripCr l ∧ LF ∉ l ∧
        l.length ≤ maxSizeLine + 1 ∧ r'.inner.Breaks rest e after
    | (.error e', r') => (∀ st : State, st.AtLine → resumes st front = true) ∨
        e' = e ∧ LF ∉ front ∧ r'.inner.Broken after := by
  have hf := BufReader.readUntil_breaks h he (maxSizeLine + 2) LF []
  unfold readLine
  rcases hr : r.inner.readUntil (maxSizeLine + 2) LF [] with ⟨e' | l, inner⟩ <;> rw [hr] at hf
  · exact .inr ⟨hf.1, hf.2.1, hf.2.2.2⟩
  · obtain ⟨more, rest, hl, rfl, hbreaks, hmore⟩ := hf
    obtain rfl : more = l := hl.symm
    dsimp only
    obtain ⟨before, rfl, hn⟩ | ⟨hn, hlen⟩ := hmore
    · have h0 : (before ++ [LF]).length ≠ 0 := by simp
      have hlast : ¬ (before ++ [LF]).getLast? ≠ some LF := by simp
      have hline := BufReader.readUntil_line hr
      rw [if_neg h0, if_neg hlast, chomp_append_lf]
      refine ⟨before, rest, rfl, rfl, hn, ?_, hbreaks⟩
      obtain ⟨more, hmore, hle, -⟩ := hline
      obtain rfl : before ++ [LF] = more := hmore
      rw [List.length_append, List.length_singleton] at hle
      omega
    · have h0 : more.length ≠ 0 := by omega
      have hlast : more.getLast? ≠ some LF := fun h => hn (List.mem_of_getLast? h)
      rw [if_neg h0, if_pos hlast]
      exact .inl fun st hst => resumes_long hst hn hlen rest

/-- A line that comes leads where the bytes do. -/
theorem readLine_leads_breaks {st st' : State} (hst : st.AtLine) {front line : List UInt8}
    {e : IoError} {after : Source} {r r' : ChunkedReader} (h : r.inner.Breaks front e after)
    (he : e.transient = true) (hl : r.readLine = (.ok (some line), r'))
    (ha : afterLine st line = .ok st') :
    ∃ rest, r'.inner.Breaks rest e after ∧ reached st front = reached st' rest := by
  have hf := readLine_breaks h he
  rw [hl] at hf
  obtain ⟨l, rest, rfl, rfl, hn, hlen, hbreaks⟩ := hf
  exact ⟨rest, hbreaks, reached_line hst hn hlen ha rest⟩

/-- A line that will not do lets the decoder resume. -/
theorem readLine_refused_breaks {st : State} (hst : st.AtLine) {front line : List UInt8}
    {e : IoError} {after : Source} {r r' : ChunkedReader} (h : r.inner.Breaks front e after)
    (he : e.transient = true) (hl : r.readLine = (.ok (some line), r')) {kind : ErrorKind}
    (ha : afterLine st line = .error kind) : resumes st front = true := by
  have hf := readLine_breaks h he
  rw [hl] at hf
  obtain ⟨l, rest, rfl, rfl, hn, hlen, -⟩ := hf
  exact resumes_refused hst hn hlen ha rest

/-- Skipping trailers ends, or has failed where the decoder may resume, or meets the failure of the
source inside them. -/
theorem skipTrailers_breaks {front : List UInt8} {e : IoError} {after : Source}
    {r : ChunkedReader} (h : r.inner.Breaks front e after) (he : e.transient = true) :
    match r.skipTrailers with
    | (.ok (), _) => resumes .trailers front = true
    | (.error e', r') => resumes .trailers front = true ∨
        e' = e ∧ (reached .trailers front).1 = .trailers ∧ r'.state = r.state ∧
          r'.inner.Broken after := by
  fun_induction skipTrailers r generalizing front with
  | case1 r e' r' hl =>
    have hf := readLine_breaks h he
    have hw := readLine_work r
    rw [hl] at hf hw
    obtain hf | ⟨rfl, hn, hbroken⟩ := hf
    · exact .inl (hf _ .trailers)
    · exact .inr ⟨rfl, by rw [reached_inside .trailers hn], hw.2, hbroken⟩
  | case2 r r' hl =>
    have hf := readLine_breaks h he
    rw [hl] at hf
    exact hf.elim
  | case3 r r' hl =>
    obtain ⟨rest, -, hreached⟩ := readLine_leads_breaks .trailers h he hl rfl
    show resumes .trailers front = true
    rw [resumes, hreached]
    exact resumes_done rest
  | case4 r line r' hl hne ih =>
    have ha : afterLine .trailers line = .ok .trailers := congrArg Except.ok (if_neg hne)
    obtain ⟨rest, hbreaks, hreached⟩ := readLine_leads_breaks .trailers h he hl ha
    have hw := readLine_work r
    rw [hl] at hw
    have ih := ih hbreaks
    rw [resumes, hreached, ← resumes, ← hw.2]
    exact ih

/-- The decoder goes towards the failure of its source: the bytes before it lead to the state `st`,
with the bytes `more` ahead. -/
structure Towards (st : State) (more : List UInt8) (e : IoError) (after : Source)
    (r : ChunkedReader) : Prop where
  wf : r.state.Wf
  notTrailers : r.state ≠ .trailers
  breaks : ∃ front, r.inner.Breaks front e after ∧ reached r.state front = (st, more)

/-- What a read towards the failure comes to: bytes, and the failure is still ahead, or the failure,
and the decoder starts over. -/
def Approaches (st : State) (more : List UInt8) (e : IoError) (after : Source) :
    Except IoError (List UInt8) × ChunkedReader → Prop
  | (.ok bs, r') => bs ≠ [] ∧ r'.Towards st more e after
  | (.error e', r') => e' = e ∧ r'.inner.Broken after ∧ r'.state = st.afterLoss

/-- A failure where a line is due. -/
theorem approaches_line_error {st : State} {more : List UInt8} {e e' : IoError} {after : Source}
    {r r' : ChunkedReader} (h : r.Towards st more e after) (he : e.transient = true)
    (hno : st.resumes more = false) (hst : r.state = .size ∨ r.state = .dataEnd)
    (hl : r.readLine = (.error e', r')) : Approaches st more e after (.error e', r') := by
  have hat : r.state.AtLine := by
    obtain hst | hst := hst <;> rw [hst]
    · exact .size
    · exact .dataEnd
  obtain ⟨front, hbreaks, hreached⟩ := h.breaks
  have hf := readLine_breaks hbreaks he
  have hw := readLine_work r
  rw [hl] at hf hw
  obtain hf | ⟨rfl, hn, hbroken⟩ := hf
  · have hresumes := hf _ hat
    rw [resumes, hreached, hno] at hresumes
    cases hresumes
  · rw [reached_inside hat hn] at hreached
    obtain ⟨rfl, rfl⟩ := Prod.mk.inj hreached
    refine ⟨rfl, hbroken, hw.2.trans ?_⟩
    obtain hst | hst := hst <;> rw [hst] <;> rfl

/-- Where bytes lead to a place without resumption, the decoder cannot resume behind them. -/
theorem resumes_eq_false {st st' : State} {front more : List UInt8}
    (hno : st.resumes more = false) (hreached : reached st' front = (st, more)) :
    ¬ resumes st' front = true := by
  rw [resumes, hreached, hno]
  exact Bool.false_ne_true

section

variable {st : State} {more : List UInt8} {e : IoError} {after : Source} {n : ℕ}
  {r : ChunkedReader}

/-- A read from the trailers on, with the failure ahead, meets it there. -/
theorem approaches_finish {front : List UInt8} (he : e.transient = true)
    (hno : st.resumes more = false) (hbreaks : r.inner.Breaks front e after)
    (hreached : reached .trailers front = (st, more)) (hs : r.state = .size) :
    Approaches st more e after r.finish := by
  have hskip := skipTrailers_breaks hbreaks he
  unfold finish
  rcases ht : r.skipTrailers with ⟨e' | _, r'⟩ <;> rw [ht] at hskip
  · obtain hskip | ⟨rfl, hst, hstate, hbroken⟩ := hskip
    · exact absurd hskip (resumes_eq_false hno hreached)
    · obtain rfl : st = .trailers := by rw [← hst, hreached]
      exact ⟨rfl, hbroken, hstate.trans hs⟩
  · exact absurd hskip (resumes_eq_false hno hreached)

/-- A read where a size line is due, if one inside the chunk goes on towards the failure. -/
theorem approaches_size (hn : 0 < n) (h : r.Towards st more e after) (he : e.transient = true)
    (hno : st.resumes more = false) (hs : r.state = .size)
    (ih : ∀ r₁ : ChunkedReader, r₁.work < r.work → r₁.Towards st more e after →
      Approaches st more e after (r₁.read n)) : Approaches st more e after (r.read n) := by
  obtain ⟨front, hbreaks, hreached⟩ := h.breaks
  have hf := readLine_breaks hbreaks he
  have hw := readLine_work r
  rw [read_eq hn, hs]
  rw [hs] at hreached
  rcases hl : r.readLine with ⟨e' | _ | line, r'⟩ <;> rw [hl] at hf hw <;> dsimp only
  · exact approaches_line_error h he hno (.inl hs) hl
  · exact hf.elim
  · rcases hp : parseSize line with e' | size
    · have ha : afterLine .size line = .error e'.kind := by simp [afterLine, hp]
      exact absurd (readLine_refused_breaks .size hbreaks he hl ha)
        (resumes_eq_false hno hreached)
    · cases size with
      | zero =>
        have ha : afterLine .size line = .ok .trailers := by simp [afterLine, hp]
        obtain ⟨rest, hbreaks', hleads⟩ := readLine_leads_breaks .size hbreaks he hl ha
        rw [hleads] at hreached
        exact approaches_finish he hno hbreaks' hreached (hw.2.trans hs)
      | succ size =>
        have ha : afterLine .size line = .ok (.data (size + 1)) := by simp [afterLine, hp]
        obtain ⟨rest, hbreaks', hleads⟩ := readLine_leads_breaks .size hbreaks he hl ha
        rw [hleads] at hreached
        exact ih _ (work_of_readLine hl (by simp [hs]) _ le_rfl _)
          ⟨afterLine_wf .size ha, by simp, rest, hbreaks', hreached⟩

/-- A read inside a chunk. -/
theorem approaches_data {left : ℕ} (hn : 0 < n) (h : r.Towards st more e after)
    (hno : st.resumes more = false) (hs : r.state = .data left) :
    Approaches st more e after (r.read n) := by
  obtain ⟨front, hbreaks, hreached⟩ := h.breaks
  have hl : left ≠ 0 := by simpa [State.Wf, hs] using h.wf
  have hf := BufReader.read_breaks hbreaks (n := min n left) (by omega)
  rw [read_eq hn, hs]
  rw [hs] at hreached
  rcases hr : r.inner.read (min n left) with ⟨e' | bs, inner⟩ <;> rw [hr] at hf <;> simp only [hr]
  · obtain ⟨-, rfl⟩ := hf
    have hturn : turn id bounded (.data left) [] = .stop ⟨[], some .unexpectedEof⟩ :=
      if_pos (Nat.pos_of_ne_zero hl)
    exact absurd (resumes_stop hturn) (resumes_eq_false hno hreached)
  · obtain ⟨hne, rest, rfl, hbreaks'⟩ := hf
    have hle := BufReader.read_length hr
    rw [if_neg (by simpa using hne)]
    refine ⟨hne, State.wf_left _, ?_, rest, hbreaks', ?_⟩
    · dsimp only
      split_ifs <;> simp
    · obtain hboth | hsame := @reached_data left bs (by omega) rest
      · exact absurd hboth.1 (resumes_eq_false hno hreached)
      · exact hsame.symm.trans hreached

/-- A read where the line is due that closes a payload, if one behind it goes on towards the
failure. -/
theorem approaches_dataEnd (hn : 0 < n) (h : r.Towards st more e after) (he : e.transient = true)
    (hno : st.resumes more = false) (hs : r.state = .dataEnd)
    (ih : ∀ r₁ : ChunkedReader, r₁.work < r.work → r₁.Towards st more e after →
      Approaches st more e after (r₁.read n)) : Approaches st more e after (r.read n) := by
  obtain ⟨front, hbreaks, hreached⟩ := h.breaks
  have hf := readLine_breaks hbreaks he
  rw [read_eq hn, hs]
  rw [hs] at hreached
  rcases hl : r.readLine with ⟨e' | _ | line, r'⟩ <;> rw [hl] at hf <;> dsimp only
  · exact approaches_line_error h he hno (.inr hs) hl
  · exact hf.elim
  · split_ifs with hempty
    · have ha : afterLine .dataEnd line = .ok .size := if_pos hempty
      obtain ⟨rest, hbreaks', hleads⟩ := readLine_leads_breaks .dataEnd hbreaks he hl ha
      rw [hleads] at hreached
      exact ih _ (work_of_readLine hl (by simp [hs]) _ le_rfl _)
        ⟨afterLine_wf .dataEnd ha, by simp, rest, hbreaks', hreached⟩
    · have ha : afterLine .dataEnd line = .error .invalidData := if_neg hempty
      exact absurd (readLine_refused_breaks .dataEnd hbreaks he hl ha)
        (resumes_eq_false hno hreached)

/-- **A read towards the failure.** It comes up with bytes, and the failure is still ahead, or meets
it; then the decoder starts over behind it, with nothing in hand.

**Proof sketch.** Induction on the work left, by the state. A line that comes leads where the bytes
do; a line that is refused, and an end of the stream, are no places where the decoder cannot
resume. -/
theorem read_breaks (hn : 0 < n) (h : r.Towards st more e after) (he : e.transient = true)
    (hno : st.resumes more = false) : Approaches st more e after (r.read n) := by
  induction hwork : r.work using Nat.strong_induction_on generalizing r with
  | _ work ih =>
    subst hwork
    have ih : ∀ r₁ : ChunkedReader, r₁.work < r.work → r₁.Towards st more e after →
        Approaches st more e after (r₁.read n) := fun r₁ hless h₁ => ih r₁.work hless h₁ rfl
    cases hs : r.state with
    | size => exact approaches_size hn h he hno hs ih
    | data left => exact approaches_data hn h hno hs
    | dataEnd => exact approaches_dataEnd hn h he hno hs ih
    | trailers => exact absurd hs h.notTrailers
    | done =>
      obtain ⟨front, -, hreached⟩ := h.breaks
      rw [hs] at hreached
      exact absurd (resumes_done front) (resumes_eq_false hno hreached)

end

end ChunkedReader

/-! ## Reading on past the failure -/

/-- How reading ends, transient errors apart: with the first other error, if there is one. -/
def concluded : List (ℕ × Except IoError (List UInt8)) → Option ErrorKind
  | [] => none
  | (_, .ok _) :: log => concluded log
  | (_, .error e) :: log => if e.transient then concluded log else some e.kind

/-- Transient errors make no difference to how reading ends. -/
theorem concluded_filter (log : List (ℕ × Except IoError (List UInt8))) :
    concluded (log.filter fun entry => !readTransient entry.2) = concluded log := by
  fun_induction concluded log with
  | case1 => rfl
  | case2 n bs log ih =>
    rw [List.filter_cons_of_pos (by simp [readTransient])]
    exact ih
  | case3 n e log he ih =>
    rw [List.filter_cons_of_neg (by simp [readTransient, he])]
    exact ih
  | case4 n e log he =>
    have he : e.transient = false := by simpa using he
    rw [List.filter_cons_of_pos (by simp [readTransient, he]), concluded, he, if_neg (by simp)]

namespace ChunkedReader

/-- Over a source that does not fail, reading ends as the stream does. -/
theorem concluded_of_clean {r : ChunkedReader} (hk : r.inner.Clean) (hw : r.state.Wf)
    {log : List (ℕ × Except IoError (List UInt8))}
    (hlog : Session ChunkedReader.read readFinal r log) : concluded log = r.rest.ending := by
  induction hlog with
  | @last r r' n a hn hread hfinal =>
    have hrefines := read_refines hn hk hw
    rw [hread] at hrefines
    rcases a with e | _ | ⟨b, bs⟩
    · have he : e.transient = false := by simpa [readFinal] using hfinal
      rw [concluded, he, if_neg (by simp), hrefines]
    · rw [hrefines.1]
      rfl
    · simp [readFinal] at hfinal
  | @more r r' n a log hn hread hmore _ ih =>
    have hrefines := read_refines hn hk hw
    rw [hread] at hrefines
    rcases a with e | _ | ⟨b, bs⟩
    · -- a source that does not fail is behind no transient error
      have he : e.transient = true := by simpa [readFinal] using hmore
      have hending : r.rest.ending = some e.kind := by rw [hrefines]
      have hkinds := @decode_ending _ id bounded r.state r.content
      rw [← rest, hending] at hkinds
      rcases hkinds with hkind | hkind | hkind <;> simp_all [IoError.transient]
    · simp [readFinal] at hmore
    · rw [hrefines.1, concluded]
      exact ih hrefines.2.1 hrefines.2.2

/-- Reading towards the failure goes on behind it, and ends as the rest does. -/
theorem concluded_of_towards {st : State} {more : List UInt8} {e : IoError} {after : Source}
    {r : ChunkedReader} (h : r.Towards st more e after) (he : e.transient = true)
    (hno : st.resumes more = false) {log : List (ℕ × Except IoError (List UInt8))}
    (hlog : Session ChunkedReader.read readFinal r log) :
    ∃ r' log', Session ChunkedReader.read readFinal r' log' ∧ r'.inner.Broken after ∧
      r'.state = st.afterLoss ∧ concluded log = concluded log' := by
  induction hlog with
  | @last r r' n a hn hread hfinal =>
    have happroaches := read_breaks hn h he hno
    rw [hread] at happroaches
    cases a with
    | ok bs => exact absurd (by simpa [readFinal] using hfinal) happroaches.1
    | error e' =>
      obtain ⟨rfl, -⟩ := happroaches
      simp [readFinal, he] at hfinal
  | @more r r' n a log hn hread hmore hrest ih =>
    have happroaches := read_breaks hn h he hno
    rw [hread] at happroaches
    cases a with
    | ok bs => exact ih happroaches.2
    | error e' =>
      obtain ⟨rfl, hbroken, hstate⟩ := happroaches
      exact ⟨r', log, hrest, hbroken, hstate, by rw [concluded, he, if_pos rfl]⟩

end ChunkedReader

/-! ## What comes next decides -/

/-- More bytes behind a line do not change it. -/
theorem nextLine_append {front rest : List UInt8} {line : List UInt8}
    (h : nextLine id bounded front = .ok (some (line, rest))) (s : List UInt8) :
    nextLine id bounded (front ++ s) = .ok (some (line, rest ++ s)) := by
  obtain hl | ⟨l, e, rest', rfl, hl, he⟩ := line_cases id front
  · rw [nextLine_unclosed hl] at h
    split_ifs at h
    simp at h
  · rw [nextLine_cons hl he] at h
    rw [List.append_assoc, List.cons_append, nextLine_cons hl he]
    split_ifs at h ⊢
    simp only [Except.ok.injEq, Option.some.injEq, Prod.mk.injEq] at h
    rw [h.1, h.2]

/-- Nor do they change a turn that goes on. -/
theorem turn_append {st st' : State} {front rest bytes : List UInt8}
    (h : turn id bounded st front = .go bytes st' rest) (s : List UInt8) :
    turn id bounded st (front ++ s) = .go bytes st' (rest ++ s) := by
  rcases turn_eq_go_iff.mp h with ⟨hst, hbytes, line, hn, ha⟩ | ⟨left, rfl, hle, rfl, rfl, rfl⟩
  · exact turn_eq_go_iff.mpr (.inl ⟨hst, hbytes, line, nextLine_append hn s, ha⟩)
  · refine turn_eq_go_iff.mpr (.inr ⟨left, rfl, ?_, ?_, rfl, ?_⟩)
    · rw [List.length_append]
      omega
    · rw [List.take_append_of_le_length hle]
    · rw [List.drop_append_of_le_length hle]

/-- Decoding ends as it does from where the bytes lead. -/
theorem decode_reached (st : State) (front s : List UInt8) :
    (decode id bounded st (front ++ s)).ending =
      (decode id bounded (reached st front).1 ((reached st front).2 ++ s)).ending := by
  fun_induction reached st front with
  | case1 st front bytes st' rest h ih =>
    rw [decode_go (turn_append h s)]
    exact ih
  | case2 => rfl

/-- A stream of one line, closed and not too long, leads to the end of the stream in the next
state. -/
theorem decode_closed_line {st st' : State} (hst : st.AtLine) {line : List UInt8} (hn : LF ∉ line)
    (hlen : line.length ≤ maxSizeLine + 1) (ha : afterLine st (stripCr line) = .ok st') :
    decode id bounded st (line ++ [LF]) = decode id bounded st' [] := by
  have hnext := nextLine_short hn hlen []
  rw [List.append_nil] at hnext
  exact decode_line hst hnext ha

/-- A stream of one line, closed, that will not do. -/
theorem decode_refused_line {st : State} (hst : st.AtLine) {line : List UInt8} (hn : LF ∉ line)
    (ha : maxSizeLine + 1 < line.length ∨ afterLine st (stripCr line) = .error .invalidData) :
    decode id bounded st (line ++ [LF]) = ⟨[], some .invalidData⟩ := by
  by_cases hlong : maxSizeLine + 1 < line.length
  · have hl : ∀ x ∈ line, id x ≠ LF := fun x hx hlf => hn (hlf ▸ hx)
    refine decode_line_error hst ?_
    rw [nextLine_cons (e := LF) hl rfl, if_pos]
    simpa [bounded] using hlong
  · have hnext := nextLine_short hn (Nat.le_of_not_lt hlong) []
    rw [List.append_nil] at hnext
    exact decode_line_refused hst hnext (ha.resolve_left hlong)

/-- The longest size line of an empty chunk: a digit, and an extension. -/
def longestLine : List UInt8 := [48] ++ semicolon :: List.replicate (maxSizeLine - 1) semicolon

/-- It is just not too long. -/
theorem length_longestLine : longestLine.length = maxSizeLine + 1 := by
  rw [longestLine, List.length_append, List.length_singleton, List.length_cons,
    List.length_replicate]
  rfl

/-- Alone, the longest line announces an empty chunk, and decoding ends well. -/
theorem decode_longestLine : decode id bounded .size (longestLine ++ [LF]) = ⟨[], none⟩ := by
  have hn : LF ∉ longestLine := by
    simp [longestLine, LF, semicolon]
  have hstrip : stripCr longestLine = longestLine := by
    have hlast : longestLine.getLast? = some semicolon := by decide +kernel
    rw [stripCr, if_neg (by rw [hlast]; decide)]
  have hcut : beforeExtension longestLine = [48] := by
    rw [beforeExtension, longestLine, cut_append_cons (by decide)]
  have hparse : parseSize longestLine = .ok 0 := by
    rw [parseSize, hcut]
    decide +kernel
  have ha : afterLine .size (stripCr longestLine) = .ok .trailers := by
    simp [hstrip, afterLine, hparse]
  rw [decode_closed_line .size hn length_longestLine.le ha]
  exact decode_line_closed .trailers (nextLine_unclosed (by simp))

/-- **What is lost shows.** Where the decoder cannot resume, there are bytes that it decodes to one
end with what it has dropped and to another end without. -/
theorem exists_ending_ne {st : State} {more : List UInt8} (hno : st.resumes more = false) :
    ∃ s, (decode id bounded st (more ++ s)).ending ≠ (decode id bounded st.afterLoss s).ending := by
  have hinside : lineOver more = false → LF ∉ more ∧ more.length ≤ maxSizeLine + 1 := by
    intro hover
    simp only [lineOver, Bool.or_eq_false_iff, decide_eq_false_iff_not] at hover
    exact ⟨hover.1, by omega⟩
  cases st with
  | size =>
    -- with the bytes that are lost, the line is too long
    obtain ⟨hne, hover⟩ : more ≠ [] ∧ lineOver more = false := by simpa [State.resumes] using hno
    have hpos := List.length_pos_iff.mpr hne
    have hn : LF ∉ more ++ longestLine := by
      simpa [longestLine, LF, semicolon] using (hinside hover).1
    have hlong : maxSizeLine + 1 < (more ++ longestLine).length := by
      rw [List.length_append, length_longestLine]
      omega
    have hagain : State.afterLoss .size = .size := rfl
    refine ⟨longestLine ++ [LF], ?_⟩
    rw [← List.append_assoc, decode_refused_line .size hn (.inl hlong), hagain,
      decode_longestLine]
    simp
  | dataEnd =>
    -- with them, the line that closes the payload is not empty
    obtain ⟨hne, hover⟩ : more ≠ [] ∧ lineOver more = false := by simpa [State.resumes] using hno
    have hn : LF ∉ more ++ [CR] := by simpa [LF, CR] using (hinside hover).1
    have hstrip : stripCr (more ++ [CR]) = more := by simp [stripCr]
    have hlost : decode id bounded .dataEnd [CR, LF] = ⟨[], none⟩ := by
      rw [← List.singleton_append, decode_closed_line .dataEnd (by decide) (by decide) rfl]
      exact decode_line_closed .size (nextLine_unclosed (by simp))
    have hagain : State.afterLoss .dataEnd = .dataEnd := rfl
    have hrefused : afterLine .dataEnd (stripCr (more ++ [CR])) = .error .invalidData := by
      rw [hstrip]
      exact if_neg hne
    refine ⟨[CR, LF], ?_⟩
    rw [hagain, hlost, ← List.singleton_append, ← List.append_assoc,
      decode_refused_line .dataEnd hn (.inr hrefused)]
    simp
  | trailers =>
    -- without the trailers, a size line is due, and the empty line is none
    have hover : lineOver more = false := hno
    obtain ⟨hn, hlen⟩ := hinside hover
    have hend : ∀ st : State, st = .done ∨ st = .trailers →
        (decode id bounded st []).ending = none := by
      rintro st (rfl | rfl)
      · rw [decode_done]
      · rw [decode_line_closed .trailers (nextLine_unclosed (by simp))]
        rfl
    refine ⟨[LF], ?_⟩
    rw [decode_closed_line .trailers hn hlen rfl, hend _ (by split_ifs <;> simp), State.afterLoss,
      ← List.nil_append [LF], decode_refused_line .size (by simp) (.inr rfl)]
    simp
  | data left => simp [State.resumes] at hno
  | done => simp [State.resumes] at hno

end Lager
