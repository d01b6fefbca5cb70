import Lager.Chunked.Refinement
import Lager.Rust.Steady

set_option relaxedAutoImplicit false
set_option autoImplicit false

/-!
# Where the blocking decoder can be interrupted

A line read of the blocking decoder that fails drops the part of the line that it has, and a decoder
that fails while it skips trailers has forgotten that it was. So a transient error does no harm in
some places only: inside a payload, before the first byte of a chunk-size line or of the line that
closes a payload, and after the end.

## Main definitions

* `Lager.reached`, `Lager.resumes` — where the decoder comes with some bytes ahead, and whether it
  can be interrupted behind them.
* `Lager.ChunkedReader.Steady` — the source fails for the moment only behind such bytes.

## Main results

* `Lager.ChunkedReader.read_steady` — over such a source, a read is the one over the steady source,
  or fails for the moment and changes nothing.
-/

namespace Lager

open Library

/-- A line read that has these bytes asks for no more of them: there is a line feed, or no room for
one. -/
def lineOver (front : List UInt8) : Bool := LF ∈ front || maxSizeLine + 2 ≤ front.length

/-- Whether the blocking decoder can be interrupted behind some bytes that do not lead out of a
state. -/
def State.resumes : State → List UInt8 → Bool
  | .size, front => front.isEmpty || lineOver front
  | .dataEnd, front => front.isEmpty || lineOver front
  | .trailers, front => lineOver front
  | .data _, _ => true
  | .done, _ => true

/-- Where the blocking decoder comes with some bytes ahead: the state, and the bytes that do not
lead out of it. -/
def reached (st : State) (front : List UInt8) : State × List UInt8 :=
  match _h : turn id bounded st front with
  | .go _ st' rest => reached st' rest
  | .stop _ => (st, front)
termination_by decodeWork st front
decreasing_by exact turn_work _h

/-- Whether the blocking decoder, in a state and with some bytes ahead, can be interrupted behind
them. It can inside a payload, before the first byte of a chunk-size line or of the line that closes
a payload, and where it has ended or failed; inside such a line and in the trailers it cannot. -/
def resumes (st : State) (front : List UInt8) : Bool :=
  (reached st front).1.resumes (reached st front).2

/-- A turn that goes on leads where the rest does. -/
theorem reached_go {st st' : State} {front rest bytes : List UInt8}
    (h : turn id bounded st front = .go bytes st' rest) : reached st front = reached st' rest := by
  rw [reached]
  split <;> simp_all

/-- Where the turn stops, the decoder has come. -/
theorem reached_stop {st : State} {front : List UInt8} {d : Delivered}
    (h : turn id bounded st front = .stop d) : reached st front = (st, front) := by
  rw [reached]
  split <;> simp_all

/-- Where the turn stops, the state and the bytes decide. -/
theorem resumes_stop {st : State} {front : List UInt8} {d : Delivered}
    (h : turn id bounded st front = .stop d) : resumes st front = st.resumes front := by
  rw [resumes, reached_stop h]

/-- A decoder that is done can be interrupted. -/
@[simp] theorem resumes_done (front : List UInt8) : resumes .done front = true :=
  resumes_stop rfl

/-- A line without a line feed of its own, closed and not too long. -/
theorem nextLine_short {line : List UInt8} (hn : LF ∉ line)
    (hlen : line.length ≤ maxSizeLine + 1) (rest : List UInt8) :
    nextLine id bounded (line ++ [LF] ++ rest) = .ok (some (stripCr line, rest)) := by
  have hl : ∀ x ∈ line, id x ≠ LF := fun x hx hlf => hn (hlf ▸ hx)
  rw [List.append_assoc, List.singleton_append, nextLine_cons (e := LF) hl rfl, if_neg,
    List.map_id]
  simpa [bounded] using hlen

/-- A whole line leads where the rest does, from the next state. -/
theorem reached_line {st st' : State} (hst : st.AtLine) {line : List UInt8} (hn : LF ∉ line)
    (hlen : line.length ≤ maxSizeLine + 1) (ha : afterLine st (stripCr line) = .ok st')
    (rest : List UInt8) : reached st (line ++ [LF] ++ rest) = reached st' rest := by
  have hturn : turn id bounded st (line ++ [LF] ++ rest) = .go [] st' rest := by
    rw [turn_atLine hst, nextLine_short hn hlen]
    simp only [ha]
  exact reached_go hturn

/-- Bytes of a line that is not over stay where they are. -/
theorem reached_inside {st : State} (hst : st.AtLine) {front : List UInt8} (hn : LF ∉ front) :
    reached st front = (st, front) := by
  have hl : ∀ x ∈ front, id x ≠ LF := fun x hx hlf => hn (hlf ▸ hx)
  obtain ⟨d, hstop⟩ : ∃ d, turn id bounded st front = .stop d := by
    rw [turn_atLine hst, nextLine_unclosed hl]
    by_cases h0 : front = []
    · exact ⟨_, by rw [if_pos h0]⟩
    · exact ⟨_, by rw [if_neg h0]⟩
  exact reached_stop hstop

/-- Inside a line there is only the place before its first byte, and none in the trailers. -/
theorem resumes_inside {st : State} (hst : st.AtLine) {front : List UInt8} (hn : LF ∉ front)
    (hlen : front.length < maxSizeLine + 2) :
    resumes st front = true ↔ front = [] ∧ st ≠ .trailers := by
  have hover : lineOver front = false := by simpa [lineOver, hn] using hlen
  rw [resumes, reached_inside hst hn]
  cases hst <;> simp [State.resumes, hover]

/-- Payload leads where what is left of it does, or the decoder comes no further. -/
theorem reached_data {left : ℕ} {bs : List UInt8} (hle : bs.length ≤ left) (rest : List UInt8) :
    (resumes (.data left) (bs ++ rest) = true ∧
      resumes (if left - bs.length = 0 then .dataEnd else .data (left - bs.length)) rest = true) ∨
    reached (.data left) (bs ++ rest) =
      reached (if left - bs.length = 0 then .dataEnd else .data (left - bs.length)) rest := by
  have hturn : ∀ left (s : List UInt8), turn id bounded (.data left) s =
      if s.length < left then .stop ⟨s.map id, some .unexpectedEof⟩
      else .go ((s.take left).map id) .dataEnd (s.drop left) := fun _ _ => rfl
  have hshort : ∀ {left} {s : List UInt8}, s.length < left → resumes (.data left) s = true :=
    fun h => resumes_stop (by rw [hturn, if_pos h])
  have hlong : ∀ {left} {s : List UInt8}, ¬ s.length < left →
      reached (.data left) s = reached .dataEnd (s.drop left) :=
    fun h => reached_go (by rw [hturn, if_neg h])
  by_cases hrest : rest.length < left - bs.length
  · refine .inl ⟨hshort (by rw [List.length_append]; omega), ?_⟩
    rw [if_neg (by omega), hshort hrest]
  · have hdrop : (bs ++ rest).drop left = rest.drop (left - bs.length) := by
      rw [List.drop_append, List.drop_eq_nil_of_le hle, List.nil_append]
    refine .inr ?_
    rw [hlong (by rw [List.length_append]; omega), hdrop]
    split_ifs with h0
    · rw [h0, List.drop_zero]
    · exact (hlong hrest).symm

/-- Payload leaves the rest to what is left of it. -/
theorem resumes_data {left : ℕ} {bs : List UInt8} (hle : bs.length ≤ left) (rest : List UInt8) :
    resumes (.data left) (bs ++ rest) =
      resumes (if left - bs.length = 0 then .dataEnd else .data (left - bs.length)) rest := by
  obtain ⟨h, h'⟩ | h := reached_data hle rest
  · rw [h, h']
  · rw [resumes, resumes, h]

/-! ## The blocking decoder -/

/-- The decoder's own errors are not transient. -/
@[simp] theorem transient_invalid (msg : String) : (invalid msg).transient = false := rfl

@[simp] theorem transient_unexpectedEof (msg : String) : (unexpectedEof msg).transient = false :=
  rfl

namespace ChunkedReader

/-- The decoder over the steady source. -/
def steady (r : ChunkedReader) : ChunkedReader := { r with inner := r.inner.steady }

/-- A line read of the decoder and of the steady one. At a transient error some bytes of the line
are gone; if they are none, the steady decoder reads the line that is read next. -/
theorem readLine_steady {P : List UInt8 → Prop} {r : ChunkedReader} (h : r.inner.FailsBehind P []) :
    match r.readLine with
    | (.ok none, r') => r.steady.readLine = (.ok none, r'.steady)
    | (.ok (some line), r') => r.steady.readLine = (.ok (some line), r'.steady) ∧
        ∃ l, line = stripCr l ∧ LF ∉ l ∧ l.length ≤ maxSizeLine + 1 ∧
          r'.inner.FailsBehind P (l ++ [LF])
    | (.error e, r') =>
      (e.transient = true → ∃ more, P more ∧ LF ∉ more ∧ more.length < maxSizeLine + 2 ∧
        r'.inner.FailsBehind P more ∧ r'.inner.work < r.inner.work ∧
        (more = [] → r.steady.readLine = r'.steady.readLine)) ∧
      (e.transient = false → r.steady.readLine = (.error e, r'.steady)) := by
  have hs := @BufReader.readUntil_steady P (maxSizeLine + 2) LF [] r.inner h
  unfold readLine
  rcases hr : r.inner.readUntil (maxSizeLine + 2) LF [] with ⟨e | l, inner⟩ <;> rw [hr] at hs
  · refine ⟨fun he => ?_, fun he => ?_⟩
    · obtain ⟨more, hP, hn, hlt, hf, hsame⟩ := hs.1 he
      refine ⟨more, hP, hn, hlt, hf, BufReader.readUntil_error_work hr, ?_⟩
      rintro rfl
      have hsame : r.steady.inner.readUntil (maxSizeLine + 2) LF [] =
          inner.steady.readUntil (maxSizeLine + 2) LF [] := hsame
      rw [hsame]
      rfl
    · have hs : r.steady.inner.readUntil (maxSizeLine + 2) LF [] = (.error e, inner.steady) :=
        hs.2 he
      rw [hs]
      rfl
  · obtain ⟨hs, hf⟩ := hs
    have hs : r.steady.inner.readUntil (maxSizeLine + 2) LF [] = (.ok l, inner.steady) := hs
    obtain ⟨more, rfl, hle, hmore⟩ : ∃ more, l = more ∧ _ := BufReader.readUntil_line hr
    rw [hs]
    dsimp only
    by_cases h0 : l.length = 0
    · rw [if_pos h0, if_pos h0]
      rfl
    · by_cases hlast : l.getLast? ≠ some LF
      · rw [if_neg h0, if_neg h0, if_pos hlast, if_pos hlast]
        split_ifs <;> exact ⟨fun he => absurd he (by simp), fun _ => rfl⟩
      · obtain hno | ⟨before, rfl, hbefore⟩ := hmore
        · exact absurd (List.mem_of_getLast? (not_not.mp hlast)) hno
        · rw [if_neg h0, if_neg h0, if_neg hlast, if_neg hlast, chomp_append_lf]
          refine ⟨rfl, before, rfl, hbefore, ?_, hf⟩
          rw [List.length_append, List.length_singleton] at hle
          omega

/-- Where the source fails, seen from a state. -/
def Resumable (st : State) (inner : BufReader) : Prop :=
  inner.FailsBehind (fun front => resumes st front = true) []

/-- A line that comes is the steady decoder's, and the source fails where the next state may see
it. -/
theorem readLine_leads {st st' : State} (hst : st.AtLine) {line : List UInt8}
    {r r' : ChunkedReader} (h : Resumable st r.inner) (hl : r.readLine = (.ok (some line), r'))
    (ha : afterLine st line = .ok st') :
    r.steady.readLine = (.ok (some line), r'.steady) ∧ Resumable st' r'.inner := by
  have hs := readLine_steady h
  rw [hl] at hs
  obtain ⟨hs, l, rfl, hn, hlen, hf⟩ := hs
  refine ⟨hs, Source.FailsBehind.mono hf fun more hmore => ?_⟩
  rw [List.append_assoc, List.append_assoc, ← List.append_assoc l] at hmore
  rwa [resumes, reached_line hst hn hlen ha] at hmore

/-- Trailers, by their first line. -/
theorem skipTrailers_eq (r : ChunkedReader) :
    r.skipTrailers =
      match r.readLine with
      | (.error e, r') => (.error e, r')
      | (.ok none, r') => (.ok (), r')
      | (.ok (some line), r') => if line = [] then (.ok (), r') else r'.skipTrailers := by
  rw [skipTrailers]
  split <;> rename_i h <;> rw [h]

/-- A resumable source does not fail for the moment inside the trailers. -/
theorem skipTrailers_steady {r : ChunkedReader} (h : Resumable .trailers r.inner) :
    match r.skipTrailers with
    | (.ok (), r') => r.steady.skipTrailers = (.ok (), r'.steady)
    | (.error e, r') =>
      e.transient = false ∧ r.steady.skipTrailers = (.error e, r'.steady) := by
  fun_induction skipTrailers r with
  | case1 r e r' hl =>
    have hs := readLine_steady h
    rw [hl] at hs
    have he : e.transient = false := by
      by_contra he
      obtain ⟨more, hP, hn, hlt, -⟩ := hs.1 (by simpa using he)
      exact absurd rfl ((resumes_inside .trailers hn hlt).mp hP).2
    refine ⟨he, ?_⟩
    rw [skipTrailers_eq, hs.2 he]
  | case2 r r' hl =>
    have hs := readLine_steady h
    rw [hl] at hs
    rw [skipTrailers_eq, hs]
  | case3 r r' hl =>
    have hs := readLine_steady h
    rw [hl] at hs
    rw [skipTrailers_eq, hs.1]
    rfl
  | case4 r line r' hl hne ih =>
    have ha : afterLine .trailers line = .ok .trailers := congrArg Except.ok (if_neg hne)
    obtain ⟨hs, hr'⟩ := readLine_leads .trailers h hl ha
    have hsteady : r.steady.skipTrailers = r'.steady.skipTrailers := by
      rw [skipTrailers_eq r.steady, hs]
      exact if_neg hne
    rw [hsteady]
    exact ih hr'

/-- The decoder stands where the source may fail for the moment. -/
structure Steady (r : ChunkedReader) : Prop where
  wf : r.state.Wf
  resumable : Resumable r.state r.inner

/-- A read of the decoder and of the steady one. After a transient error the steady decoder is read
as it was before. -/
inductive Tracks (n : ℕ) (r : ChunkedReader) : Except IoError (List UInt8) × ChunkedReader → Prop
  | ok {bs : List UInt8} {r' : ChunkedReader} (h : r.steady.read n = (.ok bs, r'.steady))
      (hr : r'.Steady) : Tracks n r (.ok bs, r')
  | error {e : IoError} {r' : ChunkedReader} (he : e.transient = false)
      (h : r.steady.read n = (.error e, r'.steady)) : Tracks n r (.error e, r')
  | transient {e : IoError} {r' : ChunkedReader} (he : e.transient = true) (hr : r'.Steady)
      (hw : r'.work < r.work) (h : ∀ m, 0 < m → r.steady.read m = r'.steady.read m) :
      Tracks n r (.error e, r')

/-- A decoder that is done may be interrupted anywhere. -/
theorem steady_done (inner : BufReader) : Steady { inner, state := .done } :=
  ⟨by simp [State.Wf], Source.failsBehind_of_forall resumes_done _ _⟩

/-- A decoder that goes on in another state, with less work, is tracked from there. -/
theorem Tracks.of_eq {n : ℕ} (hn : 0 < n) {r r₁ : ChunkedReader}
    (h : ∀ m, 0 < m → r.steady.read m = r₁.steady.read m) (hw : r₁.work < r.work)
    {res : Except IoError (List UInt8) × ChunkedReader} (ht : Tracks n r₁ res) :
    Tracks n r res := by
  cases ht with
  | ok hread hr => exact .ok ((h n hn).trans hread) hr
  | error he hread => exact .error he ((h n hn).trans hread)
  | transient he hr hless hread =>
    exact .transient he hr (hless.trans hw) fun m hm => (h m hm).trans (hread m hm)

/-- A failure where a line is due. -/
theorem tracks_line_error {n : ℕ} (hn : 0 < n) {r r' : ChunkedReader} {e : IoError}
    (hst : r.state = .size ∨ r.state = .dataEnd) (h : r.Steady)
    (hl : r.readLine = (.error e, r')) : Tracks n r (.error e, r') := by
  have hat : r.state.AtLine := by
    obtain hst | hst := hst <;> rw [hst]
    · exact .size
    · exact .dataEnd
  have hs := readLine_steady h.resumable
  have hw := readLine_work r
  rw [hl] at hs hw
  cases he : e.transient with
  | true =>
    obtain ⟨more, hP, hno, hlt, hf, hless, hsame⟩ := hs.1 he
    obtain ⟨rfl, -⟩ := (resumes_inside hat hno hlt).mp hP
    refine .transient he ⟨by rw [hw.2]; exact h.wf, by rw [hw.2]; exact hf⟩ ?_ fun m hm => ?_
    · simp only [work, hw.2]
      omega
    · have hstate : r'.steady.state = r.steady.state := hw.2
      rw [read_eq hm r.steady, read_eq hm r'.steady, hstate, hsame rfl]
      obtain hst | hst := hst
      · have hst : r.steady.state = .size := hst
        rw [hst]
      · have hst : r.steady.state = .dataEnd := hst
        rw [hst]
  | false =>
    refine .error he ?_
    rw [read_eq hn]
    obtain hst | hst := hst
    · have hst : r.steady.state = .size := hst
      simp only [hst, hs.2 he]
    · have hst : r.steady.state = .dataEnd := hst
      simp only [hst, hs.2 he]

/-- A failure inside a payload. -/
theorem tracks_payload_error {n left : ℕ} (hn : 0 < n) {r : ChunkedReader} {e : IoError}
    {inner : BufReader} (hs : r.state = .data left) (h : r.Steady)
    (hr : r.inner.read (min n left) = (.error e, inner)) :
    Tracks n r (.error e, { inner, state := .data left }) := by
  rw [← hs]
  have hs' : r.steady.state = .data left := hs
  have hl : left ≠ 0 := by simpa [State.Wf, hs] using h.wf
  have hread := r.inner.read_steady (min n left)
  have hf := BufReader.read_failsBehind (min n left) h.resumable
  have hw := BufReader.read_spec (n := min n left) (by omega) r.inner
  rw [hr] at hread hf hw
  cases he : e.transient with
  | true =>
    refine .transient he ⟨h.wf, hf.2⟩ ?_ fun m hm => ?_
    · have := hw.2.1
      simp only [work]
      omega
    · have hsame : r.steady.inner.read (min m left) = inner.steady.read (min m left) :=
        hread.1 he _
      simp only [read_eq hm, steady, hs] at hsame ⊢
      rw [hsame]
  | false =>
    have hread : r.steady.inner.read (min n left) = (.error e, inner.steady) := hread.2 he
    refine .error he ?_
    simp only [read_eq hn, hs', hread]
    simp only [steady, hs]

/-- A read from the trailers on is the steady decoder's. -/
theorem tracks_finish {n : ℕ} {r r₀ : ChunkedReader} (h : Resumable .trailers r₀.inner)
    (hread : r.steady.read n = r₀.steady.finish) : Tracks n r r₀.finish := by
  have hs := skipTrailers_steady h
  unfold finish at hread ⊢
  rcases ht : r₀.skipTrailers with ⟨e | _, r'⟩ <;> rw [ht] at hs
  · rw [hs.2] at hread
    exact .error hs.1 hread
  · rw [hs] at hread
    exact .ok hread (steady_done _)

/-- A read where a size line is due, if one inside the chunk is tracked. -/
theorem tracks_size {n : ℕ} (hn : 0 < n) {r : ChunkedReader} (h : r.Steady) (hs : r.state = .size)
    (ih : ∀ r₁ : ChunkedReader, r₁.work < r.work → r₁.Steady → Tracks n r₁ (r₁.read n)) :
    Tracks n r (r.read n) := by
  have hs' : r.steady.state = .size := hs
  have hline := readLine_steady h.resumable
  rw [read_eq hn r, hs]
  rcases hl : r.readLine with ⟨e | _ | line, r'⟩ <;> rw [hl] at hline <;> dsimp only
  · exact tracks_line_error hn (.inl hs) h hl
  · refine .ok ?_ (steady_done _)
    simp only [read_eq hn, hs', hline]
    rfl
  · rcases hp : parseSize line with e | size
    · refine .error ?_ (by simp only [read_eq hn, hs', hline.1, hp])
      simp [IoError.transient, parseSize_error hp]
    · cases size with
      | zero =>
        have ha : afterLine .size line = .ok .trailers := by simp [afterLine, hp]
        obtain ⟨hline, hr'⟩ := readLine_leads .size (hs ▸ h.resumable) hl ha
        exact tracks_finish hr' (by simp only [read_eq hn, hs', hline, hp])
      | succ size =>
        have ha : afterLine .size line = .ok (.data (size + 1)) := by simp [afterLine, hp]
        have hless := work_of_readLine hl (by simp [hs]) r'.inner le_rfl (.data (size + 1))
        obtain ⟨hline, hr'⟩ := readLine_leads .size (hs ▸ h.resumable) hl ha
        refine (ih _ hless ⟨afterLine_wf .size ha, hr'⟩).of_eq hn (fun m hm => ?_) hless
        simp only [read_eq hm r.steady, hs', hline, hp]
        rfl

/-- A read inside a chunk. -/
theorem tracks_data {n left : ℕ} (hn : 0 < n) {r : ChunkedReader} (h : r.Steady)
    (hs : r.state = .data left) : Tracks n r (r.read n) := by
  have hs' : r.steady.state = .data left := hs
  have hread := r.inner.read_steady (min n left)
  have hf := BufReader.read_failsBehind (min n left) h.resumable
  rw [read_eq hn r, hs]
  rcases hr : r.inner.read (min n left) with ⟨e | bs, inner⟩ <;> rw [hr] at hread hf <;>
    simp only [hr]
  · exact tracks_payload_error hn hs h hr
  · have hread : r.steady.inner.read (min n left) = (.ok bs, inner.steady) := hread
    by_cases hz : bs.length = 0
    · rw [if_pos hz]
      refine .error rfl ?_
      simp only [read_eq hn, hs', hread, if_pos hz]
      rfl
    · rw [if_neg hz]
      have hle := BufReader.read_length hr
      refine .ok ?_ ⟨State.wf_left _, Source.FailsBehind.mono hf fun more hmore => ?_⟩
      · simp only [read_eq hn, hs', hread, if_neg hz]
        rfl
      · rw [List.append_assoc, List.append_assoc, List.nil_append, hs,
          resumes_data (by omega)] at hmore
        exact hmore

/-- A read where the line is due that closes a payload, if one behind it is tracked. -/
theorem tracks_dataEnd {n : ℕ} (hn : 0 < n) {r : ChunkedReader} (h : r.Steady)
    (hs : r.state = .dataEnd)
    (ih : ∀ r₁ : ChunkedReader, r₁.work < r.work → r₁.Steady → Tracks n r₁ (r₁.read n)) :
    Tracks n r (r.read n) := by
  have hs' : r.steady.state = .dataEnd := hs
  have hline := readLine_steady h.resumable
  rw [read_eq hn r, hs]
  rcases hl : r.readLine with ⟨e | _ | line, r'⟩ <;> rw [hl] at hline <;> dsimp only
  · exact tracks_line_error hn (.inr hs) h hl
  · exact .error rfl (by simp only [read_eq hn, hs', hline])
  · split_ifs with hempty
    · have ha : afterLine .dataEnd line = .ok .size := if_pos hempty
      have hless := work_of_readLine hl (by simp [hs]) r'.inner le_rfl .size
      obtain ⟨hline, hr'⟩ := readLine_leads .dataEnd (hs ▸ h.resumable) hl ha
      refine (ih _ hless ⟨by simp [State.Wf], hr'⟩).of_eq hn (fun m hm => ?_) hless
      simp only [read_eq hm r.steady, hs', hline, if_pos hempty]
      rfl
    · exact .error rfl (by simp only [read_eq hn, hs', hline.1, if_neg hempty])

/-- **Reads of the blocking decoder and transient errors.** A read of a decoder that stands where
its source may fail for the moment is the steady decoder's, or has met such a failure and changed
nothing that a later read could tell.

**Proof sketch.** Induction on the work left, by the state. A line is the steady decoder's line; a
failure for the moment where one is due came before its first byte, and in the trailers there is
none. -/
theorem read_steady {n : ℕ} (hn : 0 < n) {r : ChunkedReader} (h : r.Steady) :
    Tracks n r (r.read n) := by
  induction hwork : r.work using Nat.strong_induction_on generalizing r with
  | _ work ih =>
    subst hwork
    have ih : ∀ r₁ : ChunkedReader, r₁.work < r.work → r₁.Steady → Tracks n r₁ (r₁.read n) :=
      fun r₁ hless h₁ => ih r₁.work hless h₁ rfl
    cases hs : r.state with
    | size => exact tracks_size hn h hs ih
    | data left => exact tracks_data hn h hs
    | dataEnd => exact tracks_dataEnd hn h hs ih
    | trailers =>
      have hs' : r.steady.state = .trailers := hs
      rw [read_eq hn r, hs]
      exact tracks_finish (hs ▸ h.resumable) (by simp only [read_eq hn, hs'])
    | done =>
      have hs' : r.steady.state = .done := hs
      rw [read_of_done n hs]
      exact .ok (read_of_done n hs') h

end ChunkedReader

/-! ## Results of a read -/

/-- A read that failed for the moment. -/
def readTransient : Except IoError (List UInt8) → Bool
  | .ok _ => false
  | .error e => e.transient

/-- A read after which the caller stops: the end of the stream, or a failure for good. -/
def readFinal : Except IoError (List UInt8) → Bool
  | .ok bs => bs.isEmpty
  | .error e => !e.transient

/-- A result after which the caller stops is no failure of the moment. -/
theorem readTransient_of_final {a : Except IoError (List UInt8)} (h : readFinal a = true) :
    readTransient a = false := by
  cases a with
  | ok bs => rfl
  | error e => simpa [readFinal, readTransient] using h

end Lager
