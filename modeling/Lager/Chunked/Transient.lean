import Lager.Chunked.Interruption

set_option relaxedAutoImplicit false
set_option autoImplicit false

/-!
# Transient errors of a source

A source may fail for the moment: it would block, or a read times out. A caller that reads on after
such an error should receive what it receives from the same source without those errors. The async
decoder keeps the part of a line that it has, and so it does; the blocking one does over a source
that fails in the right places.

## Main definitions

* `Lager.Lossless` — transient errors make no difference to a caller that reads on.
* `Lager.Source.Resumable` — a source fails for the moment only where the blocking decoder can be
  interrupted.

## Main results

* `Lager.transient_lossless` — the blocking decoder loses nothing over a resumable source, and only
  there whatever follows; the async decoder loses nothing over any source.
-/

namespace Lager

open Library

/-! ## The async decoder -/

namespace AsyncBody

/-- The decoder over the steady source. -/
def steady (b : AsyncBody) : AsyncBody := { b with inner := b.inner.steady }

/-- The steady decoder is in the same framing. -/
theorem framing_steady (b : AsyncBody) : b.steady.framing = b.framing := rfl

/-- A polled line, by its first fetch. -/
theorem pollLine_eq (b : AsyncBody) :
    b.pollLine =
      match b.inner.pollFillBuf with
      | (.ready (.error e), inner) => (.ready (.error e), { b with inner })
      | (.pending, inner) => (.pending, { b with inner })
      | (.ready (.ok available), inner) =>
        if available = [] then
          (.ready (if b.line = [] then .ok none
            else .error (unexpectedEof "stream closed inside a chunk-size line")),
            { b with inner })
        else
          match cut LF available with
          | some (before, _) =>
            (.ready (.ok (some (chomp (b.line ++ before ++ [LF])))),
              { b with inner := inner.consume (before.length + 1), line := [] })
          | none =>
            let b' :=
              { b with inner := inner.consume available.length, line := b.line ++ available }
            if b'.line.length > maxSizeLine + 1 then
              (.ready (.error (invalid "chunk-size line too long")), b')
            else b'.pollLine := by
  rw [pollLine]
  split
  all_goals
    rename_i h
    rewrite [h]
    rfl

/-- The steady decoder fetches what the decoder fetched. -/
theorem pollFillBuf_steady_of_ok {b : AsyncBody} {available : List UInt8} {inner : BufReader}
    (h : b.inner.pollFillBuf = (.ready (.ok available), inner)) :
    b.steady.inner.pollFillBuf = (.ready (.ok available), inner.steady) := by
  have hs := b.inner.pollFillBuf_steady
  rw [h] at hs
  exact hs

/-- **A polled line and a transient error.** A polled line of the decoder and of the steady one.
After a transient error the steady decoder is polled as it was before: the part of the line that is
there stays in hand. -/
theorem pollLine_steady (b : AsyncBody) :
    match b.pollLine with
    | (.ready (.error e), b') =>
      (e.transient = true →
        b'.inner.work < b.inner.work ∧ b.steady.pollLine = b'.steady.pollLine) ∧
      (e.transient = false → b.steady.pollLine = (.ready (.error e), b'.steady))
    | (res, b') => b.steady.pollLine = (res, b'.steady) := by
  fun_induction pollLine b with
  | case1 b e inner h =>
    have hs := b.inner.pollFillBuf_steady
    have hw := b.inner.pollFillBuf_spec
    rw [h] at hs hw
    refine ⟨fun he => ⟨hw.2.1, ?_⟩, fun he => ?_⟩
    · simp only [steady, hs.1 he]
    · have hs : b.steady.inner.pollFillBuf = (.ready (.error e), inner.steady) := hs.2 he
      rw [pollLine_eq, hs]
      rfl
  | case2 b inner h =>
    have hs := b.inner.pollFillBuf_steady
    rw [h] at hs
    have hs : b.steady.inner.pollFillBuf = (.pending, inner.steady) := hs
    rw [pollLine_eq, hs]
    rfl
  | case3 b inner h =>
    have hs := pollFillBuf_steady_of_ok h
    have hsteady : b.steady.pollLine = (.ready (if b.line = [] then .ok none
        else .error (unexpectedEof "stream closed inside a chunk-size line")),
        steady { b with inner }) := by
      rw [pollLine_eq, hs]
      rfl
    split_ifs at hsteady ⊢ with hline
    · exact hsteady
    · exact ⟨fun he => absurd he (by simp), fun _ => hsteady⟩
  | case4 b available inner h hne before after hc =>
    have hs := pollFillBuf_steady_of_ok h
    rw [pollLine_eq, hs]
    simp only [if_neg hne, hc]
    rfl
  | case5 b available inner h hne hc b' hlong =>
    have hs := pollFillBuf_steady_of_ok h
    refine ⟨fun he => absurd he (by simp), fun _ => ?_⟩
    rw [pollLine_eq, hs]
    simp only [if_neg hne, hc]
    exact if_pos hlong
  | case6 b available inner h hne hc b' hshort ih =>
    have hs := pollFillBuf_steady_of_ok h
    have hspec := b.inner.pollFillBuf_spec
    rw [h] at hspec
    have hsteady : b.steady.pollLine = b'.steady.pollLine := by
      rw [pollLine_eq, hs]
      simp only [if_neg hne, hc]
      exact if_neg hshort
    have hw : b'.inner.work ≤ b.inner.work := by
      have hle : available.length ≤ inner.buf.length := by rw [hspec.1]
      have := BufReader.work_consume hle
      have := hspec.2.2.1
      simp only [b']
      omega
    rw [hsteady]
    rcases hr : b'.pollLine with ⟨(e | _ | l) | _, b''⟩ <;> rw [hr] at ih
    · exact ⟨fun he => ⟨(ih.1 he).1.trans_le hw, (ih.1 he).2⟩, ih.2⟩
    · exact ih
    · exact ih
    · exact ih

/-- Polled payload of the decoder and of the steady one. -/
theorem pollPayload_steady (n left : ℕ) (b : AsyncBody) :
    match b.pollPayload n left with
    | (.ready (.error e), b') =>
      (e.transient = true →
        b'.inner.work < b.inner.work ∧ b'.framing = b.framing ∧ b.steady = b'.steady) ∧
      (e.transient = false → b.steady.pollPayload n left = (.ready (.error e), b'.steady))
    | (res, b') => b.steady.pollPayload n left = (res, b'.steady) := by
  have hs := b.inner.pollFillBuf_steady
  have hw := b.inner.pollFillBuf_spec
  have hpayload : ∀ b : AsyncBody, b.pollPayload n left = match b.inner.pollFillBuf with
      | (.ready (.error e), inner) => (.ready (.error e), { b with inner })
      | (.pending, inner) => (.pending, { b with inner })
      | (.ready (.ok available), inner) =>
        let k := min (min available.length n) left
        (.ready (.ok (available.take k)), { b with inner := inner.consume k }) := fun _ => rfl
  rw [hpayload b, hpayload b.steady]
  rcases hr : b.inner.pollFillBuf with ⟨(e | available) | _, inner⟩ <;> rw [hr] at hs hw <;>
    dsimp only [steady] at hs ⊢
  · refine ⟨fun he => ⟨hw.2.1, rfl, ?_⟩, fun he => ?_⟩
    · rw [hs.1 he]
    · rw [hs.2 he]
  · rw [hs]
    rfl
  · rw [hs]

/-- A poll of the decoder and of the steady one. After a transient error the steady decoder is
polled as it was before. -/
inductive Tracks (n : ℕ) (b : AsyncBody) :
    Poll (Except IoError (List UInt8)) × AsyncBody → Prop
  | answer {res : Poll (Except IoError (List UInt8))} {b' : AsyncBody}
      (hres : ∀ e, res = .ready (.error e) → e.transient = false)
      (h : b.steady.pollRead n = (res, b'.steady)) : Tracks n b (res, b')
  | transient {e : IoError} {b' : AsyncBody} (he : e.transient = true) (hw : b'.work < b.work)
      (h : ∀ m, 0 < m → b.steady.pollRead m = b'.steady.pollRead m) :
      Tracks n b (.ready (.error e), b')

/-- A body that goes on in another framing, with less work, is tracked from there. -/
theorem Tracks.of_eq {n : ℕ} (hn : 0 < n) {b b₁ : AsyncBody}
    (h : ∀ m, 0 < m → b.steady.pollRead m = b₁.steady.pollRead m) (hw : b₁.work < b.work)
    {res : Poll (Except IoError (List UInt8)) × AsyncBody} (ht : Tracks n b₁ res) :
    Tracks n b res := by
  cases ht with
  | answer hres hread => exact .answer hres ((h n hn).trans hread)
  | transient he hless hread =>
    exact .transient he (hless.trans hw) fun m hm => (h m hm).trans (hread m hm)

/-- A poll where a line is due and does not come. -/
theorem tracks_line {n : ℕ} (hn : 0 < n) {b b' : AsyncBody} {st : State} (hst : st.AtLine)
    (hf : b.framing = .chunked st) {res : Poll (Except IoError (List UInt8))}
    {line : Poll (Except IoError (Option (List UInt8)))} (hl : b.pollLine = (line, b'))
    (hres : (line = .pending ∧ res = .pending) ∨
      ∃ e, line = .ready (.error e) ∧ res = .ready (.error e)) : Tracks n b (res, b') := by
  have hs := pollLine_steady b
  have hw := pollLine_work b
  have hsame : ∀ {m : ℕ}, 0 < m → ∀ {b₁ b₂ : AsyncBody}, b₁.framing = .chunked st →
      b₂.framing = .chunked st → b₁.pollLine = b₂.pollLine → b₁.pollRead m = b₂.pollRead m := by
    intro m hm b₁ b₂ h₁ h₂ hline
    rw [pollRead_eq hm, pollRead_eq hm, h₁, h₂, hline]
    cases hst <;> rfl
  have hread : ∀ {b₁ b₂ : AsyncBody}, b₁.framing = .chunked st → b₁.pollLine = (line, b₂) →
      b₁.pollRead n = (res, b₂) := by
    intro b₁ b₂ h₁ hline
    obtain ⟨rfl, rfl⟩ | ⟨e, rfl, rfl⟩ := hres <;> rw [pollRead_eq hn, h₁] <;>
      cases hst <;> simp only [hline]
  rw [hl] at hs hw
  obtain ⟨rfl, rfl⟩ | ⟨e, rfl, rfl⟩ := hres
  · exact .answer (by simp) (hread hf hs)
  · cases he : e.transient with
    | true =>
      refine .transient he ?_ fun m hm => hsame hm hf (hw.2.trans hf) (hs.1 he).2
      have := (hs.1 he).1
      simp only [work, hw.2]
      omega
    | false => exact .answer (by simp [he]) (hread hf (hs.2 he))

/-- A poll for payload that fails. -/
theorem tracks_payload_error {n left : ℕ} (hn : 0 < n) {b b' : AsyncBody} {e : IoError}
    (hf : (b.framing = .length left ∧ left ≠ 0) ∨ b.framing = .chunked (.data left))
    (hp : b.pollPayload n left = (.ready (.error e), b')) :
    Tracks n b (.ready (.error e), b') := by
  have hs := pollPayload_steady n left b
  rw [hp] at hs
  cases he : e.transient with
  | true =>
    obtain ⟨hw, hframing, hsame⟩ := hs.1 he
    refine .transient he ?_ fun m hm => by rw [hsame]
    simp only [work, hframing]
    omega
  | false =>
    refine .answer (by simp [he]) ?_
    obtain ⟨hf, hz⟩ | hf := hf
    all_goals
      rw [pollRead_eq hn, framing_steady, hf]
      simp only [hs.2 he]

/-- A poll of a body that ends with the connection. -/
theorem tracks_untilClose {n : ℕ} (hn : 0 < n) {b : AsyncBody} (hf : b.framing = .untilClose) :
    Tracks n b (b.pollRead n) := by
  have hs := b.inner.pollRead_steady n
  have hw := BufReader.pollRead_spec hn b.inner
  have hread : ∀ {m : ℕ}, 0 < m → b.steady.pollRead m =
      ((b.steady.inner.pollRead m).1, { b.steady with inner := (b.steady.inner.pollRead m).2 }) :=
    fun hm => by simp only [pollRead_eq hm, framing_steady, hf]
  rw [pollRead_eq hn b, hf]
  rcases hr : b.inner.pollRead n with ⟨(e | bs) | _, inner⟩ <;> rw [hr] at hs hw <;> dsimp only
  · cases he : e.transient with
    | true =>
      refine .transient he ?_ fun m hm => ?_
      · have hless := hw.2.1
        simp only [work, hf]
        omega
      · simp only [steady, hs.1 he, hf]
    | false =>
      have hs : b.steady.inner.pollRead n = (.ready (.error e), inner.steady) := hs.2 he
      exact .answer (by simp [he]) (by rw [hread hn, hs]; simp only [steady, hf])
  · have hs : b.steady.inner.pollRead n = (.ready (.ok bs), inner.steady) := hs
    exact .answer (by simp) (by rw [hread hn, hs]; simp only [steady, hf])
  · have hs : b.steady.inner.pollRead n = (.pending, inner.steady) := hs
    exact .answer (by simp) (by rw [hread hn, hs]; simp only [steady, hf])

/-- A poll of a body of known length. -/
theorem tracks_length {n left : ℕ} (hn : 0 < n) {b : AsyncBody} (hf : b.framing = .length left) :
    Tracks n b (b.pollRead n) := by
  have hs := pollPayload_steady n left b
  rw [pollRead_eq hn b, hf]
  cases left with
  | zero => exact .answer (by simp) (by simp only [pollRead_eq hn b.steady, framing_steady, hf])
  | succ left =>
    rcases hp : b.pollPayload n (left + 1) with ⟨(e | bs) | _, b'⟩ <;> rw [hp] at hs <;>
      simp only [hp]
    · exact tracks_payload_error hn (.inl ⟨hf, by simp⟩) hp
    · by_cases hz : bs.length = 0
      · rw [if_pos hz]
        refine .answer (by simp) ?_
        simp only [pollRead_eq hn b.steady, framing_steady, hf, hs, if_pos hz]
      · rw [if_neg hz]
        refine .answer (by simp) ?_
        simp only [pollRead_eq hn b.steady, framing_steady, hf, hs, if_neg hz]
        rfl
    · exact .answer (by simp) (by simp only [pollRead_eq hn b.steady, framing_steady, hf, hs])

/-- A poll inside a chunk. -/
theorem tracks_data {n left : ℕ} (hn : 0 < n) {b : AsyncBody}
    (hf : b.framing = .chunked (.data left)) : Tracks n b (b.pollRead n) := by
  have hs := pollPayload_steady n left b
  rw [pollRead_eq hn b, hf]
  rcases hp : b.pollPayload n left with ⟨(e | bs) | _, b'⟩ <;> rw [hp] at hs <;> simp only [hp]
  · exact tracks_payload_error hn (.inr hf) hp
  · by_cases hz : bs.length = 0
    · rw [if_pos hz]
      refine .answer (by simp) ?_
      simp only [pollRead_eq hn b.steady, framing_steady, hf, hs, if_pos hz]
    · rw [if_neg hz]
      refine .answer (by simp) ?_
      simp only [pollRead_eq hn b.steady, framing_steady, hf, hs, if_neg hz]
      rfl
  · exact .answer (by simp) (by simp only [pollRead_eq hn b.steady, framing_steady, hf, hs])

/-- A poll where a size line is due, if one behind it is tracked. -/
theorem tracks_size {n : ℕ} (hn : 0 < n) {b : AsyncBody} (hf : b.framing = .chunked .size)
    (ih : ∀ b₁ : AsyncBody, b₁.work < b.work → Tracks n b₁ (b₁.pollRead n)) :
    Tracks n b (b.pollRead n) := by
  have hs := pollLine_steady b
  rw [pollRead_eq hn b, hf]
  rcases hl : b.pollLine with ⟨(e | _ | line) | _, b'⟩ <;> rw [hl] at hs <;> dsimp only
  · exact tracks_line hn .size hf hl (.inr ⟨e, rfl, rfl⟩)
  · refine .answer (by simp) ?_
    simp only [pollRead_eq hn b.steady, framing_steady, hf, hs]
    rfl
  · have hgoes : ∀ st, (∀ m, 0 < m → b.steady.pollRead m =
        (steady { b' with framing := .chunked st }).pollRead m) →
          Tracks n b (pollRead n { b' with framing := .chunked st }) := by
      intro st hsame
      have hless := work_of_line hl (by simp [hf]) (.chunked st)
      exact (ih _ hless).of_eq hn hsame hless
    rcases hp : parseSize line with e | size
    · refine .answer ?_ (by simp only [pollRead_eq hn b.steady, framing_steady, hf, hs, hp])
      simp [IoError.transient, parseSize_error hp]
    · cases size with
      | zero =>
        refine hgoes .trailers fun m hm => ?_
        simp only [pollRead_eq hm b.steady, framing_steady, hf, hs, hp]
        rfl
      | succ size =>
        refine hgoes (.data (size + 1)) fun m hm => ?_
        simp only [pollRead_eq hm b.steady, framing_steady, hf, hs, hp]
        rfl
  · exact tracks_line hn .size hf hl (.inl ⟨rfl, rfl⟩)

/-- A poll where the line is due that closes a payload, if one behind it is tracked. -/
theorem tracks_dataEnd {n : ℕ} (hn : 0 < n) {b : AsyncBody} (hf : b.framing = .chunked .dataEnd)
    (ih : ∀ b₁ : AsyncBody, b₁.work < b.work → Tracks n b₁ (b₁.pollRead n)) :
    Tracks n b (b.pollRead n) := by
  have hs := pollLine_steady b
  rw [pollRead_eq hn b, hf]
  rcases hl : b.pollLine with ⟨(e | _ | line) | _, b'⟩ <;> rw [hl] at hs <;> dsimp only
  · exact tracks_line hn .dataEnd hf hl (.inr ⟨e, rfl, rfl⟩)
  · exact .answer (by simp) (by simp only [pollRead_eq hn b.steady, framing_steady, hf, hs])
  · split_ifs with hempty
    · have hless := work_of_line hl (by simp [hf]) (.chunked .size)
      refine (ih _ hless).of_eq hn (fun m hm => ?_) hless
      simp only [pollRead_eq hm b.steady, framing_steady, hf, hs, if_pos hempty]
      rfl
    · refine .answer (by simp) ?_
      simp only [pollRead_eq hn b.steady, framing_steady, hf, hs, if_neg hempty]
  · exact tracks_line hn .dataEnd hf hl (.inl ⟨rfl, rfl⟩)

/-- A poll among the trailers, if one behind their first line is tracked. -/
theorem tracks_trailers {n : ℕ} (hn : 0 < n) {b : AsyncBody} (hf : b.framing = .chunked .trailers)
    (ih : ∀ b₁ : AsyncBody, b₁.work < b.work → Tracks n b₁ (b₁.pollRead n)) :
    Tracks n b (b.pollRead n) := by
  have hs := pollLine_steady b
  rw [pollRead_eq hn b, hf]
  rcases hl : b.pollLine with ⟨(e | _ | line) | _, b'⟩ <;> rw [hl] at hs <;> dsimp only
  · exact tracks_line hn .trailers hf hl (.inr ⟨e, rfl, rfl⟩)
  · refine .answer (by simp) ?_
    simp only [pollRead_eq hn b.steady, framing_steady, hf, hs]
    rfl
  · split_ifs with hempty
    · refine .answer (by simp) ?_
      simp only [pollRead_eq hn b.steady, framing_steady, hf, hs, if_pos hempty]
      rfl
    · have hless : b'.work < b.work := work_of_line hl (by simp [hf]) b'.framing
      refine (ih b' hless).of_eq hn (fun m hm => ?_) hless
      simp only [pollRead_eq hm b.steady, framing_steady, hf, hs, if_neg hempty]
  · exact tracks_line hn .trailers hf hl (.inl ⟨rfl, rfl⟩)

/-- **Polls of the async decoder and transient errors.** A poll is the steady decoder's, or has met
such an error and changed nothing that a later poll could tell.

**Proof sketch.** Induction on the work left, by the framing. -/
theorem pollRead_steady {n : ℕ} (hn : 0 < n) (b : AsyncBody) : Tracks n b (b.pollRead n) := by
  induction hwork : b.work using Nat.strong_induction_on generalizing b with
  | _ work ih =>
    subst hwork
    have ih : ∀ b₁ : AsyncBody, b₁.work < b.work → Tracks n b₁ (b₁.pollRead n) :=
      fun b₁ hless => ih b₁.work hless b₁ rfl
    cases hf : b.framing with
    | untilClose => exact tracks_untilClose hn hf
    | length left => exact tracks_length hn hf
    | chunked st =>
      cases st with
      | size => exact tracks_size hn hf ih
      | data left => exact tracks_data hn hf
      | dataEnd => exact tracks_dataEnd hn hf ih
      | trailers => exact tracks_trailers hn hf ih
      | done =>
        rw [pollRead_of_done n hf]
        exact .answer (by simp) (pollRead_of_done n ((framing_steady b).trans hf))

end AsyncBody

/-! ## Reading on -/

/-- A poll that failed for the moment. -/
def pollTransient : Poll (Except IoError (List UInt8)) → Bool
  | .ready res => readTransient res
  | .pending => false

/-- A poll after which the caller stops. -/
def pollFinal : Poll (Except IoError (List UInt8)) → Bool
  | .ready res => readFinal res
  | .pending => false

/-- Transient errors make no difference: whoever reads on after them comes to a final result, and
receives, beside them, what the decoder over the steady source gives. -/
structure Lossless {ρ A : Type} (ask : ℕ → ρ → A × ρ) (final transient : A → Bool)
    (r steady : ρ) : Prop where
  ends (sizes : ℕ → ℕ) (hsizes : ∀ i, 0 < sizes i) :
    ∃ log, Session ask final r log ∧ log.map Prod.fst = (List.range log.length).map sizes
  same (log : List (ℕ × A)) (hlog : Session ask final r log) :
    Session ask final steady (log.filter fun entry => !transient entry.2)

/-- The steady decoder shadows the decoder that stands where its source may fail. -/
theorem ChunkedReader.shadows :
    Shadows ChunkedReader.read ChunkedReader.read readFinal readTransient
      fun r s => r.Steady ∧ ∀ m, 0 < m → s.read m = r.steady.read m where
  stutter {r r' s n a} hR hn hread htransient := by
    have ht := read_steady hn hR.1
    rw [hread] at ht
    cases ht with
    | ok _ _ => simp [readTransient] at htransient
    | error he _ => simp [readTransient, he] at htransient
    | transient _ hr _ hsame => exact ⟨hr, fun m hm => (hR.2 m hm).trans (hsame m hm)⟩
  step {r r' s n a} hR hn hread htransient := by
    have ht := read_steady hn hR.1
    rw [hread] at ht
    cases ht with
    | ok hsteady hr => exact ⟨_, (hR.2 n hn).trans hsteady, fun _ => ⟨hr, fun _ _ => rfl⟩⟩
    | error he hsteady =>
      exact ⟨_, (hR.2 n hn).trans hsteady, fun hfinal => by simp [readFinal, he] at hfinal⟩
    | transient he _ _ _ => simp [readTransient, he] at htransient

/-- The steady decoder shadows the async decoder. -/
theorem AsyncBody.shadows :
    Shadows AsyncBody.pollRead AsyncBody.pollRead pollFinal pollTransient
      fun b s => ∀ m, 0 < m → s.pollRead m = b.steady.pollRead m where
  stutter {b b' s n a} hR hn hread htransient := by
    have ht := pollRead_steady hn b
    rw [hread] at ht
    cases ht with
    | answer hres _ =>
      rcases a with (e | bs) | _
      · simp [pollTransient, readTransient, hres e rfl] at htransient
      · simp [pollTransient, readTransient] at htransient
      · simp [pollTransient] at htransient
    | transient _ _ hsame => exact fun m hm => (hR m hm).trans (hsame m hm)
  step {b b' s n a} hR hn hread htransient := by
    have ht := pollRead_steady hn b
    rw [hread] at ht
    cases ht with
    | answer _ hsteady => exact ⟨_, (hR n hn).trans hsteady, fun _ _ _ => rfl⟩
    | transient he _ _ => simp [pollTransient, readTransient, he] at htransient

/-- A blocking decoder that stands where its source may fail loses nothing. -/
theorem ChunkedReader.lossless {r : ChunkedReader} (h : r.Steady) :
    Lossless ChunkedReader.read readFinal readTransient r r.steady where
  ends sizes hsizes := by
    refine @exists_session _ _ _ _ work Steady ?_ sizes hsizes r h
    intro r r' n a hr hn hread hfinal
    have ht := read_steady hn hr
    rw [hread] at ht
    cases ht with
    | ok _ hr' => exact ⟨hr', read_progress n r hread (by simpa [readFinal] using hfinal)⟩
    | error he _ => simp [readFinal, he] at hfinal
    | transient _ hr' hw _ => exact ⟨hr', hw⟩
  same log hlog := hlog.filter shadows (fun _ => readTransient_of_final) ⟨h, fun _ _ => rfl⟩

/-- An async decoder loses nothing. -/
theorem AsyncBody.lossless (b : AsyncBody) :
    Lossless AsyncBody.pollRead pollFinal pollTransient b b.steady where
  ends sizes hsizes := by
    refine @exists_session _ _ _ _ work (fun _ => True) ?_ sizes hsizes b trivial
    intro b b' n a _ hn hread hfinal
    have hprogress := pollRead_progress n b
    have ht := pollRead_steady hn b
    rw [hread] at ht hprogress
    refine ⟨trivial, ?_⟩
    cases ht with
    | answer hres _ =>
      rcases a with (e | bs) | _
      · simp [pollFinal, readFinal, hres e rfl] at hfinal
      · exact hprogress (by simpa [pollFinal, readFinal] using hfinal)
      · exact hprogress
    | transient _ hw _ => exact hw
  same log hlog := by
    refine hlog.filter shadows (fun a ha => ?_) fun _ _ => rfl
    cases a with
    | ready res => exact readTransient_of_final ha
    | pending => rfl

/-- Every failure of the source for the moment comes behind bytes where the blocking decoder can be
interrupted. -/
def Source.Resumable (src : Source) : Prop :=
  src.FailsBehind (fun front => resumes .size front = true) []

/-- Some bytes, one failure, and some more bytes. -/
def Source.interrupted (front : List UInt8) (e : IoError) (rest : List UInt8) : Source :=
  .pushBack front (.fail e (.pushBack rest .done))

/-- Behind bytes where the blocking decoder cannot resume, losing nothing means that what follows
decodes to the same end without the bytes that it has dropped. -/
theorem ending_eq_of_lossless {front rest : List UInt8} {e : IoError} (he : e.transient = true)
    (hno : resumes .size front = false)
    (h : Lossless ChunkedReader.read readFinal readTransient
      (ChunkedReader.new (.interrupted front e rest))
      (ChunkedReader.new (Source.interrupted front e rest).steady)) :
    (decode id bounded (reached .size front).1 ((reached .size front).2 ++ rest)).ending =
      (decode id bounded (reached .size front).1.afterLoss rest).ending := by
  have hsize : State.Wf .size := by simp [State.Wf]
  have hafter : (reached .size front).1.afterLoss.Wf := by
    rw [resumes] at hno
    cases hst : (reached .size front).1 <;>
      simp_all [State.resumes, State.afterLoss, State.Wf]
  have hsteady : (Source.interrupted front e rest).steady =
      .pushBack front (.pushBack rest .done) := by
    simp [Source.interrupted, Source.steady, he]
  obtain ⟨log, hlog, -⟩ := h.ends (fun _ => 1) (by simp)
  have hsame := h.same log hlog
  rw [hsteady] at hsame
  have hwhole := ChunkedReader.concluded_of_clean (by simp [ChunkedReader.new, BufReader.new,
    BufReader.Clean, Source.Clean]) hsize hsame
  have htowards : (ChunkedReader.new (.interrupted front e rest)).Towards (reached .size front).1
      (reached .size front).2 e (.pushBack rest .done) :=
    ⟨hsize, by simp [ChunkedReader.new], front, ⟨front, rfl, rfl⟩, rfl⟩
  obtain ⟨r', log', hlog', ⟨hbuf, hinner⟩, hstate, heq⟩ :=
    ChunkedReader.concluded_of_towards htowards he hno hlog
  have hagain := ChunkedReader.concluded_of_clean (r := r') (by simp [BufReader.Clean, hinner,
    Source.Clean]) (hstate ▸ hafter) hlog'
  have hcontent : r'.content = rest := by
    simp [ChunkedReader.content, BufReader.content, hbuf, hinner, Source.content]
  rw [ChunkedReader.rest, hstate, hcontent] at hagain
  rw [← hagain, ← heq, ← concluded_filter, hwhole, ← decode_reached]
  simp [ChunkedReader.rest, ChunkedReader.content, BufReader.content, ChunkedReader.new,
    BufReader.new, Source.content]

/-- **Transient errors lose no framing.** The blocking decoder loses nothing over a source that
fails for the moment only inside payload, before the first byte of a chunk-size line or of the line
that closes a payload, or where decoding has ended. These are the places: behind any other bytes, a
single failure is followed by bytes that make it lose something. The async decoder loses nothing
over any source, in any framing.

**Proof sketch.** The decoder over the steady source shadows the other one: it stays where it is
while that one meets a transient error, and gives every other answer too. Asking ends since each
answer that is not final uses up some of the source. Behind other bytes the blocking decoder starts
over without them (`ending_eq_of_lossless`), and some bytes end differently so
(`exists_ending_ne`). -/
theorem transient_lossless (src : Source) (inner : BufReader) (chunked : Bool)
    (length : Option ℕ) :
    (src.Resumable → Lossless ChunkedReader.read readFinal readTransient (ChunkedReader.new src)
      (ChunkedReader.new src.steady)) ∧
    (∀ (front : List UInt8) (e : IoError), e.transient = true →
      ((∀ rest, Lossless ChunkedReader.read readFinal readTransient
        (ChunkedReader.new (.interrupted front e rest))
        (ChunkedReader.new (Source.interrupted front e rest).steady)) ↔
          resumes .size front = true)) ∧
    Lossless AsyncBody.pollRead pollFinal pollTransient (AsyncBody.new inner chunked length)
      (AsyncBody.new inner.steady chunked length) := by
  have hblocking : ∀ src : Source, src.Resumable →
      Lossless ChunkedReader.read readFinal readTransient (ChunkedReader.new src)
        (ChunkedReader.new src.steady) := by
    intro src h
    have hsteady : (ChunkedReader.new src).Steady := ⟨by simp [State.Wf, ChunkedReader.new], h⟩
    exact ChunkedReader.lossless hsteady
  refine ⟨hblocking src, fun front e he => ⟨fun h => ?_, fun h rest => hblocking _ ?_⟩,
    (AsyncBody.new inner chunked length).lossless⟩
  · by_contra hno
    rw [Bool.not_eq_true] at hno
    obtain ⟨s, hs⟩ := exists_ending_ne hno
    exact hs (ending_eq_of_lossless he hno (h s))
  · rw [Source.Resumable, Source.interrupted, Source.failsBehind_pushBack]
    exact ⟨fun _ => h, (Source.failsBehind_pushBack _ _).mpr trivial⟩

/-- A chunk whose source would block twice before it and once inside its payload: three failures,
and the payload arrives. Behind the first two bytes of its size line, a failure is one too many. -/
theorem transient_lossless_example :
    Lossless ChunkedReader.read readFinal readTransient
      (ChunkedReader.new (.fail ⟨.wouldBlock, "would block"⟩ (.fail ⟨.timedOut, "timed out"⟩
        (.bytes 50 [13, 10, 72] (.fail ⟨.wouldBlock, "would block"⟩
          (.bytes 105 [13, 10, 48, 13, 10, 13, 10] .done))))))
      (ChunkedReader.new
        (.bytes 50 [13, 10, 72] (.bytes 105 [13, 10, 48, 13, 10, 13, 10] .done))) ∧
    ¬ ∀ rest, Lossless ChunkedReader.read readFinal readTransient
      (ChunkedReader.new (.interrupted [50, 13] ⟨.timedOut, "timed out"⟩ rest))
      (ChunkedReader.new (Source.interrupted [50, 13] ⟨.timedOut, "timed out"⟩ rest).steady) := by
  have hresumable : Source.Resumable (.fail ⟨.wouldBlock, "would block"⟩
      (.fail ⟨.timedOut, "timed out"⟩ (.bytes 50 [13, 10, 72] (.fail ⟨.wouldBlock, "would block"⟩
        (.bytes 105 [13, 10, 48, 13, 10, 13, 10] .done))))) := by
    refine ⟨fun _ => ?_, ⟨fun _ => ?_, ⟨fun _ => ?_, trivial⟩⟩⟩ <;> decide +kernel
  obtain ⟨hthere, hbehind, -⟩ := transient_lossless _ (.new .done) true none
  refine ⟨hthere hresumable, fun h => ?_⟩
  have hresumes := (hbehind [50, 13] ⟨.timedOut, "timed out"⟩ rfl).mp h
  exact absurd hresumes (by decide +kernel)

/-- A source that would block between the carriage return and the line feed of a size line: the
blocking decoder drops the digit and refuses what is left of the line. -/
theorem size_line_lost :
    ¬ ∀ src : Source, Lossless ChunkedReader.read readFinal readTransient (ChunkedReader.new src)
      (ChunkedReader.new src.steady) := by
  intro h
  let src : Source := .bytes 49 [13] (.fail ⟨.wouldBlock, "would block"⟩
    (.bytes 10 [65, 13, 10, 48, 13, 10, 13, 10] .done))
  let r := ChunkedReader.new src
  have hfirst : (r.read 16).1 = .error ⟨.wouldBlock, "would block"⟩ := by decide +kernel
  have hagain : ((r.read 16).2.read 16).1 = .error (invalid "chunk size is not hex") := by
    decide +kernel
  have hsteady : ((ChunkedReader.new src.steady).read 16).1 = .ok [65] := by decide +kernel
  have hlog : Session ChunkedReader.read readFinal r
      [(16, .error ⟨.wouldBlock, "would block"⟩), (16, .error (invalid "chunk size is not hex"))] :=
    .more (by omega) (Prod.ext hfirst rfl) rfl (.last (by omega) (Prod.ext hagain rfl) rfl)
  have hsame : Session ChunkedReader.read readFinal (ChunkedReader.new src.steady)
      [(16, .error (invalid "chunk size is not hex"))] := (h src).same _ hlog
  have hhead := hsame.head_eq
  rw [hsteady] at hhead
  cases hhead

end Lager
