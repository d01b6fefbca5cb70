import Lager.Chunked.RoundTrip
import Mathlib.Logic.Relation

set_option relaxedAutoImplicit false
set_option autoImplicit false

/-!
# Where the two decoders agree

The async decoder is meant to be the blocking one for another kind of reader. It refuses
over-long lines by another rule, though: it looks at the length of a line only when a fetch
without the line feed ends. This file says exactly on which streams, split how, that
difference is seen.

## Main definitions

* `Lager.Walk` — the turns both decoders take alike.
* `Lager.OverLong` — a line the blocking decoder refuses and the async one does not.
* `Lager.Splits` — a place where the two part ways for good.

## Main results

* `Lager.decode_agree_iff` — the two rules decode a stream alike exactly when no such place is
  reached.
* `Lager.decoders_agree_iff` — the same for the two decoders.
* `Lager.decoders_disagree` — a stream they do not agree on.
-/

namespace Lager

/-- The places both decoders get to alike, with a line no longer than the blocking one reads. -/
def Walk : State × List Marked → State × List Marked → Prop :=
  Relation.ReflTransGen fun p q => ∃ bytes, turn Marked.byte bounded p.1 p.2 = .go bytes q.1 q.2

/-- A closed line of more than `maxSizeLine + 1` bytes, which the blocking decoder refuses, with
no fetch that ended late in it, so the async one does not. -/
structure OverLong (line : List Marked) (e : Marked) : Prop where
  text : ∀ x ∈ line, x.byte ≠ LF
  closed : e.byte = LF
  long : maxSizeLine + 1 < line.length
  notLate : fetchedLate line true = false

/-- Trailers the async decoder refuses for a line that was fetched late. -/
inductive TrailersRefused : List Marked → Prop
  | here {line more : List Marked} : (∀ x ∈ line, x.byte ≠ LF) → fetchedLate line true = true →
      TrailersRefused (line ++ more)
  | later {line rest : List Marked} {e : Marked} : (∀ x ∈ line, x.byte ≠ LF) → e.byte = LF →
      stripCr (line.map Marked.byte) ≠ [] → TrailersRefused rest →
      TrailersRefused (line ++ e :: rest)

/-- A place where the decoders part ways: a line is due, and the stream is about to end
`maxSizeLine + 1` bytes into it, or it is over-long and the async decoder does not come to
refuse the stream all the same. -/
inductive Splits : State → List Marked → Prop
  | cutOff {st : State} {s : List Marked} : st.AtLine → (∀ x ∈ s, x.byte ≠ LF) →
      s.length = maxSizeLine + 1 → Splits st s
  | size {line rest : List Marked} {e : Marked} {n : ℕ} : OverLong line e →
      parseSize (stripCr (line.map Marked.byte)) = .ok n → n ≠ 0 → Splits .size (line ++ e :: rest)
  | lastSize {line rest : List Marked} {e : Marked} : OverLong line e →
      parseSize (stripCr (line.map Marked.byte)) = .ok 0 → ¬ TrailersRefused rest →
      Splits .size (line ++ e :: rest)
  | trailer {line rest : List Marked} {e : Marked} : OverLong line e → ¬ TrailersRefused rest →
      Splits .trailers (line ++ e :: rest)

/-- The last byte of a stream ends a fetch. -/
def EndsFetched (s : List Marked) : Prop := ∀ x, s.getLast? = some x → x.ends = true

/-- What is left of such a stream is such a stream. -/
theorem EndsFetched.of_append {s s' : List Marked} (h : EndsFetched (s ++ s')) :
    EndsFetched s' := by
  intro x hx
  exact h x (by rw [List.getLast?_append, hx]; rfl)

/-- The bytes of a fetch end one. -/
theorem endsFetched_fetched (bs : List UInt8) : EndsFetched (fetched bs) := by
  fun_induction fetched bs with
  | case1 => simp [EndsFetched]
  | case2 b => simp [EndsFetched]
  | case3 b bs hne ih =>
    intro x hx
    have hne' : fetched bs ≠ [] := by
      rw [← List.length_pos_iff, length_fetched]
      exact List.length_pos_iff.mpr hne
    exact ih x (by rwa [List.getLast?_cons_of_ne_nil hne'] at hx)

/-- Fetches one after the other end one. -/
theorem EndsFetched.append {s s' : List Marked} (h : EndsFetched s) (h' : EndsFetched s') :
    EndsFetched (s ++ s') := by
  intro x hx
  rw [List.getLast?_append, Option.or_eq_some_iff] at hx
  rcases hx with hx | ⟨-, hx⟩
  · exact h' x hx
  · exact h x hx

/-- What a source hands over ends with a fetch. -/
theorem BufReader.endsFetched (r : BufReader) : EndsFetched r.fetches := by
  have hof : ∀ bs, EndsFetched (fetchesOf r.cap r.cap_pos bs) := by
    intro bs
    fun_induction fetchesOf r.cap r.cap_pos bs with
    | case1 => simp [EndsFetched]
    | case2 b bs ih => exact (endsFetched_fetched _).append ih
  have hsrc : ∀ src : Source, EndsFetched (src.fetches r.cap r.cap_pos) := by
    intro src
    induction src with
    | done => simp [EndsFetched, Source.fetches]
    | bytes b bs src ih => exact (hof _).append ih
    | fail e src ih => exact ih
    | pending src ih => exact ih
  exact (endsFetched_fetched _).append (hsrc _)

/-- A line and its line feed are found at one place only. -/
theorem line_unique {line line' rest rest' : List Marked} {e e' : Marked}
    (hl : ∀ x ∈ line, x.byte ≠ LF) (he : e.byte = LF) (hl' : ∀ x ∈ line', x.byte ≠ LF)
    (he' : e'.byte = LF) (h : line ++ e :: rest = line' ++ e' :: rest') :
    line = line' ∧ e = e' ∧ rest = rest' := by
  induction line generalizing line' with
  | nil =>
    cases line' with
    | nil => simpa using h
    | cons x line' =>
      obtain ⟨rfl, -⟩ := List.cons_eq_cons.mp h
      exact absurd he (hl' e (by simp))
  | cons y line ih =>
    cases line' with
    | nil =>
      obtain ⟨rfl, -⟩ := List.cons_eq_cons.mp h
      exact absurd he' (hl y (by simp))
    | cons x line' =>
      obtain ⟨rfl, htail⟩ := List.cons_eq_cons.mp h
      obtain ⟨rfl, hrest⟩ := ih (fun z hz => hl z (by simp [hz]))
        (fun z hz => hl' z (by simp [hz])) htail
      exact ⟨rfl, hrest⟩

/-- **Refused trailers.** Under the async rule, trailers decode to `InvalidData` exactly when
they are refused. -/
theorem decode_trailersRefused_iff (s : List Marked) :
    decode Marked.byte fetchedLate .trailers s = ⟨[], some .invalidData⟩ ↔ TrailersRefused s := by
  constructor
  · intro h
    induction hn : s.length using Nat.strong_induction_on generalizing s with
    | _ n ih =>
      obtain hl | ⟨line, e, rest, rfl, hl, he⟩ := line_cases Marked.byte s
      · have hnext : nextLine Marked.byte fetchedLate s = _ := nextLine_unclosed hl
        by_cases hnil : s = []
        · rw [if_pos hnil] at hnext
          rw [decode_line_closed .trailers hnext] at h
          simp [atClose] at h
        · rw [if_neg hnil] at hnext
          rw [decode_line_error .trailers hnext] at h
          -- the rule gives the same answer whether the line is closed or not
          have hlate : fetchedLate s false = true := by simpa using h
          rw [← List.append_nil s]
          exact .here hl hlate
      · have hnext : nextLine Marked.byte fetchedLate (line ++ e :: rest) = _ :=
          nextLine_cons hl he
        by_cases hlate : fetchedLate line true
        · exact .here hl hlate
        · rw [if_neg hlate] at hnext
          by_cases hnil : stripCr (line.map Marked.byte) = []
          · rw [decode_line .trailers hnext (congrArg Except.ok (if_pos hnil))] at h
            simp at h
          · rw [decode_line .trailers hnext (congrArg Except.ok (if_neg hnil))] at h
            refine .later hl he hnil (ih _ ?_ rest h rfl)
            rw [← hn, List.length_append, List.length_cons]
            omega
  · intro h
    induction h with
    | @here line more hl hlate =>
      exact decode_line_error .trailers (nextLine_late hl (fun _ => hlate) more)
    | @later line rest e hl he hne _ ih =>
      have hn : nextLine Marked.byte fetchedLate (line ++ e :: rest) = _ := nextLine_cons hl he
      by_cases hlate : fetchedLate line true
      · rw [if_pos hlate] at hn
        exact decode_line_error .trailers hn
      · rw [if_neg hlate] at hn
        rw [decode_line .trailers hn (congrArg Except.ok (if_neg hne))]
        exact ih

/-- Putting bytes in front keeps deliveries apart. -/
theorem Delivered.after_inj {bs : List UInt8} {d d' : Delivered} :
    d.after bs = d'.after bs ↔ d = d' := by
  cases d
  cases d'
  simp [Delivered.after]

/-- A chunk that is due is not refused for a line: it delivers bytes, or the stream ends in it. -/
theorem decode_data_ne {n : ℕ} (hn : n ≠ 0) (s : List Marked) :
    decode Marked.byte fetchedLate (.data n) s ≠ ⟨[], some .invalidData⟩ := by
  rw [decode_data]
  split_ifs with hs
  · simp
  · cases s with
    | nil => simp only [List.length_nil] at hs; omega
    | cons x s =>
      obtain ⟨k, rfl⟩ := Nat.exists_eq_succ_of_ne_zero hn
      simp [Delivered.after]

/-- A line the blocking decoder lets through, the async one lets through. -/
theorem nextLine_of_bounded {s rest : List Marked} {line : List UInt8}
    (h : nextLine Marked.byte bounded s = .ok (some (line, rest))) :
    nextLine Marked.byte fetchedLate s = .ok (some (line, rest)) := by
  obtain hl | ⟨l, e, r, rfl, hl, he⟩ := line_cases Marked.byte s
  · rw [nextLine_unclosed hl] at h
    split_ifs at h
    simp at h
  · rw [nextLine_cons hl he] at h ⊢
    split_ifs at h with hb
    have hlate : fetchedLate l true = false := by
      rw [fetchedLate, List.drop_eq_nil_of_le (by simpa [bounded] using hb)]
      rfl
    rw [hlate]
    exact h

/-- A turn the blocking decoder goes on from, both take alike. -/
theorem turn_of_bounded {st st' : State} {s rest : List Marked} {bytes : List UInt8}
    (h : turn Marked.byte bounded st s = .go bytes st' rest) :
    turn Marked.byte fetchedLate st s = .go bytes st' rest := by
  rw [turn_eq_go_iff] at h ⊢
  refine h.imp_left ?_
  rintro ⟨hst, hbytes, line, hn, ha⟩
  exact ⟨hst, hbytes, line, nextLine_of_bounded hn, ha⟩

/-- Where the blocking decoder goes on, the two do not part ways yet. -/
theorem not_splits_of_go {st st' : State} {s rest : List Marked} {bytes : List UInt8}
    (h : turn Marked.byte bounded st s = .go bytes st' rest) : ¬ Splits st s := by
  have key : ∀ {st : State} {k : ErrorKind}, st.AtLine → nextLine Marked.byte bounded s = .error k →
      turn Marked.byte bounded st s ≠ .go bytes st' rest := by
    intro st k hst hn h
    rw [turn_atLine hst, hn] at h
    simp at h
  have hlong : ∀ {line rest : List Marked} {e : Marked}, OverLong line e →
      nextLine Marked.byte bounded (line ++ e :: rest) = .error .invalidData := by
    intro line rest e ho
    rw [nextLine_cons ho.text ho.closed, if_pos (by simpa [bounded] using ho.long)]
  intro hs
  cases hs with
  | cutOff hst hl hlen =>
    refine key hst ((nextLine_unclosed hl).trans (if_neg ?_)) h
    rintro rfl
    simp at hlen
  | size ho _ _ => exact key .size (hlong ho) h
  | lastSize ho _ _ => exact key .size (hlong ho) h
  | trailer ho _ => exact key .trailers (hlong ho) h

/-- Over a line that is closed, the decoders part ways only if it is over-long, and by what it
means to the async one. -/
theorem splits_closed_iff {st : State} {line rest : List Marked} {e : Marked}
    (hl : ∀ x ∈ line, x.byte ≠ LF) (he : e.byte = LF) :
    Splits st (line ++ e :: rest) ↔ OverLong line e ∧
      match st with
      | .size => match parseSize (stripCr (line.map Marked.byte)) with
        | .error _ => False
        | .ok 0 => ¬ TrailersRefused rest
        | .ok _ => True
      | .trailers => ¬ TrailersRefused rest
      | _ => False := by
  constructor
  · intro h
    generalize hs : line ++ e :: rest = s at h
    cases h with
    | cutOff _ hn _ => exact absurd he (hn e (by simp [← hs]))
    | size ho hp hn =>
      obtain ⟨rfl, rfl, rfl⟩ := line_unique hl he ho.text ho.closed hs
      refine ⟨ho, ?_⟩
      simp only [hp]
    | lastSize ho hp ht =>
      obtain ⟨rfl, rfl, rfl⟩ := line_unique hl he ho.text ho.closed hs
      exact ⟨ho, by simpa only [hp] using ht⟩
    | trailer ho ht =>
      obtain ⟨rfl, rfl, rfl⟩ := line_unique hl he ho.text ho.closed hs
      exact ⟨ho, ht⟩
  · rintro ⟨ho, h⟩
    cases st with
    | size =>
      dsimp only at h
      split at h
      · exact h.elim
      · rename_i hp
        exact .lastSize ho hp h
      · rename_i n hn hp
        exact .size ho hp hn
    | trailers => exact .trailer ho h
    | _ => exact h.elim

/-- Over a stream with no line feed, they part ways only at one length. -/
theorem splits_unclosed_iff {st : State} (hst : st.AtLine) {s : List Marked}
    (hl : ∀ x ∈ s, x.byte ≠ LF) : Splits st s ↔ s.length = maxSizeLine + 1 := by
  constructor
  · intro h
    cases h with
    | cutOff _ _ hlen => exact hlen
    | size ho _ _ => exact absurd ho.closed (hl _ (by simp))
    | lastSize ho _ _ => exact absurd ho.closed (hl _ (by simp))
    | trailer ho _ => exact absurd ho.closed (hl _ (by simp))
  · exact .cutOff hst hl

/-- An over-long line is not empty, with or without a carriage return. -/
theorem OverLong.stripCr_ne {line : List Marked} {e : Marked} (h : OverLong line e) :
    stripCr (line.map Marked.byte) ≠ [] := by
  have hlen : (line.map Marked.byte).length ≤ (stripCr (line.map Marked.byte)).length + 1 := by
    rw [stripCr]
    split_ifs
    · rw [List.length_dropLast]
      omega
    · omega
  intro hnil
  have := h.long
  rw [hnil, List.length_map, List.length_nil] at hlen
  omega

/-- A stream with no line feed is refused as too long by both rules alike, but for the one length
that the blocking rule alone refuses. -/
theorem refuses_unclosed_iff {s : List Marked} (hs : EndsFetched s) (hne : s ≠ []) :
    bounded s false = fetchedLate s false ↔ s.length ≠ maxSizeLine + 1 := by
  have hb : bounded s false = decide (maxSizeLine < s.length) := by simp [bounded]
  rw [hb]
  rcases Nat.lt_or_ge (maxSizeLine + 1) s.length with h | h
  · -- the fetch that ended the stream ended past the limit
    have hdrop : s.drop (maxSizeLine + 1) ≠ [] := by simpa using h
    have hlast : (s.drop (maxSizeLine + 1)).getLast hdrop ∈ s.drop (maxSizeLine + 1) :=
      List.getLast_mem hdrop
    have hends : ((s.drop (maxSizeLine + 1)).getLast hdrop).ends = true := by
      refine hs _ ?_
      rw [List.getLast_drop hdrop, List.getLast?_eq_some_getLast hne]
    have hlate : fetchedLate s false = true := List.any_eq_true.mpr ⟨_, hlast, hends⟩
    rw [hlate, decide_eq_true (by omega)]
    simp only [true_iff]
    omega
  · have hlate : fetchedLate s false = false := by
      rw [fetchedLate, List.drop_eq_nil_of_le h]
      rfl
    rw [hlate, decide_eq_false_iff_not]
    omega

/-- Where the blocking decoder stops at the end of the stream, the async one delivers the same
unless they part ways. -/
theorem decode_unclosed_iff {st : State} (hst : st.AtLine) {s : List Marked}
    (hs : EndsFetched s) (hl : ∀ x ∈ s, x.byte ≠ LF) :
    decode Marked.byte bounded st s = decode Marked.byte fetchedLate st s ↔ ¬ Splits st s := by
  rw [splits_unclosed_iff hst hl]
  have hb : nextLine Marked.byte bounded s = _ := nextLine_unclosed hl
  have hf : nextLine Marked.byte fetchedLate s = _ := nextLine_unclosed hl
  by_cases hne : s = []
  · rw [if_pos hne] at hb hf
    rw [decode_line_closed hst hb, decode_line_closed hst hf]
    simp [hne]
  · rw [if_neg hne] at hb hf
    rw [decode_line_error hst hb, decode_line_error hst hf, ← Ne, ← refuses_unclosed_iff hs hne]
    cases bounded s false <;> cases fetchedLate s false <;> simp

/-- Where the blocking decoder refuses an over-long line, the async one refuses the stream as
well unless they part ways. -/
theorem decode_overLong_iff {st : State} (hst : st.AtLine) {line rest : List Marked}
    {e : Marked} (ho : OverLong line e) :
    decode Marked.byte fetchedLate st (line ++ e :: rest) = ⟨[], some .invalidData⟩ ↔
      ¬ Splits st (line ++ e :: rest) := by
  have hn : nextLine Marked.byte fetchedLate (line ++ e :: rest) = _ :=
    nextLine_cons ho.text ho.closed
  rw [ho.notLate, if_neg (by simp)] at hn
  rw [splits_closed_iff ho.text ho.closed]
  cases hst with
  | size =>
    rcases hp : parseSize (stripCr (line.map Marked.byte)) with err | _ | n
    · have ha : afterLine .size (stripCr (line.map Marked.byte)) = .error .invalidData := by
        simp [afterLine, hp, parseSize_error hp]
      rw [decode_line_refused .size hn ha]
      simp
    · have ha : afterLine .size (stripCr (line.map Marked.byte)) = .ok .trailers := by
        simp [afterLine, hp]
      rw [decode_line .size hn ha, decode_trailersRefused_iff]
      simp [ho]
    · have ha : afterLine .size (stripCr (line.map Marked.byte)) = .ok (.data (n + 1)) := by
        simp [afterLine, hp]
      rw [decode_line .size hn ha]
      simp [ho, decode_data_ne]
  | dataEnd =>
    rw [decode_line_refused .dataEnd hn (if_neg ho.stripCr_ne)]
    simp
  | trailers =>
    rw [decode_line .trailers hn (congrArg Except.ok (if_neg ho.stripCr_ne)),
      decode_trailersRefused_iff]
    simp [ho]

/-- Where the blocking decoder stops at a closed line, the async one delivers the same unless
they part ways. -/
theorem decode_closed_iff {st : State} {d : Delivered} (hst : st.AtLine)
    {line rest : List Marked} {e : Marked} (hl : ∀ x ∈ line, x.byte ≠ LF) (he : e.byte = LF)
    (h : turn Marked.byte bounded st (line ++ e :: rest) = .stop d) :
    d = decode Marked.byte fetchedLate st (line ++ e :: rest) ↔
      ¬ Splits st (line ++ e :: rest) := by
  have hb : nextLine Marked.byte bounded (line ++ e :: rest) = _ := nextLine_cons hl he
  by_cases hlong : bounded line true
  · rw [if_pos hlong] at hb
    have hd : d = ⟨[], some .invalidData⟩ := by
      rw [← decode_stop h, decode_line_error hst hb]
    by_cases hlate : fetchedLate line true
    · have hf : nextLine Marked.byte fetchedLate (line ++ e :: rest) = _ := nextLine_cons hl he
      rw [if_pos hlate] at hf
      have hns : ¬ Splits st (line ++ e :: rest) := by
        rw [splits_closed_iff hl he]
        rintro ⟨ho, -⟩
        simp [ho.notLate] at hlate
      rw [hd, decode_line_error hst hf]
      simpa using hns
    · have ho : OverLong line e :=
        ⟨hl, he, by simpa [bounded] using hlong, by simpa using hlate⟩
      rw [hd, ← decode_overLong_iff hst ho]
      exact eq_comm
  · rw [if_neg hlong] at hb
    have hns : ¬ Splits st (line ++ e :: rest) := by
      rw [splits_closed_iff hl he]
      rintro ⟨ho, -⟩
      exact hlong (by simpa [bounded] using ho.long)
    have hf := nextLine_of_bounded hb
    have hd : d = decode Marked.byte fetchedLate st (line ++ e :: rest) := by
      rw [turn_atLine hst, hb] at h
      rcases ha : afterLine st (stripCr (line.map Marked.byte)) with k | st'
      · rw [decode_line_refused hst hf ha]
        simpa [ha] using h.symm
      · simp [ha] at h
    simp [← hd, hns]

/-- Where the blocking decoder stops, the async one delivers the same unless they part ways. -/
theorem decode_stop_iff {st : State} {s : List Marked} {d : Delivered} (hs : EndsFetched s)
    (h : turn Marked.byte bounded st s = .stop d) :
    d = decode Marked.byte fetchedLate st s ↔ ¬ Splits st s := by
  have hline : ∀ {st : State}, st.AtLine → turn Marked.byte bounded st s = .stop d →
      (d = decode Marked.byte fetchedLate st s ↔ ¬ Splits st s) := by
    intro st hst h
    obtain hl | ⟨line, e, rest, rfl, hl, he⟩ := line_cases Marked.byte s
    · rw [← decode_unclosed_iff hst hs hl, decode_stop h]
    · exact decode_closed_iff hst hl he h
  have hsame : ∀ {st : State}, ¬ st.AtLine → (¬ Splits st s) := by
    rintro st hst ⟨⟩ <;> first | exact hst ‹_› | exact hst .size | exact hst .trailers
  cases st with
  | size => exact hline .size h
  | dataEnd => exact hline .dataEnd h
  | trailers => exact hline .trailers h
  | done =>
    have ht : turn Marked.byte fetchedLate .done s = .stop d := h
    exact iff_of_true (decode_stop ht).symm (hsame (by rintro ⟨⟩))
  | data left =>
    have ht : turn Marked.byte fetchedLate (.data left) s = .stop d := h
    exact iff_of_true (decode_stop ht).symm (hsame (by rintro ⟨⟩))

/-- **Where the two rules agree.** They decode a stream alike exactly when the turns they take
alike lead to no place where they part ways.

**Proof sketch.** Induction on the blocking run. A turn it goes on from is a turn the async
decoder takes as well, with the same bytes; where it stops, the lemmas above compare what the
async decoder does with the line that is due. -/
theorem decode_agree_iff {st : State} {s : List Marked} (hs : EndsFetched s) :
    decode Marked.byte bounded st s = decode Marked.byte fetchedLate st s ↔
      ¬ ∃ st' s', Walk (st, s) (st', s') ∧ Splits st' s' := by
  fun_induction decode Marked.byte bounded st s with
  | case1 st s d h =>
    rw [decode_stop_iff hs h, not_iff_not]
    constructor
    · exact fun hsp => ⟨st, s, .refl, hsp⟩
    · rintro ⟨st', s', hwalk, hsp⟩
      rcases Relation.ReflTransGen.cases_head hwalk with heq | ⟨⟨st'', s''⟩, ⟨bytes, hgo⟩, -⟩
      · obtain ⟨rfl, rfl⟩ := Prod.mk.inj heq
        exact hsp
      · simp [h] at hgo
  | case2 st s bytes st' rest h ih =>
    have hrest : EndsFetched rest := by
      obtain ⟨front, rfl⟩ := turn_suffix h
      exact hs.of_append
    rw [decode_go (turn_of_bounded h), Delivered.after_inj, ih hrest, not_iff_not]
    constructor
    · rintro ⟨st₁, s₁, hwalk, hsp⟩
      exact ⟨st₁, s₁, .head ⟨bytes, h⟩ hwalk, hsp⟩
    · rintro ⟨st₁, s₁, hwalk, hsp⟩
      rcases Relation.ReflTransGen.cases_head hwalk with heq | ⟨⟨st₂, s₂⟩, ⟨bytes', hgo⟩, htail⟩
      · obtain ⟨rfl, rfl⟩ := Prod.mk.inj heq
        exact absurd hsp (not_splits_of_go h)
      · simp only [h, Turn.go.injEq] at hgo
        obtain ⟨-, rfl, rfl⟩ := hgo
        exact ⟨st₁, s₁, htail, hsp⟩

/-! ## The decoders -/

/-- The blocking decoder reads any source like its bytes, however they are marked. -/
theorem ChunkedReader.rest_new {src : Source} {s : List Marked}
    (h : s.map Marked.byte = src.content) :
    (ChunkedReader.new src).rest = decode Marked.byte bounded .size s := by
  have hc : (ChunkedReader.new src).content = s.map Marked.byte := h.symm
  rw [ChunkedReader.rest_eq rfl, hc, decode_map]
  congr 1
  funext line closed
  simp [bounded]

/-- Over the same bytes, the decoders deliver the same exactly if their rules decode the async
one's fetches alike. -/
theorem drain_eq_iff {src : Source} {inner : BufReader} (hsrc : src.Clean)
    (hinner : inner.Clean) (hsame : src.content = inner.content) (length : Option ℕ)
    {bufs bufs' : ℕ → ℕ} (hbufs : ∀ i, 0 < bufs i) (hbufs' : ∀ i, 0 < bufs' i) :
    ((ChunkedReader.new src).drain bufs 0).1 =
        ((AsyncBody.new inner true length).drain bufs' 0).1 ↔
      decode Marked.byte bounded .size inner.fetches =
        decode Marked.byte fetchedLate .size inner.fetches := by
  have hblocking := (ChunkedReader.drain_eq_decode hbufs 0 (r := ChunkedReader.new src) hsrc
    (by simp [ChunkedReader.new, State.Wf])).1
  have hasync := (AsyncBody.drain_eq_decode hbufs' 0 (AsyncBody.ready_new hinner length)).1
  have hbytes : inner.fetches.map Marked.byte = src.content := by
    rw [BufReader.map_byte_fetches, hsame]
  rw [hblocking, hasync, ChunkedReader.rest_new hbytes]
  rfl

/-- **Where the two decoders agree.** Over sources that hand over the same bytes and do not
fail, split over reads in any two ways and read with any non-empty caller buffers, the two
decoders deliver the same bytes and the same kind of end exactly when the turns they take
alike lead the async one's fetches to no place where they part ways. -/
theorem decoders_agree_iff {src : Source} {inner : BufReader} (hsrc : src.Clean)
    (hinner : inner.Clean) (hsame : src.content = inner.content) (length : Option ℕ)
    {bufs bufs' : ℕ → ℕ} (hbufs : ∀ i, 0 < bufs i) (hbufs' : ∀ i, 0 < bufs' i) :
    ((ChunkedReader.new src).drain bufs 0).1 =
        ((AsyncBody.new inner true length).drain bufs' 0).1 ↔
      ¬ ∃ st s, Walk (.size, inner.fetches) (st, s) ∧ Splits st s := by
  rw [drain_eq_iff hsrc hinner hsame length hbufs hbufs']
  exact decode_agree_iff inner.endsFetched

/-- A source with one arrival, no larger than a fetch. -/
theorem fetches_new_bytes {b : UInt8} {bs : List UInt8} (h : bs.length < defaultBufSize) :
    (BufReader.new (.bytes b bs .done)).fetches = fetched (b :: bs) := by
  have htake : (b :: bs).take defaultBufSize = b :: bs := List.take_of_length_le h
  have hdrop : (b :: bs).drop defaultBufSize = [] := List.drop_eq_nil_of_le h
  rw [BufReader.fetches, BufReader.new, Source.fetches, fetchesOf, htake, hdrop]
  simp [fetchesOf, Source.fetches, fetched]

/-- A size line with a long extension, in one arrival with what follows. -/
theorem splits_longExtension {t : List UInt8} (ht : OnLine t) (hlong : maxSizeLine ≤ t.length)
    (more : List UInt8) (hfit : (semicolon :: t ++ LF :: more).length < defaultBufSize) :
    Splits .size (BufReader.new (.bytes 49 (semicolon :: t ++ LF :: more) .done)).fetches := by
  have hdigits : HexDigits 1 [49] :=
    ⟨by decide, List.forall_mem_singleton.mpr (by decide), by decide⟩
  have honline : OnLine ([49] ++ semicolon :: t) := onLine_sizeLine hdigits (.present ht)
  obtain ⟨e, he, hcons⟩ := fetched_cons LF more
  have hfetches : (BufReader.new (.bytes 49 (semicolon :: t ++ LF :: more) .done)).fetches =
      unfetched ([49] ++ semicolon :: t) ++ e :: fetched more := by
    rw [fetches_new_bytes hfit, ← hcons, ← fetched_append (by simp)]
    simp
  rw [hfetches]
  refine .size ⟨ne_lf_of_bytes ?_, he, ?_, fetchedLate_unfetched _ _⟩ ?_ (by decide : 1 ≠ 0)
  · rw [map_byte_unfetched]
    exact honline.2
  · simp only [length_unfetched, List.length_append, List.length_cons, List.length_nil]
    omega
  · rw [map_byte_unfetched, stripCr_of_onLine honline]
    exact parseSize_sizeLine (by decide) hdigits (.present ht)

/-- A size line with an extension of 1030 bytes, in one arrival with its chunk: the blocking
decoder refuses it, the async one does not. -/
theorem decoders_part_at_longExtension :
    let bs := semicolon :: List.replicate 1030 120 ++ LF :: [97, CR, LF]
    ((ChunkedReader.new (.bytes 49 bs .done)).drain (fun _ => 7) 0).1 ≠
      ((AsyncBody.new (BufReader.new (.bytes 49 bs .done)) true none).drain (fun _ => 7) 0).1 := by
  intro bs
  have hclean : (Source.bytes 49 bs .done).Clean := trivial
  have honline : OnLine (List.replicate 1030 120) := by
    simp [OnLine, CR, LF, List.mem_replicate, -List.reduceReplicate]
  have hsplit : Splits .size (BufReader.new (.bytes 49 bs .done)).fetches :=
    splits_longExtension honline (by simp [maxSizeLine, -List.reduceReplicate]) [97, CR, LF]
      (by simp [defaultBufSize, -List.reduceReplicate])
  have hbufs : ∀ i : ℕ, 0 < (fun _ => 7) i := fun _ => Nat.succ_pos _
  have hagree := decoders_agree_iff hclean (show (BufReader.new _).Clean from hclean) rfl none
    hbufs hbufs
  exact fun heq => hagree.mp heq ⟨_, _, .refl, hsplit⟩

/-- 1025 bytes `1` and no line feed: the blocking decoder says the line is too long, the async
one that the stream ended in it. -/
theorem decoders_disagree :
    ¬ ∀ src : Source, src.Clean → ∀ bufs : ℕ → ℕ, (∀ i, 0 < bufs i) →
      ((ChunkedReader.new src).drain bufs 0).1 =
        ((AsyncBody.new (BufReader.new src) true none).drain bufs 0).1 := by
  intro hagree
  have hclean : (Source.bytes 49 (List.replicate 1024 49) .done).Clean := trivial
  have hfetches : (BufReader.new (.bytes 49 (List.replicate 1024 49) .done)).fetches =
      fetched (49 :: List.replicate 1024 49) :=
    fetches_new_bytes (by simp [defaultBufSize, -List.reduceReplicate])
  have hl : ∀ x ∈ fetched (49 :: List.replicate 1024 49), x.byte ≠ LF :=
    ne_lf_of_bytes (by simp [LF, List.mem_replicate, -List.reduceReplicate])
  have hbufs : ∀ i : ℕ, 0 < (fun _ => 1) i := fun _ => Nat.one_pos
  have heq := hagree _ hclean _ hbufs
  rw [drain_eq_iff hclean (show (BufReader.new _).Clean from hclean) rfl none hbufs hbufs, hfetches,
    decode_unclosed_iff .size (endsFetched_fetched _) hl, splits_unclosed_iff .size hl] at heq
  exact heq (by simp [maxSizeLine, -List.reduceReplicate])

end Lager
