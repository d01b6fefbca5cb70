import Lager.Chunked.Reader

set_option relaxedAutoImplicit false
set_option autoImplicit false

/-!
# Chunk framing as a function of the stream

What a chunk decoder computes, with the reads, polls and caller buffers taken out: a function
from the whole stream to the bytes delivered and the way the body ends. The two decoders of
the crate read their lines by different means and refuse over-long ones by different rules,
so the function takes the rule as a parameter. The stream is a list of elements that carry a
byte each: the blocking rule looks at bytes alone, the async rule also at where each fetch
from the source ended.

## Main definitions

* `Lager.nextLine` — the line at the front of a stream, under a rule for refusing it.
* `Lager.afterLine`, `Lager.atClose` — what a line, or the end of the stream, means to a state.
* `Lager.turn`, `Lager.decode` — one turn of the decoder, and its run.
* `Lager.bounded` — the rule of `Lager.ChunkedReader`: by length.
* `Lager.Marked`, `Lager.fetched`, `Lager.fetchedLate` — bytes with the ends of fetches marked, and
  the rule of `Lager.AsyncBody`: by a fetch that ended past the limit.

## Main results

* `Lager.nextLine_cons`, `Lager.nextLine_unclosed` — a line, by whether its line feed is there.
* `Lager.decode_stop`, `Lager.decode_go` — a run, by its first turn.
* `Lager.decode_data_add` — a payload may be taken in any pieces.
* `Lager.decode_map` — decoding looks at nothing but bytes and the rule's answers.
-/

namespace Lager

/-- A line without the carriage return it may end in. -/
def stripCr (line : List UInt8) : List UInt8 :=
  if line.getLast? = some CR then line.dropLast else line

/-- `chomp` drops the line feed, then the carriage return. -/
@[simp] theorem chomp_append_lf (line : List UInt8) : chomp (line ++ [LF]) = stripCr line := by
  simp [chomp, stripCr]

/-- The state a line leads to, or the error it is refused with. -/
def afterLine : State → List UInt8 → Except ErrorKind State
  | .size, line =>
    match parseSize line with
    | .error e => .error e.kind
    | .ok 0 => .ok .trailers
    | .ok size => .ok (.data size)
  | .dataEnd, line => if line = [] then .ok .size else .error .invalidData
  | .trailers, line => .ok (if line = [] then .done else .trailers)
  | st, _ => .ok st

/-- How the body ends when the stream does where a line is due. -/
def atClose : State → Option ErrorKind
  | .dataEnd => some .unexpectedEof
  | _ => none

section Decode

variable {β : Type} (byte : β → UInt8) (refuses : List β → Bool → Bool)

/-- The line at the front of the stream and what follows it, `none` at the end of the stream.
`refuses line closed` is the rule for over-long lines: `line` is everything before the line
feed, `closed` whether there is one. -/
def nextLine (s : List β) : Except ErrorKind (Option (List UInt8 × List β)) :=
  let line := s.takeWhile (byte · != LF)
  match s.dropWhile (byte · != LF) with
  | [] =>
    if line = [] then .ok none
    else .error (if refuses line false then .invalidData else .unexpectedEof)
  | _ :: rest =>
    if refuses line true then .error .invalidData
    else .ok (some (stripCr (line.map byte), rest))

variable {byte refuses}

/-- A line whose line feed is there. -/
theorem nextLine_cons {line rest : List β} {e : β} (hl : ∀ x ∈ line, byte x ≠ LF)
    (he : byte e = LF) :
    nextLine byte refuses (line ++ e :: rest) =
      if refuses line true then .error .invalidData
      else .ok (some (stripCr (line.map byte), rest)) := by
  have ht : (line ++ e :: rest).takeWhile (byte · != LF) = line := by
    rw [List.takeWhile_append_of_pos (by simpa using hl)]
    simp [he]
  have hd : (line ++ e :: rest).dropWhile (byte · != LF) = e :: rest := by
    rw [List.dropWhile_append_of_pos (by simpa using hl)]
    simp [he]
  simp only [nextLine, ht, hd]

/-- A stream without a line feed. -/
theorem nextLine_unclosed {line : List β} (hl : ∀ x ∈ line, byte x ≠ LF) :
    nextLine byte refuses line =
      if line = [] then .ok none
      else .error (if refuses line false then .invalidData else .unexpectedEof) := by
  have ht : line.takeWhile (byte · != LF) = line := by
    have h : (line ++ []).takeWhile (byte · != LF) = line ++ [].takeWhile (byte · != LF) :=
      List.takeWhile_append_of_pos (by simpa using hl)
    simpa using h
  have hd : line.dropWhile (byte · != LF) = [] := by
    have h : (line ++ []).dropWhile (byte · != LF) = [].dropWhile (byte · != LF) :=
      List.dropWhile_append_of_pos (by simpa using hl)
    simpa using h
  simp only [nextLine, ht, hd]

/-- A stream begins with a closed line or has no line feed at all. -/
theorem line_cases (byte : β → UInt8) (s : List β) :
    (∀ x ∈ s, byte x ≠ LF) ∨
      ∃ line e rest, s = line ++ e :: rest ∧ (∀ x ∈ line, byte x ≠ LF) ∧ byte e = LF := by
  induction s with
  | nil => exact .inl (by simp)
  | cons x s ih =>
    by_cases hx : byte x = LF
    · exact .inr ⟨[], x, s, rfl, by simp, hx⟩
    · obtain h | ⟨line, e, rest, rfl, hl, he⟩ := ih
      · exact .inl (by simpa [hx] using h)
      · exact .inr ⟨x :: line, e, rest, rfl, by simpa [hx] using hl, he⟩

/-- What follows a line is what the stream ends with. -/
theorem nextLine_suffix {s rest : List β} {line : List UInt8}
    (h : nextLine byte refuses s = .ok (some (line, rest))) : ∃ l e, s = l ++ e :: rest := by
  obtain hl | ⟨l, e, r, rfl, hl, he⟩ := line_cases byte s
  · rw [nextLine_unclosed hl] at h
    split_ifs at h
    simp at h
  · rw [nextLine_cons hl he] at h
    split_ifs at h
    simp only [Except.ok.injEq, Option.some.injEq, Prod.mk.injEq] at h
    exact ⟨l, e, by rw [h.2]⟩

variable (byte refuses)

/-- One turn of the decoder: it stops, or it delivers bytes and goes on in another state. -/
inductive Turn (β : Type)
  | stop (d : Delivered)
  | go (bytes : List UInt8) (st : State) (rest : List β)

/-- The turn a decoder takes in a state. -/
def turn (st : State) (s : List β) : Turn β :=
  match st with
  | .done => .stop ⟨[], none⟩
  | .data left =>
    if s.length < left then .stop ⟨s.map byte, some .unexpectedEof⟩
    else .go ((s.take left).map byte) .dataEnd (s.drop left)
  | st =>
    match nextLine byte refuses s with
    | .error kind => .stop ⟨[], some kind⟩
    | .ok none => .stop ⟨[], atClose st⟩
    | .ok (some (line, rest)) =>
      match afterLine st line with
      | .error kind => .stop ⟨[], some kind⟩
      | .ok st => .go [] st rest

/-- The states in which the decoder reads a line. -/
inductive State.AtLine : State → Prop
  | size : AtLine .size
  | dataEnd : AtLine .dataEnd
  | trailers : AtLine .trailers

variable {byte refuses}

/-- The turn where a line is due, by the line. -/
theorem turn_atLine {st : State} (hst : st.AtLine) (s : List β) :
    turn byte refuses st s =
      match nextLine byte refuses s with
      | .error kind => .stop ⟨[], some kind⟩
      | .ok none => .stop ⟨[], atClose st⟩
      | .ok (some (line, rest)) =>
        match afterLine st line with
        | .error kind => .stop ⟨[], some kind⟩
        | .ok st => .go [] st rest := by
  cases hst <;> rfl

/-- **A turn that goes on.** Either a line is due, and it leads to the next state, or a payload is
due and all of it is there. -/
theorem turn_eq_go_iff {st st' : State} {s rest : List β} {bytes : List UInt8} :
    turn byte refuses st s = .go bytes st' rest ↔
      (st.AtLine ∧ bytes = [] ∧ ∃ line, nextLine byte refuses s = .ok (some (line, rest)) ∧
        afterLine st line = .ok st') ∨
      ∃ left, st = .data left ∧ left ≤ s.length ∧ bytes = (s.take left).map byte ∧
        st' = .dataEnd ∧ rest = s.drop left := by
  constructor
  · intro h
    have hline : st.AtLine → st.AtLine ∧ bytes = [] ∧ ∃ line,
        nextLine byte refuses s = .ok (some (line, rest)) ∧ afterLine st line = .ok st' := by
      intro hst
      rw [turn_atLine hst] at h
      split at h
      · cases h
      · cases h
      · rename_i line rest' hn
        split at h
        · cases h
        · rename_i st'' ha
          obtain ⟨rfl, rfl, rfl⟩ := Turn.go.inj h
          exact ⟨hst, rfl, line, hn, ha⟩
    cases st with
    | size => exact .inl (hline .size)
    | dataEnd => exact .inl (hline .dataEnd)
    | trailers => exact .inl (hline .trailers)
    | done => cases h
    | data left =>
      rw [turn] at h
      split_ifs at h with hlt
      obtain ⟨rfl, rfl, rfl⟩ := Turn.go.inj h
      exact .inr ⟨left, rfl, Nat.le_of_not_lt hlt, rfl, rfl, rfl⟩
  · rintro (⟨hst, rfl, line, hn, ha⟩ | ⟨left, rfl, hle, rfl, rfl, rfl⟩)
    · rw [turn_atLine hst, hn]
      simp only [ha]
    · exact if_neg (Nat.not_lt.mpr hle)

/-- The turn a payload is worth beyond its bytes. -/
def State.weight : State → ℕ
  | .data _ => 1
  | _ => 0

/-- What is left to decode: the stream, and a payload to leave. -/
def decodeWork (st : State) (s : List β) : ℕ := 2 * s.length + st.weight

/-- A turn that goes on leaves less to decode. -/
theorem turn_work {st st' : State} {s rest : List β} {bytes : List UInt8}
    (h : turn byte refuses st s = .go bytes st' rest) : decodeWork st' rest < decodeWork st s := by
  have hweight : st'.weight ≤ 1 := by cases st' <;> simp [State.weight]
  rcases turn_eq_go_iff.mp h with ⟨-, -, line, hn, -⟩ | ⟨left, rfl, -, -, rfl, rfl⟩
  · obtain ⟨l, e, rfl⟩ := nextLine_suffix hn
    rw [decodeWork, decodeWork, List.length_append, List.length_cons]
    omega
  · simp only [decodeWork, State.weight, List.length_drop]
    omega

/-- A turn that goes on leaves what the stream ends with. -/
theorem turn_suffix {st st' : State} {s rest : List β} {bytes : List UInt8}
    (h : turn byte refuses st s = .go bytes st' rest) : ∃ front, s = front ++ rest := by
  rcases turn_eq_go_iff.mp h with ⟨-, -, line, hn, -⟩ | ⟨left, -, -, -, -, rfl⟩
  · obtain ⟨l, e, rfl⟩ := nextLine_suffix hn
    exact ⟨l ++ [e], by rw [List.append_assoc, List.singleton_append]⟩
  · exact ⟨s.take left, (List.take_append_drop left s).symm⟩

variable (byte refuses)

/-- What reading the stream from a state delivers, and how it ends. -/
def decode (st : State) (s : List β) : Delivered :=
  match _h : turn byte refuses st s with
  | .stop d => d
  | .go bytes st rest => (decode st rest).after bytes
termination_by decodeWork st s
decreasing_by exact turn_work _h

variable {byte refuses}

/-- A run whose first turn stops. -/
theorem decode_stop {st : State} {s : List β} {d : Delivered}
    (h : turn byte refuses st s = .stop d) : decode byte refuses st s = d := by
  rw [decode]
  split <;> simp_all

/-- A run whose first turn goes on. -/
theorem decode_go {st st' : State} {s rest : List β} {bytes : List UInt8}
    (h : turn byte refuses st s = .go bytes st' rest) :
    decode byte refuses st s = (decode byte refuses st' rest).after bytes := by
  rw [decode]
  split <;> simp_all

/-- Once done, nothing more is delivered. -/
@[simp] theorem decode_done (s : List β) : decode byte refuses .done s = ⟨[], none⟩ :=
  decode_stop rfl

/-- Where a line is due and the stream does not give one. -/
theorem decode_line_error {st : State} (hst : st.AtLine) {s : List β} {kind : ErrorKind}
    (h : nextLine byte refuses s = .error kind) : decode byte refuses st s = ⟨[], some kind⟩ :=
  decode_stop (by rw [turn_atLine hst, h])

/-- Where a line is due and the stream is over. -/
theorem decode_line_closed {st : State} (hst : st.AtLine) {s : List β}
    (h : nextLine byte refuses s = .ok none) : decode byte refuses st s = ⟨[], atClose st⟩ :=
  decode_stop (by rw [turn_atLine hst, h])

/-- Where a line is due and the one that comes will not do. -/
theorem decode_line_refused {st : State} (hst : st.AtLine) {s rest : List β}
    {line : List UInt8} {kind : ErrorKind}
    (h : nextLine byte refuses s = .ok (some (line, rest))) (ha : afterLine st line = .error kind) :
    decode byte refuses st s = ⟨[], some kind⟩ :=
  decode_stop (by rw [turn_atLine hst, h]; simp only [ha])

/-- Where a line is due and comes. -/
theorem decode_line {st st' : State} (hst : st.AtLine) {s rest : List β} {line : List UInt8}
    (h : nextLine byte refuses s = .ok (some (line, rest))) (ha : afterLine st line = .ok st') :
    decode byte refuses st s = decode byte refuses st' rest := by
  have ht : turn byte refuses st s = .go [] st' rest := by
    rw [turn_atLine hst, h]
    simp only [ha]
  rw [decode_go ht, Delivered.after_nil]

/-- Where payload is due, it is delivered as far as the stream goes. -/
theorem decode_data (left : ℕ) (s : List β) :
    decode byte refuses (.data left) s =
      if s.length < left then ⟨s.map byte, some .unexpectedEof⟩
      else (decode byte refuses .dataEnd (s.drop left)).after ((s.take left).map byte) := by
  split_ifs with hs
  · exact decode_stop (if_pos hs)
  · exact decode_go (if_neg hs)

/-- **Payload in pieces.** The first `k` bytes of a payload of `k + m` may be delivered ahead
of the rest. -/
theorem decode_data_add {k m : ℕ} {s : List β} (hk : k ≤ s.length) :
    decode byte refuses (.data (k + m)) s =
      (decode byte refuses (.data m) (s.drop k)).after ((s.take k).map byte) := by
  rw [decode_data, decode_data, List.length_drop]
  by_cases hs : s.length < k + m
  · rw [if_pos hs, if_pos (by omega), Delivered.after, ← List.map_append, List.take_append_drop]
  · rw [if_neg hs, if_neg (by omega), Delivered.after_after, ← List.map_append,
      List.drop_drop, List.take_add]

/-- A payload with nothing left is over. -/
@[simp] theorem decode_data_zero (s : List β) :
    decode byte refuses (.data 0) s = decode byte refuses .dataEnd s := by
  simp [decode_data]

/-- A payload of which some bytes have been taken off the stream is in the middle, or over. -/
theorem decode_data_take {k left : ℕ} {bs : List UInt8} {s s' : List β} (hl : k ≤ left)
    (hk : k ≤ s.length) (hs : s' = s.drop k) (hbs : bs = (s.take k).map byte) :
    decode byte refuses (.data left) s =
      (decode byte refuses (if left - k = 0 then .dataEnd else .data (left - k)) s').after bs := by
  obtain ⟨m, rfl⟩ := Nat.exists_eq_add_of_le hl
  rw [decode_data_add hk, Nat.add_sub_cancel_left, hs, hbs]
  split_ifs with h0
  · rw [h0, decode_data_zero]
  · rfl

/-- A stream that ends inside a payload. -/
theorem decode_data_nil {left : ℕ} (hl : left ≠ 0) :
    decode byte refuses (.data left) [] = ⟨[], some .unexpectedEof⟩ := by
  have hlt : ([] : List β).length < left := Nat.pos_of_ne_zero hl
  rw [decode_data, if_pos hlt, List.map_nil]

/-- Two streams with the same next line decode the same way wherever a line is due. -/
theorem decode_congr {s s' : List β} (h : nextLine byte refuses s = nextLine byte refuses s')
    {st : State} (hst : st.AtLine) : decode byte refuses st s = decode byte refuses st s' := by
  rw [decode, decode, turn_atLine hst, turn_atLine hst, h]

end Decode

/-- Lines, like decoding, look at nothing but bytes and the rule's answers. -/
theorem nextLine_map {β γ : Type} (f : γ → β) (byte : β → UInt8) (refuses : List β → Bool → Bool)
    (s : List γ) :
    nextLine byte refuses (s.map f) =
      (nextLine (byte ∘ f) (fun line closed => refuses (line.map f) closed) s).map
        (Option.map fun p => (p.1, p.2.map f)) := by
  obtain hl | ⟨line, e, rest, rfl, hl, he⟩ := line_cases (byte ∘ f) s
  · have hl' : ∀ x ∈ s.map f, byte x ≠ LF := by simpa using hl
    simp only [nextLine_unclosed hl, nextLine_unclosed hl', List.map_eq_nil_iff]
    split_ifs <;> rfl
  · have hl' : ∀ x ∈ line.map f, byte x ≠ LF := by simpa using hl
    rw [nextLine_cons hl he, List.map_append, List.map_cons, nextLine_cons hl' he, List.map_map]
    split_ifs <;> rfl

/-- A turn of the mapped stream is the turn of the stream, mapped. -/
theorem turn_map {β γ : Type} (f : γ → β) (byte : β → UInt8) (refuses : List β → Bool → Bool)
    (st : State) (s : List γ) :
    turn byte refuses st (s.map f) =
      match turn (byte ∘ f) (fun line closed => refuses (line.map f) closed) st s with
      | .stop d => .stop d
      | .go bytes st rest => .go bytes st (rest.map f) := by
  have hline : ∀ {st : State}, st.AtLine → turn byte refuses st (s.map f) =
      match turn (byte ∘ f) (fun line closed => refuses (line.map f) closed) st s with
      | .stop d => .stop d
      | .go bytes st rest => .go bytes st (rest.map f) := by
    intro st hst
    rw [turn_atLine hst, turn_atLine hst, nextLine_map]
    rcases nextLine (byte ∘ f) _ s with k | _ | ⟨line, rest⟩
    · rfl
    · rfl
    · cases h : afterLine st line <;> simp [Except.map, h]
  cases st with
  | data left =>
    simp only [turn, List.length_map]
    split_ifs <;> simp
  | size => exact hline .size
  | dataEnd => exact hline .dataEnd
  | trailers => exact hline .trailers
  | done => rfl

/-- **Decoding looks at nothing but bytes and the rule's answers.** -/
theorem decode_map {β γ : Type} (f : γ → β) (byte : β → UInt8) (refuses : List β → Bool → Bool)
    (st : State) (s : List γ) :
    decode byte refuses st (s.map f) =
      decode (byte ∘ f) (fun line closed => refuses (line.map f) closed) st s := by
  have ht := turn_map f byte refuses st s
  fun_induction decode (byte ∘ f) (fun line closed => refuses (line.map f) closed) st s with
  | case1 st s d h => exact decode_stop (by rw [ht, h])
  | case2 st s bytes st' rest h ih =>
    rw [decode_go (by rw [ht, h]), ih (turn_map f byte refuses st' rest)]

/-! ## The two rules -/

/-- The blocking rule: a line read stops after `maxSizeLine + 2` bytes, and one that came back
without its line feed is too long from `maxSizeLine + 1` bytes on. -/
def bounded {β : Type} (line : List β) (closed : Bool) : Bool :=
  maxSizeLine + (if closed then 1 else 0) < line.length

/-- A byte of the stream, and whether a fetch from the source ended with it. -/
structure Marked where
  byte : UInt8
  ends : Bool
  deriving DecidableEq, Repr

/-- The async rule: a fetch without a line feed ended with more than `maxSizeLine + 1` bytes of
the line in hand. -/
def fetchedLate (line : List Marked) (_closed : Bool) : Bool :=
  (line.drop (maxSizeLine + 1)).any Marked.ends

/-- The bytes of one fetch. -/
def fetched : List UInt8 → List Marked
  | [] => []
  | [b] => [⟨b, true⟩]
  | b :: bs => ⟨b, false⟩ :: fetched bs

/-- Bytes in the middle of a fetch. -/
def unfetched (bs : List UInt8) : List Marked := bs.map fun b => ⟨b, false⟩

@[simp] theorem map_byte_fetched (bs : List UInt8) : (fetched bs).map Marked.byte = bs := by
  fun_induction fetched bs with
  | case1 => rfl
  | case2 b => rfl
  | case3 b bs hne ih => rw [List.map_cons, ih]

@[simp] theorem map_byte_unfetched (bs : List UInt8) : (unfetched bs).map Marked.byte = bs := by
  simp [unfetched, Function.comp_def]

@[simp] theorem unfetched_append (bs bs' : List UInt8) :
    unfetched (bs ++ bs') = unfetched bs ++ unfetched bs' := List.map_append

@[simp] theorem length_fetched (bs : List UInt8) : (fetched bs).length = bs.length := by
  rw [← List.length_map Marked.byte, map_byte_fetched]

@[simp] theorem length_unfetched (bs : List UInt8) : (unfetched bs).length = bs.length := by
  simp [unfetched]

/-- A line free of line feeds is so byte by byte. -/
theorem ne_lf_of_bytes {l : List Marked} (h : LF ∉ l.map Marked.byte) : ∀ x ∈ l, x.byte ≠ LF :=
  fun _ hx he => h (he ▸ List.mem_map_of_mem hx)

/-- A fetch whose front is consumed still ends where it did. -/
theorem fetched_append {bs : List UInt8} (hne : bs ≠ []) (front : List UInt8) :
    fetched (front ++ bs) = unfetched front ++ fetched bs := by
  induction front with
  | nil => rfl
  | cons b front ih =>
    have hne' : front ++ bs ≠ [] := by simp [hne]
    rw [List.cons_append, fetched.eq_3 b _ hne', ih]
    rfl

/-- The first byte of a fetch, consumed on its own. -/
theorem fetched_cons (b : UInt8) (bs : List UInt8) :
    ∃ e : Marked, e.byte = b ∧ fetched (b :: bs) = e :: fetched bs := by
  cases bs with
  | nil => exact ⟨⟨b, true⟩, rfl, rfl⟩
  | cons b' bs => exact ⟨⟨b, false⟩, rfl, rfl⟩

/-- Dropping bytes off the front of a fetch. -/
theorem fetched_drop (n : ℕ) (bs : List UInt8) : fetched (bs.drop n) = (fetched bs).drop n := by
  rcases Nat.lt_or_ge n bs.length with h | h
  · have hne : bs.drop n ≠ [] := by simpa using h
    conv_rhs => rw [← List.take_append_drop n bs, fetched_append hne]
    rw [List.drop_left' (by simp; omega)]
  · rw [List.drop_eq_nil_of_le h, List.drop_eq_nil_of_le (by simpa using h)]
    rfl

/-- In the middle of a fetch no line is refused. -/
@[simp] theorem fetchedLate_unfetched (bs : List UInt8) (closed : Bool) :
    fetchedLate (unfetched bs) closed = false := by
  simp [fetchedLate, unfetched, List.any_eq_false, ← List.map_drop]

/-- A fetch that ends with more than `maxSizeLine + 1` bytes of a line in hand is late. -/
theorem fetchedLate_fetched {bs : List UInt8} (hne : bs ≠ []) {pre : List Marked}
    (hlen : maxSizeLine + 1 < (pre ++ fetched bs).length) (closed : Bool) :
    fetchedLate (pre ++ fetched bs) closed = true := by
  obtain ⟨front, x, rfl⟩ := List.eq_nil_or_concat bs |>.resolve_left hne
  rw [List.concat_eq_append, fetched_append (by simp)] at hlen ⊢
  simp only [fetched, List.length_append, List.length_cons, List.length_nil] at hlen
  have hle : maxSizeLine + 1 ≤ (pre ++ unfetched front).length := by
    rw [List.length_append]
    omega
  rw [fetchedLate, ← List.append_assoc, List.drop_append_of_le_length hle]
  simp [fetched]

/-- A line whose front was fetched late is refused, closed or not. -/
theorem nextLine_late {pre : List Marked} (hn : ∀ x ∈ pre, x.byte ≠ LF)
    (hlate : ∀ closed, fetchedLate pre closed = true) (s : List Marked) :
    nextLine Marked.byte fetchedLate (pre ++ s) = .error .invalidData := by
  have hmore : ∀ line closed, fetchedLate (pre ++ line) closed = true := by
    intro line closed
    have := hlate closed
    rw [fetchedLate] at this ⊢
    rw [List.drop_append, List.any_append, this, Bool.true_or]
  have hne : pre ≠ [] := by
    rintro rfl
    simpa [fetchedLate] using hlate true
  obtain hs | ⟨line, e, rest, rfl, hs, he⟩ := line_cases Marked.byte s
  · rw [nextLine_unclosed (by simpa [or_imp, forall_and] using ⟨hn, hs⟩), hmore,
      if_neg (by simp [hne]), if_pos rfl]
  · rw [← List.append_assoc, nextLine_cons (by simpa [or_imp, forall_and] using ⟨hn, hs⟩) he,
      hmore, if_pos rfl]

end Lager
