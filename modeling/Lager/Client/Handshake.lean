import Lager.Client.Requests
import Lager.Library.Terminated
import Lager.Rust.Io
import Lager.Wire.Head

set_option relaxedAutoImplicit false
set_option autoImplicit false

/-!
# The handshake of a debug tunnel

`tunnel_once` asks the gateway for a tunnel and reads the head of the answer from the socket, one
byte at a time. What follows the head belongs to the tunnel, and a debug server may speak first.
Here the handshake is once more on the bytes of the socket, for both clients, and it is proved that
they take the head and nothing more.

## Main definitions

* `Lager.Connection` — a socket: what the peer sends, read by read, and what its other calls come
  to.
* `Lager.LagerBox.tunnelHandshake`, `Lager.AsyncLagerBox.tunnelHandshake` — the handshakes.
* `Lager.Source.Steady`, `Lager.Source.Prompt` — the first bytes of a source arrive, in time.

## Main results

* `Lager.LagerBox.tunnelHandshake_refines`, `Lager.AsyncLagerBox.tunnelHandshake_refines` — a
  handshake comes to what `tunnel_once` makes of some answer.
* `Lager.handshake_takes_head` — an open tunnel is at the byte behind the head.

## Implementation notes

The tunnel is the source with the bytes that were not taken. Connecting is a parameter.
-/

namespace Lager

open Library

/-! ## Sockets -/

/-- `MAX_BODY_BYTES`. -/
def maxBodyBytes : ℕ := 4096

/-- A socket: what its reads come to, and what its other calls do. -/
structure Connection where
  source : Source
  setReadTimeout : Except IoError Unit
  setWriteTimeout : Except IoError Unit
  writeAll : List UInt8 → Except IoError Unit
  clearReadTimeout : Except IoError Unit
  clearWriteTimeout : Except IoError Unit
  setNodelay : Except IoError Unit
  /-- How often the handshake of the async client may find no data before its timeout is over;
  `none` if it is over before the request is written. -/
  patience : Option ℕ

/-- The context of the errors of a handshake. -/
def tunnelContext (host : String) (port : ℕ) : String :=
  "debug tunnel via " ++ host ++ ":" ++ toString port

/-- What a failure of a socket is reported as. -/
def IoError.failure (context : String) (e : IoError) : Failure :=
  ⟨e.kind == .timedOut || e.kind == .wouldBlock, context ++ ": " ++ e.message⟩

/-- `map_err(io)`. -/
def reported {α : Type} (context : String) (r : Except IoError α) : Except Error α :=
  r.mapError fun e => ioError (e.failure context)

/-! ## The blocking client -/

namespace LagerBox

/-- `stream.read(&mut byte)`, and again after an interruption. -/
def readByte (context : String) (src : Source) : Except Error (Option UInt8) × Source :=
  match _h : src.read 1 with
  | (.ok bytes, src') => (.ok bytes.head?, src')
  | (.error e, src') =>
    if e.kind = .interrupted then readByte context src'
    else (.error (ioError (e.failure context)), src')
termination_by src.size
decreasing_by
  have hread := Source.read_spec Nat.one_pos src
  rw [_h] at hread
  exact hread.2.1

/-- `tunnel_once` on a socket. -/
def tunnelOver (boxHost host : String) (servicePort port : ℕ) (token : Option String)
    (conn : Connection) : Except Error (Except Refusal Source) := do
  let context := tunnelContext host servicePort
  reported context conn.setReadTimeout
  reported context conn.setWriteTimeout
  reported context (conn.writeAll (utf8 (connectRequest port boxHost token)))
  match readTerminated (readByte context) blankLine maxHeadBytes [] conn.source with
  | (.error err, _) => .error err
  | (.ok none, _) => .ok (.error (.unsupported none))
  | (.ok (some raw), src) =>
    match parseHead raw with
    | none => .ok (.error (.unsupported none))
    | some head =>
      if head.status = 200 then
        reported context conn.clearReadTimeout
        reported context conn.clearWriteTimeout
        reported context conn.setNodelay
        .ok (.ok src)
      else
        let body := (src.read (min head.contentLength maxBodyBytes)).1.toOption.getD []
        .ok (.error (classify head body))

/-- `tunnel_once`, where `dial` is `connect_tcp`. -/
def tunnelHandshake (client : Client) (dial : String → ℕ → Except Failure Connection) (port : ℕ)
    (token : Option String) : Except Error (Except Refusal Source) :=
  match hostPort client.debugBase with
  | .error err => .error err
  | .ok (host, servicePort) =>
    match dial host servicePort with
    | .error failure => .error (ioError failure)
    | .ok conn => tunnelOver client.auth.boxHost host servicePort port token conn

end LagerBox

/-! ## The async client -/

namespace AsyncLagerBox

/-- `stream.read(..).await` under the timeout of the handshake, of which there is some patience
left; `none` if it is over. -/
def awaitRead (n : ℕ) (src : Source) (patience : ℕ) :
    Option (Except IoError (List UInt8)) × Source × ℕ :=
  match _h : src.pollRead n with
  | (.ready r, src') => (some r, src', patience)
  | (.pending, src') =>
    if patience = 0 then (none, src', 0) else awaitRead n src' (patience - 1)
termination_by src.size
decreasing_by
  cases src with
  | pending src =>
    obtain ⟨-, rfl⟩ := Prod.mk.inj _h
    simp only [Source.size]
    omega
  | done => cases _h
  | bytes b bs src => cases _h
  | fail e src => cases _h

/-- The error of a handshake whose timeout is over. -/
def elapsed (host : String) (port : ℕ) : Error := .timeout (.noAnswer host port)

/-- `stream.read(&mut byte).await?`. -/
def readByte (host : String) (port : ℕ) (s : Source × ℕ) :
    Except Error (Option UInt8) × (Source × ℕ) :=
  match awaitRead 1 s.1 s.2 with
  | (none, s') => (.error (elapsed host port), s')
  | (some r, s') => (reported (tunnelContext host port) (r.map List.head?), s')

/-- `tunnel_once` on a socket. -/
def tunnelOver (boxHost host : String) (servicePort port : ℕ) (token : Option String)
    (conn : Connection) : Except Error (Except Refusal Source) := do
  let context := tunnelContext host servicePort
  match conn.patience with
  | none => .error (elapsed host servicePort)
  | some patience =>
    reported context (conn.writeAll (utf8 (connectRequest port boxHost token)))
    match readTerminated (readByte host servicePort) blankLine maxHeadBytes []
        (conn.source, patience) with
    | (.error err, _) => .error err
    | (.ok none, _) => .ok (.error (.unsupported none))
    | (.ok (some raw), src, patience) =>
      match parseHead raw with
      | none => .ok (.error (.unsupported none))
      | some head =>
        if head.status = 200 then
          reported context conn.setNodelay
          .ok (.ok src)
        else
          match awaitRead (min head.contentLength maxBodyBytes) src patience with
          | (none, _) => .error (elapsed host servicePort)
          | (some body, _) => .ok (.error (classify head (body.toOption.getD [])))

/-- `tunnel_once`, where `dial` is `connect_tcp`. -/
def tunnelHandshake (client : Client) (dial : String → ℕ → Except Failure Connection) (port : ℕ)
    (token : Option String) : Except Error (Except Refusal Source) :=
  match hostPort client.debugBase with
  | .error err => .error err
  | .ok (host, servicePort) =>
    match dial host servicePort with
    | .error failure => .error (ioError failure)
    | .ok conn => tunnelOver client.auth.boxHost host servicePort port token conn

end AsyncLagerBox

/-! ## Over the other interface -/

/-- A handshake without what follows the head. -/
def headOnly (r : Except Error (Except Refusal Source)) : Except Error (Except Refusal Unit) :=
  r.map fun answer => answer.map fun _ => ()

/-- A call of a socket, and what follows it. -/
theorem headOnly_reported {α : Type} {context : String} {r : Except IoError α}
    {next : α → Except Error (Except Refusal Source)}
    {read : HeadAnswer → Except Error (Except Refusal Unit)}
    (hfailed : ∀ failure, read (.failed failure) = .error (ioError failure))
    (hnext : ∀ a, ∃ answer, headOnly (next a) = read answer) :
    ∃ answer, headOnly (reported context r >>= next) = read answer := by
  cases r with
  | error e => exact ⟨.failed (e.failure context), (hfailed _).symm⟩
  | ok a => exact hnext a

/-- The errors of the blocking reader are those of the socket. -/
theorem LagerBox.readByte_error {context : String} {src src' : Source} {err : Error}
    (h : readByte context src = (.error err, src')) : ∃ failure, err = ioError failure := by
  fun_induction readByte context src with
  | case1 => cases h
  | case2 src e src' hread hkind ih => exact ih h
  | case3 src e src' hread hkind =>
    cases h
    exact ⟨_, rfl⟩

/-- **The blocking handshake comes to what `tunnel_once` makes of an answer.** -/
theorem LagerBox.tunnelHandshake_refines (client : Client)
    (dial : String → ℕ → Except Failure Connection) (port : ℕ) (token : Option String)
    {host : String} {servicePort : ℕ}
    (hhost : hostPort client.debugBase = .ok (host, servicePort)) :
    ∃ answer, headOnly (tunnelHandshake client dial port token) = readTunnel answer := by
  have hfailed : ∀ failure, readTunnel (.failed failure) = .error (ioError failure) :=
    fun _ => rfl
  simp only [tunnelHandshake, hhost]
  cases dial host servicePort with
  | error failure => exact ⟨.failed failure, rfl⟩
  | ok conn =>
    refine headOnly_reported hfailed fun _ => headOnly_reported hfailed fun _ =>
      headOnly_reported hfailed fun _ => ?_
    rcases hread : readTerminated (readByte (tunnelContext host servicePort)) blankLine maxHeadBytes
      [] conn.source with ⟨err | _ | raw, src⟩
    · obtain ⟨t, t', hbyte⟩ := readTerminated_error hread
      obtain ⟨failure, rfl⟩ := readByte_error hbyte
      exact ⟨.failed failure, rfl⟩
    · exact ⟨.closed, rfl⟩
    · cases hparse : parseHead raw with
      | none => exact ⟨.garbled, by simp only [hparse]; rfl⟩
      | some head =>
        simp only [hparse]
        by_cases hstatus : head.status = 200
        · simp only [if_pos hstatus]
          refine headOnly_reported hfailed fun _ => headOnly_reported hfailed fun _ =>
            headOnly_reported hfailed fun _ => ⟨.head head (.ok []), ?_⟩
          exact (if_pos hstatus).symm
        · simp only [if_neg hstatus]
          refine ⟨.head head (.ok ((src.read (min head.contentLength maxBodyBytes)).1.toOption.getD
            [])), ?_⟩
          exact (if_neg hstatus).symm

/-- The errors of the async reader are those of the socket, and the timeout. -/
theorem AsyncLagerBox.readByte_error {host : String} {port : ℕ} {s s' : Source × ℕ} {err : Error}
    (h : readByte host port s = (.error err, s')) :
    err = elapsed host port ∨ ∃ failure, err = ioError failure := by
  unfold readByte at h
  split at h
  · cases h
    exact .inl rfl
  next r s'' hread =>
    cases r with
    | error e =>
      cases h
      exact .inr ⟨_, rfl⟩
    | ok bytes => cases h

/-- **The async handshake comes to what `tunnel_once` makes of an answer.** -/
theorem AsyncLagerBox.tunnelHandshake_refines (client : Client)
    (dial : String → ℕ → Except Failure Connection) (port : ℕ) (token : Option String)
    {host : String} {servicePort : ℕ}
    (hhost : hostPort client.debugBase = .ok (host, servicePort)) :
    ∃ answer, headOnly (tunnelHandshake client dial port token) =
      readTunnel host servicePort answer := by
  have hfailed : ∀ failure, readTunnel host servicePort (.failed failure) =
      .error (ioError failure) := fun _ => rfl
  -- The timeout of the handshake is reported like that of the body of a refusal.
  have helapsed : ∃ answer, .error (elapsed host servicePort) =
      readTunnel host servicePort answer :=
    ⟨.head ⟨502, none, 0, false, false⟩ (.error ⟨true, ""⟩), rfl⟩
  simp only [tunnelHandshake, hhost]
  cases dial host servicePort with
  | error failure => exact ⟨.failed failure, rfl⟩
  | ok conn =>
    dsimp only
    unfold tunnelOver
    cases conn.patience with
    | none => exact helapsed
    | some patience =>
      refine headOnly_reported hfailed fun _ => ?_
      rcases hread : readTerminated (readByte host servicePort) blankLine maxHeadBytes []
        (conn.source, patience) with ⟨err | _ | raw, src, patience'⟩
      · obtain ⟨t, t', hbyte⟩ := readTerminated_error hread
        obtain rfl | ⟨failure, rfl⟩ := readByte_error hbyte
        · exact helapsed
        · exact ⟨.failed failure, rfl⟩
      · exact ⟨.closed, rfl⟩
      · cases hparse : parseHead raw with
        | none => exact ⟨.garbled, by simp only [hparse]; rfl⟩
        | some head =>
          simp only [hparse]
          by_cases hstatus : head.status = 200
          · simp only [if_pos hstatus]
            refine headOnly_reported hfailed fun _ => ⟨.head head (.ok []), ?_⟩
            exact (if_pos hstatus).symm
          · simp only [if_neg hstatus]
            rcases awaitRead (min head.contentLength maxBodyBytes) src patience' with
              ⟨_ | body, src', patience''⟩
            · exact helapsed
            · refine ⟨.head head (.ok (body.toOption.getD [])), ?_⟩
              exact (if_neg hstatus).symm

/-! ## The bytes that are taken -/

namespace Source

/-- The first bytes of a source arrive: before there are so many, or all, no read fails but by an
interruption. -/
def Steady : Source → ℕ → Prop
  | .done, _ => True
  | .bytes _ bs src, n => src.Steady (n - (bs.length + 1))
  | .fail e src, n => n = 0 ∨ (e.kind = .interrupted ∧ src.Steady n)
  | .pending src, n => src.Steady n

/-- The first bytes of a source arrive in time: before there are so many, or all, no read fails, and
no more reads than that find no data. -/
def Prompt : Source → ℕ → ℕ → Prop
  | .done, _, _ => True
  | .bytes _ bs src, patience, n => src.Prompt patience (n - (bs.length + 1))
  | .fail _ _, _, n => n = 0
  | .pending src, patience, n => n = 0 ∨ (0 < patience ∧ src.Prompt (patience - 1) n)

end Source

/-- What is to come when a byte is taken off a read. -/
theorem left_of_read (n : ℕ) (b : UInt8) (bs : List UInt8) :
    n + 1 - ((b :: bs).length + 1) = n - (bs.length + 1) := by
  rw [List.length_cons]
  omega

/-- The blocking reader hands over the first bytes of a source that is steady.

**Proof sketch.** Induction on the source. -/
theorem LagerBox.readByte_step (context : String) {src : Source} {n : ℕ} (h : src.Steady (n + 1)) :
    ∃ src', readByte context src = (.ok src.content.head?, src') ∧
      src'.content = src.content.tail ∧ src'.Steady n := by
  induction src with
  | done => exact ⟨.done, by rw [readByte]; rfl, rfl, trivial⟩
  | bytes b bs src ih =>
    refine ⟨Source.pushBack bs src, by rw [readByte]; rfl, Source.content_pushBack bs src, ?_⟩
    cases bs with
    | nil => exact h
    | cons b' bs =>
      have hsteady : src.Steady (n + 1 - ((b' :: bs).length + 1)) := h
      rwa [left_of_read] at hsteady
  | fail e src ih =>
    obtain ⟨hkind, hsteady⟩ := h.resolve_left (Nat.succ_ne_zero n)
    rw [readByte]
    simp only [Source.read, if_pos hkind]
    exact ih hsteady
  | pending src ih =>
    obtain ⟨src', hread, hrest⟩ := ih h
    refine ⟨src', ?_, hrest⟩
    rw [readByte] at hread ⊢
    exact hread

/-- The async reader hands over the first bytes of a source that is in time.

**Proof sketch.** Induction on the source. -/
theorem AsyncLagerBox.readByte_step (host : String) (port : ℕ) {src : Source} {patience n : ℕ}
    (h : src.Prompt patience (n + 1)) :
    ∃ s' : Source × ℕ, readByte host port (src, patience) = (.ok src.content.head?, s') ∧
      s'.1.content = src.content.tail ∧ s'.1.Prompt s'.2 n := by
  induction src generalizing patience with
  | done => exact ⟨(.done, patience), by rw [readByte, awaitRead]; rfl, rfl, trivial⟩
  | bytes b bs src ih =>
    refine ⟨(Source.pushBack bs src, patience), by rw [readByte, awaitRead]; rfl,
      Source.content_pushBack bs src, ?_⟩
    cases bs with
    | nil => exact h
    | cons b' bs =>
      have hprompt : src.Prompt patience (n + 1 - ((b' :: bs).length + 1)) := h
      rwa [left_of_read] at hprompt
  | fail e src ih => exact absurd h (Nat.succ_ne_zero n)
  | pending src ih =>
    obtain ⟨hpatience, hprompt⟩ := h.resolve_left (Nat.succ_ne_zero n)
    obtain ⟨s', hread, hrest⟩ := ih hprompt
    refine ⟨s', ?_, hrest⟩
    rw [readByte, awaitRead]
    simp only [Source.pollRead, if_neg hpatience.ne']
    exact hread

/-- The calls of a socket besides its reads are successful. -/
structure Connection.Works (conn : Connection) : Prop where
  readTimeout : conn.setReadTimeout = .ok ()
  writeTimeout : conn.setWriteTimeout = .ok ()
  written : ∀ request, conn.writeAll request = .ok ()
  readTimeoutCleared : conn.clearReadTimeout = .ok ()
  writeTimeoutCleared : conn.clearWriteTimeout = .ok ()
  nodelay : conn.setNodelay = .ok ()

section

variable {boxHost host : String} {servicePort port : ℕ} {token : Option String} {conn : Connection}

/-- The blocking handshake on a socket comes down to its reads. -/
theorem LagerBox.tunnelOver_eq (hworks : conn.Works) {raw : Option (List UInt8)} {src : Source}
    (hread : readTerminated (readByte (tunnelContext host servicePort)) blankLine maxHeadBytes []
      conn.source = (.ok raw, src))
    (hopen : ∀ taken, raw = some taken → ∃ head, parseHead taken = some head ∧ head.status = 200) :
    tunnelOver boxHost host servicePort port token conn =
      .ok (if raw.isSome then .ok src else .error (.unsupported none)) := by
  unfold tunnelOver
  simp only [hworks.readTimeout, hworks.writeTimeout, hworks.written, hread]
  cases raw with
  | none => rfl
  | some taken =>
    obtain ⟨head, hparse, hstatus⟩ := hopen taken rfl
    simp only [hparse, hstatus, hworks.readTimeoutCleared, hworks.writeTimeoutCleared,
      hworks.nodelay]
    rfl

/-- The async handshake on a socket comes down to its reads. -/
theorem AsyncLagerBox.tunnelOver_eq (hworks : conn.Works) {patience : ℕ}
    (hpatience : conn.patience = some patience) {raw : Option (List UInt8)} {s : Source × ℕ}
    (hread : readTerminated (readByte host servicePort) blankLine maxHeadBytes []
      (conn.source, patience) = (.ok raw, s))
    (hopen : ∀ taken, raw = some taken → ∃ head, parseHead taken = some head ∧ head.status = 200) :
    tunnelOver boxHost host servicePort port token conn =
      .ok (if raw.isSome then .ok s.1 else .error (.unsupported none)) := by
  unfold tunnelOver
  rw [hpatience, hworks.written]
  simp only [hread]
  cases raw with
  | none => rfl
  | some taken =>
    obtain ⟨head, hparse, hstatus⟩ := hopen taken rfl
    simp only [hparse, hstatus, hworks.nodelay]
    rfl

end

/-- **The handshake takes no byte of the tunnel.** Where a client reaches the gateway, and the
socket works, let the gateway send any bytes, split over reads in any way. If the shortest prefix of
them that ends with an empty line has at most 65536 bytes and is a response head with status 200,
the client has an open tunnel, and what it has not read are the bytes behind that prefix. If no such
prefix ends within 65536 bytes, or the bytes end before, the client finds that there are no tunnels.

The reads until then must not fail: those of the blocking client but by an interruption, and those
of the async client not at all, nor may its timeout be over.

**Proof sketch.** Either client takes one byte at a time, and stops where what it has ends with the
empty line. -/
theorem handshake_takes_head {client : Client} {dial : String → ℕ → Except Failure Connection}
    {host : String} {servicePort : ℕ} {conn : Connection}
    (hhost : hostPort client.debugBase = .ok (host, servicePort))
    (hdial : dial host servicePort = .ok conn) (hworks : conn.Works) (port : ℕ)
    (token : Option String) :
    (∀ raw rest head, conn.source.content = raw ++ rest → EndsFirst blankLine raw →
        raw.length ≤ 65536 → parseHead raw = some head → head.status = 200 →
        (conn.source.Steady raw.length → ∃ tunnel,
          LagerBox.tunnelHandshake client dial port token = .ok (.ok tunnel) ∧
            tunnel.content = rest) ∧
        ∀ patience, conn.patience = some patience → conn.source.Prompt patience raw.length →
          ∃ tunnel, AsyncLagerBox.tunnelHandshake client dial port token = .ok (.ok tunnel) ∧
            tunnel.content = rest) ∧
      ((∀ raw, raw <+: conn.source.content → blankLine <:+ raw → 65536 < raw.length) →
        (conn.source.Steady 65536 →
          LagerBox.tunnelHandshake client dial port token = .ok (.error (.unsupported none))) ∧
        ∀ patience, conn.patience = some patience → conn.source.Prompt patience 65536 →
          AsyncLagerBox.tunnelHandshake client dial port token =
            .ok (.error (.unsupported none))) := by
  have hblocking : ∀ n, conn.source.Steady n →
      HandsOver (LagerBox.readByte (tunnelContext host servicePort)) Source.content n conn.source :=
    fun n h => @HandsOver.of_step _ _ _ _ _ (fun n src => src.Steady n)
      (fun n src h => LagerBox.readByte_step _ h) n _ h
  have hasync : ∀ patience n, conn.source.Prompt patience n →
      HandsOver (AsyncLagerBox.readByte host servicePort) (fun s => s.1.content) n
        (conn.source, patience) :=
    fun patience n h => @HandsOver.of_step _ _ _ _ _ (fun n s => s.1.Prompt s.2 n)
      (fun n s h => AsyncLagerBox.readByte_step _ _ h) n (conn.source, patience) h
  simp only [LagerBox.tunnelHandshake, AsyncLagerBox.tunnelHandshake, hhost, hdial]
  refine ⟨fun raw rest head hcontent hends hlength hparse hstatus => ?_, fun hlate => ?_⟩
  · have hopen : ∀ taken, some raw = some taken →
        ∃ head, parseHead taken = some head ∧ head.status = 200 := by
      rintro taken ⟨⟩
      exact ⟨head, hparse, hstatus⟩
    refine ⟨fun hsteady => ?_, fun patience hpatience hprompt => ?_⟩
    · obtain ⟨src, hread, hrest⟩ :=
        readTerminated_of_endsFirst (hblocking _ hsteady) hcontent hends hlength
      exact ⟨src, LagerBox.tunnelOver_eq hworks hread hopen, hrest⟩
    · obtain ⟨s, hread, hrest⟩ :=
        readTerminated_of_endsFirst (hasync patience _ hprompt) hcontent hends hlength
      exact ⟨s.1, AsyncLagerBox.tunnelOver_eq hworks hpatience hread hopen, hrest⟩
  · refine ⟨fun hsteady => ?_, fun patience hpatience hprompt => ?_⟩
    · obtain ⟨src, hread⟩ := readTerminated_of_late (hblocking _ hsteady) hlate
      exact LagerBox.tunnelOver_eq hworks hread (by simp)
    · obtain ⟨s, hread⟩ := readTerminated_of_late (hasync patience _ hprompt) hlate
      exact AsyncLagerBox.tunnelOver_eq hworks hpatience hread (by simp)

/-- A client of a box. -/
abbrev gatedBox : Client := ⟨"http://box:9000", "http://box:8765", 30, ⟨"box", none⟩⟩

/-- A head that opens a tunnel. -/
def established : List UInt8 := [72, 84, 84, 80, 47, 49, 46, 49, 32, 50, 48, 48, 13, 10, 13, 10]

/-- A gateway that opens a tunnel, in which the debug server speaks first. The empty line is split
over two reads, and the second of them has the first bytes of the tunnel. -/
def greeting : Connection where
  source := .bytes 72 [84, 84, 80, 47, 49, 46, 49] (.pending (.bytes 32 [50, 48, 48, 13, 10, 13]
    (.bytes 10 [43, 36] .done)))
  setReadTimeout := .ok ()
  setWriteTimeout := .ok ()
  writeAll _ := .ok ()
  clearReadTimeout := .ok ()
  clearWriteTimeout := .ok ()
  setNodelay := .ok ()
  patience := some 1

/-- The first bytes of the tunnel are left. -/
theorem handshake_takes_head_greeting :
    (∃ tunnel, LagerBox.tunnelHandshake gatedBox (fun _ _ => .ok greeting) 2331 none =
        .ok (.ok tunnel) ∧ tunnel.content = [43, 36]) ∧
      ∃ tunnel, AsyncLagerBox.tunnelHandshake gatedBox (fun _ _ => .ok greeting) 2331 none =
        .ok (.ok tunnel) ∧ tunnel.content = [43, 36] := by
  have hhost : hostPort gatedBox.debugBase = .ok ("box", 8765) := by
    decide +kernel
  have hends : EndsFirst blankLine established := by
    have hinits : ∀ p ∈ established.inits, blankLine <:+ p → p = established := by
      decide
    exact ⟨by decide, fun p hp => hinits p ((List.mem_inits p established).mpr hp)⟩
  have hparse : parseHead established = some ⟨200, none, 0, false, false⟩ := by
    decide +kernel
  have hopen := (@handshake_takes_head gatedBox (fun _ _ => .ok greeting) "box" 8765 greeting hhost
    rfl ⟨rfl, rfl, fun _ => rfl, rfl, rfl, rfl⟩ 2331 none).1 established [43, 36] _ rfl hends
    (by decide) hparse rfl
  exact ⟨hopen.1 (by simp [greeting, Source.Steady]),
    hopen.2 1 rfl (by simp [greeting, Source.Prompt])⟩

end Lager
