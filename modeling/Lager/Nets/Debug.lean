import Lager.Client.Routines
import Lager.Wire.Routes

set_option relaxedAutoImplicit false
set_option autoImplicit false

/-!
# The requests of debug nets

What goes to the debug service of a box for each operation of a debug net, and what is read from the
answers. The request of an operation carries the saved record of the net next to the parameters of
the operation.

## Main definitions

* `Lager.ConnectOptions`, `Lager.EraseOptions`, `Lager.FlashOptions`, `Lager.RttOptions` — the
  options.
* `Lager.ops.connect` and its siblings — the path, the body and the timeout of each operation.
* `Lager.requireDebugFeature` — the check that the service has a feature.
* `Lager.DebugConnection`, `Lager.DebugOutput`, `Lager.EraseReport`, `Lager.FlashReport`,
  `Lager.DebugInfo`, `Lager.DebugStatus`, `Lager.debugMemoryBytes` — what the answers hold.

## Main results

* `Lager.get_debugBody` — what the body of a request holds.

## Implementation notes

The fields that are read leniently never make an answer unreadable, and nothing here looks at them;
they are left out. An integer of a JSON value is not told apart from a double with that value, which
the library does not read as an integer; how it reads one is left open (`SerdeInt`).
-/

namespace Lager

open Deserialize

/-! ## Base64 -/

/-- The standard alphabet. -/
def base64Alphabet : List Char :=
  "ABCDEFGHIJKLMNOPQRSTUVWXYZabcdefghijklmnopqrstuvwxyz0123456789+/".toList

/-- The character of six bits. -/
def sextet (n : ℕ) : Char := base64Alphabet.getD (n % 64) 'A'

/-- The characters of a text in Base64. -/
def base64Chars : List UInt8 → List Char
  | [] => []
  | [a] =>
    let n := a.toNat * 2 ^ 16
    [sextet (n / 2 ^ 18), sextet (n / 2 ^ 12), '=', '=']
  | [a, b] =>
    let n := a.toNat * 2 ^ 16 + b.toNat * 2 ^ 8
    [sextet (n / 2 ^ 18), sextet (n / 2 ^ 12), sextet (n / 2 ^ 6), '=']
  | a :: b :: c :: rest =>
    let n := a.toNat * 2 ^ 16 + b.toNat * 2 ^ 8 + c.toNat
    [sextet (n / 2 ^ 18), sextet (n / 2 ^ 12), sextet (n / 2 ^ 6), sextet n] ++ base64Chars rest

/-- `base64_encode`. -/
def base64Encode (input : List UInt8) : String := String.ofList (base64Chars input)

example : base64Encode "fooba".toUTF8.toList = "Zm9vYmE=" := by decide +kernel

/-! ## Options -/

/-- `FirmwareKind`. -/
inductive FirmwareKind
  | hex
  | elf
  | bin
  deriving DecidableEq, Repr

/-- `Transport`, of a debug probe. -/
inductive DebugTransport
  | swd
  | jtag
  deriving DecidableEq, Repr

/-- `Transport::as_str`. -/
def DebugTransport.asStr : DebugTransport → String
  | swd => "SWD"
  | jtag => "JTAG"

/-- `ConnectOptions`. -/
structure ConnectOptions where
  speed : Option String
  force : Bool
  halt : Bool
  gdb : Bool
  jlinkScript : Option (List UInt8)
  openocdConfig : Option (List UInt8)
  gdbPort : Option UInt16
  swoPort : Option UInt16
  telnetPort : Option UInt16
  rttTelnetPort : Option UInt16
  transport : Option DebugTransport
  deriving DecidableEq

/-- `FlashOptions`. -/
structure FlashOptions where
  verbose : Bool
  jlinkScript : Option (List UInt8)
  requireEvidence : Option Bool
  deriving DecidableEq

/-- `EraseOptions`. -/
structure EraseOptions where
  speed : Option String
  transport : Option DebugTransport
  requireEvidence : Option Bool
  deriving DecidableEq

/-- `RttOptions`. -/
structure RttOptions where
  channel : UInt32
  searchAddr : Option UInt64
  searchSize : Option UInt64
  chunkSize : Option UInt64
  timeout : Option ℚ
  deriving DecidableEq

/-! ## Requests -/

/-- `debug_body`: the record of the net, and the parameters. -/
def debugBody (net : Value) (extra : Map) : Value := .object (Map.insertAll extra [("net", net)])

/-- The path, the body and the timeout of a request. -/
abbrev DebugRequest := String × Value × Timeout

/-- `debug_request`. -/
def debugRequest (path : String) (body : Value) (timeout : Timeout) : HttpRequest :=
  ⟨.post, path, some body, timeout⟩

/-- `debug_health_request`. -/
def debugHealthRequest : HttpRequest := get "/health"

/-- An unsigned integer as JSON. -/
def uint (n : ℕ) : Value := .number n

namespace ops

/-- `needs_transport_feature`. -/
def needsTransportFeature (opts : ConnectOptions) : Bool :=
  opts.transport.any fun t => t ≠ .swd

/-- The parameters of `connect`. -/
def connectParams (opts : ConnectOptions) : Map :=
  Map.setSome "rtt_telnet_port" (opts.rttTelnetPort.map fun p => uint p.toNat)
    (Map.setSome "telnet_port" (opts.telnetPort.map fun p => uint p.toNat)
      (Map.setSome "swo_port" (opts.swoPort.map fun p => uint p.toNat)
        (Map.setSome "gdb_port" (opts.gdbPort.map fun p => uint p.toNat)
          (Map.setSome "openocd_config" (opts.openocdConfig.map (.string ∘ base64Encode))
            (Map.setSome "jlink_script" (opts.jlinkScript.map (.string ∘ base64Encode))
              (Map.setSome "transport" (opts.transport.map fun t => .string t.asStr)
                (Map.setSome "speed" (opts.speed.map .string)
                  [("force", .bool opts.force), ("gdb", .bool opts.gdb),
                    ("halt", .bool opts.halt)])))))))

/-- `connect`. -/
def connect (net : Value) (opts : ConnectOptions) : DebugRequest :=
  ("/debug/connect", debugBody net (connectParams opts), .after (secs 30))

/-- `disconnect`. -/
def disconnect (net : Value) (keepRunning : Bool) : DebugRequest :=
  ("/debug/disconnect", debugBody net [("keep_jlink_running", .bool keepRunning)],
    .after (secs 10))

/-- `reset`. -/
def reset (net : Value) (halt : Bool) : DebugRequest :=
  ("/debug/reset", debugBody net [("halt", .bool halt)], .after (secs 10))

/-- `halt`. -/
def halt (net : Value) : DebugRequest := ("/debug/halt", debugBody net [], .after (secs 10))

/-- `erase_params`. -/
def eraseParams (opts : EraseOptions) (extra : Map) : Map :=
  Map.setSome "require_evidence" (opts.requireEvidence.map .bool)
    (Map.setSome "transport" (opts.transport.map fun t => .string t.asStr)
      (Map.setSome "speed" (opts.speed.map .string) extra))

/-- `erase`. -/
def erase (net : Value) (opts : EraseOptions) : DebugRequest :=
  ("/debug/erase", debugBody net (eraseParams opts []), .after (secs 120))

/-- `erase_range`. -/
def eraseRange (net : Value) (start size : UInt64) (opts : EraseOptions) : DebugRequest :=
  ("/debug/erase", debugBody net (eraseParams opts
    [("erase_size", uint size.toNat), ("erase_start", uint start.toNat)]), .after (secs 120))

/-- `read_memory`. -/
def readMemory (net : Value) (address : UInt64) (length : ℕ) (noReset : Bool) : DebugRequest :=
  ("/debug/memrd", debugBody net
    (Map.setSome "no_reset" (if noReset then some (.bool true) else none)
      [("length", uint length), ("start_addr", uint address.toNat)]), .after (secs 30))

/-- The parameters of `info` and `status`. -/
def probeParams (probe : Bool) : Map := if probe then [("probe", .bool true)] else []

/-- `info`. -/
def info (net : Value) (probe : Bool) : DebugRequest :=
  ("/debug/info", debugBody net (probeParams probe), .after (secs 10))

/-- `status`. -/
def status (net : Value) (probe : Bool) : DebugRequest :=
  ("/debug/status", debugBody net (probeParams probe), .after (secs 10))

/-- The payload of `flash`. -/
def flashPayload (contents : List UInt8) (kind : FirmwareKind) (address : Option UInt32) : Map :=
  let content : Value := .string (base64Encode contents)
  match kind with
  | .hex => [("hexfile", .object [("content", content)])]
  | .elf => [("elffile", .object [("content", content)])]
  | .bin => [("binfile", .object [("address", uint (address.getD 0x08000000).toNat),
      ("content", content)])]

/-- `flash`. -/
def flash (net : Value) (contents : List UInt8) (kind : FirmwareKind) (address : Option UInt32)
    (opts : FlashOptions) : DebugRequest :=
  ("/debug/flash", debugBody net
    (Map.setSome "require_evidence" (opts.requireEvidence.map .bool)
      (Map.setSome "jlink_script" (opts.jlinkScript.map (.string ∘ base64Encode))
        (Map.setSome "verbose" (if opts.verbose then some (.bool true) else none)
          (flashPayload contents kind address)))), .after (secs 180))

/-- `rtt_body`. -/
def rttBody (net : Value) (opts : RttOptions) : Value :=
  debugBody net (Map.setSome "chunk_size" (opts.chunkSize.map fun n => uint n.toNat)
    (Map.setSome "search_size" (opts.searchSize.map fun n => uint n.toNat)
      (Map.setSome "search_addr" (opts.searchAddr.map fun n => uint n.toNat)
        [("channel", uint opts.channel.toNat),
          ("timeout", (opts.timeout.map Value.number).getD .null)])))

end ops

/-! ## Answers -/

/-- A type read from an answer, or the error of the library. -/
def fromValue {α : Type} (d : Deserialize α) (body : Value) : Except Error α :=
  match d body with
  | some a => .ok a
  | none => .error (.decode .unreadable)

/-- `DebugHealth`. -/
structure DebugHealth where
  status : String
  version : Option String
  features : List String
  deriving DecidableEq, Repr

/-- `Deserialize`. -/
def DebugHealth.fromValue : Deserialize DebugHealth := fun v => do
  let get ← structFields ["status", "version", "features"] v
  let status ← field string "" (get "status")
  let version ← field (option string) none (get "version")
  let features ← field (vec string) [] (get "features")
  return ⟨status, version, features⟩

/-- `DebugHealth::supports`. -/
def DebugHealth.supports (health : DebugHealth) (feature : String) : Bool :=
  health.features.any fun f => f == feature

/-- `require_debug_feature`. -/
def requireDebugFeature (status : ℕ) (body : Value) (feature since : String) :
    Except Error Unit := do
  let health ← fromValue DebugHealth.fromValue (← parseDebug status body)
  if health.supports feature then return ()
  else throw (.unsupportedByBox (.featureMissing feature since))

/-- `DebugOutput`. -/
structure DebugOutput where
  output : List String
  backend : Option String
  deriving DecidableEq, Repr

/-- `Deserialize`. -/
def DebugOutput.fromValue : Deserialize DebugOutput := fun v => do
  let get ← structFields ["output", "backend"] v
  let output ← field (vec string) [] (get "output")
  let backend ← field (option string) none (get "backend")
  return ⟨output, backend⟩

/-- `EraseRange`. -/
structure EraseRange where
  start : ℕ
  «end» : ℕ
  length : ℕ
  source : String
  text : String
  deriving DecidableEq, Repr

/-- `Deserialize`. Only `text` may be missing. -/
def EraseRange.fromValue [SerdeInt] : Deserialize EraseRange := fun v => do
  let get ← structFields ["start", "end", "length", "source", "text"] v
  let start ← (get "start").bind SerdeInt.u64
  let «end» ← (get "end").bind SerdeInt.u64
  let length ← (get "length").bind SerdeInt.u64
  let source ← (get "source").bind string
  let text ← field string "" (get "text")
  return ⟨start, «end», length, source, text⟩

/-- `EraseReport`. -/
structure EraseReport where
  output : String
  backend : Option String
  eraseRange : Option EraseRange
  deriving DecidableEq, Repr

/-- `Deserialize`. -/
def EraseReport.fromValue [SerdeInt] : Deserialize EraseReport := fun v => do
  let get ← structFields ["output", "backend", "erase_range"] v
  let output ← field string "" (get "output")
  let backend ← field (option string) none (get "backend")
  let eraseRange ← field (option EraseRange.fromValue) none (get "erase_range")
  return ⟨output, backend, eraseRange⟩

/-- `FlashReport`. -/
structure FlashReport where
  output : List String
  backend : Option String
  programmed : Option Bool
  deriving DecidableEq, Repr

/-- `str::lines`. -/
def strLines (s : List Char) : List (List Char) :=
  let pieces := s.splitOn '\n'
  let last := pieces.getLastD []
  (pieces.dropLast.map fun line => if line.getLast? = some '\r' then line.dropLast else line) ++
    if last = [] then [] else [last]

/-- `output_lines`. -/
def outputLines [SerdeJson] (body : Value) : List String :=
  match body.get "output" with
  | some (.array items) => items.map fun
    | .string s => s
    | other => SerdeJson.toText other
  | some (.string s) => (strLines s.toList).map String.ofList
  | _ => []

/-- `parse_flash`. -/
def parseFlash [SerdeJson] (body : Value) : Except Error FlashReport :=
  let output := outputLines body
  let programmed := (body.get "programmed").bind Value.asBool
  if programmed = some false then
    let error := ((body.get "error").bind Value.asStr).getD
      "the probe reported that nothing was programmed"
    .error (.flashFailed error output)
  else .ok ⟨output, (body.get "backend").bind Value.asStr, programmed⟩

/-- `GdbServer`. -/
structure GdbServer where
  status : Option String
  deriving DecidableEq, Repr

/-- `Deserialize`. -/
def GdbServer.fromValue : Deserialize GdbServer := fun v => do
  let get ← structFields
    ["status", "gdb_port", "swo_port", "telnet_port", "tcl_port", "rtt_telnet_port", "pid"] v
  let status ← field (option string) none (get "status")
  return ⟨status⟩

/-- `DebugConnection`. -/
structure DebugConnection where
  status : Option String
  device : Option String
  probe : Option String
  serial : Option String
  backend : Option String
  transport : Option String
  message : Option String
  gdbServer : Option GdbServer
  deriving DecidableEq, Repr

/-- `Deserialize`. -/
def DebugConnection.fromValue : Deserialize DebugConnection := fun v => do
  let get ← structFields ["status", "device", "probe", "serial", "backend", "transport", "message",
    "pid", "gdb_server"] v
  let status ← field (option string) none (get "status")
  let device ← field (option string) none (get "device")
  let probe ← field (option string) none (get "probe")
  let serial ← field (option string) none (get "serial")
  let backend ← field (option string) none (get "backend")
  let transport ← field (option string) none (get "transport")
  let message ← field (option string) none (get "message")
  let gdbServer ← field (option GdbServer.fromValue) none (get "gdb_server")
  return ⟨status, device, probe, serial, backend, transport, message, gdbServer⟩

/-- `DebugInfo`. -/
structure DebugInfo where
  netName : Option String
  device : Option String
  arch : Option String
  probe : Option String
  serial : Option String
  backend : Option String
  connected : Bool
  deriving DecidableEq, Repr

/-- `Deserialize`. -/
def DebugInfo.fromValue : Deserialize DebugInfo := fun v => do
  let get ← structFields ["net_name", "device", "arch", "probe", "serial", "backend", "connected",
    "gdbserver_running", "target_attached"] v
  let netName ← field (option string) none (get "net_name")
  let device ← field (option string) none (get "device")
  let arch ← field (option string) none (get "arch")
  let probe ← field (option string) none (get "probe")
  let serial ← field (option string) none (get "serial")
  let backend ← field (option string) none (get "backend")
  let connected ← field boolean false (get "connected")
  return ⟨netName, device, arch, probe, serial, backend, connected⟩

/-- `DebugStatus`. -/
structure DebugStatus where
  connected : Bool
  serial : Option String
  backend : Option String
  deriving DecidableEq, Repr

/-- `Deserialize`. -/
def DebugStatus.fromValue : Deserialize DebugStatus := fun v => do
  let get ← structFields
    ["connected", "gdbserver_running", "target_attached", "pid", "serial", "backend"] v
  let connected ← field boolean false (get "connected")
  let serial ← field (option string) none (get "serial")
  let backend ← field (option string) none (get "backend")
  return ⟨connected, serial, backend⟩

/-- The bytes of hexadecimal digits, two at a time. -/
def hexBytes : List Char → Option (List UInt8)
  | [] => some []
  | [_] => none
  | h :: l :: rest => do
    let byte ← fromStrRadix 16 256 [h, l]
    let bytes ← hexBytes rest
    return UInt8.ofNat byte :: bytes

/-- `hex_decode`. -/
def hexDecode (s : String) : Except Error (List UInt8) :=
  let digits := trim s.toList
  match if digits.all fun c => c.toNat < 128 then hexBytes digits else none with
  | some bytes => .ok bytes
  | none => .error (.decode (.invalidHex digits))

/-- `debug_memory_bytes`. -/
def debugMemoryBytes (body : Value) : Except Error (List UInt8) :=
  match (body.get "data").bind Value.asStr with
  | some hex => hexDecode hex
  | none => .error (.decode (.text "memrd response missing 'data'"))

/-- A type that is read from an answer. -/
theorem fromValue_ok {α : Type} {d : Deserialize α} {body : Value} {a : α}
    (h : fromValue d body = .ok a) : d body = some a := by
  unfold fromValue at h
  split at h
  · cases h
    assumption
  · cases h

/-- A type that cannot be read from an answer. -/
theorem fromValue_error {α : Type} (d : Deserialize α) (body : Value) :
    d body = none ↔ ∃ err, fromValue d body = .error err := by
  unfold fromValue
  cases d body <;> simp

/-- Where `/health` lists the features of the debug service. -/
def featuresOf : Value → Option Value
  | .object fields => fields.lookup "features"
  | .array elements => elements[2]?
  | _ => none

/-- The body of an answer to `/health` lists a feature. -/
def Lists (feature : String) (body : Value) : Prop :=
  ∃ elements, featuresOf body = some (.array elements) ∧ .string feature ∈ elements

/-- A service that has a feature lists it. -/
theorem lists_of_supports {body : Value} {health : DebugHealth} {feature : String}
    (h : DebugHealth.fromValue body = some health) (hfeature : health.supports feature = true) :
    Lists feature body := by
  simp only [DebugHealth.fromValue] at h
  obtain ⟨get, hget, h⟩ := Option.bind_eq_some_iff.mp h
  obtain ⟨status, -, h⟩ := Option.bind_eq_some_iff.mp h
  obtain ⟨version, -, h⟩ := Option.bind_eq_some_iff.mp h
  obtain ⟨features, hfeatures, h⟩ := Option.bind_eq_some_iff.mp h
  cases h
  have hmem : feature ∈ features := by
    simpa [DebugHealth.supports] using hfeature
  have hwhere : get "features" = featuresOf body := by
    cases body with
    | object fields =>
      cases hget
      rfl
    | array elements =>
      simp only [structFields] at hget
      split_ifs at hget
      cases hget
      rfl
    | _ => cases hget
  rw [hwhere] at hfeatures
  cases hlist : featuresOf body with
  | none =>
    rw [hlist] at hfeatures
    cases hfeatures
    cases hmem
  | some v =>
    rw [hlist] at hfeatures
    obtain ⟨elements, rfl, hstring⟩ := mem_of_vec_string hfeatures hmem
    exact ⟨elements, hlist, hstring⟩

/-- The check of a feature passes only when the service answers that it has it. -/
theorem lists_of_requireDebugFeature {status : ℕ} {body : Value} {feature since : String}
    (h : requireDebugFeature status body feature since = .ok ()) :
    status = 200 ∧ Lists feature body := by
  unfold requireDebugFeature parseDebug at h
  by_cases hstatus : status = 200
  · rw [if_pos hstatus] at h
    refine ⟨hstatus, ?_⟩
    replace h : (fromValue DebugHealth.fromValue body >>= fun health =>
      if health.supports feature then pure ()
      else .error (.unsupportedByBox (.featureMissing feature since))) = .ok () := h
    cases hread : fromValue DebugHealth.fromValue body with
    | error err =>
      rw [hread] at h
      cases h
    | ok health =>
      rw [hread] at h
      by_cases hfeature : health.supports feature = true
      · exact lists_of_supports (fromValue_ok hread) hfeature
      · replace h : (if health.supports feature then pure ()
          else .error (.unsupportedByBox (.featureMissing feature since)) :
            Except Error Unit) = .ok () := h
        rw [if_neg hfeature] at h
        cases h
  · rw [if_neg hstatus] at h
    cases h

/-! ## What the requests hold -/

/-- What the body of a request holds: a parameter, or the record of the net. -/
theorem get_debugBody {extra : Map} (h : extra.Sorted) (net : Value) (key : String) :
    (debugBody net extra).get key =
      (extra.lookup key).or (if key = "net" then some net else none) := by
  show List.lookup key (Map.insertAll extra [("net", net)]) = _
  rw [Map.lookup_insertAll h, Map.lookup_cons]
  rfl

/-- The parameters of `connect` are in order. -/
theorem ops.sorted_connectParams (opts : ConnectOptions) : Map.Sorted (connectParams opts) := by
  unfold connectParams
  iterate 8 refine Map.Sorted.setSome ?_ _ _
  exact Map.sorted_of_keys ["force", "gdb", "halt"] rfl (by decide)

/-- The parameters of an erasure are in order. -/
theorem ops.sorted_eraseParams (opts : EraseOptions) {extra : Map} (h : Map.Sorted extra) :
    Map.Sorted (eraseParams opts extra) :=
  ((h.setSome _ _).setSome _ _).setSome _ _

/-- The payload of a flash is in order. -/
theorem ops.sorted_flashPayload (contents : List UInt8) (kind : FirmwareKind)
    (address : Option UInt32) : Map.Sorted (flashPayload contents kind address) := by
  cases kind <;> exact List.pairwise_singleton _ _

end Lager
