import Lager.Rust.Float
import Lager.Wire.Hex
import Mathlib.Tactic.NormNum
import Mathlib.Tactic.Positivity

set_option relaxedAutoImplicit false
set_option autoImplicit false

/-!
# Commands that take time

Some commands keep the box busy for a while: a scan, a move, a measurement over a window. Their
requests widen the timeout of the client past the time the box may take.

## Main definitions

* `Lager.fromSecsF64` — from seconds to a duration.
* `Lager.netCommand`, `Lager.boxCommand`, `Lager.usbCycle` — the requests.
* `Lager.gpio.waitForLevelWith`, and what the namespaces `ble`, `blufi`, `arm`, `watt` and `energy`
  hold — the commands that take time.

## Main results

* `Lager.fromSecsF64_of_nonneg` — durations are exact up to half a nanosecond.

## Implementation notes

The durations of the commands are exact numbers. A builder that fails is one that panics. The
parsers of the answers are left out.
-/

namespace Lager

open Library

/-! ## Durations -/

/-- `TryFromFloatSecsError`, the text of the panic of `Duration::from_secs_f64`. -/
inductive TryFromFloatSecsError
  | negative
  | overflowOrNan
  deriving DecidableEq, Repr

/-- `Duration::from_secs_f64`, in nanoseconds. -/
def fromSecsF64 (secs : ℚ) : Except TryFromFloatSecsError ℕ :=
  if secs < 0 then .error .negative
  else if 2 ^ 64 * 10 ^ 9 ≤ nearestEven (secs * 10 ^ 9) then .error .overflowOrNan
  else .ok (nearestEven (secs * 10 ^ 9)).toNat

/-- `Timeout::After` of so many seconds. -/
def timeoutAfter (secs : ℚ) : Except TryFromFloatSecsError Timeout := (fromSecsF64 secs).map .after

/-- There is no negative duration. -/
theorem fromSecsF64_of_neg {secs : ℚ} (h : secs < 0) : fromSecsF64 secs = .error .negative :=
  if_pos h

/-- Other durations are exact up to half a nanosecond. -/
theorem fromSecsF64_of_nonneg {secs : ℚ} (h : 0 ≤ secs) (hlt : secs < 2 ^ 64 - 1) :
    ∃ d : ℕ, fromSecsF64 secs = .ok d ∧ |d - secs * 10 ^ 9| ≤ 1 / 2 := by
  have hnear := abs_nearestEven_sub_le (secs * 10 ^ 9)
  have hfits : (nearestEven (secs * 10 ^ 9) : ℚ) < 2 ^ 64 * 10 ^ 9 := calc
    (nearestEven (secs * 10 ^ 9) : ℚ) ≤ 1 / 2 + secs * 10 ^ 9 :=
      sub_le_iff_le_add.mp (abs_le.mp hnear).2
    _ < 2 ^ 64 * 10 ^ 9 := by linarith
  have hfits' : ¬ 2 ^ 64 * 10 ^ 9 ≤ nearestEven (secs * 10 ^ 9) :=
    not_le.mpr (by exact_mod_cast hfits)
  have hnonneg : 0 ≤ nearestEven (secs * 10 ^ 9) := le_nearestEven (by push_cast; positivity)
  refine ⟨_, (if_neg (not_lt.mpr h)).trans (if_neg hfits'), ?_⟩
  have hcast : ((nearestEven (secs * 10 ^ 9)).toNat : ℚ) = nearestEven (secs * 10 ^ 9) := by
    exact_mod_cast Int.toNat_of_nonneg hnonneg
  rw [hcast]
  exact hnear

/-! ## Requests -/

/-- `json!` of a double: only the finite ones are numbers. -/
def F64.toJson : F64 → Value
  | .finite x => .number x
  | _ => .null

/-- `net_command`. -/
def netCommand (netname : String) (role : Option String) (action : String) (params : Value)
    (timeout : Timeout) : HttpRequest :=
  let body : Map := [("action", .string action), ("netname", .string netname), ("params", params)]
  ⟨.post, "/net/command",
    some (.object (role.elim body fun role => Map.insert "role" (.string role) body)), timeout⟩

/-- `box_command`. -/
def boxCommand (path action : String) (params : Value) (timeout : Timeout) : HttpRequest :=
  ⟨.post, path, some (.object [("action", .string action), ("params", params)]), timeout⟩

/-- `usb_cycle`. -/
def usbCycle (netname : String) (offTime : Option ℚ) : Except TryFromFloatSecsError HttpRequest :=
  let body : Map := [("action", .string "cycle"), ("netname", .string netname)]
  (timeoutAfter (30 + offTime.getD 1)).map fun timeout =>
    ⟨.post, "/usb/command",
      some (.object (offTime.elim body fun secs => Map.insert "off_time" (.number secs) body)),
      timeout⟩

/-! ## Levels -/

namespace gpio

/-- `ROLE`. -/
def role : String := "gpio"

/-- `Level`. -/
inductive Level
  | high
  | low
  deriving DecidableEq, Repr

/-- `Level::as_str`. -/
def Level.asStr : Level → String
  | high => "high"
  | low => "low"

/-- `WaitForLevelOptions`. -/
structure WaitForLevelOptions where
  timeout : Option ℚ := none
  scanRate : Option ℕ := none
  scansPerRead : Option ℕ := none
  pollInterval : Option F64 := none
  deriving DecidableEq

/-- Set a parameter if there is one. -/
def insertSome (key : String) (value : Option Value) (params : Map) : Map :=
  value.elim params fun value => Map.insert key value params

/-- `wait_params`. -/
def waitParams (level : Level) (opts : WaitForLevelOptions) : Map :=
  insertSome "poll_interval" (opts.pollInterval.map F64.toJson)
    (insertSome "scans_per_read" (opts.scansPerRead.map uint)
      (insertSome "scan_rate" (opts.scanRate.map uint)
        (insertSome "timeout" (opts.timeout.map .number)
          (Map.insert "level" (.string level.asStr) []))))

/-- `wait_for_level_with`. -/
def waitForLevelWith (name : String) (level : Level) (opts : WaitForLevelOptions) :
    Except TryFromFloatSecsError HttpRequest :=
  let timeout := match opts.timeout with
    | some t => timeoutAfter (t + 20)
    | none => .ok .unbounded
  timeout.map (netCommand name role "wait_for_level" (.object (waitParams level opts)))

/-- `wait_for_level`. -/
def waitForLevel (name : String) (level : Level) (timeoutS : ℚ) :
    Except TryFromFloatSecsError HttpRequest :=
  waitForLevelWith name level { timeout := some timeoutS }

end gpio

/-! ## Bluetooth -/

namespace ble

/-- `PATH`. -/
def path : String := "/ble/command"

/-- `CONNECT_TIMEOUT_S`. -/
def connectTimeoutS : ℚ := 10

/-- `GattChar`. -/
inductive GattChar
  | uuid (uuid : String)
  | handle (handle : ℕ)
  deriving DecidableEq, Repr

/-- `GattChar::to_json`. -/
def GattChar.toJson : GattChar → Value
  | .uuid text => .string text
  | .handle n => uint n

/-- `budget`. -/
def budget (boxSide : ℚ) : Except TryFromFloatSecsError Timeout := timeoutAfter (boxSide + 30)

/-- `scan`. -/
def scan (timeout : ℚ) : Except TryFromFloatSecsError HttpRequest :=
  (budget timeout).map (boxCommand path "scan" (.object [("timeout", .number timeout)]))

/-- `scan_named`. -/
def scanNamed (timeout : ℚ) (nameContains : String) : Except TryFromFloatSecsError HttpRequest :=
  (budget timeout).map (boxCommand path "scan"
    (.object [("name_contains", .string nameContains), ("timeout", .number timeout)]))

/-- `scan_exact`. -/
def scanExact (timeout : ℚ) (name : String) : Except TryFromFloatSecsError HttpRequest :=
  (budget timeout).map (boxCommand path "scan"
    (.object [("name_exact", .string name), ("timeout", .number timeout)]))

/-- `enumerate`. -/
def enumerate (action address : String) (timeout : ℚ) :
    Except TryFromFloatSecsError HttpRequest :=
  (budget timeout).map (boxCommand path action
    (.object [("address", .string address), ("timeout", .number timeout)]))

/-- `info`. -/
def info (address : String) : Except TryFromFloatSecsError HttpRequest :=
  enumerate "info" address connectTimeoutS

/-- `info_with_timeout`. -/
def infoWithTimeout (address : String) (timeout : ℚ) : Except TryFromFloatSecsError HttpRequest :=
  enumerate "info" address timeout

/-- `connect`. -/
def connect (address : String) : Except TryFromFloatSecsError HttpRequest :=
  enumerate "connect" address connectTimeoutS

/-- `connect_with_timeout`. -/
def connectWithTimeout (address : String) (timeout : ℚ) :
    Except TryFromFloatSecsError HttpRequest :=
  enumerate "connect" address timeout

/-- `gatt`. -/
def gatt (address : String) (characteristic : GattChar) : Map :=
  [("address", .string address), ("char", characteristic.toJson),
    ("timeout", .number connectTimeoutS)]

/-- `read`. -/
def read (address : String) (characteristic : GattChar) :
    Except TryFromFloatSecsError HttpRequest :=
  (budget connectTimeoutS).map (boxCommand path "read" (.object (gatt address characteristic)))

/-- `write_op`. -/
def writeOp (address : String) (characteristic : GattChar) (data : List UInt8)
    (response : Option Bool) : Except TryFromFloatSecsError HttpRequest :=
  let params := Map.insert "data" (.string (hexEncode data)) (gatt address characteristic)
  (budget connectTimeoutS).map (boxCommand path "write"
    (.object (response.elim params fun response => Map.insert "response" (.bool response) params)))

/-- `write`. -/
def write (address : String) (characteristic : GattChar) (data : List UInt8) :
    Except TryFromFloatSecsError HttpRequest :=
  writeOp address characteristic data none

/-- `write_with_response`. -/
def writeWithResponse (address : String) (characteristic : GattChar) (data : List UInt8)
    (response : Bool) : Except TryFromFloatSecsError HttpRequest :=
  writeOp address characteristic data (some response)

/-- `notify`. -/
def notify (address : String) (characteristic : GattChar) (maxMessages : ℕ) (duration : ℚ) :
    Except TryFromFloatSecsError HttpRequest :=
  (budget (connectTimeoutS + duration)).map (boxCommand path "notify"
    (.object (Map.insert "duration" (.number duration)
      (Map.insert "max_messages" (uint maxMessages) (gatt address characteristic)))))

/-- `pair`. -/
def pair (address : String) : Except TryFromFloatSecsError HttpRequest :=
  (budget connectTimeoutS).map (boxCommand path "pair"
    (.object [("address", .string address), ("timeout", .number connectTimeoutS)]))

/-- `disconnect`. -/
def disconnect (address : String) : Except TryFromFloatSecsError HttpRequest :=
  (budget connectTimeoutS).map (boxCommand path "disconnect"
    (.object [("address", .string address)]))

end ble

/-! ## Provisioning over Bluetooth -/

namespace blufi

/-- `PATH`. -/
def path : String := "/blufi/command"

/-- `CONNECT_TIMEOUT_S`. -/
def connectTimeoutS : ℚ := 20

/-- `BlufiOpMode`. -/
inductive BlufiOpMode
  | null
  | sta
  | softAp
  | staSoftAp
  deriving DecidableEq, Repr

/-- `BlufiOpMode::code`. -/
def BlufiOpMode.code : BlufiOpMode → ℕ
  | null => 0
  | sta => 1
  | softAp => 2
  | staSoftAp => 3

/-- `budget`. -/
def budget (boxSide : ℚ) : Except TryFromFloatSecsError Timeout := timeoutAfter (boxSide + 40)

/-- `scan`. -/
def scan (timeout : ℚ) : Except TryFromFloatSecsError HttpRequest :=
  (budget timeout).map (boxCommand path "scan" (.object [("timeout", .number timeout)]))

/-- `scan_including`. -/
def scanIncluding (timeout : ℚ) (nameContains : String) :
    Except TryFromFloatSecsError HttpRequest :=
  (budget timeout).map (boxCommand path "scan"
    (.object [("name_contains", .string nameContains), ("timeout", .number timeout)]))

/-- `connect`. -/
def connect (deviceName : String) : Except TryFromFloatSecsError HttpRequest :=
  (budget connectTimeoutS).map (boxCommand path "connect"
    (.object [("device_name", .string deviceName), ("timeout", .number connectTimeoutS)]))

/-- `provision`. -/
def provision (deviceName ssid password : String) : Except TryFromFloatSecsError HttpRequest :=
  (budget (connectTimeoutS + 60)).map (boxCommand path "provision"
    (.object [("device_name", .string deviceName), ("password", .string password),
      ("ssid", .string ssid), ("timeout", .number connectTimeoutS)]))

/-- `wifi_scan`. -/
def wifiScan (deviceName : String) : Except TryFromFloatSecsError HttpRequest :=
  (budget (connectTimeoutS + 30)).map (boxCommand path "wifi_scan"
    (.object [("device_name", .string deviceName), ("timeout", .number connectTimeoutS)]))

/-- `wifi_scan_for`. -/
def wifiScanFor (deviceName : String) (scanTimeout : ℚ) :
    Except TryFromFloatSecsError HttpRequest :=
  (budget (connectTimeoutS + scanTimeout + 15)).map (boxCommand path "wifi_scan"
    (.object [("device_name", .string deviceName), ("scan_timeout", .number scanTimeout),
      ("timeout", .number connectTimeoutS)]))

/-- `status`. -/
def status (deviceName : String) : Except TryFromFloatSecsError HttpRequest :=
  (budget connectTimeoutS).map (boxCommand path "status"
    (.object [("device_name", .string deviceName), ("timeout", .number connectTimeoutS)]))

/-- `set_mode`. -/
def setMode (deviceName : String) (mode : BlufiOpMode) :
    Except TryFromFloatSecsError HttpRequest :=
  (budget connectTimeoutS).map (boxCommand path "set_mode"
    (.object [("device_name", .string deviceName), ("mode", uint mode.code),
      ("timeout", .number connectTimeoutS)]))

/-- `send_custom_data`. -/
def sendCustomData (deviceName : String) (data : List UInt8) (replyWindow : ℚ) :
    Except TryFromFloatSecsError HttpRequest :=
  (budget (connectTimeoutS + replyWindow)).map (boxCommand path "custom_data"
    (.object [("data", .string (hexEncode data)), ("device_name", .string deviceName),
      ("reply_timeout", .number replyWindow), ("timeout", .number connectTimeoutS)]))

/-- `version`. -/
def version (deviceName : String) : Except TryFromFloatSecsError HttpRequest :=
  (budget connectTimeoutS).map (boxCommand path "version"
    (.object [("device_name", .string deviceName), ("timeout", .number connectTimeoutS)]))

end blufi

/-! ## The arm -/

namespace arm

/-- `ROLE`. -/
def role : String := "arm"

/-- `MOVE_TIMEOUT_S`. -/
def moveTimeoutS : ℚ := 15

/-- `move_budget`. -/
def moveBudget (timeoutS : ℚ) : Except TryFromFloatSecsError Timeout :=
  timeoutAfter (timeoutS + 30)

/-- `move_to_with_timeout`. -/
def moveToWithTimeout (name : String) (x y z : F64) (timeoutS : ℚ) :
    Except TryFromFloatSecsError HttpRequest :=
  (moveBudget timeoutS).map (netCommand name role "move"
    (.object [("timeout", .number timeoutS), ("x", x.toJson), ("y", y.toJson), ("z", z.toJson)]))

/-- `move_to`. -/
def moveTo (name : String) (x y z : F64) : Except TryFromFloatSecsError HttpRequest :=
  moveToWithTimeout name x y z moveTimeoutS

/-- `move_by_with_timeout`. -/
def moveByWithTimeout (name : String) (dx dy dz : F64) (timeoutS : ℚ) :
    Except TryFromFloatSecsError HttpRequest :=
  (moveBudget timeoutS).map (netCommand name role "move_by"
    (.object [("dx", dx.toJson), ("dy", dy.toJson), ("dz", dz.toJson),
      ("timeout", .number timeoutS)]))

/-- `move_by`. -/
def moveBy (name : String) (dx dy dz : F64) : Except TryFromFloatSecsError HttpRequest :=
  moveByWithTimeout name dx dy dz moveTimeoutS

end arm

/-! ## Meters -/

namespace watt

/-- `ROLE`. -/
def role : String := "watt-meter"

/-- `budget`. -/
def budget (duration : ℚ) : Except TryFromFloatSecsError Timeout :=
  timeoutAfter (max (duration + 20) 30)

/-- `scalar`. -/
def scalar (name action : String) (duration : ℚ) : Except TryFromFloatSecsError HttpRequest :=
  (budget duration).map (netCommand name role action (.object [("duration", .number duration)]))

/-- `power`. -/
def power (name : String) (duration : ℚ) : Except TryFromFloatSecsError HttpRequest :=
  scalar name "power" duration

/-- `current`. -/
def current (name : String) (duration : ℚ) : Except TryFromFloatSecsError HttpRequest :=
  scalar name "current" duration

/-- `voltage`. -/
def voltage (name : String) (duration : ℚ) : Except TryFromFloatSecsError HttpRequest :=
  scalar name "voltage" duration

/-- `all`. -/
def all (name : String) (duration : ℚ) : Except TryFromFloatSecsError HttpRequest :=
  (budget duration).map (netCommand name role "all" (.object [("duration", .number duration)]))

end watt

namespace energy

/-- `ROLE`. -/
def role : String := "energy-analyzer"

/-- `budget`. -/
def budget (duration : ℚ) : Except TryFromFloatSecsError Timeout :=
  timeoutAfter (max (duration + 30) 30)

/-- `read_energy`. -/
def readEnergy (name : String) (duration : ℚ) : Except TryFromFloatSecsError HttpRequest :=
  (budget duration).map
    (netCommand name role "read_energy" (.object [("duration", .number duration)]))

/-- `read_stats`. -/
def readStats (name : String) (duration : ℚ) : Except TryFromFloatSecsError HttpRequest :=
  (budget duration).map
    (netCommand name role "read_stats" (.object [("duration", .number duration)]))

end energy

end Lager
