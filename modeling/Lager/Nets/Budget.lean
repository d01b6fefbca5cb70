import Lager.Nets.Commands

set_option relaxedAutoImplicit false
set_option autoImplicit false

/-!
# Time budgets

A command that keeps the box busy is sent with a timeout, which has to be longer than the times it
asks the box to take. The timeout is computed from a duration that the caller gives, whatever it is,
and there are no negative timeouts.

## Main definitions

* `Lager.boxWait` — how long a request has the box wait.
* `Lager.Meets` — a request is built, and its timeout is longer than that.
* `Lager.ble.Call`, `Lager.blufi.Call`, `Lager.arm.Call`, `Lager.watt.Call`, `Lager.energy.Call` —
  the builders of a kind, with the least duration each of them takes.
* `Lager.TimedCall` — all of them.

## Main results

* `Lager.meets_iff` — a builder meets its budget when the seconds it computes are not negative.
* `Lager.TimedCall.meets_iff_least` — every builder does just for the durations from its least one on.
-/

namespace Lager

open Library

/-! ## How long the box waits -/

/-- The seconds under a key. -/
def secondsAt (key : String) (params : Map) : Option ℚ := (params.lookup key).bind Value.asF64

/-- The keys of the times the box takes, one after the other. -/
def waitKeys : List String := ["timeout", "scan_timeout", "reply_timeout", "duration", "off_time"]

/-- The time the box takes where a command says nothing. -/
def defaultWait (action key : String) : ℚ :=
  if action = "cycle" ∧ key = "off_time" then 1
  else if action = "wifi_scan" ∧ key = "scan_timeout" then 15
  else 0

/-- How long an action takes, which is forever when a level is waited for without a timeout. -/
def waitOf (action : String) (params : Map) : Option ℚ :=
  if action = "wait_for_level" ∧ secondsAt "timeout" params = none then none
  else some (waitKeys.map fun key => (secondsAt key params).getD (defaultWait action key)).sum

/-- How long a request has the box wait. Commands without parameters have their fields beside the
action. -/
def boxWait (req : HttpRequest) : Option ℚ :=
  match req.body with
  | some (.object command) =>
    match command.lookup "action" with
    | some (.string action) =>
      waitOf action (((command.lookup "params").bind Value.asObject).getD command)
    | _ => some 0
  | _ => some 0

/-- The timeout is longer than a wait. -/
def Timeout.Covers : Timeout → Option ℚ → Prop
  | .unbounded, _ => True
  | .after d, some wait => wait < d / 10 ^ 9
  | _, _ => False

/-- The request is built, and if the duration it was given is not negative its timeout is longer
than the box waits. -/
def Meets (request : Except TryFromFloatSecsError HttpRequest) (duration : Option ℚ) : Prop :=
  ∃ req, request = .ok req ∧ ((∀ d ∈ duration, 0 ≤ d) → req.timeout.Covers (boxWait req))

/-! ## Waits -/

/-- The seconds in front of other parameters. -/
@[simp] theorem secondsAt_cons (key k : String) (value : Value) (params : Map) :
    secondsAt k ((key, value) :: params) = if k = key then value.asF64 else secondsAt k params := by
  rw [secondsAt, Map.lookup_cons]
  split_ifs
  · rfl
  · rfl

/-- No parameters have no seconds. -/
@[simp] theorem secondsAt_nil (k : String) : secondsAt k [] = none := rfl

/-- The seconds after an insertion. -/
@[simp] theorem secondsAt_insert (key k : String) (value : Value) (params : Map) :
    secondsAt k (Map.insert key value params) =
      if k = key then value.asF64 else secondsAt k params := by
  rw [secondsAt, Map.lookup_insert]
  split_ifs
  · rfl
  · rfl

/-- The seconds after a parameter that may be left out. -/
@[simp] theorem secondsAt_insertSome (key k : String) (value : Option Value) (params : Map) :
    secondsAt k (gpio.insertSome key value params) =
      if k = key then value.elim (secondsAt k params) Value.asF64 else secondsAt k params := by
  cases value with
  | none => simp [gpio.insertSome]
  | some value => exact secondsAt_insert key k value params

/-- The requests of a builder, which take the timeout as it is, have the box wait so long. -/
def AsksFor (build : Timeout → HttpRequest) (wait : ℚ) : Prop :=
  ∀ timeout, (build timeout).timeout = timeout ∧ boxWait (build timeout) = some wait

/-- What a box command asks for is in its parameters. -/
theorem asksFor_boxCommand {path action : String} {params : Map} (wait : ℚ)
    (h : waitOf action params = some wait) :
    AsksFor (boxCommand path action (.object params)) wait := by
  refine fun timeout => ⟨rfl, ?_⟩
  simp [boxWait, boxCommand, Map.lookup_cons, Value.asObject, h]

/-- What a command for a net asks for is in its parameters. -/
theorem asksFor_netCommand {netname action : String} {role : Option String} {params : Map}
    (wait : ℚ) (h : waitOf action params = some wait) :
    AsksFor (netCommand netname role action (.object params)) wait := by
  refine fun timeout => ⟨rfl, ?_⟩
  cases role
  all_goals simp [boxWait, netCommand, Map.lookup_insert, Map.lookup_cons, Value.asObject, h]

/-! ## Budgets -/

/-- **One budget.** A request whose timeout is computed from some seconds is built when these are
not negative, and the timeout is longer than the box waits if the seconds are by one at least. -/
theorem meets_iff {secs wait : ℚ} {build : Timeout → HttpRequest} {duration : Option ℚ}
    (hbound : secs < 2 ^ 63 + 100) (hasks : AsksFor build wait)
    (hmargin : (∀ d ∈ duration, 0 ≤ d) → wait + 1 ≤ secs) :
    Meets ((timeoutAfter secs).map build) duration ↔ 0 ≤ secs := by
  constructor
  · rintro ⟨req, hreq, -⟩
    by_contra hneg
    rw [timeoutAfter, fromSecsF64_of_neg (not_le.mp hneg)] at hreq
    cases hreq
  · intro hsecs
    obtain ⟨d, hd, hnear⟩ := fromSecsF64_of_nonneg hsecs (by linarith)
    refine ⟨build (.after d), by rw [timeoutAfter, hd]; rfl, fun hnonneg => ?_⟩
    obtain ⟨htimeout, hwait⟩ := hasks (.after d)
    rw [htimeout, hwait, Timeout.Covers, lt_div_iff₀ (by positivity)]
    have hlow := (abs_le.mp hnear).1
    have hgap := hmargin hnonneg
    linarith

/-- A builder meets its budget for the durations from a least one on, or for all. -/
def MeetsFrom (least duration : Option ℚ) (request : Except TryFromFloatSecsError HttpRequest) :
    Prop :=
  (∀ d ∈ duration, d < 2 ^ 63) → (Meets request duration ↔ ∀ m ∈ least, ∀ d ∈ duration, m ≤ d)

section

variable {secs wait d : ℚ} {build : Timeout → HttpRequest}

/-- Without a duration, the budget is a fixed one. -/
theorem meetsFrom_fixed (hsecs : 0 ≤ secs ∧ secs < 2 ^ 63) (hasks : AsksFor build wait)
    (hmargin : wait + 1 ≤ secs) : MeetsFrom none none ((timeoutAfter secs).map build) := by
  intro _
  rw [meets_iff (by linarith [hsecs.2]) hasks fun _ => hmargin]
  exact iff_of_true hsecs.1 (by simp)

/-- A duration and a slack. -/
theorem meetsFrom_slack {slack : ℚ} (hsecs : secs = d + slack) (hslack : slack < 100)
    (hasks : AsksFor build wait) (hmargin : wait + 1 ≤ secs) :
    MeetsFrom (some (-slack)) (some d) ((timeoutAfter secs).map build) := by
  intro hd
  have hbound : secs < 2 ^ 63 + 100 := by
    have hlt := hd d rfl
    linarith
  rw [meets_iff hbound hasks fun _ => hmargin, hsecs]
  simp only [Option.mem_some_iff, forall_eq', neg_le_iff_add_nonneg]

/-- A duration and a slack, and a floor. -/
theorem meetsFrom_floor {slack floor : ℚ} (hslack : 1 ≤ slack ∧ slack < 100)
    (hfloor : 0 ≤ floor ∧ floor < 100) (hasks : AsksFor build d) :
    MeetsFrom none (some d) ((timeoutAfter (max (d + slack) floor)).map build) := by
  intro hd
  have hbound : max (d + slack) floor < 2 ^ 63 + 100 := by
    have hlt := hd d rfl
    exact max_lt (by linarith [hslack.2]) (by linarith [hfloor.2])
  have hmargin : d + 1 ≤ max (d + slack) floor := le_max_of_le_left (by linarith [hslack.1])
  rw [meets_iff hbound hasks fun _ => hmargin]
  exact iff_of_true (le_max_of_le_right hfloor.1) (by simp)

end

/-! ## Cycles and levels -/

section

attribute [local simp] waitOf waitKeys defaultWait Value.asF64

/-- What a cycle asks for. -/
theorem asksFor_cycle (netname : String) (offTime : Option ℚ) :
    AsksFor (fun timeout => ⟨.post, "/usb/command", some (.object
      (offTime.elim [("action", .string "cycle"), ("netname", .string netname)] fun secs =>
        Map.insert "off_time" (.number secs)
          [("action", .string "cycle"), ("netname", .string netname)])), timeout⟩)
      (offTime.getD 1) := by
  refine fun timeout => ⟨rfl, ?_⟩
  cases offTime
  all_goals
    simp [boxWait, Map.lookup_insert, Map.lookup_cons]

/-- A cycle of a port. -/
theorem meetsFrom_usbCycle (netname : String) (offTime : Option ℚ) :
    MeetsFrom (some (-30)) offTime (usbCycle netname offTime) := by
  have hasks := asksFor_cycle netname offTime
  cases offTime with
  | none => exact fun h => (meetsFrom_fixed (by norm_num) hasks (by norm_num) h).trans (by simp)
  | some secs =>
    have hmargin : secs + 1 ≤ 30 + secs := by linarith
    exact meetsFrom_slack (add_comm 30 secs) (by norm_num) hasks hmargin

namespace gpio

/-- A wait for a level. -/
theorem meetsFrom_waitForLevelWith (name : String) (level : Level) (opts : WaitForLevelOptions) :
    MeetsFrom (some (-20)) opts.timeout (waitForLevelWith name level opts) := by
  obtain ⟨timeout, scanRate, scansPerRead, pollInterval⟩ := opts
  cases timeout with
  | none => exact fun _ => iff_of_true ⟨_, rfl, fun _ => trivial⟩ (by simp)
  | some t =>
    refine meetsFrom_slack rfl (by norm_num) (asksFor_netCommand t ?_) (by linarith)
    simp [waitParams]

end gpio

/-! ## Bluetooth -/

namespace ble

/-- The calls, with the least duration each of them takes and the one it is given. -/
inductive Call : Option ℚ → Option ℚ → Except TryFromFloatSecsError HttpRequest → Prop
  | scan (timeout : ℚ) : Call (some (-30)) (some timeout) (scan timeout)
  | scanNamed (timeout : ℚ) (nameContains : String) :
    Call (some (-30)) (some timeout) (scanNamed timeout nameContains)
  | scanExact (timeout : ℚ) (name : String) :
    Call (some (-30)) (some timeout) (scanExact timeout name)
  | info (address : String) : Call none none (info address)
  | infoWithTimeout (address : String) (timeout : ℚ) :
    Call (some (-30)) (some timeout) (infoWithTimeout address timeout)
  | connect (address : String) : Call none none (connect address)
  | connectWithTimeout (address : String) (timeout : ℚ) :
    Call (some (-30)) (some timeout) (connectWithTimeout address timeout)
  | read (address : String) (characteristic : GattChar) :
    Call none none (read address characteristic)
  | write (address : String) (characteristic : GattChar) (data : List UInt8) :
    Call none none (write address characteristic data)
  | writeWithResponse (address : String) (characteristic : GattChar) (data : List UInt8)
      (response : Bool) : Call none none (writeWithResponse address characteristic data response)
  | notify (address : String) (characteristic : GattChar) (maxMessages : ℕ) (duration : ℚ) :
    Call (some (-40)) (some duration) (notify address characteristic maxMessages duration)
  | pair (address : String) : Call none none (pair address)
  | disconnect (address : String) : Call none none (disconnect address)

section

variable {action : String} {params : Map}

/-- A call with a timeout of its own. -/
theorem meetsFrom_timeout {timeout : ℚ} (h : waitOf action params = some timeout) :
    MeetsFrom (some (-30)) (some timeout)
      ((budget timeout).map (boxCommand path action (.object params))) :=
  meetsFrom_slack rfl (by norm_num) (asksFor_boxCommand timeout h) (by linarith)

/-- A call that takes no longer than to connect. -/
theorem meetsFrom_connect (wait : ℚ) (h : waitOf action params = some wait)
    (hle : wait ≤ connectTimeoutS) :
    MeetsFrom none none
      ((budget connectTimeoutS).map (boxCommand path action (.object params))) := by
  refine meetsFrom_fixed ?_ (asksFor_boxCommand wait h) (by linarith)
  norm_num [connectTimeoutS]

end

/-- Every call meets its budget from its least duration on. -/
theorem Call.meetsFrom {least duration : Option ℚ}
    {request : Except TryFromFloatSecsError HttpRequest} (call : Call least duration request) :
    MeetsFrom least duration request := by
  cases call with
  | scan => exact meetsFrom_timeout (by simp)
  | scanNamed => exact meetsFrom_timeout (by simp)
  | scanExact => exact meetsFrom_timeout (by simp)
  | info => exact meetsFrom_connect _ (by simp) le_rfl
  | infoWithTimeout => exact meetsFrom_timeout (by simp)
  | connect => exact meetsFrom_connect _ (by simp) le_rfl
  | connectWithTimeout => exact meetsFrom_timeout (by simp)
  | read => exact meetsFrom_connect _ (by simp [gatt]) le_rfl
  | write => exact meetsFrom_connect _ (by simp [gatt]) le_rfl
  | writeWithResponse => exact meetsFrom_connect _ (by simp [gatt]) le_rfl
  | notify address characteristic maxMessages duration =>
    have hsecs : connectTimeoutS + duration + 30 = duration + 40 := by
      rw [connectTimeoutS]
      ring
    refine meetsFrom_slack hsecs (by norm_num) (asksFor_boxCommand (connectTimeoutS + duration) ?_)
      (by linarith)
    simp [gatt]
  | pair => exact meetsFrom_connect _ (by simp) le_rfl
  | disconnect => exact meetsFrom_connect 0 (by simp) (by norm_num [connectTimeoutS])

end ble

/-! ## Provisioning -/

namespace blufi

/-- The calls, with the least duration each of them takes and the one it is given. -/
inductive Call : Option ℚ → Option ℚ → Except TryFromFloatSecsError HttpRequest → Prop
  | scan (timeout : ℚ) : Call (some (-40)) (some timeout) (scan timeout)
  | scanIncluding (timeout : ℚ) (nameContains : String) :
    Call (some (-40)) (some timeout) (scanIncluding timeout nameContains)
  | connect (deviceName : String) : Call none none (connect deviceName)
  | provision (deviceName ssid password : String) :
    Call none none (provision deviceName ssid password)
  | wifiScan (deviceName : String) : Call none none (wifiScan deviceName)
  | wifiScanFor (deviceName : String) (scanTimeout : ℚ) :
    Call (some (-75)) (some scanTimeout) (wifiScanFor deviceName scanTimeout)
  | status (deviceName : String) : Call none none (status deviceName)
  | setMode (deviceName : String) (mode : BlufiOpMode) : Call none none (setMode deviceName mode)
  | sendCustomData (deviceName : String) (data : List UInt8) (replyWindow : ℚ) :
    Call (some (-60)) (some replyWindow) (sendCustomData deviceName data replyWindow)
  | version (deviceName : String) : Call none none (version deviceName)

section

variable {action : String} {params : Map} {timeout boxSide slack : ℚ}

/-- A call with a duration, which has the box wait a little longer. -/
theorem meetsFrom_duration (wait : ℚ) (hside : boxSide + 40 = timeout + slack)
    (hslack : slack < 100) (h : waitOf action params = some wait) (hle : wait ≤ boxSide) :
    MeetsFrom (some (-slack)) (some timeout)
      ((budget boxSide).map (boxCommand path action (.object params))) :=
  meetsFrom_slack hside hslack (asksFor_boxCommand wait h) (by linarith)

/-- A call with a fixed budget. -/
theorem meetsFrom_budget (wait : ℚ) (hside : 0 ≤ boxSide ∧ boxSide ≤ 100)
    (h : waitOf action params = some wait) (hle : wait ≤ boxSide) :
    MeetsFrom none none ((budget boxSide).map (boxCommand path action (.object params))) := by
  refine meetsFrom_fixed ⟨?_, ?_⟩ (asksFor_boxCommand wait h) (by linarith)
  · linarith [hside.1]
  · linarith [hside.2]

end

/-- Every call meets its budget from its least duration on. -/
theorem Call.meetsFrom {least duration : Option ℚ}
    {request : Except TryFromFloatSecsError HttpRequest} (call : Call least duration request) :
    MeetsFrom least duration request := by
  have hconnect : 0 ≤ connectTimeoutS ∧ connectTimeoutS ≤ 100 := by norm_num [connectTimeoutS]
  cases call with
  | scan => exact meetsFrom_duration _ rfl (by norm_num) (by simp) le_rfl
  | scanIncluding => exact meetsFrom_duration _ rfl (by norm_num) (by simp) le_rfl
  | connect => exact meetsFrom_budget _ hconnect (by simp) le_rfl
  | provision =>
    refine meetsFrom_budget connectTimeoutS ?_ (by simp) (by linarith)
    norm_num [connectTimeoutS]
  | wifiScan =>
    refine meetsFrom_budget (connectTimeoutS + 15) ?_ (by simp) (by linarith)
    norm_num [connectTimeoutS]
  | wifiScanFor deviceName scanTimeout =>
    have hside : connectTimeoutS + scanTimeout + 15 + 40 = scanTimeout + 75 := by
      rw [connectTimeoutS]
      ring
    exact meetsFrom_duration (connectTimeoutS + scanTimeout) hside (by norm_num) (by simp)
      (by linarith)
  | status => exact meetsFrom_budget _ hconnect (by simp) le_rfl
  | setMode => exact meetsFrom_budget _ hconnect (by simp [uint]) le_rfl
  | sendCustomData deviceName data replyWindow =>
    have hside : connectTimeoutS + replyWindow + 40 = replyWindow + 60 := by
      rw [connectTimeoutS]
      ring
    exact meetsFrom_duration _ hside (by norm_num) (by simp) le_rfl
  | version => exact meetsFrom_budget _ hconnect (by simp) le_rfl

end blufi

/-! ## The arm -/

namespace arm

/-- The moves, with the least duration each of them takes and the one it is given. -/
inductive Call : Option ℚ → Option ℚ → Except TryFromFloatSecsError HttpRequest → Prop
  | moveToWithTimeout (name : String) (x y z : F64) (timeoutS : ℚ) :
    Call (some (-30)) (some timeoutS) (moveToWithTimeout name x y z timeoutS)
  | moveTo (name : String) (x y z : F64) : Call none none (moveTo name x y z)
  | moveByWithTimeout (name : String) (dx dy dz : F64) (timeoutS : ℚ) :
    Call (some (-30)) (some timeoutS) (moveByWithTimeout name dx dy dz timeoutS)
  | moveBy (name : String) (dx dy dz : F64) : Call none none (moveBy name dx dy dz)

/-- Every move meets its budget from its least duration on. -/
theorem Call.meetsFrom {least duration : Option ℚ}
    {request : Except TryFromFloatSecsError HttpRequest} (call : Call least duration request) :
    MeetsFrom least duration request := by
  have hfixed : 0 ≤ moveTimeoutS + 30 ∧ moveTimeoutS + 30 < 2 ^ 63 := by norm_num [moveTimeoutS]
  cases call with
  | moveToWithTimeout name x y z timeoutS =>
    exact meetsFrom_slack rfl (by norm_num) (asksFor_netCommand timeoutS (by simp)) (by linarith)
  | moveTo => exact meetsFrom_fixed hfixed (asksFor_netCommand moveTimeoutS (by simp)) (by linarith)
  | moveByWithTimeout name dx dy dz timeoutS =>
    exact meetsFrom_slack rfl (by norm_num) (asksFor_netCommand timeoutS (by simp)) (by linarith)
  | moveBy => exact meetsFrom_fixed hfixed (asksFor_netCommand moveTimeoutS (by simp)) (by linarith)

end arm

/-! ## Meters -/

namespace watt

/-- The reads, with the duration each of them is given. -/
inductive Call : Option ℚ → Except TryFromFloatSecsError HttpRequest → Prop
  | power (name : String) (duration : ℚ) : Call (some duration) (power name duration)
  | current (name : String) (duration : ℚ) : Call (some duration) (current name duration)
  | voltage (name : String) (duration : ℚ) : Call (some duration) (voltage name duration)
  | all (name : String) (duration : ℚ) : Call (some duration) (all name duration)

/-- Every read meets its budget. -/
theorem Call.meetsFrom {duration : Option ℚ}
    {request : Except TryFromFloatSecsError HttpRequest} (call : Call duration request) :
    MeetsFrom none duration request := by
  have hslack : (1 : ℚ) ≤ 20 ∧ (20 : ℚ) < 100 := by norm_num
  have hfloor : (0 : ℚ) ≤ 30 ∧ (30 : ℚ) < 100 := by norm_num
  cases call with
  | power name d => exact meetsFrom_floor hslack hfloor (asksFor_netCommand d (by simp))
  | current name d => exact meetsFrom_floor hslack hfloor (asksFor_netCommand d (by simp))
  | voltage name d => exact meetsFrom_floor hslack hfloor (asksFor_netCommand d (by simp))
  | all name d => exact meetsFrom_floor hslack hfloor (asksFor_netCommand d (by simp))

end watt

namespace energy

/-- The reads, with the duration each of them is given. -/
inductive Call : Option ℚ → Except TryFromFloatSecsError HttpRequest → Prop
  | readEnergy (name : String) (duration : ℚ) : Call (some duration) (readEnergy name duration)
  | readStats (name : String) (duration : ℚ) : Call (some duration) (readStats name duration)

/-- Every read meets its budget. -/
theorem Call.meetsFrom {duration : Option ℚ}
    {request : Except TryFromFloatSecsError HttpRequest} (call : Call duration request) :
    MeetsFrom none duration request := by
  have hslack : (1 : ℚ) ≤ 30 ∧ (30 : ℚ) < 100 := by norm_num
  have hfloor : (0 : ℚ) ≤ 30 ∧ (30 : ℚ) < 100 := by norm_num
  cases call with
  | readEnergy name d => exact meetsFrom_floor hslack hfloor (asksFor_netCommand d (by simp))
  | readStats name d => exact meetsFrom_floor hslack hfloor (asksFor_netCommand d (by simp))

end energy

end

/-! ## All of them -/

/-- The builders of commands that take time, with the least duration each of them takes, if there is
one, and the one it is given, if any. -/
inductive TimedCall : Option ℚ → Option ℚ → Except TryFromFloatSecsError HttpRequest → Prop
  | usbCycle (netname : String) (offTime : Option ℚ) :
    TimedCall (some (-30)) offTime (usbCycle netname offTime)
  | waitForLevelWith (name : String) (level : gpio.Level) (opts : gpio.WaitForLevelOptions) :
    TimedCall (some (-20)) opts.timeout (gpio.waitForLevelWith name level opts)
  | waitForLevel (name : String) (level : gpio.Level) (timeoutS : ℚ) :
    TimedCall (some (-20)) (some timeoutS) (gpio.waitForLevel name level timeoutS)
  | ble {least duration : Option ℚ} {request : Except TryFromFloatSecsError HttpRequest} :
    ble.Call least duration request → TimedCall least duration request
  | blufi {least duration : Option ℚ} {request : Except TryFromFloatSecsError HttpRequest} :
    blufi.Call least duration request → TimedCall least duration request
  | arm {least duration : Option ℚ} {request : Except TryFromFloatSecsError HttpRequest} :
    arm.Call least duration request → TimedCall least duration request
  | watt {duration : Option ℚ} {request : Except TryFromFloatSecsError HttpRequest} :
    watt.Call duration request → TimedCall none duration request
  | energy {duration : Option ℚ} {request : Except TryFromFloatSecsError HttpRequest} :
    energy.Call duration request → TimedCall none duration request

/-- **Time budgets.** For durations below `2 ^ 63` seconds, negative ones included, a request is
built, with a timeout that is longer than the box waits if the duration is not negative, if and only
if the duration is not below the least one. The meters have no least duration. -/
theorem TimedCall.meets_iff_least {least duration : Option ℚ}
    {request : Except TryFromFloatSecsError HttpRequest}
    (call : TimedCall least duration request) (h : ∀ d ∈ duration, d < 2 ^ 63) :
    Meets request duration ↔ ∀ m ∈ least, ∀ d ∈ duration, m ≤ d := by
  cases call with
  | usbCycle netname => exact meetsFrom_usbCycle netname duration h
  | waitForLevelWith name level opts => exact gpio.meetsFrom_waitForLevelWith name level opts h
  | waitForLevel name level timeoutS => exact gpio.meetsFrom_waitForLevelWith name level _ h
  | ble call => exact call.meetsFrom h
  | blufi call => exact call.meetsFrom h
  | arm call => exact call.meetsFrom h
  | watt call => exact call.meetsFrom h
  | energy call => exact call.meetsFrom h

/-- A scan for less than no time, which is still built, and one for five seconds. -/
theorem meets_scans :
    Meets (ble.scan (-30)) (some (-30)) ∧ Meets (blufi.scan 5) (some 5) := by
  have hble : TimedCall (some (-30)) (some (-30)) (ble.scan (-30)) := .ble (.scan (-30))
  have hblufi : TimedCall (some (-40)) (some 5) (blufi.scan 5) := .blufi (.scan 5)
  constructor
  · exact (TimedCall.meets_iff_least hble (by norm_num)).mpr (by norm_num)
  · exact (TimedCall.meets_iff_least hblufi (by norm_num)).mpr (by norm_num)

/-- A cycle with an off time of -31 seconds panics. -/
theorem not_meets_usbCycle : usbCycle "hub" (some (-31)) = .error .negative ∧
    ¬ Meets (usbCycle "hub" (some (-31))) (some (-31)) := by
  have hneg : (30 : ℚ) + (some (-31)).getD 1 < 0 := by norm_num
  have herror : usbCycle "hub" (some (-31)) = .error .negative := by
    rw [usbCycle, timeoutAfter, fromSecsF64_of_neg hneg]
    rfl
  refine ⟨herror, ?_⟩
  rintro ⟨req, hreq, -⟩
  rw [herror] at hreq
  cases hreq

end Lager
