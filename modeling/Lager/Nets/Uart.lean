import Lager.Nets.Session

set_option relaxedAutoImplicit false
set_option autoImplicit false

/-!
# UART and RTT sessions

The two kinds of streaming session, and the operations of `Uart`, `AsyncUart`, `RttSession` and
`AsyncRttSession`: those of `Lager.Session` and `Lager.AsyncSession` for the events of a kind.

## Main definitions

* `Lager.UartEvent`, `Lager.Uart.kind` — UART sessions, used by `Lager.Uart` and
  `Lager.AsyncUart`.
* `Lager.RttEvent`, `Lager.RttSession.kind` — RTT sessions, used by `Lager.RttSession` and
  `Lager.AsyncRttSession`.
-/

namespace Lager

/-- A number of seconds, in the nanoseconds of a `Duration`. -/
def seconds (n : ℕ) : ℕ := n * 1000000000

/-! ## UART -/

/-- `UartEvent`. -/
inductive UartEvent
  | connected (devicePath : String) (baudrate : ℕ)
  | data (bytes : List UInt8)
  | status (status : String)
  | error (err : Error)
  | stopped
  deriving DecidableEq, Repr

/-- What a UART session remembers of the box's reports. -/
structure UartInfo where
  devicePath : String
  baudrate : ℕ
  lastStatus : Option String
  deriving DecidableEq, Repr

namespace Uart

/-- What the events of a UART session mean to it. -/
def kind : Kind UartEvent UartInfo where
  arm
    | .connected devicePath baudrate => .connected fun info => { info with devicePath, baudrate }
    | .data bytes => .data bytes
    | .status status => .status fun info => { info with lastStatus := some status }
    | .error err => .error err
    | .stopped => .other
  label := "UART"
  connectTimeout := seconds 15

/-- `Uart::open`, once the socket is connected. -/
def openSession (rx : Channel UartEvent) (netname : String) :
    Except Error Unit × Session UartEvent UartInfo :=
  Session.openSession kind rx netname ⟨"", 0, none⟩

/-- `Uart::pump`. -/
def pump := Session.pump kind

/-- `Uart::read`. -/
def read := Session.read kind

/-- `Uart::try_read`. -/
def tryRead := Session.tryRead kind

/-- `Uart::wait_for`. -/
def waitFor := Session.waitFor kind

end Uart

namespace AsyncUart

/-- `AsyncUart::open`, once the socket is connected. -/
def openSession (rx : Channel UartEvent) (netname : String) :
    Except Error Unit × Session UartEvent UartInfo :=
  AsyncSession.openSession Uart.kind rx netname ⟨"", 0, none⟩

/-- `AsyncUart::pump`. -/
def pump := AsyncSession.pump Uart.kind

/-- `AsyncUart::read`. -/
def read := AsyncSession.read Uart.kind

/-- `AsyncUart::try_read`. -/
def tryRead := AsyncSession.tryRead Uart.kind

/-- `AsyncUart::wait_for`. -/
def waitFor := AsyncSession.waitFor Uart.kind

end AsyncUart

/-! ## RTT -/

/-- `RttEvent`. -/
inductive RttEvent
  | connected (backend : String)
  | data (bytes : List UInt8)
  | error (msg : String)
  | stopped
  deriving DecidableEq, Repr

/-- What an RTT session remembers: its channel, and the backend the box reported. -/
structure RttInfo where
  channel : ℕ
  backend : String
  deriving DecidableEq, Repr

namespace RttSession

/-- What the events of an RTT session mean to it. -/
def kind : Kind RttEvent RttInfo where
  arm
    | .connected backend => .connected fun info => { info with backend }
    | .data bytes => .data bytes
    | .error msg => .error (.stream (.text msg))
    | .stopped => .other
  label := "RTT"
  connectTimeout := seconds 30

/-- `RttSession::open`, once the socket is connected. -/
def openSession (rx : Channel RttEvent) (netname : String) (channel : ℕ) :
    Except Error Unit × Session RttEvent RttInfo :=
  Session.openSession kind rx netname ⟨channel, ""⟩

/-- `RttSession::pump`. -/
def pump := Session.pump kind

/-- `RttSession::read`. -/
def read := Session.read kind

/-- `RttSession::try_read`. -/
def tryRead := Session.tryRead kind

/-- `RttSession::wait_for`. -/
def waitFor := Session.waitFor kind

end RttSession

namespace AsyncRttSession

/-- `AsyncRttSession::open`, once the socket is connected. -/
def openSession (rx : Channel RttEvent) (netname : String) (channel : ℕ) :
    Except Error Unit × Session RttEvent RttInfo :=
  AsyncSession.openSession RttSession.kind rx netname ⟨channel, ""⟩

/-- `AsyncRttSession::pump`. -/
def pump := AsyncSession.pump RttSession.kind

/-- `AsyncRttSession::read`. -/
def read := AsyncSession.read RttSession.kind

/-- `AsyncRttSession::try_read`. -/
def tryRead := AsyncSession.tryRead RttSession.kind

/-- `AsyncRttSession::wait_for`. -/
def waitFor := AsyncSession.waitFor RttSession.kind

end AsyncRttSession

end Lager
