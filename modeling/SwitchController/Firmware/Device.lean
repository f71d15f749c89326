import SwitchController.Firmware.Lines
import Mathlib.Data.Int.Notation

/-!
# The firmware, statement by statement

The whole of `Joystick.c` as a machine: the main loop executes one statement at a time –
`HID_Task`, then `USB_USBTask`, then `Serial_Task`, forever – and the receive interrupt
may run between any two of them. A statement is a value of
`SwitchController.Firmware.Pc`; `SwitchController.Firmware.Device.exec` executes it, and
`SwitchController.Firmware.Device.receive` is the interrupt, which runs to its end
because interrupts are off while it does. The six assignments that latch a frame and
the six that fill a report are statements of their own: that they cannot be torn apart
is something to prove, not to assume.

The USB side is outside the model and answers what it is asked: `Usb` carries, for the
statement about to be executed, the device state, whether the IN endpoint is ready, the
SETUP packet if one is waiting, and the bytes the uninitialised report on the stack
happens to hold. `INTERRUPT_CONTROL_ENDPOINT` is not defined in `LUFAConfig.h`, so
control requests are handled by `USB_USBTask`, on the main loop.

Everything worth asking about is observed (`SwitchController.Firmware.Obs`) into one log.
-/

namespace SwitchController

namespace Firmware

open EventMachine LineSplit

/-! ### Reports -/

/-- `USB_JoystickReport_Input_t`. -/
structure Report where
  button : UInt16
  hat : UInt8
  lx : UInt8
  ly : UInt8
  rx : UInt8
  ry : UInt8
  vendorSpec : UInt8
  deriving DecidableEq

/-- The six fields `GetNextReport` fills, read back as the globals they come from. -/
def Report.state (r : Report) : Latched := ⟨r.hat, r.button, r.lx, r.ly, r.rx, r.ry⟩

/-- One assignment of `GetNextReport`. -/
def Report.assign (g : Latched) (r : Report) : Field → Report
  | .button => { r with button := g.buttons }
  | .hat => { r with hat := g.hat2 }
  | .lx => { r with lx := g.lx2 }
  | .ly => { r with ly := g.ly2 }
  | .rx => { r with rx := g.rx2 }
  | .ry => { r with ry := g.ry2 }

/-- The assignments of `GetNextReport` from a given one on, in its order. -/
def Field.fillRest : Field → List Field
  | .button => [.button, .hat, .lx, .ly, .rx, .ry]
  | .hat => [.hat, .lx, .ly, .rx, .ry]
  | .lx => [.lx, .ly, .rx, .ry]
  | .ly => [.ly, .rx, .ry]
  | .rx => [.rx, .ry]
  | .ry => [.ry]

/-- **`GetNextReport`**, on a report that holds whatever it holds. -/
def getNextReport (g : Latched) (r : Report) : Report :=
  Field.button.fillRest.foldl (Report.assign g) r

/-- The assignments that latch a frame from a given one on, in their order: the hat comes
before the buttons here. -/
def Field.latchRest : Field → List Field
  | .hat => [.hat, .button, .lx, .ly, .rx, .ry]
  | .button => [.button, .lx, .ly, .rx, .ry]
  | .lx => [.lx, .ly, .rx, .ry]
  | .ly => [.ly, .rx, .ry]
  | .rx => [.rx, .ry]
  | .ry => [.ry]

/-! ### The hardware around the main loop -/

/-- `USB_DeviceState`. -/
inductive DeviceState where
  | unattached | powered | default | addressed | configured | suspended
  deriving DecidableEq

/-- The two fields of a SETUP packet the firmware looks at. -/
structure Setup where
  bmRequestType : UInt8
  bRequest : UInt8
  deriving DecidableEq

/-- The request `EVENT_USB_Device_ControlRequest` answers with a report: `HID_REQ_GetReport`,
device to host, class, interface. `SetReport` and the standard requests touch nothing
that is modelled. -/
def Setup.isGetReport (q : Setup) : Bool := q.bRequest == 0x01 && q.bmRequestType == 0xa1

/-- What the USB hardware answers to the statement about to be executed. -/
structure Usb where
  /-- `USB_DeviceState`. -/
  state : DeviceState
  /-- `Endpoint_IsINReady()` on the IN endpoint. -/
  inReady : Bool
  /-- The packet for which `Endpoint_IsSETUPReceived()`. -/
  setup : Option Setup
  /-- What the stack holds where `JoystickInputData` is declared. -/
  stack : Report
  deriving DecidableEq

/-- The USB side while nothing is asked of it. -/
def Usb.quiet : Usb := ⟨.configured, false, none, ⟨0, 0, 0, 0, 0, 0, 0⟩⟩

/-- The USB side while the host polls the IN endpoint. -/
def Usb.poll : Usb := ⟨.configured, true, none, ⟨0, 0, 0, 0, 0, 0, 0⟩⟩

/-- What calls `GetNextReport`. -/
inductive Path where
  | hidTask | controlRequest
  deriving DecidableEq

/-- **The statements of the main loop.** -/
inductive Pc where
  /-- `HID_Task`: is the device configured? -/
  | hidTask
  /-- `HID_Task`: the OUT endpoint, whose data is read and abandoned. -/
  | hidOut
  /-- `HID_Task`: `if (Endpoint_IsINReady())`. -/
  | hidIn
  /-- `GetNextReport`: the assignment to one field. -/
  | fill (via : Path) (f : Field)
  /-- The report is written to its endpoint and the packet is sent. -/
  | write (via : Path)
  /-- `HID_Task`: `printf("U")`. -/
  | printU
  /-- `USB_USBTask`. -/
  | usbTask
  /-- `Serial_Task`: `while(buffer_tail != buffer_head)`. -/
  | serialWhile
  /-- `c = buffer[buffer_tail]`. -/
  | serialRead
  /-- `if ((c == '\r' || c == '\n'))`. -/
  | serialTest
  /-- `if(l == 14)`. -/
  | serialIf
  /-- The assignment to one of the globals. -/
  | latch (f : Field)
  /-- `l=0`. -/
  | resetL
  /-- `memset(b, 0, sizeof(b))`. -/
  | clearB
  /-- The chain of tests that sets `val`. -/
  | setVal
  /-- `if (val == 0xff)`. -/
  | testVal
  /-- `b[l/2] |= val << (4*((l+1)%2))`. -/
  | orNibble
  /-- `l += 1`. -/
  | incL
  /-- `buffer_tail++`. -/
  | incTail
  deriving DecidableEq

/-- A byte has been read from the ring and `buffer_tail` does not say so yet. -/
def Pc.inBody : Pc → Bool
  | .serialTest | .serialIf | .latch _ | .resetL | .clearB | .setVal | .testVal | .orNibble
  | .incL | .incTail => true
  | _ => false

/-- The state of the firmware. -/
structure Device where
  /-- `buffer`, indexed by a `uint8_t`. -/
  buffer : UInt8 → UInt8
  /-- `buffer_head`. -/
  bufferHead : UInt8
  /-- `buffer_tail`. -/
  bufferTail : UInt8
  /-- The static variables of `Serial_Task` and the globals. -/
  parser : Parser
  /-- The statement about to be executed. -/
  pc : Pc
  /-- The local `c` of `Serial_Task`. -/
  c : UInt8
  /-- The local `val` of `Serial_Task`. -/
  val : UInt8
  /-- The report on the stack. -/
  report : Report

/-- The firmware as it enters its loop. Interrupts are on by then. -/
def Device.powerUp : Device where
  buffer := fun _ => 0
  bufferHead := 0
  bufferTail := 0
  parser := Parser.powerUp
  pc := .hidTask
  c := 0
  val := 0
  report := ⟨0, 0, 0, 0, 0, 0, 0⟩

/-- What is observed of the firmware. -/
inductive Obs where
  /-- The interrupt stored a byte. -/
  | received (c : UInt8)
  /-- A character went out on the serial line. -/
  | printed (ch : UInt8)
  /-- `Serial_Task` read a byte from the ring. -/
  | consumed (c : UInt8)
  /-- `Serial_Task` wrote to the frame or latched it. -/
  | effect (e : Effect)
  /-- `GetNextReport` returned. -/
  | report (via : Path) (r : Report)
  /-- A report was sent over USB. -/
  | transmitted (via : Path) (r : Report)
  deriving DecidableEq

/-- `'U'`, printed after each report of `HID_Task`. -/
def chU : UInt8 := 0x55

/-- `'X'`, printed on overrun. -/
def chX : UInt8 := 0x58

/-! ### Steps -/

/-- The test of the interrupt, `buffer_head == (buffer_tail - 1)`, in `int` as C has it. -/
def Device.overrun (d : Device) : Bool := (d.bufferHead.toNat : ℤ) == (d.bufferTail.toNat : ℤ) - 1

/-- **The receive interrupt** `USART1_RX_vect`. -/
def Device.receive (d : Device) (c : UInt8) : Device × List Obs :=
  ({ d with
      buffer := Function.update d.buffer d.bufferHead c
      bufferHead := d.bufferHead + 1 },
    (if d.overrun then [.printed chX] else []) ++ [.received c])

/-- The statement after the assignment to a field of a report. -/
def Pc.afterFill (via : Path) : Field → Pc
  | .button => .fill via .hat
  | .hat => .fill via .lx
  | .lx => .fill via .ly
  | .ly => .fill via .rx
  | .rx => .fill via .ry
  | .ry => .write via

/-- The statement after the assignment to one of the globals. -/
def Pc.afterLatch : Field → Pc
  | .hat => .latch .button
  | .button => .latch .lx
  | .lx => .latch .ly
  | .ly => .latch .rx
  | .rx => .latch .ry
  | .ry => .resetL

/-- **One statement of the main loop.** -/
def Device.exec (d : Device) (u : Usb) : Device × List Obs :=
  match d.pc with
  | .hidTask => ({ d with pc := if u.state = .configured then .hidOut else .usbTask }, [])
  | .hidOut => ({ d with pc := .hidIn }, [])
  | .hidIn =>
      if u.inReady then ({ d with report := u.stack, pc := .fill .hidTask .button }, [])
      else ({ d with pc := .usbTask }, [])
  | .fill via f =>
      ({ d with report := d.report.assign d.parser.latched f, pc := Pc.afterFill via f },
        if f = .ry then [.report via (d.report.assign d.parser.latched f)] else [])
  | .write via =>
      ({ d with pc := match via with
          | .hidTask => .printU
          | .controlRequest => .serialWhile }, [.transmitted via d.report])
  | .printU => ({ d with pc := .usbTask }, [.printed chU])
  | .usbTask =>
      if u.state ≠ .unattached ∧ u.setup.any Setup.isGetReport then
        ({ d with report := u.stack, pc := .fill .controlRequest .button }, [])
      else ({ d with pc := .serialWhile }, [])
  | .serialWhile =>
      ({ d with pc := if d.bufferTail ≠ d.bufferHead then .serialRead else .hidTask }, [])
  | .serialRead =>
      ({ d with c := d.buffer d.bufferTail, pc := .serialTest },
        [.consumed (d.buffer d.bufferTail)])
  | .serialTest => ({ d with pc := if isEol d.c then .serialIf else .setVal }, [])
  | .serialIf => ({ d with pc := if d.parser.l = 14 then .latch .hat else .resetL }, [])
  | .latch f =>
      ({ d with
          parser := { d.parser with latched := d.parser.latched.assign d.parser.b f }
          pc := Pc.afterLatch f },
        if f = .ry then [.effect (.latch (d.parser.latched.assign d.parser.b f))] else [])
  | .resetL => ({ d with parser := { d.parser with l := 0 }, pc := .clearB }, [])
  | .clearB => ({ d with parser := { d.parser with b := fun _ => 0 }, pc := .incTail }, [])
  | .setVal => ({ d with val := hexVal d.c, pc := .testVal }, [])
  | .testVal => ({ d with pc := if d.val = 0xff then .incTail else .orNibble }, [])
  | .orNibble =>
      ({ d with parser := d.parser.orNibble d.val, pc := .incL },
        [.effect (.store (d.parser.l.toNat / 2))])
  | .incL => ({ d with parser := { d.parser with l := d.parser.l + 1 }, pc := .incTail }, [])
  | .incTail => ({ d with bufferTail := d.bufferTail + 1, pc := .serialWhile }, [])

/-- What can happen next: a byte arrives, or the main loop goes on. -/
inductive Event where
  /-- The receive interrupt runs. -/
  | rx (c : UInt8)
  /-- The main loop executes its next statement. -/
  | main (u : Usb)
  deriving DecidableEq

/-- The byte that arrives, if one does. -/
def Event.byte? : Event → Option UInt8
  | .rx c => some c
  | .main _ => none

/-- One step of the firmware. -/
def Device.step (d : Device) : Event → Device × List Obs
  | .rx c => d.receive c
  | .main u => d.exec u

/-- **A run of the firmware from power-up**: any bytes, any answers of the USB hardware,
any interleaving of interrupts with the statements of the main loop. -/
def run (es : List Event) : Device × List Obs := runFrom Device.step Device.powerUp es

/-! ### Reading the log -/

/-- The bytes received. -/
def received (log : List Obs) : List UInt8 :=
  log.filterMap fun
    | .received c => some c
    | _ => none

/-- The bytes `Serial_Task` has read. -/
def consumed (log : List Obs) : List UInt8 :=
  log.filterMap fun
    | .consumed c => some c
    | _ => none

/-- What `Serial_Task` did to the frame and the globals. -/
def effects (log : List Obs) : List Effect :=
  log.filterMap fun
    | .effect e => some e
    | _ => none

/-- The frames latched. -/
def latches (log : List Obs) : List Latched := (effects log).filterMap Effect.latched?

/-- The reports filled, with what filled them. -/
def reports (log : List Obs) : List (Path × Report) :=
  log.filterMap fun
    | .report via r => some (via, r)
    | _ => none

/-- The reports sent, with what sent them. -/
def transmissions (log : List Obs) : List (Path × Report) :=
  log.filterMap fun
    | .transmitted via r => some (via, r)
    | _ => none

/-- The characters printed. -/
def printed (log : List Obs) : List UInt8 :=
  log.filterMap fun
    | .printed ch => some ch
    | _ => none

/-- The number of bytes received and not yet read by `Serial_Task`. -/
def unread (log : List Obs) : ℕ := (received log).length - (consumed log).length

end Firmware

end SwitchController
