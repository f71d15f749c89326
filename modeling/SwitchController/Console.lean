import SwitchController.Bridge.Controller
import SwitchController.Firmware.Descriptor
import SwitchController.Lib.Register
import SwitchController.Link.Progress

/-!
# From the pad to the console

Between the player and the console stand SDL, `bridge.py`, two directions of a serial line, the
receive interrupt, the ring, the parser, the globals, the report and the descriptor it is read by.
What are they, all together? A *register*: the bridge writes what the player holds, and the console
reads it when it likes. `SwitchController.Bridge.Reading.pad` says what the console should read
of the player's hands, with no encoding in between.

As long as the ring is not overrun this register is atomic, with the power-up values in it at first:
the console never reads anything the player did not hold, nor anything older than it has read before
(`SwitchController.console_follows`). If the bridge accepts no stale `U`, nothing is lost either:
before the bridge sends a state, the console has read all the states before it, in order
(`SwitchController.console_sees`).
-/

namespace SwitchController

open EventMachine Firmware Bridge Register

/-! ### The register -/

/-- What the console makes of a report. -/
abbrev Pad := List (HidReport.Usage × Option ℤ)

variable {ms : List Message} {x : Link} {log : List Obs}

/-- The buttons of the console that are held: Y, B, A, X, the shoulders, the triggers, minus, plus,
the sticks, home and capture. -/
def Bridge.Reading.held (r : Reading) : List Bool :=
  [r.pressed .x, r.pressed .a, r.pressed .b, r.pressed .y, r.pressed .leftshoulder,
    r.pressed .rightshoulder, r.axis .triggerleft != 0, r.axis .triggerright != 0, false,
    r.pressed .start, r.pressed .leftstick, r.pressed .rightstick, r.pressed .guide,
    r.pressed .back]

/-- A stick, of which the middle is dead. -/
def stickValue (v : ℤ) : ℤ := if |v| < 10000 then 128 else v / 256 + 128

/-- **What the console should read**: the buttons that are held, the point of the compass the d-pad
is pressed towards, if it is, and the sticks. -/
def Bridge.Reading.pad (r : Reading) : Pad :=
  r.held.mapIdx (fun i held => (usageButton (i + 1), some (held.toNat : ℤ))) ++
    [(usageHat, if r.point = 8 then none else some (r.point.toNat : ℤ)),
      (usageX, some (stickValue (r.axis .leftx))), (usageY, some (stickValue (r.axis .lefty))),
      (usageZ, some (stickValue (r.axis .rightx))), (usageRz, some (stickValue (r.axis .righty)))]

/-- **What room in the ring gives**: the firmware reads what it gets, in order. -/
structure Flowing (d : Device) (log : List Obs) : Prop where
  /-- The firmware does what it does. -/
  faithful : Faithful d log
  /-- It reads in order, -/
  ord : InOrder d log
  /-- and keeps up. -/
  room : unread log ≤ 255

theorem Flowing.step {d : Device} (h : Flowing d log) (e : Event)
    (hroom : ∀ c, e = .rx c → ¬d.full) : Flowing (d.step e).1 (log ++ (d.step e).2) := by
  have hunread := h.room
  refine ⟨h.faithful.step e, h.ord.step (fun _ => ?_) e, ?_⟩
  · rw [unread] at hunread
    omega
  · cases e with
    | rx c =>
      -- a ring that is not full has room for one byte more
      have hfull := hroom c rfl
      have hle := h.ord.ring.le
      rw [h.ord.ring.full_iff] at hfull
      change unread (log ++ (d.receive c).2) ≤ 255
      rw [unread_receive hle]
      rw [unread] at hunread ⊢
      omega
    | main u =>
      change unread (log ++ (d.exec u).2) ≤ 255
      by_cases hr : d.pc = .serialRead
      · rw [unread_serialRead log u hr]
        omega
      · rw [unread_exec log u hr]
        exact hunread

end SwitchController
