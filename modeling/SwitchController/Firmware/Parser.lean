import SwitchController.Lib.Lines
import Mathlib.Data.Fintype.Pi
import Mathlib.Tactic.FinCases
import Mathlib.Tactic.SplitIfs

/-!
# The line parser of the firmware

`Serial_Task` of `Joystick.c`, one byte at a time: two static variables, the digit
counter `l` and the seven bytes `b` under construction, and the six globals the report
is later filled from. A byte is a line end, a hex digit or noise; a line end latches
the seven bytes when exactly fourteen digits have been counted, and starts the next
line whatever it found.

`SwitchController.Firmware.serialByte` is the body of the `while` loop, and
`SwitchController.Firmware.serialTask` the loop itself over the piece of the stream one
call sees; the static variables carry over to the next call. What a reader of the
source wants to know of a byte is observed as it is executed: the index of each write
into `b`, which is not checked by the source, and the values the six globals are given.
A write past the seven bytes is observed and has no further effect.
-/

namespace SwitchController

namespace Firmware

open EventMachine LineSplit

/-! ### The data -/

/-- The six globals `Serial_Task` latches a frame into. -/
structure Latched where
  /-- The hat switch, `HAT2`. -/
  hat2 : UInt8
  /-- The buttons, `buttons`. -/
  buttons : UInt16
  /-- Left stick, horizontal. -/
  lx2 : UInt8
  /-- Left stick, vertical. -/
  ly2 : UInt8
  /-- Right stick, horizontal. -/
  rx2 : UInt8
  /-- Right stick, vertical. -/
  ry2 : UInt8
  deriving DecidableEq, Repr

/-- What the six globals hold before anything is latched: each is initialised to `0`, and
`buttons`, which has no initialiser, is zeroed at startup like every static object. -/
def Latched.powerUp : Latched := ⟨0, 0, 0, 0, 0, 0⟩

/-- The globals as the seven bytes of a complete frame set them. -/
def Latched.ofFrame (b : Fin 7 → UInt8) : Latched where
  hat2 := b 0
  buttons := (b 1).toUInt16 <<< 8 ||| (b 2).toUInt16
  lx2 := b 3
  ly2 := b 4
  rx2 := b 5
  ry2 := b 6

/-- The six globals by name; a report has the same six fields. -/
inductive Field where
  | button | hat | lx | ly | rx | ry
  deriving DecidableEq

/-- One of the assignments that latch a frame. -/
def Latched.assign (b : Fin 7 → UInt8) (g : Latched) : Field → Latched
  | .hat => { g with hat2 := b 0 }
  | .button => { g with buttons := (b 1).toUInt16 <<< 8 ||| (b 2).toUInt16 }
  | .lx => { g with lx2 := b 3 }
  | .ly => { g with ly2 := b 4 }
  | .rx => { g with rx2 := b 5 }
  | .ry => { g with ry2 := b 6 }

/-- What `Serial_Task` keeps between two bytes: its static variables and the globals. -/
structure Parser where
  /-- The digits counted on the current line, a `uint8_t`. -/
  l : UInt8
  /-- The frame under construction. -/
  b : Fin 7 → UInt8
  /-- The globals. -/
  latched : Latched
  deriving DecidableEq

/-- The parser at power-up. -/
def Parser.powerUp : Parser := ⟨0, fun _ => 0, Latched.powerUp⟩

/-- What is observed of the parser. -/
inductive Effect where
  /-- A digit was written to `b[i]`. -/
  | store (i : ℕ) : Effect
  /-- The six globals were given new values. -/
  | latch (s : Latched) : Effect
  deriving DecidableEq

/-- The index of a write into `b`. -/
def Effect.stored? : Effect → Option ℕ
  | .store i => some i
  | .latch _ => none

/-- The values of an update of the globals. -/
def Effect.latched? : Effect → Option Latched
  | .store _ => none
  | .latch s => some s

/-! ### One byte -/

/-- `'\n'`. -/
def lf : UInt8 := 10

/-- `'\r'`. -/
def cr : UInt8 := 13

/-- The test `c == '\r' || c == '\n'`. -/
def isEol (c : UInt8) : Bool := c == cr || c == lf

/-- The value of a hex digit in either case, and `0xff` for any other byte. The three
ranges are `'0'..'9'`, `'a'..'f'` and `'A'..'F'`. -/
def hexVal (c : UInt8) : UInt8 :=
  if 48 ≤ c ∧ c ≤ 57 then c - 48
  else if 97 ≤ c ∧ c ≤ 102 then (c - 97) + 0xa
  else if 65 ≤ c ∧ c ≤ 70 then (c - 65) + 0xa
  else 0xff

/-- `b[l/2] |= val << (4*((l+1)%2))`; the arithmetic on `l` is done after promotion to
`int`, and an index past the seven bytes changes none of them. -/
def Parser.orNibble (p : Parser) (val : UInt8) : Parser :=
  { p with
    b := fun i =>
      if (i : ℕ) = p.l.toNat / 2 then p.b i ||| val <<< UInt8.ofNat (4 * ((p.l.toNat + 1) % 2))
      else p.b i }

/-- `l = 0` and `memset(b, 0, sizeof(b))`. -/
def Parser.newLine (p : Parser) : Parser := { p with l := 0, b := fun _ => 0 }

/-- **One byte**: the body of the `while` loop of `Serial_Task`. -/
def serialByte (p : Parser) (c : UInt8) : Parser × List Effect :=
  if isEol c then
    if p.l = 14 then
      ({ p with latched := Latched.ofFrame p.b }.newLine, [.latch (Latched.ofFrame p.b)])
    else (p.newLine, [])
  else if hexVal c = 0xff then (p, [])
  else ({ p.orNibble (hexVal c) with l := p.l + 1 }, [.store (p.l.toNat / 2)])

/-- **One call of `Serial_Task`** over the piece of the stream it sees. -/
def serialTask : Parser → List UInt8 → Parser × List Effect := runFrom serialByte

/-- Successive calls of `Serial_Task`, each over its own piece of the stream. -/
def serialTasks : Parser → List (List UInt8) → Parser × List Effect := runFrom serialTask

theorem serialTask_append (p : Parser) (s s' : List UInt8) :
    serialTask p (s ++ s') =
      ((serialTask (serialTask p s).1 s').1,
        (serialTask p s).2 ++ (serialTask (serialTask p s).1 s').2) :=
  runFrom_append serialByte p s s'

/-- **The cuts do not matter**: successive calls over the pieces of a stream do what one
call over the whole stream does. -/
theorem serialTasks_eq (p : Parser) (pieces : List (List UInt8)) :
    serialTasks p pieces = serialTask p pieces.flatten :=
  runFrom_flatten serialByte p pieces

/-! ### What a byte does -/

variable {p : Parser} {c : UInt8}

theorem hexVal_of_isEol (hc : isEol c = true) : hexVal c = 0xff := by
  simp only [isEol, Bool.or_eq_true, beq_iff_eq] at hc
  rcases hc with rfl | rfl <;> rfl

theorem serialByte_accept (hc : isEol c = true) (hl : p.l = 14) :
    serialByte p c =
      ({ p with latched := Latched.ofFrame p.b }.newLine, [.latch (Latched.ofFrame p.b)]) := by
  rw [serialByte, if_pos hc, if_pos hl]

theorem serialByte_reject (hc : isEol c = true) (hl : p.l ≠ 14) :
    serialByte p c = (p.newLine, []) := by
  rw [serialByte, if_pos hc, if_neg hl]

theorem serialByte_noise (hc : isEol c = false) (hv : hexVal c = 0xff) :
    serialByte p c = (p, []) := by
  rw [serialByte, if_neg (by simp [hc]), if_pos hv]

theorem serialByte_digit (hv : hexVal c ≠ 0xff) :
    serialByte p c =
      ({ p.orNibble (hexVal c) with l := p.l + 1 }, [.store (p.l.toNat / 2)]) := by
  have hc : ¬isEol c = true := fun hc => hv (hexVal_of_isEol hc)
  rw [serialByte, if_neg hc, if_neg hv]

/-- A hex digit has a value below sixteen. -/
theorem hexVal_lt (hv : hexVal c ≠ 0xff) : hexVal c < 16 := by
  revert hv
  rw [hexVal]
  split_ifs with h1 h2 h3
  -- the three ranges of digits, and the byte that is none
  · simp only [UInt8.le_iff_toNat_le, UInt8.lt_iff_toNat_lt, UInt8.toNat_sub,
      UInt8.toNat_ofNat] at h1 ⊢
    omega
  · simp only [UInt8.le_iff_toNat_le, UInt8.lt_iff_toNat_lt, UInt8.toNat_sub, UInt8.toNat_add,
      UInt8.toNat_ofNat] at h2 ⊢
    omega
  · simp only [UInt8.le_iff_toNat_le, UInt8.lt_iff_toNat_lt, UInt8.toNat_sub, UInt8.toNat_add,
      UInt8.toNat_ofNat] at h3 ⊢
    omega
  · exact fun hv => absurd rfl hv

end Firmware

end SwitchController
