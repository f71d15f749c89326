import SwitchController.Lib.Hid
import SwitchController.Firmware.Refinement

/-!
# What the console reads

The report leaves the firmware as the bytes of a C struct, and the console reads it by the
HID descriptor the firmware gave it: two descriptions of the same eight bytes, written
independently in `Joystick.h` and `Descriptors.c`. Here the descriptor is written with the
`HID_RI_*` macros of LUFA, as the source has it, and read back by the rules every host
follows (`HidReport.layout`).

They agree. `SwitchController.Firmware.decode_getNextReport` says what the console makes
of the report for any state of the globals: fourteen buttons, the hat in the low nibble of
its byte – absent above `7` – and the four sticks, and nothing else.
-/

namespace SwitchController

namespace Firmware

open HidReport

/-! ### The descriptor -/

/-- `_HID_RI_ENTRY(Type, Tag, DataBits, Data)`: the first byte, and the data low byte
first. -/
def hidRiEntry (type tag : UInt8) (dataBits data : ℕ) : List UInt8 :=
  (type ||| tag ||| if dataBits = 32 then 3 else UInt8.ofNat (dataBits / 8)) ::
    (List.range (dataBits / 8)).map fun i => UInt8.ofNat (data >>> (8 * i))

/-- `HID_RI_TYPE_MAIN`. -/
def hidRiMain : UInt8 := 0x00

/-- `HID_RI_TYPE_GLOBAL`. -/
def hidRiGlobal : UInt8 := 0x04

/-- `HID_RI_TYPE_LOCAL`. -/
def hidRiLocal : UInt8 := 0x08

/-- `HID_RI_INPUT`. -/
def hidRiInput : ℕ → ℕ → List UInt8 := hidRiEntry hidRiMain 0x80

/-- `HID_RI_COLLECTION`. -/
def hidRiCollection : ℕ → ℕ → List UInt8 := hidRiEntry hidRiMain 0xa0

/-- `HID_RI_END_COLLECTION`. -/
def hidRiEndCollection : ℕ → ℕ → List UInt8 := hidRiEntry hidRiMain 0xc0

/-- `HID_RI_USAGE_PAGE`. -/
def hidRiUsagePage : ℕ → ℕ → List UInt8 := hidRiEntry hidRiGlobal 0x00

/-- `HID_RI_LOGICAL_MINIMUM`. -/
def hidRiLogicalMinimum : ℕ → ℕ → List UInt8 := hidRiEntry hidRiGlobal 0x10

/-- `HID_RI_LOGICAL_MAXIMUM`. -/
def hidRiLogicalMaximum : ℕ → ℕ → List UInt8 := hidRiEntry hidRiGlobal 0x20

/-- `HID_RI_PHYSICAL_MINIMUM`. -/
def hidRiPhysicalMinimum : ℕ → ℕ → List UInt8 := hidRiEntry hidRiGlobal 0x30

/-- `HID_RI_PHYSICAL_MAXIMUM`. -/
def hidRiPhysicalMaximum : ℕ → ℕ → List UInt8 := hidRiEntry hidRiGlobal 0x40

/-- `HID_RI_UNIT`. -/
def hidRiUnit : ℕ → ℕ → List UInt8 := hidRiEntry hidRiGlobal 0x60

/-- `HID_RI_REPORT_SIZE`. -/
def hidRiReportSize : ℕ → ℕ → List UInt8 := hidRiEntry hidRiGlobal 0x70

/-- `HID_RI_REPORT_COUNT`. -/
def hidRiReportCount : ℕ → ℕ → List UInt8 := hidRiEntry hidRiGlobal 0x90

/-- `HID_RI_USAGE`. -/
def hidRiUsage : ℕ → ℕ → List UInt8 := hidRiEntry hidRiLocal 0x00

/-- `HID_RI_USAGE_MINIMUM`. -/
def hidRiUsageMinimum : ℕ → ℕ → List UInt8 := hidRiEntry hidRiLocal 0x10

/-- `HID_RI_USAGE_MAXIMUM`. -/
def hidRiUsageMaximum : ℕ → ℕ → List UInt8 := hidRiEntry hidRiLocal 0x20

/-- **`JoystickReport`**, the HID report descriptor. -/
def joystickReport : List UInt8 := List.flatten [
  hidRiUsagePage 8 1,
  hidRiUsage 8 5,
  hidRiCollection 8 1,
  -- buttons
  hidRiLogicalMinimum 8 0,
  hidRiLogicalMaximum 8 1,
  hidRiPhysicalMinimum 8 0,
  hidRiPhysicalMaximum 8 1,
  hidRiReportSize 8 1,
  hidRiReportCount 8 14,
  hidRiUsagePage 8 9,
  hidRiUsageMinimum 8 1,
  hidRiUsageMaximum 8 14,
  hidRiInput 8 2,
  hidRiReportCount 8 2,
  hidRiInput 8 1,
  -- hat switch
  hidRiUsagePage 8 1,
  hidRiLogicalMaximum 8 7,
  hidRiPhysicalMaximum 16 315,
  hidRiReportSize 8 4,
  hidRiReportCount 8 1,
  hidRiUnit 8 20,
  hidRiUsage 8 57,
  hidRiInput 8 66,
  hidRiUnit 8 0,
  hidRiReportCount 8 1,
  hidRiInput 8 1,
  -- sticks
  hidRiLogicalMaximum 16 255,
  hidRiPhysicalMaximum 16 255,
  hidRiUsage 8 48,
  hidRiUsage 8 49,
  hidRiUsage 8 50,
  hidRiUsage 8 53,
  hidRiReportSize 8 8,
  hidRiReportCount 8 4,
  hidRiInput 8 2,
  -- the vendor specific byte
  hidRiReportSize 8 8,
  hidRiReportCount 8 1,
  hidRiInput 8 1,
  hidRiEndCollection 0 0]

/-! ### The report -/

/-- **The bytes of `USB_JoystickReport_Input_t`**, little endian and without gaps. -/
def Report.bytes (r : Report) : List UInt8 :=
  [r.button.toUInt8, (r.button >>> 8).toUInt8, r.hat, r.lx, r.ly, r.rx, r.ry, r.vendorSpec]

/-- Button `i`, counted from `1`. -/
def usageButton (i : ℕ) : Usage := ⟨9, i⟩

/-- The hat switch. -/
def usageHat : Usage := ⟨1, 57⟩

/-- The axis of the left stick, horizontally. -/
def usageX : Usage := ⟨1, 48⟩

/-- The axis of the left stick, vertically. -/
def usageY : Usage := ⟨1, 49⟩

/-- The axis the right stick is put on, horizontally. -/
def usageZ : Usage := ⟨1, 50⟩

/-- The axis the right stick is put on, vertically. -/
def usageRz : Usage := ⟨1, 53⟩

/-- A stick: a whole byte. -/
def stickField (usage : Usage) (offset : ℕ) : HidReport.Field := ⟨usage, offset, 8, 0, 255, false⟩

/-- **The fields of the report**, as the descriptor has them. -/
def joystickFields : List HidReport.Field :=
  (List.range 14).map (fun i => ⟨usageButton (i + 1), i, 1, 0, 1, false⟩) ++
    [⟨usageHat, 16, 4, 0, 7, true⟩, stickField usageX 24, stickField usageY 32,
      stickField usageZ 40, stickField usageRz 48]

/-- **The descriptor describes eight bytes**: two bits of padding above the buttons, four
above the hat, and a byte at the end. -/
theorem layout_joystickReport : layout joystickReport = some (joystickFields, 64) := by
  decide +kernel

/-! ### Field by field -/

/-- The two bytes of the buttons, put together. -/
theorem number_button (v : UInt16) : number [v.toUInt8, (v >>> 8).toUInt8] = v.toNat := by
  have hlt := v.toNat_lt
  simp only [number, List.map_cons, List.map_nil, Nat.ofDigits_cons, Nat.ofDigits_nil,
    UInt16.toNat_toUInt8, UInt16.toNat_shiftRight, UInt16.toNat_ofNat, Nat.shiftRight_eq_div_pow,
    Nat.reducePow, Nat.reduceMod]
  omega

variable (r : Report)

/-- A bit of the report below the hat is a bit of the buttons. -/
theorem value_button {i : ℕ} (hi : i < 14) (usage : Usage) :
    HidReport.Field.value ⟨usage, i, 1, 0, 1, false⟩ r.bytes =
      some ((r.button.toNat.testBit i).toNat : ℤ) := by
  have hraw : bitsAt (number r.bytes) i 1 = (r.button.toNat.testBit i).toNat := by
    have h := bitsAt_append_left [r.button.toUInt8, (r.button >>> 8).toUInt8]
      [r.hat, r.lx, r.ly, r.rx, r.ry, r.vendorSpec] (o := i) (s := 1) (by simp; omega)
    rw [number_button, bitsAt, bitsAt, pow_one, ← Nat.toNat_testBit r.button.toNat i] at h
    exact h
  simp [HidReport.Field.value, hraw]

/-- The hat is the low nibble of its byte, and there is none above `7`. -/
theorem value_hat (usage : Usage) :
    HidReport.Field.value ⟨usage, 16, 4, 0, 7, true⟩ r.bytes =
      if r.hat.toNat % 16 ≤ 7 then some ((r.hat.toNat % 16 : ℕ) : ℤ) else none := by
  have hraw : bitsAt (number r.bytes) 16 4 = r.hat.toNat % 16 :=
    bitsAt_byte [r.button.toUInt8, (r.button >>> 8).toUInt8] r.hat
      [r.lx, r.ly, r.rx, r.ry, r.vendorSpec] (by decide)
  simp only [HidReport.Field.value, hraw, lt_irrefl, false_and, if_false, true_and]
  by_cases h : r.hat.toNat % 16 ≤ 7
  · rw [if_neg (by omega), if_pos h]
  · rw [if_pos (by omega), if_neg h]

/-- A stick is a byte of the report. -/
theorem value_stick (xs : List UInt8) (b : UInt8) (ys : List UInt8) (usage : Usage) {o : ℕ}
    (ho : 8 * xs.length = o) (hr : r.bytes = xs ++ b :: ys) :
    (stickField usage o).value r.bytes = some (b.toNat : ℤ) := by
  have hraw : bitsAt (number r.bytes) o 8 = b.toNat := by
    have h := bitsAt_byte xs b ys (s := 8) le_rfl
    rw [ho, ← hr, Nat.mod_eq_of_lt b.toNat_lt] at h
    exact h
  simp [stickField, HidReport.Field.value, hraw]

/-- **What the console makes of the globals.** -/
def consoleReading (g : Latched) : List (Usage × Option ℤ) :=
  (List.range 14).map (fun i =>
      (usageButton (i + 1), some ((g.buttons.toNat.testBit i).toNat : ℤ))) ++
    [(usageHat, if g.hat2.toNat % 16 ≤ 7 then some ((g.hat2.toNat % 16 : ℕ) : ℤ) else none),
      (usageX, some (g.lx2.toNat : ℤ)), (usageY, some (g.ly2.toNat : ℤ)),
      (usageZ, some (g.rx2.toNat : ℤ)), (usageRz, some (g.ry2.toNat : ℤ))]

theorem decode_joystickFields : decode joystickFields r.bytes = consoleReading r.state := by
  rw [decode, joystickFields, List.map_append, List.map_map, consoleReading]
  congr 1
  · refine List.map_congr_left fun i hi => ?_
    exact congrArg (usageButton (i + 1), ·) (value_button r (List.mem_range.mp hi) _)
  · have hx : (stickField usageX 24).value r.bytes = some (r.lx.toNat : ℤ) :=
      value_stick r [_, _, _] r.lx [_, _, _, _] usageX rfl rfl
    have hy : (stickField usageY 32).value r.bytes = some (r.ly.toNat : ℤ) :=
      value_stick r [_, _, _, _] r.ly [_, _, _] usageY rfl rfl
    have hz : (stickField usageZ 40).value r.bytes = some (r.rx.toNat : ℤ) :=
      value_stick r [_, _, _, _, _] r.rx [_, _] usageZ rfl rfl
    have hrz : (stickField usageRz 48).value r.bytes = some (r.ry.toNat : ℤ) :=
      value_stick r [_, _, _, _, _, _] r.ry [_] usageRz rfl rfl
    simp only [List.map_cons, List.map_nil, value_hat, hx, hy, hz, hrz]
    rfl

/-- **The console reads what the firmware latched.** Read by its own descriptor, which
describes exactly the eight bytes of the struct, the report filled by `GetNextReport` from
any globals, on any stack, gives: button `i` is bit `i - 1` of the buttons, the hat switch
is the low nibble of `HAT2` and in its null state exactly above `7`, and the four axes are
the four sticks. Nothing else is reported: two states that agree there, whatever the top
two bits of the buttons and the high nibble of the hat, read the same. -/
theorem decode_getNextReport (g : Latched) (stack : Report) :
    ∃ fields, layout joystickReport = some (fields, 8 * (getNextReport g stack).bytes.length) ∧
      decode fields (getNextReport g stack).bytes = consoleReading g ∧
      ∀ (g' : Latched) (stack' : Report), g'.buttons.toNat % 2 ^ 14 = g.buttons.toNat % 2 ^ 14 →
        g'.hat2.toNat % 16 = g.hat2.toNat % 16 →
        g'.lx2 = g.lx2 → g'.ly2 = g.ly2 → g'.rx2 = g.rx2 → g'.ry2 = g.ry2 →
        decode fields (getNextReport g' stack').bytes =
          decode fields (getNextReport g stack).bytes := by
  have hread : ∀ (g : Latched) (stack : Report),
      decode joystickFields (getNextReport g stack).bytes = consoleReading g := fun g stack => by
    rw [decode_joystickFields, state_getNextReport]
  refine ⟨joystickFields, layout_joystickReport, hread g stack, ?_⟩
  intro g' stack' hbuttons hhat hlx hly hrx hry
  rw [hread, hread, consoleReading, consoleReading, hhat, hlx, hly, hrx, hry]
  congr 1
  refine List.map_congr_left fun i hi => ?_
  -- a bit below the fourteenth is a bit of the remainder
  have hbit : ∀ n : ℕ, n.testBit i = (n % 2 ^ 14).testBit i := fun n => by
    rw [Nat.testBit_mod_two_pow, decide_eq_true (List.mem_range.mp hi), Bool.true_and]
  rw [hbit g'.buttons.toNat, hbuttons, ← hbit]

end Firmware

end SwitchController
