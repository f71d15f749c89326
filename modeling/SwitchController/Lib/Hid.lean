import Mathlib.Data.Nat.Digits.Defs
import Mathlib.Data.Nat.Bitwise

/-!
# HID report descriptors

What a host makes of a report is laid down by a descriptor: a list of short items, read
from the first to the last by a machine with two kinds of registers. *Global* items – the
usage page, the logical range, the size and number of fields – stay until they are set
again. *Local* items – the usages – are used up by the next main item, whatever it is. An
input item then adds a number of fields to the report, one behind the other from the low
bit on: with the constant flag they are padding, and with the variable flag each takes
the next usage, the last one serving for all that follow.

`HidReport.layout` reads a descriptor, from its bytes to the fields of the report it
describes, and `HidReport.Field.value` reads a field of a report. Items that only scale a
value (physical range, unit) have no part in either and are skipped. Items that would
change the layout in ways not modelled here – report numbers, the item stack, outputs and
features, arrays of usages – are refused, so a layout that comes out is a whole one.
-/

namespace HidReport

/-! ### Items -/

/-- A usage: what a field stands for, by page and number. -/
structure Usage where
  page : ℕ
  id : ℕ
  deriving DecidableEq

/-- The short items. -/
inductive Item where
  /-- Main: fields of the input report, with flags. -/
  | input (flags : ℕ)
  /-- Main: a collection begins. -/
  | collection
  /-- Main: a collection ends. -/
  | endCollection
  /-- Global: the page the usages are on. -/
  | usagePage (page : ℕ)
  /-- Global: the least value of a field. -/
  | logicalMinimum (v : ℤ)
  /-- Global: the greatest value of a field. -/
  | logicalMaximum (v : ℤ)
  /-- Global: the width of a field, in bits. -/
  | reportSize (n : ℕ)
  /-- Global: the number of fields. -/
  | reportCount (n : ℕ)
  /-- Global: how a value is to be scaled. -/
  | scale
  /-- Local: the next usage. -/
  | usage (id : ℕ)
  /-- Local: the first of a range of usages. -/
  | usageMinimum (id : ℕ)
  /-- Local: the last of a range of usages. -/
  | usageMaximum (id : ℕ)
  deriving DecidableEq

/-- **The number some bytes stand for**, the low byte first. -/
def number (bytes : List UInt8) : ℕ := Nat.ofDigits 256 (bytes.map UInt8.toNat)

/-- The same in two's complement. -/
def signed (bytes : List UInt8) : ℤ :=
  if 2 * number bytes < 256 ^ bytes.length then number bytes
  else number bytes - 256 ^ bytes.length

/-- A short item, by its first byte without the two bits for the size, and its data. -/
def Item.ofShort (tag : ℕ) (data : List UInt8) : Option Item :=
  match tag with
  | 0x80 => some (.input (number data))
  | 0xa0 => some .collection
  | 0xc0 => some .endCollection
  | 0x04 => some (.usagePage (number data))
  | 0x14 => some (.logicalMinimum (signed data))
  | 0x24 => some (.logicalMaximum (signed data))
  | 0x34 | 0x44 | 0x54 | 0x64 => some .scale
  | 0x74 => some (.reportSize (number data))
  | 0x94 => some (.reportCount (number data))
  | 0x08 => some (.usage (number data))
  | 0x18 => some (.usageMinimum (number data))
  | 0x28 => some (.usageMaximum (number data))
  | _ => none

/-- **The items of a descriptor.** The two low bits of the first byte of an item say how
many bytes of data follow: none, one, two or four. -/
def parse : List UInt8 → Option (List Item)
  | [] => some []
  | h :: rest =>
      let tag := h.toNat / 4 * 4
      match h.toNat % 4, rest with
      | 0, rest => do return (← Item.ofShort tag []) :: (← parse rest)
      | 1, a :: rest => do return (← Item.ofShort tag [a]) :: (← parse rest)
      | 2, a :: b :: rest => do return (← Item.ofShort tag [a, b]) :: (← parse rest)
      | 3, a :: b :: c :: d :: rest =>
          do return (← Item.ofShort tag [a, b, c, d]) :: (← parse rest)
      | _, _ => none

/-! ### The fields of a report -/

/-- **A field of a report.** -/
structure Field where
  usage : Usage
  /-- Its lowest bit. -/
  offset : ℕ
  /-- Its width in bits. -/
  size : ℕ
  logicalMinimum : ℤ
  logicalMaximum : ℤ
  /-- A value outside the logical range means that there is none. -/
  nullState : Bool
  deriving DecidableEq

/-- The registers of the reader of a descriptor, and what it has laid out. -/
structure Reader where
  usagePage : ℕ
  logicalMinimum : ℤ
  logicalMaximum : ℤ
  reportSize : ℕ
  reportCount : ℕ
  /-- The usages waiting for the next main item. -/
  usages : List Usage
  /-- The range of usages begun. -/
  usageMinimum : Option ℕ
  /-- The collections that are open. -/
  depth : ℕ
  /-- The fields laid out. -/
  fields : List Field
  /-- The bits laid out, padding included. -/
  bits : ℕ

/-- The reader at the start of a descriptor. -/
def Reader.start : Reader := ⟨0, 0, 0, 0, 0, [], none, 0, [], 0⟩

/-- A main item uses up the local ones. -/
def Reader.clearLocals (r : Reader) : Reader := { r with usages := [], usageMinimum := none }

/-- The fields of an input item that takes its usages from a list, the last of which is
`last`. -/
def Reader.variables (r : Reader) (last : Usage) (nullState : Bool) : List Field :=
  (List.range r.reportCount).map fun i =>
    { usage := r.usages.getD i last
      offset := r.bits + i * r.reportSize
      size := r.reportSize
      logicalMinimum := r.logicalMinimum
      logicalMaximum := r.logicalMaximum
      nullState := nullState }

/-- **An input item**: padding, or fields. -/
def Reader.input (r : Reader) (flags : ℕ) : Option Reader :=
  let r' := { r with bits := r.bits + r.reportCount * r.reportSize }
  if flags.testBit 0 then some r'.clearLocals
  else if flags.testBit 1 then
    r.usages.getLast?.map fun last =>
      { r' with fields := r.fields ++ r.variables last (flags.testBit 6) }.clearLocals
  else none

/-- **One item.** -/
def Reader.item (r : Reader) : Item → Option Reader
  | .input flags => r.input flags
  | .collection => some { r with depth := r.depth + 1 }.clearLocals
  | .endCollection => match r.depth with
      | 0 => none
      | d + 1 => some { r with depth := d }.clearLocals
  | .usagePage page => some { r with usagePage := page }
  | .logicalMinimum v => some { r with logicalMinimum := v }
  | .logicalMaximum v => some { r with logicalMaximum := v }
  | .reportSize n => some { r with reportSize := n }
  | .reportCount n => some { r with reportCount := n }
  | .scale => some r
  | .usage id => some { r with usages := r.usages ++ [⟨r.usagePage, id⟩] }
  | .usageMinimum id => some { r with usageMinimum := some id }
  | .usageMaximum id => r.usageMinimum.map fun first =>
      { r with
        usages := r.usages ++ (List.range (id + 1 - first)).map fun i => ⟨r.usagePage, first + i⟩
        usageMinimum := none }

/-- **The report a descriptor describes**: its fields, and its length in bits. -/
def layout (descriptor : List UInt8) : Option (List Field × ℕ) := do
  let items ← parse descriptor
  let r ← items.foldlM Reader.item Reader.start
  if r.depth = 0 then some (r.fields, r.bits) else none

/-! ### Reading a report -/

/-- Some bits of a number. -/
def bitsAt (n offset size : ℕ) : ℕ := n / 2 ^ offset % 2 ^ size

/-- **The value of a field of a report**, or none in the null state. -/
def Field.value (f : Field) (report : List UInt8) : Option ℤ :=
  let raw := bitsAt (number report) f.offset f.size
  let v : ℤ := if f.logicalMinimum < 0 ∧ 2 ^ f.size ≤ 2 * raw then raw - 2 ^ f.size else raw
  if f.nullState = true ∧ ¬(f.logicalMinimum ≤ v ∧ v ≤ f.logicalMaximum) then none else some v

/-- **A report read field by field.** -/
def decode (fields : List Field) (report : List UInt8) : List (Usage × Option ℤ) :=
  fields.map fun f => (f.usage, f.value report)

theorem number_append (xs ys : List UInt8) :
    number (xs ++ ys) = number xs + 256 ^ xs.length * number ys := by
  rw [number, List.map_append, Nat.ofDigits_append, List.length_map, number, number]

theorem number_lt (xs : List UInt8) : number xs < 256 ^ xs.length := by
  have h := Nat.ofDigits_lt_base_pow_length (b := 256) (l := xs.map UInt8.toNat) (by decide) ?_
  · rwa [List.length_map] at h
  · intro v hv
    obtain ⟨b, -, rfl⟩ := List.mem_map.mp hv
    exact b.toNat_lt

/-- **Bits inside the first bytes** do not depend on those that follow. -/
theorem bitsAt_append_left (xs ys : List UInt8) {o s : ℕ} (h : o + s ≤ 8 * xs.length) :
    bitsAt (number (xs ++ ys)) o s = bitsAt (number xs) o s := by
  have hpow : (256 : ℕ) ^ xs.length = 2 ^ o * (2 ^ s * 2 ^ (8 * xs.length - o - s)) := by
    rw [← pow_add, ← pow_add, show (256 : ℕ) = 2 ^ 8 from rfl, ← pow_mul]
    congr 1
    omega
  rw [bitsAt, bitsAt, number_append, hpow, Nat.mul_assoc, Nat.add_mul_div_left _ _ (by positivity),
    Nat.mul_assoc, Nat.add_mul_mod_self_left]

/-- **Bits behind the first bytes** are bits of the others. -/
theorem bitsAt_append_right (xs ys : List UInt8) (o s : ℕ) :
    bitsAt (number (xs ++ ys)) (8 * xs.length + o) s = bitsAt (number ys) o s := by
  have hlt := number_lt xs
  have hpow : (2 : ℕ) ^ (8 * xs.length + o) = 256 ^ xs.length * 2 ^ o := by
    rw [pow_add, pow_mul, show (2 : ℕ) ^ 8 = 256 from rfl]
  rw [bitsAt, bitsAt, number_append, hpow, ← Nat.div_div_eq_div_mul,
    Nat.add_mul_div_left _ _ (by positivity), Nat.div_eq_of_lt hlt, Nat.zero_add]

/-- A field that is a byte of its own. -/
theorem bitsAt_byte (xs : List UInt8) (b : UInt8) (ys : List UInt8) {s : ℕ} (hs : s ≤ 8) :
    bitsAt (number (xs ++ b :: ys)) (8 * xs.length) s = b.toNat % 2 ^ s := by
  have h := bitsAt_append_right xs ([b] ++ ys) 0 s
  rw [bitsAt_append_left [b] ys (by simpa using hs), Nat.add_zero] at h
  refine h.trans ?_
  rw [bitsAt, number]
  simp

end HidReport
