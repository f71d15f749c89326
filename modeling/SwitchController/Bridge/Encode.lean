import SwitchController.Firmware.Message

/-!
# How the bridge writes a state

`bridge.py` packs six numbers with `struct.pack('>BHBBBB', ..)`, writes the seven bytes in
hexadecimal and ends the line. Both sides of the line are here at once:
`SwitchController.Bridge.frame_ok` says that what is written is a message, and that the six
numbers the firmware latches of it are the six that were packed – byte order, nibble order
and all.

Python raises where C would truncate: a number that does not fit its place is
`struct.error`, so whatever comes out at all comes out unchanged.
-/

namespace SwitchController

namespace Bridge

open Firmware EqualBlocks

/-- **The exceptions of the bridge** that something in it raises or catches, and any
other. -/
inductive Exn where
  | stopIteration
  | indexError
  | structError
  | unicodeDecodeError
  | other (n : ℕ)
  deriving DecidableEq

/-! ### `struct.pack` -/

/-- The format characters in use. -/
inductive Fmt where
  /-- `B`, an unsigned byte. -/
  | B
  /-- `H`, two bytes, unsigned. -/
  | H
  deriving DecidableEq

/-- One number packed, the high byte first. -/
def Fmt.pack : Fmt → ℤ → Except Exn (List UInt8)
  | .B, x => if 0 ≤ x ∧ x < 256 then .ok [UInt8.ofNat x.toNat] else .error .structError
  | .H, x =>
      if 0 ≤ x ∧ x < 65536 then
        .ok [UInt8.ofNat (x.toNat / 256), UInt8.ofNat (x.toNat % 256)]
      else .error .structError

/-- **`struct.pack`**, big endian: as many numbers as the format asks for. -/
def pack : List Fmt → List ℤ → Except Exn (List UInt8)
  | [], [] => .ok []
  | f :: fs, x :: xs => do
      let raw ← f.pack x
      let raws ← pack fs xs
      return raw ++ raws
  | _, _ => .error .structError

/-- A packed byte is the number it came from. -/
theorem pack_B {x : ℤ} {raw : List UInt8} :
    Fmt.B.pack x = .ok raw ↔ ∃ b : UInt8, raw = [b] ∧ (b.toNat : ℤ) = x := by
  rw [Fmt.pack]
  split
  · rename_i hx
    have hb : ((UInt8.ofNat x.toNat).toNat : ℤ) = x := by
      rw [UInt8.toNat_ofNat']
      omega
    rw [Except.ok.injEq]
    constructor
    · rintro rfl
      exact ⟨_, rfl, hb⟩
    · rintro ⟨b, rfl, h⟩
      rw [← hb, Int.natCast_inj, UInt8.toNat_inj] at h
      rw [h]
  · rename_i hx
    refine iff_of_false (by simp) ?_
    rintro ⟨b, -, rfl⟩
    have := b.toNat_lt
    omega

/-- The firmware puts the two bytes of a word together the way they were taken apart. -/
theorem toNat_word (hi lo : UInt8) :
    (hi.toUInt16 <<< 8 ||| lo.toUInt16).toNat = 256 * hi.toNat + lo.toNat := by
  have hlo : lo.toNat < 2 ^ 8 := lo.toNat_lt
  have hhi := hi.toNat_lt
  have hshift : (hi.toUInt16 <<< 8).toNat = 2 ^ 8 * hi.toNat := by
    rw [UInt16.toNat_shiftLeft, UInt8.toNat_toUInt16, Nat.shiftLeft_eq]
    simp only [UInt16.toNat_ofNat, Nat.reducePow, Nat.reduceMod]
    omega
  rw [UInt16.toNat_or, hshift, UInt8.toNat_toUInt16, ← Nat.two_pow_add_eq_or_of_lt hlo]

theorem pack_H {x : ℤ} {raw : List UInt8} :
    Fmt.H.pack x = .ok raw ↔
      ∃ hi lo : UInt8, raw = [hi, lo] ∧ ((hi.toUInt16 <<< 8 ||| lo.toUInt16).toNat : ℤ) = x := by
  simp only [toNat_word]
  rw [Fmt.pack]
  split
  · rename_i hx
    rw [Except.ok.injEq]
    constructor
    · rintro rfl
      refine ⟨_, _, rfl, ?_⟩
      rw [UInt8.toNat_ofNat', UInt8.toNat_ofNat']
      omega
    · rintro ⟨hi, lo, rfl, rfl⟩
      have hlo := lo.toNat_lt
      have hdiv : ((256 * hi.toNat + lo.toNat : ℕ) : ℤ).toNat / 256 = hi.toNat := by omega
      have hmod : ((256 * hi.toNat + lo.toNat : ℕ) : ℤ).toNat % 256 = lo.toNat := by omega
      rw [hdiv, hmod, UInt8.ofNat_toNat, UInt8.ofNat_toNat]
  · rename_i hx
    refine iff_of_false (by simp) ?_
    rintro ⟨hi, lo, -, rfl⟩
    have hhi := hi.toNat_lt
    have hlo := lo.toNat_lt
    omega

/-- A `do` block succeeds when each of its steps does. -/
theorem bind_eq_ok {α β : Type} {x : Except Exn α} {f : α → Except Exn β} {b : β} :
    x >>= f = .ok b ↔ ∃ a, x = .ok a ∧ f a = .ok b := by
  rcases x with e | a
  · exact iff_of_false (by simp [bind, Except.bind]) (by simp)
  · simp [bind, Except.bind]

/-- Packing succeeds as a whole when it succeeds number by number. -/
theorem pack_cons {f : Fmt} {fs : List Fmt} {xs : List ℤ} {raw : List UInt8} :
    pack (f :: fs) xs = .ok raw ↔
      ∃ x xs' r rs, xs = x :: xs' ∧ f.pack x = .ok r ∧ pack fs xs' = .ok rs ∧ raw = r ++ rs := by
  rcases xs with - | ⟨x, xs⟩
  · simp [pack]
  · rw [pack, bind_eq_ok]
    constructor
    · rintro ⟨r, hr, hrest⟩
      obtain ⟨rs, hrs, hret⟩ := bind_eq_ok.mp hrest
      exact ⟨x, xs, r, rs, rfl, hr, hrs, (Except.ok.inj hret).symm⟩
    · rintro ⟨x', xs', r, rs, heq, hr, hrs, rfl⟩
      obtain ⟨rfl, rfl⟩ := List.cons_eq_cons.mp heq
      exact ⟨r, hr, bind_eq_ok.mpr ⟨rs, hrs, rfl⟩⟩

/-- The first number too large for its place. -/
def Fmt.bound : Fmt → ℤ
  | .B => 256
  | .H => 65536

/-- Numbers that fit their places are packed. -/
theorem pack_isOk {fs : List Fmt} {xs : List ℤ}
    (h : List.Forall₂ (fun f x => 0 ≤ x ∧ x < Fmt.bound f) fs xs) :
    ∃ raw, pack fs xs = .ok raw := by
  induction h with
  | nil => exact ⟨[], rfl⟩
  | @cons f x fs xs hfit _ ih =>
    obtain ⟨rs, hrs⟩ := ih
    obtain ⟨r, hr⟩ : ∃ r, f.pack x = .ok r := by
      rcases f with - | -
      · exact ⟨_, if_pos hfit⟩
      · exact ⟨_, if_pos hfit⟩
    exact ⟨r ++ rs, pack_cons.mpr ⟨x, xs, r, rs, rfl, hr, hrs, rfl⟩⟩

/-! ### `binascii.hexlify` -/

/-- The character of a digit, in lower case. -/
def hexDigit (n : ℕ) : UInt8 := UInt8.ofNat (if n < 10 then 48 + n else 87 + n)

/-- **`binascii.hexlify`**: two digits a byte, the high one first. -/
def hexlify (raw : List UInt8) : List UInt8 :=
  raw.flatMap fun b => [hexDigit (b.toNat / 16), hexDigit (b.toNat % 16)]

/-- The firmware reads the digits it is sent. -/
theorem hexVal_hexDigit : ∀ n < 16, hexVal (hexDigit n) = UInt8.ofNat n := by decide

theorem hexVal_hexDigit_ne {n : ℕ} (hn : n < 16) : hexVal (hexDigit n) ≠ 0xff := by
  have hval := hexVal_hexDigit n hn
  intro hcon
  rw [hval, ← UInt8.toNat_inj, UInt8.toNat_ofNat'] at hcon
  have hff : (0xff : UInt8).toNat = 255 := rfl
  omega

theorem length_hexlify (raw : List UInt8) : (hexlify raw).length = 2 * raw.length :=
  length_flatMap (n := 2) (fun _ => rfl) raw

theorem hexlify_hex (raw : List UInt8) : ∀ c ∈ hexlify raw, hexVal c ≠ 0xff := by
  intro c hc
  obtain ⟨b, -, hb⟩ := List.mem_flatMap.mp hc
  have hlt := b.toNat_lt
  rcases List.mem_cons.mp hb with rfl | hb
  · exact hexVal_hexDigit_ne (by omega)
  · rw [List.mem_singleton.mp hb]
    exact hexVal_hexDigit_ne (by omega)

/-- **Digit by digit the firmware spells the bytes that were written.** -/
theorem spell_hexlify (raw : List UInt8) (i : Fin 7) :
    spell ((hexlify raw).map hexVal) i = raw.getD i 0 := by
  have hdigit : ∀ j < 2, ((hexlify raw).map hexVal)[2 * (i : ℕ) + j]? =
      raw[(i : ℕ)]?.bind fun b =>
        [UInt8.ofNat (b.toNat / 16), UInt8.ofNat (b.toNat % 16)][j]? := by
    intro j hj
    have hmap : (hexlify raw).map hexVal =
        raw.flatMap fun b => [UInt8.ofNat (b.toNat / 16), UInt8.ofNat (b.toNat % 16)] := by
      rw [hexlify, List.map_flatMap]
      refine List.flatMap_congr fun b _ => ?_
      have hlt := b.toNat_lt
      rw [List.map_cons, List.map_cons, hexVal_hexDigit _ (by omega), hexVal_hexDigit _ (by omega)]
      rfl
    rw [hmap]
    exact getElem?_flatMap (n := 2) (fun _ => rfl) raw i hj
  rw [spell, List.getD_eq_getElem?_getD, List.getD_eq_getElem?_getD, List.getD_eq_getElem?_getD,
    hdigit 1 (by decide), ← Nat.add_zero (2 * (i : ℕ)), hdigit 0 (by decide)]
  rcases raw[(i : ℕ)]? with - | b
  · rfl
  · -- a byte is sixteen times its high digit and its low one
    have hlt := b.toNat_lt
    refine UInt8.toNat_inj.mp ?_
    simp only [Option.bind_some, List.getElem?_cons_zero, List.getElem?_cons_succ, Option.getD_some,
      UInt8.toNat_add, UInt8.toNat_mul, UInt8.toNat_ofNat', UInt8.toNat_ofNat, Nat.reducePow,
      Nat.reduceMod]
    omega

/-! ### A whole message -/

/-- **A message of the bridge**: `hexlify(struct.pack('>BHBBBB', hat, buttons, *axis))` and a
newline. -/
def frame (hat buttons : ℤ) (axis : List ℤ) : Except Exn (List UInt8) := do
  let rawbytes ← pack [.B, .H, .B, .B, .B, .B] (hat :: buttons :: axis)
  return hexlify rawbytes ++ [lf]

/-- Seven bytes as a message. -/
def ofRaw (raw : List UInt8) (hraw : raw.length = 7) : Message where
  text := hexlify raw
  length_text := by rw [length_hexlify, hraw]
  hex := hexlify_hex raw

/-- The globals as the six numbers they hold. -/
def values (g : Latched) : List ℤ :=
  [g.hat2.toNat, g.buttons.toNat, g.lx2.toNat, g.ly2.toNat, g.rx2.toNat, g.ry2.toNat]

/-- **What the bridge writes is what the firmware latches**: a message comes out only if the
six numbers fit, and the state of the message is then those six. -/
theorem frame_ok {hat buttons : ℤ} {axis : List ℤ} {bytes : List UInt8}
    (h : frame hat buttons axis = .ok bytes) :
    ∃ m : Message, bytes = m.bytes ∧ values m.state = hat :: buttons :: axis := by
  obtain ⟨raw, hpack, hret⟩ := bind_eq_ok.mp h
  obtain ⟨x0, xs0, r0, rs0, hx0, hr0, hs0, rfl⟩ := pack_cons.mp hpack
  obtain ⟨x1, xs1, r1, rs1, rfl, hr1, hs1, rfl⟩ := pack_cons.mp hs0
  obtain ⟨x2, xs2, r2, rs2, rfl, hr2, hs2, rfl⟩ := pack_cons.mp hs1
  obtain ⟨x3, xs3, r3, rs3, rfl, hr3, hs3, rfl⟩ := pack_cons.mp hs2
  obtain ⟨x4, xs4, r4, rs4, rfl, hr4, hs4, rfl⟩ := pack_cons.mp hs3
  obtain ⟨x5, xs5, r5, rs5, rfl, hr5, hs5, rfl⟩ := pack_cons.mp hs4
  obtain ⟨b0, rfl, rfl⟩ := pack_B.mp hr0
  obtain ⟨b1, b2, rfl, rfl⟩ := pack_H.mp hr1
  obtain ⟨b3, rfl, rfl⟩ := pack_B.mp hr2
  obtain ⟨b4, rfl, rfl⟩ := pack_B.mp hr3
  obtain ⟨b5, rfl, rfl⟩ := pack_B.mp hr4
  obtain ⟨b6, rfl, rfl⟩ := pack_B.mp hr5
  rcases xs5 with - | ⟨x, xs⟩
  · obtain rfl : rs5 = [] := (Except.ok.inj hs5).symm
    refine ⟨ofRaw [b0, b1, b2, b3, b4, b5, b6] rfl, (Except.ok.inj hret).symm, ?_⟩
    have hspell : spell ((hexlify [b0, b1, b2, b3, b4, b5, b6]).map hexVal) =
        fun i : Fin 7 => [b0, b1, b2, b3, b4, b5, b6].getD i 0 := funext (spell_hexlify _)
    rw [hx0, Message.state_eq, ofRaw, hspell]
    rfl
  · -- more numbers than the format has places
    exact absurd hs5 (by simp [pack])

/-- Six numbers that fit are written. -/
theorem frame_isOk {hat buttons lx ly rx ry : ℤ} (hhat : 0 ≤ hat ∧ hat < 256)
    (hbuttons : 0 ≤ buttons ∧ buttons < 65536) (hlx : 0 ≤ lx ∧ lx < 256) (hly : 0 ≤ ly ∧ ly < 256)
    (hrx : 0 ≤ rx ∧ rx < 256) (hry : 0 ≤ ry ∧ ry < 256) :
    ∃ bytes, frame hat buttons [lx, ly, rx, ry] = .ok bytes := by
  obtain ⟨raw, hraw⟩ : ∃ raw,
      pack [.B, .H, .B, .B, .B, .B] [hat, buttons, lx, ly, rx, ry] = .ok raw :=
    pack_isOk (.cons hhat (.cons hbuttons (.cons hlx (.cons hly (.cons hrx (.cons hry .nil))))))
  exact ⟨_, bind_eq_ok.mpr ⟨raw, hraw, rfl⟩⟩

end Bridge

end SwitchController
