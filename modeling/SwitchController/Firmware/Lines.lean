import SwitchController.Firmware.Parser
import Mathlib.Data.List.GetD

/-!
# What the parser makes of a stream of lines

The reference is stated on whole lines and without the machine:
`SwitchController.Firmware.digits` are the values of the hex digits among the bytes of a
line, `SwitchController.Firmware.Latched.ofDigits` the numbers that fourteen of them are,
and `SwitchController.Firmware.updates` reads a stream one closed line at a time.

The parser works in the opposite order – a nibble at a time, into variables shared by
all lines – so the bridge is `SwitchController.Firmware.OnLine`, what the static
variables hold once the bytes of an unfinished line have been read. The counter is the
number of digits modulo `256`; the frame under construction is what the digits spell as
long as there are at most fourteen of them.
-/

namespace SwitchController

namespace Firmware

open EventMachine LineSplit

/-! ### The reference -/

/-- The sixteen hex digits in the order of their values, `0..9a..f` -/
def lowerDigits : List UInt8 := [48, 49, 50, 51, 52, 53, 54, 55, 56, 57, 97, 98, 99, 100, 101, 102]

/-- and `0..9A..F`. -/
def upperDigits : List UInt8 := [48, 49, 50, 51, 52, 53, 54, 55, 56, 57, 65, 66, 67, 68, 69, 70]

/-- The value of a byte as a hex digit, if it is one. -/
def digit? (c : UInt8) : Option UInt8 :=
  ((lowerDigits.idxOf? c).or (upperDigits.idxOf? c)).map UInt8.ofNat

/-- The values of the hex digits among the bytes of a line. -/
def digits (line : List UInt8) : List UInt8 := line.filterMap digit?

/-- **The state that digits stand for**: one number after the other in base sixteen, four
digits for the buttons and two for each of the others. -/
def Latched.ofDigits (ds : List UInt8) : Latched :=
  let number (first count : ℕ) : ℕ :=
    ((ds.drop first).take count).foldl (fun n d => 16 * n + d.toNat) 0
  { hat2 := .ofNat (number 0 2)
    buttons := .ofNat (number 2 4)
    lx2 := .ofNat (number 6 2)
    ly2 := .ofNat (number 8 2)
    rx2 := .ofNat (number 10 2)
    ry2 := .ofNat (number 12 2) }

/-- **A whole line read at once**: the state its digits stand for, if there are exactly
fourteen. -/
def readLine (line : List UInt8) : Option Latched :=
  if (digits line).length = 14 then some (Latched.ofDigits (digits line)) else none

/-- **A whole stream read at once**: the states of its closed lines, in order. -/
def updates (stream : List UInt8) : List Latched := (closedLines isEol stream).filterMap readLine

@[simp] theorem digits_nil : digits [] = [] := rfl

theorem digits_append (line line' : List UInt8) :
    digits (line ++ line') = digits line ++ digits line' :=
  List.filterMap_append

/-- The firmware's three ranges are these digits. -/
theorem digit?_eq (c : UInt8) : digit? c = if hexVal c = 0xff then none else some (hexVal c) := by
  have hall : ∀ n : Fin 256, digit? (.ofNat n) =
      if hexVal (.ofNat n) = 0xff then none else some (hexVal (.ofNat n)) := by decide +kernel
  simpa using hall ⟨c.toNat, c.toNat_lt⟩

theorem digits_concat_digit {c : UInt8} (hv : hexVal c ≠ 0xff) (line : List UInt8) :
    digits (line ++ [c]) = digits line ++ [hexVal c] := by
  rw [digits_append]
  simp [digits, digit?_eq, hv]

theorem digits_concat_noise {c : UInt8} (hv : hexVal c = 0xff) (line : List UInt8) :
    digits (line ++ [c]) = digits line := by
  rw [digits_append]
  simp [digits, digit?_eq, hv]

theorem length_digits_le (line : List UInt8) : (digits line).length ≤ line.length :=
  List.length_filterMap_le _ _

theorem length_digits_le_of_isPrefix {cur line : List UInt8} (h : cur <+: line) :
    (digits cur).length ≤ (digits line).length := by
  obtain ⟨rest, rfl⟩ := h
  rw [digits_append, List.length_append]
  exact Nat.le_add_right _ _

theorem digits_lt {line : List UInt8} {d : UInt8} (hd : d ∈ digits line) : d < 16 := by
  obtain ⟨c, -, hc⟩ := List.mem_filterMap.mp hd
  rw [digit?_eq] at hc
  split_ifs at hc with hv
  exact Option.some.inj hc ▸ hexVal_lt hv

/-! ### Bytes of two digits -/

/-- **The seven bytes a list of digits spells**: two digits a byte, the high one first,
missing digits read as zero. -/
def spell (ds : List UInt8) : Fin 7 → UInt8 :=
  fun i => 16 * ds.getD (2 * i) 0 + ds.getD (2 * i + 1) 0

/-- Two digits as a number. -/
theorem foldl_two_digits {ds : List UInt8} {k : ℕ} (hk : k + 1 < ds.length) (n : ℕ) :
    ((ds.drop k).take 2).foldl (fun n d => 16 * n + d.toNat) n =
      16 * (16 * n + (ds.getD k 0).toNat) + (ds.getD (k + 1) 0).toNat := by
  rw [List.drop_eq_getElem_cons (by omega), List.drop_eq_getElem_cons hk,
    List.getD_eq_getElem _ _ (by omega), List.getD_eq_getElem _ _ hk]
  rfl

/-- Two bytes as a number, by shifting the first. -/
theorem shift_or_byte (a b : UInt8) :
    a.toUInt16 <<< 8 ||| b.toUInt16 = .ofNat (256 * a.toNat + b.toNat) := by
  have ha := a.toNat_lt
  have hb : b.toNat < 2 ^ 8 := b.toNat_lt
  have hshift : (a.toUInt16 <<< 8).toNat = 2 ^ 8 * a.toNat := by
    simp only [UInt16.toNat_shiftLeft, UInt8.toNat_toUInt16, UInt16.toNat_ofNat, Nat.shiftLeft_eq,
      Nat.reducePow, Nat.reduceMod]
    omega
  refine UInt16.toNat_inj.mp ?_
  rw [UInt16.toNat_or, hshift, UInt8.toNat_toUInt16, ← Nat.two_pow_add_eq_or_of_lt hb,
    UInt16.toNat_ofNat']
  omega

/-- **What the frame of fourteen digits sets the globals to** is what they stand for. -/
theorem ofFrame_spell {ds : List UInt8} (hlen : ds.length = 14) (hds : ∀ d ∈ ds, d < 16) :
    Latched.ofFrame (spell ds) = Latched.ofDigits ds := by
  have hbyte : ∀ i : Fin 7,
      spell ds i = .ofNat (((ds.drop (2 * i)).take 2).foldl (fun n d => 16 * n + d.toNat) 0) := by
    intro i
    rw [foldl_two_digits (by omega), spell]
    simp
  have hnat : ∀ i : Fin 7, (spell ds i).toNat =
      16 * (ds.getD (2 * i) 0).toNat + (ds.getD (2 * i + 1) 0).toNat := by
    intro i
    have hlt : ∀ k, k < 14 → (ds.getD k 0).toNat < 16 := fun k hk => by
      rw [List.getD_eq_getElem _ _ (by omega)]
      exact UInt8.lt_iff_toNat_lt.mp (hds _ (List.getElem_mem _))
    have hhigh := hlt (2 * i) (by omega)
    have hlow := hlt (2 * i + 1) (by omega)
    simp only [spell, UInt8.toNat_add, UInt8.toNat_mul, UInt8.toNat_ofNat, Nat.reducePow,
      Nat.reduceMod]
    omega
  have hbuttons : (spell ds 1).toUInt16 <<< 8 ||| (spell ds 2).toUInt16 =
      .ofNat (((ds.drop 2).take 4).foldl (fun n d => 16 * n + d.toNat) 0) := by
    have hfour : (ds.drop 2).take 4 = (ds.drop 2).take 2 ++ (ds.drop 4).take 2 := by
      rw [← List.take_append_drop 2 ((ds.drop 2).take 4), List.take_take, List.drop_take,
        List.drop_drop]
      rfl
    rw [shift_or_byte, hnat, hnat, hfour, List.foldl_append, foldl_two_digits (by omega),
      foldl_two_digits (by omega)]
    refine congrArg UInt16.ofNat ?_
    change 256 * (16 * (ds.getD 2 0).toNat + (ds.getD 3 0).toNat) +
      (16 * (ds.getD 4 0).toNat + (ds.getD 5 0).toNat) =
        16 * (16 * (16 * (16 * 0 + (ds.getD 2 0).toNat) + (ds.getD 3 0).toNat) +
          (ds.getD 4 0).toNat) + (ds.getD 5 0).toNat
    omega
  rw [Latched.ofFrame, Latched.ofDigits, hbuttons]
  simp only [hbyte]
  rfl

/-! ### One digit more -/

/-- A high nibble and a low nibble do not overlap. -/
theorem or_nibble {d v : UInt8} (hd : d < 16) (hv : v < 16) : 16 * d ||| v = 16 * d + v := by
  have hd' : d.toNat < 16 := UInt8.lt_iff_toNat_lt.mp hd
  have hv' : v.toNat < 2 ^ 4 := UInt8.lt_iff_toNat_lt.mp hv
  have h16 : (16 * d).toNat = 2 ^ 4 * d.toNat := by
    simp only [UInt8.toNat_mul, UInt8.toNat_ofNat, Nat.reducePow, Nat.reduceMod]
    omega
  refine UInt8.toNat_inj.mp ?_
  rw [UInt8.toNat_or, UInt8.toNat_add, h16, ← Nat.two_pow_add_eq_or_of_lt hv']
  omega

/-- A nibble shifted into the high half of a byte. -/
theorem shift_nibble {v : UInt8} (hv : v < 16) : v <<< UInt8.ofNat 4 = 16 * v := by
  have hv' : v.toNat < 16 := UInt8.lt_iff_toNat_lt.mp hv
  refine UInt8.toNat_inj.mp ?_
  simp only [UInt8.toNat_shiftLeft, UInt8.toNat_mul, UInt8.toNat_ofNat, UInt8.toNat_ofNat',
    Nat.shiftLeft_eq, Nat.reducePow, Nat.reduceMod]
  omega

theorem spell_concat_ne {ds : List UInt8} {v : UInt8} {i : Fin 7} (h : (i : ℕ) ≠ ds.length / 2) :
    spell (ds ++ [v]) i = spell ds i := by
  have hget : ∀ k, k ≠ ds.length → (ds ++ [v]).getD k 0 = ds.getD k 0 := by
    intro k hk
    rcases Nat.lt_or_ge k ds.length with hlt | hge
    · rw [List.getD_append _ _ _ _ hlt]
    · rw [List.getD_eq_default _ _ hge, List.getD_eq_default _ _ (by simp; omega)]
  rw [spell, spell, hget _ (by omega), hget _ (by omega)]

/-- **Or-ing in a nibble spells one digit more.** The target byte was cleared at the line
end, so a high nibble finds zero there and a low one the high nibble before it. -/
theorem orNibble_b {p : Parser} {ds : List UInt8} {v : UInt8} (hds : ∀ d ∈ ds, d < 16)
    (hlen : ds.length < 14) (hl : p.l = UInt8.ofNat ds.length) (hb : p.b = spell ds)
    (hv : v < 16) : (p.orNibble v).b = spell (ds ++ [v]) := by
  have hnat : p.l.toNat = ds.length := by
    rw [hl, UInt8.toNat_ofNat']
    omega
  funext i
  rw [Parser.orNibble]
  simp only [hnat, hb]
  by_cases hi : (i : ℕ) = ds.length / 2
  · rw [if_pos hi]
    rcases Nat.mod_two_eq_zero_or_one ds.length with hk | hk
    · -- the high nibble of a byte that is still zero
      have hik : 2 * (i : ℕ) = ds.length := by omega
      have hshift : 4 * ((ds.length + 1) % 2) = 4 := by omega
      have hzero : spell ds i = 0 := by
        rw [spell, List.getD_eq_default _ _ (by omega), List.getD_eq_default _ _ (by omega)]
        rfl
      rw [hzero, hshift, shift_nibble hv, spell, hik]
      simp
    · -- the low nibble, under the high one
      have hik : 2 * (i : ℕ) + 1 = ds.length := by omega
      have hshift : 4 * ((ds.length + 1) % 2) = 0 := by omega
      have hd : ds.getD (2 * i) 0 < 16 := by
        rw [List.getD_eq_getElem _ _ (by omega)]
        exact hds _ (List.getElem_mem _)
      have hhigh : (ds ++ [v]).getD (2 * i) 0 = ds.getD (2 * i) 0 :=
        List.getD_append _ _ _ _ (by omega)
      have hlow : ds.getD (2 * i + 1) 0 = 0 := List.getD_eq_default _ _ (by omega)
      have hnew : (ds ++ [v]).getD (2 * i + 1) 0 = v := by
        rw [hik]
        simp
      rw [spell, spell, hhigh, hlow, hnew, hshift]
      simpa using or_nibble hd hv
  · rw [if_neg hi, spell_concat_ne hi]

/-! ### The static variables on an unfinished line -/

/-- **What the static variables hold once `line` has been read** of an unfinished line:
the number of its digits, and what they spell as long as they fit. -/
structure OnLine (p : Parser) (line : List UInt8) : Prop where
  /-- The counter, a `uint8_t`. -/
  l_eq : p.l = UInt8.ofNat (digits line).length
  /-- The frame under construction. -/
  b_eq : (digits line).length ≤ 14 → p.b = spell (digits line)

theorem onLine_nil_iff {p : Parser} : OnLine p [] ↔ p.l = 0 ∧ p.b = fun _ => 0 := by
  have hspell : spell (digits []) = fun _ => 0 := by
    funext i
    simp [spell]
  constructor
  · rintro ⟨hl, hb⟩
    exact ⟨hl, (hb (by simp)).trans hspell⟩
  · rintro ⟨hl, hb⟩
    exact ⟨hl, fun _ => hb.trans hspell.symm⟩

theorem onLine_newLine (p : Parser) : OnLine p.newLine [] := onLine_nil_iff.mpr ⟨rfl, rfl⟩

variable {p : Parser} {line line' : List UInt8} {c : UInt8}

/-- The static variables see only the digits of a line. -/
theorem OnLine.of_digits_eq (h : OnLine p line) (hd : digits line = digits line') :
    OnLine p line' :=
  ⟨hd ▸ h.l_eq, hd ▸ h.b_eq⟩

theorem OnLine.concat_digit (h : OnLine p line) (hv : hexVal c ≠ 0xff) :
    OnLine (serialByte p c).1 (line ++ [c]) := by
  rw [serialByte_digit hv]
  constructor
  · rw [digits_concat_digit hv, List.length_append, List.length_singleton]
    change p.l + 1 = _
    rw [h.l_eq, UInt8.ofNat_add]
    rfl
  · intro hlen
    rw [digits_concat_digit hv] at hlen ⊢
    rw [List.length_append, List.length_singleton] at hlen
    exact orNibble_b (fun d hd => digits_lt hd) (by omega) h.l_eq (h.b_eq (by omega))
      (hexVal_lt hv)

/-- **A byte inside a line** brings the static variables to the line with that byte. -/
theorem OnLine.concat (h : OnLine p line) (hc : isEol c = false) :
    OnLine (serialByte p c).1 (line ++ [c]) := by
  by_cases hv : hexVal c = 0xff
  · rw [serialByte_noise hc hv]
    exact h.of_digits_eq (digits_concat_noise hv line).symm
  · exact h.concat_digit hv

/-- Inside a line nothing is latched. -/
theorem filterMap_latched_of_not_isEol (p : Parser) (hc : isEol c = false) :
    (serialByte p c).2.filterMap Effect.latched? = [] := by
  by_cases hv : hexVal c = 0xff
  · rw [serialByte_noise hc hv, List.filterMap_nil]
  · rw [serialByte_digit hv]
    rfl

/-- **A line end** starts the next line afresh, whatever it found. -/
theorem onLine_of_isEol (p : Parser) (hc : isEol c = true) : OnLine (serialByte p c).1 [] := by
  by_cases hl : p.l = 14
  · rw [serialByte_accept hc hl]
    exact onLine_newLine _
  · rw [serialByte_reject hc hl]
    exact onLine_newLine _

/-- What the test `l == 14` finds out: the counter is a `uint8_t`. -/
theorem OnLine.l_eq_iff (h : OnLine p line) : p.l = 14 ↔ (digits line).length % 256 = 14 := by
  have h14 : (14 : UInt8).toNat = 14 := rfl
  rw [h.l_eq, ← UInt8.toNat_inj, UInt8.toNat_ofNat', h14]

/-- **A line end latches what the line spells**, where the line is not overlong. -/
theorem OnLine.filterMap_latched_of_isEol (h : OnLine p line) (hlen : (digits line).length ≤ 14)
    (hc : isEol c = true) :
    (serialByte p c).2.filterMap Effect.latched? = (readLine line).toList := by
  have hiff : p.l = 14 ↔ (digits line).length = 14 := by
    rw [h.l_eq_iff]
    omega
  by_cases hl : p.l = 14
  · rw [serialByte_accept hc hl, readLine, if_pos (hiff.mp hl), h.b_eq hlen,
      ofFrame_spell (hiff.mp hl) fun d hd => digits_lt hd]
    rfl
  · rw [serialByte_reject hc hl, readLine, if_neg fun hd => hl (hiff.mpr hd)]
    rfl

/-! ### Whole streams -/

/-- The globals hold the last update, or what they held before. -/
theorem latched_serialTask (p : Parser) (s : List UInt8) :
    (serialTask p s).1.latched =
      ((serialTask p s).2.filterMap Effect.latched?).getLast?.getD p.latched := by
  refine runFrom_invariant (P := fun (q : Parser) log =>
    q.latched = (log.filterMap Effect.latched?).getLast?.getD p.latched) rfl ?_ s
  intro q log c hq
  rw [List.filterMap_append]
  cases hc : isEol c with
  | false =>
    rw [filterMap_latched_of_not_isEol q hc, List.append_nil, ← hq]
    by_cases hv : hexVal c = 0xff
    · rw [serialByte_noise hc hv]
    · rw [serialByte_digit hv]
      rfl
  | true =>
    by_cases hl : q.l = 14
    · rw [serialByte_accept hc hl]
      simp [Effect.latched?, Parser.newLine]
    · rw [serialByte_reject hc hl]
      simpa [Parser.newLine] using hq

/-- A call over a stream whose lines are not overlong latches what its closed lines spell,
and is left inside the open one. -/
theorem serialTask_lines (hp : OnLine p []) (s : List UInt8)
    (hlines : ∀ line ∈ allLines isEol s, (digits line).length ≤ 14) :
    OnLine (serialTask p s).1 (linesFrom isEol [] s).2 ∧
      (serialTask p s).2.filterMap Effect.latched? = updates s := by
  have hrun := runFrom_lines Effect.latched? OnLine (fun line => (digits line).length ≤ 14)
    (fun line => (readLine line).toList)
    (fun q cur c hR hc _ => ⟨hR.concat hc, filterMap_latched_of_not_isEol q hc⟩)
    (fun q cur c hR hc hok => ⟨onLine_of_isEol q hc, hR.filterMap_latched_of_isEol hok hc⟩)
    (fun cur line hpre hok => (length_digits_le_of_isPrefix hpre).trans hok) hp s hlines
  exact ⟨hrun.1, hrun.2.trans (List.filterMap_eq_flatMap_toList readLine _).symm⟩

/-- **The parser is exact on lines that are not overlong**, whatever the noise on them
and wherever the calls cut the stream: the updates of the globals are those of the
stream read one closed line at a time, and the globals end with the last of them. -/
theorem serialTasks_updates (hl : p.l = 0) (hb : p.b = fun _ => 0) (pieces : List (List UInt8))
    (hlines : ∀ line ∈ allLines isEol pieces.flatten, (digits line).length ≤ 14) :
    (serialTasks p pieces).2.filterMap Effect.latched? = updates pieces.flatten ∧
      (serialTasks p pieces).1.latched =
        (updates pieces.flatten).getLast?.getD p.latched := by
  obtain ⟨-, hupd⟩ := serialTask_lines (onLine_nil_iff.mpr ⟨hl, hb⟩) pieces.flatten hlines
  rw [serialTasks_eq]
  exact ⟨hupd, by rw [latched_serialTask, hupd]⟩

/-- Noise, digits of both cases and a frame cut in the middle of a byte: the line is
`02 0aF080x7Fff00`, which is one update, and the unterminated tail updates nothing. -/
theorem serialTasks_updates_noise :
    (serialTasks Parser.powerUp
        [[0x30, 0x32, 0x20, 0x30, 0x61, 0x46, 0x30, 0x38], [0x30, 0x78, 0x37, 0x46, 0x66, 0x66],
          [0x30, 0x30, 0x0d], [0x0a, 0x66]]).2.filterMap Effect.latched? =
      [⟨2, 0x0af0, 0x80, 0x7f, 0xff, 0⟩] :=
  (serialTasks_updates rfl rfl _ (by decide)).1.trans (by decide)

/-- **How many frames a stream is good for**: one for each closed line whose digits number
fourteen modulo `256`, the counter being a `uint8_t`. -/
theorem length_latched_serialTask (hp : OnLine p []) (s : List UInt8) :
    ((serialTask p s).2.filterMap Effect.latched?).length =
      ((closedLines isEol s).filter fun line => (digits line).length % 256 = 14).length := by
  have hopen : ∀ (q : Parser) (cur : List UInt8) (c : UInt8), OnLine q cur → isEol c = false →
      True → OnLine (serialByte q c).1 (cur ++ [c]) ∧
        (serialByte q c).2.filterMap (fun e => e.latched?.map fun _ => ()) = [] := by
    intro q cur c hq hc _
    refine ⟨hq.concat hc, ?_⟩
    rw [← List.map_filterMap, filterMap_latched_of_not_isEol q hc, List.map_nil]
  have hclose : ∀ (q : Parser) (cur : List UInt8) (c : UInt8), OnLine q cur → isEol c = true →
      True → OnLine (serialByte q c).1 [] ∧
        (serialByte q c).2.filterMap (fun e => e.latched?.map fun _ => ()) =
          if (digits cur).length % 256 = 14 then [()] else [] := by
    intro q cur c hq hc _
    refine ⟨onLine_of_isEol q hc, ?_⟩
    by_cases hl : q.l = 14
    · rw [serialByte_accept hc hl, if_pos (hq.l_eq_iff.mp hl)]
      rfl
    · rw [serialByte_reject hc hl, if_neg fun h => hl (hq.l_eq_iff.mpr h)]
      rfl
  have hrun := runFrom_lines (fun e : Effect => e.latched?.map fun _ => ()) OnLine
    (fun _ => True) _ hopen hclose (fun _ _ _ _ => trivial) hp s (fun _ _ => trivial)
  have hcount := congrArg List.length hrun.2
  rw [← List.map_filterMap, List.length_map] at hcount
  rw [serialTask, hcount, closedLines]
  generalize (linesFrom isEol [] s).1 = ls
  induction ls with
  | nil => rfl
  | cons line ls ih =>
    rw [List.flatMap_cons, List.length_append, ih, List.filter_cons]
    by_cases hline : (digits line).length % 256 = 14
    · simp [hline, Nat.add_comm]
    · simp [hline]

/-! ### The writes into the frame

The index of a write is not compared with anything, so it stays in range exactly as long
as the stream lets it: the fifteenth digit of a line is written past the frame. -/

/-- The index a line end or a byte of noise writes to: none. -/
theorem filterMap_stored_of_not_digit (p : Parser) (hv : hexVal c = 0xff) :
    (serialByte p c).2.filterMap Effect.stored? = [] := by
  cases hc : isEol c with
  | false => rw [serialByte_noise hc hv, List.filterMap_nil]
  | true =>
    by_cases hl : p.l = 14
    · rw [serialByte_accept hc hl]
      rfl
    · rw [serialByte_reject hc hl]
      rfl

/-- A line with more than fourteen digits among those of a stream, from what has been
read of the first one. -/
theorem exists_overlong {cur stream : List UInt8} (h : 14 < (digits cur).length) :
    ¬∀ line ∈ allLinesFrom isEol cur stream, (digits line).length ≤ 14 := by
  intro hlines
  obtain ⟨line, hmem, hpre⟩ := exists_prefix_mem_allLinesFrom isEol cur stream
  have h1 := length_digits_le_of_isPrefix hpre
  have h2 := hlines line hmem
  omega

/-- The writes of a stream from the middle of a line that is not overlong yet. By
induction on the stream; the first digit too many is the one that leaves the frame, and
what happens after it does not matter to either side. -/
theorem forall_stored_lt_iff (stream : List UInt8) {p : Parser} {cur : List UInt8}
    (hcur : OnLine p cur) (hlen : (digits cur).length ≤ 14) :
    (∀ i ∈ (serialTask p stream).2.filterMap Effect.stored?, i < 7) ↔
      ∀ line ∈ allLinesFrom isEol cur stream, (digits line).length ≤ 14 := by
  induction stream generalizing p cur with
  | nil => simpa [serialTask, allLinesFrom] using hlen
  | cons c cs ih =>
    rw [serialTask, runFrom_cons, List.filterMap_append]
    by_cases hv : hexVal c = 0xff
    · rw [filterMap_stored_of_not_digit p hv, List.nil_append]
      cases hc : isEol c with
      | true =>
        rw [allLinesFrom_eol hc, List.forall_mem_cons]
        exact (ih (onLine_of_isEol p hc) (by simp)).trans ⟨fun h => ⟨hlen, h⟩, fun h => h.2⟩
      | false =>
        rw [allLinesFrom_other hc]
        exact ih (hcur.concat hc) (by rwa [digits_concat_noise hv])
    · have hc : isEol c = false :=
        Bool.eq_false_iff.mpr fun hc => hv (hexVal_of_isEol hc)
      have hnat : p.l.toNat = (digits cur).length := by
        rw [hcur.l_eq, UInt8.toNat_ofNat']
        omega
      have hcur' := hcur.concat hc
      rw [serialByte_digit hv] at hcur' ⊢
      rw [allLinesFrom_other hc]
      change (∀ i ∈ p.l.toNat / 2 :: _, i < 7) ↔ _
      rw [List.forall_mem_cons, hnat]
      have hlen' : (digits (cur ++ [c])).length = (digits cur).length + 1 := by
        rw [digits_concat_digit hv, List.length_append, List.length_singleton]
      rcases Nat.lt_or_ge (digits cur).length 14 with hlt | hge
      · exact (and_iff_right (by omega)).trans (ih hcur' (by omega))
      · exact iff_of_false (fun h => absurd h.1 (by omega)) (exists_overlong (by omega))

/-- **Exactly when the frame is never written out of range**: when no line of the stream,
closed or not, holds more than fourteen digits. -/
theorem serialTasks_stored_lt_iff (pieces : List (List UInt8)) :
    (∀ i ∈ (serialTasks Parser.powerUp pieces).2.filterMap Effect.stored?, i < 7) ↔
      ∀ line ∈ allLines isEol pieces.flatten, (digits line).length ≤ 14 := by
  rw [serialTasks_eq]
  exact forall_stored_lt_iff _ (onLine_nil_iff.mpr ⟨rfl, rfl⟩) (by simp)

/-- Fifteen digits without a line end: the last is written to `b[7]`. -/
theorem serialTasks_stored_fifteen :
    ¬∀ i ∈ (serialTasks Parser.powerUp [List.replicate 15 0x30]).2.filterMap Effect.stored?,
      i < 7 := by
  decide

end Firmware

end SwitchController
