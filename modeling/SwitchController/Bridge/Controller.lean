import SwitchController.Lib.Bits
import SwitchController.Bridge.Encode
import Mathlib.Algebra.Order.Group.Unbundled.Int

/-!
# From the controller to the console

`controller_states` of `bridge.py` reads the controller through SDL and yields one message
for each reading. The buttons are summed up bit by bit, with the two triggers or-ed in;
the four buttons of the d-pad index a table of hat positions; a stick is cut to eight bits
by an arithmetic shift, with a dead zone around its centre.

What the reading means is stated apart from how it is computed, by
`SwitchController.Bridge.Shows`: which bit each button goes to, the points of the compass,
and the floor of a quotient. The theorem `SwitchController.Bridge.controllerStates_latched`
then goes all the way, from the readings through the line to the globals of the firmware.

The table has fifteen entries for sixteen indices. With all four buttons of the d-pad
pressed – which no d-pad allows, but a mapping may – the generator ends with
`IndexError`.
-/

namespace SwitchController

namespace Bridge

open Firmware PackedBits

/-! ### What SDL gives -/

/-- The buttons `bridge.py` names; `invalid` is `SDL_CONTROLLER_BUTTON_INVALID`. -/
inductive Button where
  | invalid | a | b | x | y | back | guide | start | leftstick | rightstick
  | leftshoulder | rightshoulder | dpadUp | dpadDown | dpadLeft | dpadRight
  deriving DecidableEq

/-- The axes of a game controller. -/
inductive Axis where
  | leftx | lefty | rightx | righty | triggerleft | triggerright
  deriving DecidableEq

/-- **A reading of the controller.** -/
structure Reading where
  /-- `SDL_GameControllerGetButton`. -/
  button : Button → ℕ
  /-- `SDL_GameControllerGetAxis`. -/
  axis : Axis → ℤ
  /-- A button is pressed or not. -/
  button_le : ∀ i, button i ≤ 1
  /-- The button that is none is not. -/
  button_invalid : button .invalid = 0
  /-- An axis is an `int16`. -/
  axis_mem : ∀ a, -32768 ≤ axis a ∧ axis a < 32768

/-! ### The tables -/

/-- `buttonmapping`: the button of each bit. -/
def buttonmapping : List Button :=
  [.x, .a, .b, .y, .leftshoulder, .rightshoulder, .invalid, .invalid, .invalid, .start,
    .leftstick, .rightstick, .guide, .back]

/-- `axismapping`. -/
def axismapping : List Axis := [.leftx, .lefty, .rightx, .righty]

/-- `hatmapping`. -/
def hatmapping : List Button := [.dpadUp, .dpadRight, .dpadDown, .dpadLeft]

/-- `hatcodes`. -/
def hatcodes : List ℕ := [8, 0, 2, 1, 4, 8, 3, 8, 6, 7, 8, 8, 5, 8, 8]

/-- `axis_deadzone`. -/
def axisDeadzone : ℤ := 10000

/-- `trigger_deadzone`. -/
def triggerDeadzone : ℤ := 0

/-! ### One reading -/

/-- `buttons`: the sum of the shifted buttons, and the triggers in their places. -/
def Reading.buttons (r : Reading) : ℕ :=
  ofBits (buttonmapping.map r.button)
    ||| (decide (|r.axis .triggerleft| > triggerDeadzone)).toNat <<< 6
    ||| (decide (|r.axis .triggerright| > triggerDeadzone)).toNat <<< 7

/-- `hat`: an entry of the table, or `IndexError`. -/
def Reading.hat (r : Reading) : Except Exn ℕ :=
  match hatcodes[ofBits (hatmapping.map r.button)]? with
  | some h => .ok h
  | none => .error .indexError

/-- One entry of `axis`. -/
def stick (x : ℤ) : ℤ := ((if |x| < axisDeadzone then 0 else x) >>> (8 : ℕ)) + 128

/-- The message of one reading. -/
def Reading.message (r : Reading) : Except Exn (List UInt8) := do
  let hat ← r.hat
  frame hat r.buttons (axismapping.map fun n => stick (r.axis n))

/-- **`controller_states`** over successive readings: the messages it yields, and the
exception it ends with if it does. -/
def controllerStates : List Reading → List (List UInt8) × Option Exn
  | [] => ([], none)
  | r :: rs => match r.message with
      | .error e => ([], some e)
      | .ok message => (message :: (controllerStates rs).1, (controllerStates rs).2)

/-! ### What a reading means -/

/-- A button is pressed. -/
def Reading.pressed (r : Reading) (i : Button) : Bool := r.button i == 1

/-- **The points of the compass**, clockwise from `0` at the top, for one direction or two
that are adjacent; anything else is the centre. -/
def compass : (up right down left : Bool) → UInt8
  | true, false, false, false => 0
  | true, true, false, false => 1
  | false, true, false, false => 2
  | false, true, true, false => 3
  | false, false, true, false => 4
  | false, false, true, true => 5
  | false, false, false, true => 6
  | true, false, false, true => 7
  | _, _, _, _ => 8

/-- The point of the compass the d-pad is pressed towards. -/
def Reading.point (r : Reading) : UInt8 :=
  compass (r.pressed .dpadUp) (r.pressed .dpadRight) (r.pressed .dpadDown) (r.pressed .dpadLeft)

/-- **A state shows a reading.** -/
structure Shows (r : Reading) (g : Latched) : Prop where
  /-- The buttons of the table, each at its bit. -/
  button : ∀ n i, buttonmapping[n]? = some i → n ≠ 6 → n ≠ 7 → n ≠ 8 →
    (g.buttons.toNat.testBit n = true ↔ r.button i = 1)
  /-- The left trigger. -/
  zl : g.buttons.toNat.testBit 6 = true ↔ r.axis .triggerleft ≠ 0
  /-- The right trigger. -/
  zr : g.buttons.toNat.testBit 7 = true ↔ r.axis .triggerright ≠ 0
  /-- The bits nothing goes to. -/
  unused : ∀ n, n = 8 ∨ n = 14 ∨ n = 15 → g.buttons.toNat.testBit n = false
  /-- The d-pad. -/
  hat : g.hat2 = r.point
  /-- The left stick. -/
  lx : (g.lx2.toNat : ℤ) = if |r.axis .leftx| < 10000 then 128 else r.axis .leftx / 256 + 128
  /-- The left stick, vertically. -/
  ly : (g.ly2.toNat : ℤ) = if |r.axis .lefty| < 10000 then 128 else r.axis .lefty / 256 + 128
  /-- The right stick. -/
  rx : (g.rx2.toNat : ℤ) = if |r.axis .rightx| < 10000 then 128 else r.axis .rightx / 256 + 128
  /-- The right stick, vertically. -/
  ry : (g.ry2.toNat : ℤ) = if |r.axis .righty| < 10000 then 128 else r.axis .righty / 256 + 128

variable (r : Reading)

/-- **The bits of `buttons`.** -/
theorem testBit_buttons (n : ℕ) :
    r.buttons.testBit n =
      (decide (buttonmapping[n]?.map r.button = some 1) ||
        (decide (r.axis .triggerleft ≠ 0) && decide (n = 6)) ||
        (decide (r.axis .triggerright ≠ 0) && decide (n = 7))) := by
  have hbits : ∀ v ∈ buttonmapping.map r.button, v ≤ 1 := by
    intro v hv
    obtain ⟨i, -, rfl⟩ := List.mem_map.mp hv
    exact r.button_le i
  have htrigger : ∀ a, decide (|r.axis a| > triggerDeadzone) = decide (r.axis a ≠ 0) := fun a =>
    decide_eq_decide.mpr abs_pos
  rw [Reading.buttons, Nat.testBit_or, Nat.testBit_or, testBit_ofBits hbits,
    testBit_toNat_shiftLeft, testBit_toNat_shiftLeft, htrigger, htrigger, List.getElem?_map]

/-- Nothing lies above the bits of the table. -/
theorem testBit_buttons_of_le {n : ℕ} (hn : 14 ≤ n) : r.buttons.testBit n = false := by
  have hnone : buttonmapping[n]? = none := List.getElem?_eq_none hn
  rw [testBit_buttons, hnone]
  have h6 : n ≠ 6 := by omega
  have h7 : n ≠ 7 := by omega
  simp [h6, h7]

theorem buttons_lt : r.buttons < 65536 := by
  have hlt : r.buttons < 2 ^ 14 :=
    Nat.lt_pow_two_of_testBit _ fun n hn => testBit_buttons_of_le r hn
  omega

theorem button_eq_toNat (i : Button) : r.button i = (r.pressed i).toNat := by
  have hle := r.button_le i
  rcases hv : r.button i with - | v
  · simp [Reading.pressed, hv]
  · obtain rfl : v = 0 := by omega
    simp [Reading.pressed, hv]

/-- **The table is the compass**, where it has an entry. -/
theorem hatcodes_eq : ∀ up right down left : Bool, (up && right && down && left) = false →
    hatcodes[ofBits [up.toNat, right.toNat, down.toNat, left.toNat]]? =
      some (compass up right down left).toNat := by
  decide

theorem hat_eq (h : ∃ i ∈ hatmapping, r.button i = 0) :
    r.hat = .ok r.point.toNat := by
  have hall : (r.pressed .dpadUp && r.pressed .dpadRight && r.pressed .dpadDown &&
      r.pressed .dpadLeft) = false := by
    obtain ⟨i, hi, hzero⟩ := h
    have hi' : r.pressed i = false := by simp [Reading.pressed, hzero]
    simp only [hatmapping, List.mem_cons, List.not_mem_nil, or_false] at hi
    rcases hi with rfl | rfl | rfl | rfl <;> simp [hi']
  simp only [Reading.hat, hatmapping, List.map_cons, List.map_nil, button_eq_toNat,
    hatcodes_eq _ _ _ _ hall, Reading.point]

/-- **A stick is the floor of a quotient**, with the dead zone at the centre. -/
theorem stick_eq (x : ℤ) : stick x = if |x| < 10000 then 128 else x / 256 + 128 := by
  rw [stick, Int.shiftRight_eq_div_pow, axisDeadzone]
  split
  · rfl
  · rfl

theorem stick_mem {x : ℤ} (hx : -32768 ≤ x ∧ x < 32768) : 0 ≤ stick x ∧ stick x < 256 := by
  rw [stick_eq]
  split
  · decide
  · omega

/-- A state that holds the numbers computed from a reading shows it. -/
theorem shows_of_values {g : Latched}
    (h : values g = (r.point.toNat : ℤ) :: (r.buttons : ℤ) ::
      axismapping.map fun n => stick (r.axis n)) : Shows r g := by
  simp only [values, axismapping, List.map_cons, List.map_nil, List.cons.injEq, and_true,
    stick_eq] at h
  obtain ⟨hhat, hbuttons, hlx, hly, hrx, hry⟩ := h
  rw [Int.natCast_inj] at hhat hbuttons
  refine ⟨?_, ?_, ?_, ?_, UInt8.toNat_inj.mp hhat, hlx, hly, hrx, hry⟩
  · intro n i hi h6 h7 _
    rw [hbuttons, testBit_buttons, hi]
    simp [h6, h7]
  · rw [hbuttons, testBit_buttons]
    simp [buttonmapping, r.button_invalid]
  · rw [hbuttons, testBit_buttons]
    simp [buttonmapping, r.button_invalid]
  · rintro n (rfl | rfl | rfl)
    · rw [hbuttons, testBit_buttons]
      simp [buttonmapping, r.button_invalid]
    · exact hbuttons ▸ testBit_buttons_of_le r (by decide)
    · exact hbuttons ▸ testBit_buttons_of_le r (by decide)

/-- **A reading becomes a message that shows it**, unless all four buttons of the d-pad are
pressed. -/
theorem message_ok (h : ∃ i ∈ hatmapping, r.button i = 0) :
    ∃ m : Message, r.message = .ok m.bytes ∧ Shows r m.state := by
  have hpoint := r.point.toNat_lt
  have hbuttons := buttons_lt r
  obtain ⟨bytes, hbytes⟩ : ∃ bytes, frame r.point.toNat r.buttons
      (axismapping.map fun n => stick (r.axis n)) = .ok bytes :=
    frame_isOk (by omega) (by omega) (stick_mem (r.axis_mem _)) (stick_mem (r.axis_mem _))
      (stick_mem (r.axis_mem _)) (stick_mem (r.axis_mem _))
  obtain ⟨m, rfl, hm⟩ := frame_ok hbytes
  exact ⟨m, bind_eq_ok.mpr ⟨_, hat_eq r h, hbytes⟩, shows_of_values r hm⟩

/-- **With all four buttons of the d-pad pressed**, the table has no entry. -/
theorem message_error (h : ∀ i ∈ hatmapping, r.button i = 1) : r.message = .error .indexError := by
  have hbits : hatmapping.map r.button = [1, 1, 1, 1] :=
    List.map_eq_replicate_iff.mpr h
  have hhat : r.hat = .error .indexError := by
    rw [Reading.hat, hbits]
    rfl
  rw [Reading.message, hhat]
  rfl

/-! ### Whole streams -/

/-- The messages of a list of readings, with no exception. -/
theorem controllerStates_ok {rs : List Reading} (h : ∀ r ∈ rs, ∃ i ∈ hatmapping, r.button i = 0) :
    ∃ ms : List Message, controllerStates rs = (ms.map Message.bytes, none) ∧
      List.Forall₂ Shows rs (ms.map Message.state) := by
  induction rs with
  | nil => exact ⟨[], rfl, List.Forall₂.nil⟩
  | cons r rs ih =>
    obtain ⟨m, hm, hshows⟩ := message_ok r (h r List.mem_cons_self)
    obtain ⟨ms, hms, hall⟩ := ih fun r' hr' => h r' (List.mem_cons_of_mem r hr')
    refine ⟨m :: ms, ?_, List.Forall₂.cons hshows hall⟩
    rw [controllerStates, hm, hms]
    rfl

/-- **The pipeline is exact.** For any readings none of which has all four buttons of the
d-pad pressed, `controller_states` yields one message each; and however the bytes are cut
into calls of `Serial_Task`, from a line boundary the firmware latches one state for each
reading, in order, which shows it, and is at a line boundary again. -/
theorem controllerStates_latched {rs : List Reading}
    (h : ∀ r ∈ rs, ∃ i ∈ hatmapping, r.button i = 0) {p : Parser} (hl : p.l = 0)
    (hb : p.b = fun _ => 0) {pieces : List (List UInt8)}
    (hpieces : pieces.flatten = (controllerStates rs).1.flatten) :
    (controllerStates rs).2 = none ∧ (controllerStates rs).1.length = rs.length ∧
      List.Forall₂ Shows rs ((serialTasks p pieces).2.filterMap Effect.latched?) ∧
      (serialTasks p pieces).1.l = 0 ∧ (serialTasks p pieces).1.b = fun _ => 0 := by
  obtain ⟨ms, hms, hall⟩ := controllerStates_ok h
  have hflat : (controllerStates rs).1.flatten = stream ms ++ [] := by
    rw [hms, List.append_nil, stream, List.flatMap_def]
  obtain ⟨hend, hlat⟩ := serialTask_stream (onLine_nil_iff.mpr ⟨hl, hb⟩) ms
    (List.forall_mem_nil _) (Nat.zero_le 14)
  rw [serialTasks_eq, hpieces, hflat]
  refine ⟨by rw [hms], ?_, hlat ▸ hall, onLine_nil_iff.mp hend⟩
  rw [hms, List.length_map, hall.length_eq, List.length_map]

/-- A reading with a button, a diagonal and a trigger pressed, the left stick hard left and
the right one hard down. -/
def Reading.sample : Reading where
  button := fun
    | .a | .dpadUp | .dpadRight => 1
    | _ => 0
  axis := fun
    | .leftx => -32768
    | .lefty => 9999
    | .righty => 32767
    | .triggerleft => 1
    | _ => 0
  button_le := fun i => by cases i <;> decide
  button_invalid := rfl
  axis_mem := fun i => by cases i <;> decide

/-- The sample, sent twice and cut in the middle. -/
theorem controllerStates_latched_sample :
    ∃ pieces : List (List UInt8), pieces.length = 2 ∧
      (serialTasks Parser.powerUp pieces).2.filterMap Effect.latched? =
        [⟨1, 0x42, 0, 128, 128, 255⟩, ⟨1, 0x42, 0, 128, 128, 255⟩] ∧
      List.Forall₂ Shows [Reading.sample, Reading.sample]
        ((serialTasks Parser.powerUp pieces).2.filterMap Effect.latched?) := by
  let bytes := (controllerStates [Reading.sample, Reading.sample]).1.flatten
  have hpieces : [bytes.take 20, bytes.drop 20].flatten = bytes := by simp
  have hpad : ∀ r ∈ [Reading.sample, Reading.sample], ∃ i ∈ hatmapping, r.button i = 0 := by decide
  obtain ⟨-, -, hall, -⟩ := controllerStates_latched hpad (p := Parser.powerUp) rfl rfl hpieces
  exact ⟨[bytes.take 20, bytes.drop 20], rfl, by decide +kernel, hall⟩

end Bridge

end SwitchController
