import SwitchController.Lib.Trace
import SwitchController.Twitch.Text

/-!
# The four controllers

A `SwitchController` is the state of one controller: a d-pad, fourteen buttons and two
sticks. `getOutput` writes it down as a line, a digit for the d-pad, a digit for each button
and the four axes in decimal, and `send` transmits the line.

Chat commands, remote players, the switching of games and the repairing of the controller
order all write to the same four objects, and what one of them has pressed stays pressed
until someone resets the controller. So each press is marked with its cause here
(`SwitchController.Twitch.Cause`; nothing reads it but the log), and
`SwitchController.Twitch.standing` tells from the log which press a button owes its state to:
the digit of a button in a transmitted line is `1` exactly when a press is standing
(`SwitchController.Twitch.Shown.digit`).
-/

namespace SwitchController

namespace Twitch

open EventMachine

/-! ### One controller -/

/-- The buttons. -/
inductive Btn where
  | lstick | l | zl | minus | capture | a | b | x | y | rstick | r | zr | plus | home
  deriving DecidableEq

/-- The axes. -/
inductive Stick where
  | lx | ly | rx | ry
  deriving DecidableEq

/-- `STICK_MIN`. -/
def stickMin : ℤ := 0

/-- `STICK_MAX`. -/
def stickMax : ℤ := 255

/-- `STICK_CENTER`. -/
def stickCenter : ℤ := 128

/-- `DPAD_UP`. -/
def dpadUp : Fin 10 := 0

/-- `DPAD_RIGHT`. -/
def dpadRight : Fin 10 := 2

/-- `DPAD_DOWN`. -/
def dpadDown : Fin 10 := 4

/-- `DPAD_LEFT`. -/
def dpadLeft : Fin 10 := 6

/-- `DPAD_CENTER`. -/
def dpadCenter : Fin 10 := 8

/-- **A `SwitchController`**, as far as `getOutput` reads it. The d-pad is given one of the
constants or the value of a single digit, so it is below ten. -/
structure Controller where
  dpad : Fin 10
  pressed : Btn → Bool
  stick : Stick → ℤ

/-- What `reset` leaves, and a new controller is. -/
def Controller.neutral : Controller := ⟨dpadCenter, fun _ => false, fun _ => stickCenter⟩

/-- A button is set to `1` or to `0`. -/
def Controller.set (c : Controller) (btn : Btn) (v : Bool) : Controller :=
  { c with pressed := Function.update c.pressed btn v }

/-- Buttons set one after the other. -/
theorem foldl_set (l : List Btn) (v : Btn → Bool) (k : Controller) :
    l.foldl (fun c btn => c.set btn (v btn)) k =
      { k with pressed := fun btn => if btn ∈ l then v btn else k.pressed btn } := by
  induction l generalizing k with
  | nil => simp
  | cons btn' l ih =>
    rw [List.foldl_cons, ih]
    refine congrArg (fun pressed => (⟨k.dpad, pressed, k.stick⟩ : Controller))
      (funext fun btn => ?_)
    rcases eq_or_ne btn btn' with rfl | hne
    · simp [Controller.set]
    · simp [Controller.set, hne]

/-- The buttons in the order of the line. -/
def Btn.all : List Btn :=
  [.lstick, .l, .zl, .minus, .capture, .a, .b, .x, .y, .rstick, .r, .zr, .plus, .home]

theorem Btn.mem_all (btn : Btn) : btn ∈ Btn.all := by
  cases btn <;> decide

/-- The digit of a button. -/
def pressedDigit (p : Bool) : Char := if p then '1' else '0'

/-- **`getOutput`**. -/
def Controller.getOutput (c : Controller) : Str :=
  natStr c.dpad ++ Btn.all.map (fun btn => pressedDigit (c.pressed btn)) ++
    [Stick.lx, .ly, .rx, .ry].flatMap fun s => ' ' :: intStr (c.stick s)

/-- Where the line has the digit of a button. -/
def Btn.index : Btn → ℕ
  | .lstick => 1
  | .l => 2
  | .zl => 3
  | .minus => 4
  | .capture => 5
  | .a => 6
  | .b => 7
  | .x => 8
  | .y => 9
  | .rstick => 10
  | .r => 11
  | .zr => 12
  | .plus => 13
  | .home => 14

theorem natStr_of_lt : ∀ d : Fin 10, natStr d = [Nat.digitChar d] := by decide

theorem pressedDigit_eq_one {p : Bool} : pressedDigit p = '1' ↔ p = true := by
  cases p <;> decide

/-- **The line has each button at its place.** -/
theorem getOutput_index (c : Controller) (btn : Btn) :
    c.getOutput[btn.index]? = some (pressedDigit (c.pressed btn)) := by
  rw [Controller.getOutput, natStr_of_lt]
  cases btn <;> rfl

/-! ### All of them -/

/-- `controller1` to `controller4`. -/
inductive Slot where
  | one | two | three | four
  deriving DecidableEq

/-- `cNum`. -/
def Slot.cNum : Slot → ℕ
  | .one => 0
  | .two => 1
  | .three => 2
  | .four => 3

/-- **What a press goes back to.** Events are told by their number. -/
inductive Cause where
  /-- A command out of the queue, which came with this chat message. -/
  | chat (k : ℕ)
  /-- This state event. -/
  | state (k : ℕ)
  /-- `self.lockon`. -/
  | lockon
  /-- `goto_game`. -/
  | gotoGame
  /-- `!fixcontrollers`. -/
  | fixControllers
  deriving DecidableEq

/-- What is done to the controllers. -/
inductive PadAct where
  /-- `controller.reset()`. -/
  | reset (n : Slot)
  /-- A button is set to `1`, -/
  | press (n : Slot) (btn : Btn) (cause : Cause)
  /-- or to `0`. -/
  | release (n : Slot) (btn : Btn)
  | dpad (n : Slot) (d : Fin 10)
  | stick (n : Slot) (s : Stick) (v : ℤ)
  /-- `controller.getOutput()` and `controller.send(controller.output)`. -/
  | send (n : Slot)

/-- What is observed of the controllers. -/
inductive PadObs where
  | reset (n : Slot)
  | pressed (n : Slot) (btn : Btn) (cause : Cause)
  | released (n : Slot) (btn : Btn)
  /-- A line was transmitted. -/
  | sent (n : Slot) (msg : Str)
  deriving DecidableEq

/-- The four controllers. -/
abbrev Pads := Slot → Controller

/-- The controllers at the start of the program. -/
def Pads.neutral : Pads := fun _ => Controller.neutral

/-- **One statement.** -/
def Pads.exec (p : Pads) : PadAct → Pads × List PadObs
  | .reset n => (Function.update p n Controller.neutral, [.reset n])
  | .press n btn cause => (Function.update p n ((p n).set btn true), [.pressed n btn cause])
  | .release n btn => (Function.update p n ((p n).set btn false), [.released n btn])
  | .dpad n d => (Function.update p n { p n with dpad := d }, [])
  | .stick n s v =>
      (Function.update p n { p n with stick := Function.update (p n).stick s v }, [])
  | .send n => (p, [.sent n (p n).getOutput])

/-- **`send_and_reset`**; the time it takes is not modelled. -/
def sendAndReset (reset : Bool) (n : Slot) : List PadAct :=
  .send n :: if reset then [.reset n, .send n] else []

/-! ### One of them at a time -/

/-- The controller a statement is about. -/
def PadAct.slot : PadAct → Slot
  | .reset n | .press n _ _ | .release n _ | .dpad n _ | .stick n _ _ | .send n => n

/-- What a statement makes of its controller. -/
def PadAct.apply (a : PadAct) (c : Controller) : Controller :=
  match a with
  | .reset _ => .neutral
  | .press _ btn _ => c.set btn true
  | .release _ btn => c.set btn false
  | .dpad _ d => { c with dpad := d }
  | .stick _ s v => { c with stick := Function.update c.stick s v }
  | .send _ => c

theorem fst_exec (p : Pads) (a : PadAct) :
    (p.exec a).1 = Function.update p a.slot (a.apply (p a.slot)) := by
  cases a with
  | send n => exact (Function.update_eq_self n p).symm
  | _ => rfl

/-- **Statements about one controller** leave the others as they are. -/
theorem fst_runFrom_slot {n : Slot} {as : List PadAct} (h : ∀ a ∈ as, a.slot = n) (p : Pads) :
    (runFrom Pads.exec p as).1 = Function.update p n (as.foldl (fun c a => a.apply c) (p n)) := by
  induction as generalizing p with
  | nil => exact (Function.update_eq_self n p).symm
  | cons a as ih =>
    obtain ⟨rfl, has⟩ := List.forall_mem_cons.mp h
    rw [runFrom_cons, fst_exec, ih has, Function.update_self, Function.update_idem]
    rfl

/-! ### Standing presses -/

/-- What an observation does to the press a button owes its state to. -/
def standingAfter (n : Slot) (btn : Btn) (cause : Option Cause) : PadObs → Option Cause
  | .reset m => if m = n then none else cause
  | .pressed m btn' k => if m = n ∧ btn' = btn then some k else cause
  | .released m btn' => if m = n ∧ btn' = btn then none else cause
  | .sent _ _ => cause

/-- **The press that stands**: the last one of this button since it was released or its
controller reset. -/
def standing (n : Slot) (btn : Btn) (log : List PadObs) : Option Cause :=
  log.foldl (standingAfter n btn) none

theorem standing_concat (n : Slot) (btn : Btn) (log : List PadObs) (o : PadObs) :
    standing n btn (log ++ [o]) = standingAfter n btn (standing n btn log) o := by
  rw [standing, List.foldl_append]
  rfl

/-- **The controllers show what stands**, and every line that was transmitted showed it. -/
structure Shown (p : Pads) (log : List PadObs) : Prop where
  pressed : ∀ n btn, (p n).pressed btn = (standing n btn log).isSome
  sent : Everywhere (fun pre o => ∀ n msg, o = .sent n msg →
    ∀ btn : Btn, msg[btn.index]? = some (pressedDigit (standing n btn pre).isSome)) log

theorem shown_neutral : Shown Pads.neutral [] := ⟨fun _ _ => rfl, everywhere_nil _⟩

variable {p : Pads} {log : List PadObs}

/-- An observation that is no line. -/
theorem Shown.concat (h : Shown p log) {o : PadObs} (ho : ∀ n msg, o ≠ .sent n msg) {q : Pads}
    (hq : ∀ n btn, (q n).pressed btn = (standingAfter n btn (standing n btn log) o).isSome) :
    Shown q (log ++ [o]) where
  pressed := by
    intro n btn
    rw [hq, standing_concat]
  sent := h.sent.concat fun n msg he => absurd he (ho n msg)

theorem pressed_set (p : Pads) (m n : Slot) (btn' btn : Btn) (v : Bool) :
    (Function.update p m ((p m).set btn' v) n).pressed btn =
      if m = n ∧ btn' = btn then v else (p n).pressed btn := by
  rcases eq_or_ne n m with rfl | hn
  · rw [Function.update_self, Controller.set]
    rcases eq_or_ne btn btn' with rfl | hb
    · simp
    · simp [Function.update_of_ne hb, hb.symm]
  · rw [Function.update_of_ne hn, if_neg fun h => hn h.1.symm]

/-- A controller of which no button changes. -/
theorem pressed_update (p : Pads) {m : Slot} {c : Controller} (hc : c.pressed = (p m).pressed)
    (n : Slot) : (Function.update p m c n).pressed = (p n).pressed := by
  rcases eq_or_ne n m with rfl | hn
  · rw [Function.update_self, hc]
  · rw [Function.update_of_ne hn]

theorem Shown.silent (h : Shown p log) {q : Pads} (hq : ∀ n, (q n).pressed = (p n).pressed) :
    Shown q (log ++ []) := by
  rw [List.append_nil]
  exact ⟨fun n btn => by rw [hq, h.pressed], h.sent⟩

/-- What is done to the buttons of a controller stands in the log as it is done. -/
theorem Shown.step (h : Shown p log) (a : PadAct) :
    Shown (p.exec a).1 (log ++ (p.exec a).2) := by
  cases a with
  | reset m =>
    refine h.concat (by simp) fun n btn => ?_
    change (Function.update p m Controller.neutral n).pressed btn = _
    rcases eq_or_ne n m with rfl | hn
    · rw [Function.update_self, standingAfter, if_pos rfl]
      rfl
    · rw [Function.update_of_ne hn, standingAfter, if_neg hn.symm]
      exact h.pressed n btn
  | press m btn' k =>
    refine h.concat (by simp) fun n btn => ?_
    rw [standingAfter, apply_ite Option.isSome, ← h.pressed]
    exact pressed_set p m n btn' btn true
  | release m btn' =>
    refine h.concat (by simp) fun n btn => ?_
    rw [standingAfter, apply_ite Option.isSome, ← h.pressed]
    exact pressed_set p m n btn' btn false
  | dpad m d => exact h.silent (pressed_update p rfl)
  | stick m s v => exact h.silent (pressed_update p rfl)
  | send m =>
    -- a line changes nothing that stands, and shows what does
    refine ⟨fun n btn => ?_, h.sent.concat ?_⟩
    · change (p n).pressed btn = (standing n btn (log ++ [.sent m (p m).getOutput])).isSome
      rw [standing_concat]
      exact h.pressed n btn
    · rintro n msg he btn
      obtain ⟨rfl, rfl⟩ : m = n ∧ (p m).getOutput = msg := by simpa using he
      rw [getOutput_index, h.pressed]

/-- **The controllers show what stands**, whatever is done to them. -/
theorem Shown.run (h : Shown p log) (as : List PadAct) :
    Shown (runFrom Pads.exec p as).1 (log ++ (runFrom Pads.exec p as).2) := by
  induction as generalizing p log with
  | nil => simpa using h
  | cons a as ih =>
    rw [runFrom_cons, ← List.append_assoc]
    exact ih (h.step a)

/-- **A digit is `1` exactly when a press is standing**, in every line transmitted. -/
theorem Shown.digit (h : Shown p log) {pre post : List PadObs} {n : Slot} {msg : Str}
    (hlog : log = pre ++ .sent n msg :: post) (btn : Btn) :
    msg[btn.index]? = some '1' ↔ (standing n btn pre).isSome = true := by
  rw [h.sent pre _ post hlog n msg rfl btn, Option.some_inj, pressedDigit_eq_one]

/-- What stands was pressed. -/
theorem pressed_of_standing {n : Slot} {btn : Btn} {cause : Cause}
    (h : standing n btn log = some cause) : .pressed n btn cause ∈ log := by
  induction log using List.reverseRecOn with
  | nil => exact absurd h (by simp [standing])
  | append_singleton log o ih =>
    rw [standing_concat] at h
    -- either this observation is the press, or it leaves the standing one
    cases o with
    | reset m =>
      rw [standingAfter] at h
      split_ifs at h
      exact List.mem_append_left _ (ih h)
    | pressed m btn' k =>
      rw [standingAfter] at h
      split_ifs at h with heq
      · obtain ⟨rfl, rfl⟩ := heq
        exact List.mem_append_right _ (by simpa using h.symm)
      · exact List.mem_append_left _ (ih h)
    | released m btn' =>
      rw [standingAfter] at h
      split_ifs at h
      exact List.mem_append_left _ (ih h)
    | sent m msg => exact List.mem_append_left _ (ih h)

end Twitch

end SwitchController
