import Mathlib.Data.Nat.BitIndices
import SwitchController.Twitch.Malformed

/-!
# The client for the other consoles

`twitch-control-wiiu-3ds-minimum.py` is `twitch-control.py` with everything taken out but
`on_controller_state`, for one slot and without the shortcut for the neutral state, and with another
end: `send_and_reset` sends nothing to a serial port but fills in a structure for a virtual
joystick. The d-pad becomes four buttons there, and all eighteen buttons are bits of one number.

The handler begins with `controller.reset()`, so whatever came before, and however it ended, is
gone: a state that is well formed is on the joystick as it was sent, with the vertical axes turned
round, each axis on the scale of the joystick, and each button at a bit of its own
(`SwitchController.Wiiu.joystick_exact`). The bits are counted from one, so the lowest bit is never
set. The texts that are not well formed are read as the other program reads them: one of the two
sends a line just when the other updates the joystick, and both show the same controller
(`SwitchController.Wiiu.reads_alike`).
-/

namespace SwitchController

namespace Wiiu

open Twitch (Str Unicode Controller Btn Stick StateText Words Complete Client linesTo)

/-! ### The joystick -/

/-- The attributes `up`, `down`, `left` and `right`. -/
inductive Dir where
  | up | down | left | right
  deriving DecidableEq

/-- What is a button of the joystick. -/
inductive Target where
  | dir (d : Dir)
  | btn (btn : Btn)
  deriving DecidableEq

/-- **The buttons of the joystick**, in the order they are appended to `btns`. -/
def Target.all : List Target :=
  [.dir .up, .dir .down, .dir .left, .dir .right, .btn .lstick, .btn .l, .btn .zl, .btn .minus,
    .btn .capture, .btn .a, .btn .b, .btn .x, .btn .y, .btn .rstick, .btn .r, .btn .zr, .btn .plus,
    .btn .home]

/-- The number that is appended, counted from one. -/
def Target.number (t : Target) : ℕ := Target.all.idxOf t + 1

/-- **`vjoy.data`**, as far as it is assigned. -/
structure Data where
  lButtons : ℤ
  wAxisX : ℤ
  wAxisY : ℤ
  wAxisXRot : ℤ
  wAxisYRot : ℤ
  deriving DecidableEq

/-- A number in a `c_long`. -/
def cLong (v : ℤ) : ℤ := v.bmod (2 ^ 32)

/-! ### The program -/

/-- `modlist`. -/
def modlist : List Str :=
  ["stravos96", "yanchan230", "silvermagpi", "twitchplaysconsoles", "fosseisanerd", "tpnsbot"]

/-- **The state of the program**: `controller1` with its four attributes for the d-pad, and
`currentPlayers`. -/
structure State where
  controller : Controller
  dirs : Dir → Bool
  currentPlayers : List (Option Str)

/-- The program starts. -/
def State.init : State := ⟨.neutral, fun _ => false, []⟩

/-- What can happen. -/
inductive Event where
  /-- `on_controller_state`. -/
  | state (state : Str)
  /-- `on_turn_times_left`, with user names. -/
  | turns (players : List (Option Str))

/-- What is done to the joystick. -/
inductive Obs where
  | reset
  | update (data : Data)
  deriving DecidableEq

/-- The directions the d-pad stands for, which are set to `1`. -/
def dirsOf (d : Fin 10) : List Dir :=
  match d.val with
  | 7 => [.up, .left]
  | 1 => [.up, .right]
  | 5 => [.down, .left]
  | 3 => [.down, .right]
  | 0 => [.up]
  | 4 => [.down]
  | 6 => [.left]
  | 2 => [.right]
  | _ => []

/-- Whether a button of the joystick is held. -/
def State.held (s : State) : Target → Bool
  | .dir d => s.dirs d
  | .btn btn => s.controller.pressed btn

/-- `btnNum`: the sum of the powers of two. -/
def State.btnNum (s : State) : ℕ :=
  ((Target.all.filter s.held).map fun t => 2 ^ t.number).sum

/-- What is assigned to `vjoy.data`. -/
def State.data (s : State) : Data where
  lButtons := cLong s.btnNum
  wAxisX := cLong (s.controller.stick .lx * 128)
  wAxisY := cLong (s.controller.stick .ly * 128)
  wAxisXRot := cLong (s.controller.stick .rx * 128)
  wAxisYRot := cLong (s.controller.stick .ry * 128)

/-- **`send_and_reset`**; it does not reset. -/
def State.sendAndReset (s : State) : State × List Obs :=
  let s := { s with dirs := fun d => s.dirs d || d ∈ dirsOf s.controller.dpad }
  (s, [.reset, .update s.data])

variable (U : Unicode) (pluslist : List Str)

/-- Whether the player of the slot is on a list. -/
def State.playerIn (s : State) (users : List Str) : Bool :=
  match s.currentPlayers[0]? with
  | none => ([] : Str) ∈ users
  | some none => false
  | some (some player) => U.lower player ∈ users

/-- Who may press a button. -/
def State.allows (s : State) : Btn → Bool
  | .capture | .home => s.playerIn U modlist
  | .plus => s.playerIn U pluslist
  | _ => true

/-- **The buttons**, up to a character that is missing, and whether none is. -/
def pressButtons (allows : Btn → Bool) (btns : Str) : List Btn → Controller → Controller × Bool
  | [], c => (c, true)
  | btn :: rest, c => match btns[btn.index]? with
      | none => (c, false)
      | some '1' => pressButtons allows btns rest (c.set btn (allows btn))
      | some _ => pressButtons allows btns rest c

/-- **The sticks**, up to the first that is not a number. -/
def setSticks (lx ly rx ry : Str) (c : Controller) : Controller :=
  (Twitch.setSticks U .one lx ly rx ry).foldl (fun c a => a.apply c) c

/-- `controller.reset()`. -/
def State.reset (s : State) : State := { s with controller := .neutral, dirs := fun _ => false }

/-- **`on_controller_state`**, of the only slot there is. -/
def State.onControllerState (s : State) (state : Str) : State × List Obs :=
  match U.split state with
  | btns :: lx :: ly :: rx :: ry :: _ => match btns.head?.bind U.digit with
      | none => (s.reset, [])
      | some d => match pressButtons (s.allows U pluslist) btns Btn.all
            { s.reset.controller with dpad := d } with
          | (c, false) => ({ s.reset with controller := c }, [])
          | (c, true) => State.sendAndReset { s.reset with controller := setSticks U lx ly rx ry c }
  | _ => (s.reset, [])

/-- **One event.** -/
def State.step (s : State) : Event → State × List Obs
  | .state state => s.onControllerState U pluslist state
  | .turns players => ({ s with currentPlayers := players }, [])

section

variable {U : Unicode} {pluslist : List Str}

/-! ### The number of the buttons -/

theorem Target.mem_all (t : Target) : t ∈ Target.all := by
  rcases t with (- | - | - | -) | btn
  case btn => cases btn <;> decide
  all_goals decide

theorem Target.number_le (t : Target) : t.number ≤ 18 :=
  List.idxOf_lt_length_of_mem t.mem_all

theorem Target.number_injective : Function.Injective Target.number := fun t _ h =>
  (List.idxOf_inj t.mem_all).mp (Nat.succ.inj h)

/-- **The bits of `btnNum`** are the numbers that were appended. -/
theorem bitIndices_btnNum (s : State) :
    s.btnNum.bitIndices = (Target.all.filter s.held).map Target.number := by
  have hsorted : (Target.all.map Target.number).Pairwise (· < ·) := by decide
  have hsub := (List.filter_sublist (p := s.held) (l := Target.all)).map Target.number
  have hsum := Nat.bitIndices_sum_map_two_pow (hsorted.sublist hsub).sortedLT
  rwa [List.map_map] at hsum

theorem testBit_btnNum_iff (s : State) (n : ℕ) :
    s.btnNum.testBit n = true ↔ ∃ t : Target, s.held t = true ∧ t.number = n := by
  rw [← Nat.mem_bitIndices, bitIndices_btnNum]
  simp [Target.mem_all]

/-- **Every button has a bit of its own**, -/
theorem testBit_btnNum (s : State) (t : Target) : s.btnNum.testBit t.number = s.held t := by
  rw [Bool.eq_iff_iff, testBit_btnNum_iff]
  constructor
  · rintro ⟨t', hheld, hnumber⟩
    rwa [← Target.number_injective hnumber]
  · exact fun hheld => ⟨t, hheld, rfl⟩

/-- and no other bit is set. -/
theorem testBit_btnNum_of_notMem (s : State) {n : ℕ} (h : n ∉ Set.range Target.number) :
    s.btnNum.testBit n = false := by
  rw [← Bool.not_eq_true, testBit_btnNum_iff]
  exact fun ⟨t, _, hnumber⟩ => h ⟨t, hnumber⟩

/-- It fits in the structure. -/
theorem cLong_btnNum (s : State) : cLong s.btnNum = s.btnNum := by
  have hlt : s.btnNum < 2 ^ 19 := by
    refine Nat.lt_pow_two_of_testBit _ fun n hn => ?_
    refine testBit_btnNum_of_notMem s ?_
    rintro ⟨t, rfl⟩
    exact absurd t.number_le (Nat.not_le.mpr hn)
  exact Int.bmod_eq_of_le (by omega) (by omega)

/-- So does an axis that is a number of one byte. -/
theorem cLong_axis {v : ℤ} (hlo : 0 ≤ v) (hhi : v ≤ 255) : cLong (v * 128) = v * 128 :=
  Int.bmod_eq_of_le (by omega) (by omega)

/-! ### What is read of a text -/

/-- What the joystick shows of a controller. -/
def joystick (c : Controller) : Data := State.data ⟨c, fun d => d ∈ dirsOf c.dpad, []⟩

/-- Who plays does not matter by then. -/
theorem data_eq_of_eq {s s' : State} (hcontroller : s.controller = s'.controller)
    (hdirs : s.dirs = s'.dirs) : s.data = s'.data := by
  have hheld : s.held = s'.held := by
    funext t
    cases t with
    | dir d => exact congrFun hdirs d
    | btn btn => exact congrFun (congrArg Controller.pressed hcontroller) btn
  simp only [State.data, State.btnNum, hheld, hcontroller]

theorem sendAndReset_reset (s : State) (c : Controller) :
    (State.sendAndReset { s.reset with controller := c }).2 = [.reset, .update (joystick c)] := by
  refine congrArg (fun data => [Obs.reset, .update data]) (data_eq_of_eq rfl (funext fun d => ?_))
  exact Bool.false_or _

theorem snd_pressButtons (allows : Btn → Bool) (btns : Str) (l : List Btn) (c : Controller) :
    (pressButtons allows btns l c).2 = true ↔ ∀ btn ∈ l, btn.index < btns.length := by
  induction l generalizing c with
  | nil => simp [pressButtons]
  | cons btn l ih =>
    rw [List.forall_mem_cons, pressButtons]
    split
    case h_1 hnone => simpa using fun hlt => absurd hlt (List.getElem?_eq_none_iff.mp hnone).not_gt
    all_goals
      rw [ih, and_iff_right]
      exact (List.getElem?_eq_some_iff.mp ‹_›).1

/-- **The buttons that are assigned**, if none is missing. -/
theorem pressButtons_of_lt {allows : Btn → Bool} {btns : Str} {l : List Btn}
    (h : ∀ btn ∈ l, btn.index < btns.length) (c : Controller) :
    pressButtons allows btns l c =
      ({ c with
          pressed := fun btn =>
            if btn ∈ l ∧ btns[btn.index]? = some '1' then allows btn else c.pressed btn },
        true) := by
  refine Prod.ext ?_ ((snd_pressButtons allows btns l c).mpr h)
  induction l generalizing c with
  | nil => simp [pressButtons]
  | cons btn l ih =>
    obtain ⟨hbtn, hl⟩ := List.forall_mem_cons.mp h
    have hdigit : btns[btn.index]? = some btns[btn.index] := List.getElem?_eq_getElem hbtn
    rw [pressButtons]
    split
    case h_1 hnone => exact absurd (hnone.symm.trans hdigit) (by simp)
    case h_2 hone =>
      rw [ih hl]
      refine congrArg (fun pressed => (⟨c.dpad, pressed, c.stick⟩ : Controller))
        (funext fun btn' => ?_)
      rcases eq_or_ne btn' btn with rfl | hne
      · simp [Controller.set, hone]
      · simp [Controller.set, hne]
    case h_3 digit hnot hsome =>
      rw [ih hl]
      refine congrArg (fun pressed => (⟨c.dpad, pressed, c.stick⟩ : Controller))
        (funext fun btn' => ?_)
      rcases eq_or_ne btn' btn with rfl | hne
      · have hother : digit ≠ '1' := hnot
        simp [hsome, hother]
      · simp [hne]

/-- A text that is read to its end has a character for each button. -/
theorem index_lt_iff (btns : Str) :
    (∀ btn ∈ Btn.all, btn.index < btns.length) ↔ 15 ≤ btns.length := by
  constructor
  · exact fun h => h .home (Btn.mem_all _)
  · intro hlen btn _
    have hindex : btn.index < 15 := by cases btn <;> decide
    omega

theorem onControllerState_eq_words (s : State) (state : Str) :
    s.onControllerState U pluslist state = match U.words state with
      | none => (s.reset, [])
      | some w => match w.dpad U with
          | none => (s.reset, [])
          | some d => match pressButtons (s.allows U pluslist) w.btns Btn.all
                { s.reset.controller with dpad := d } with
              | (c, false) => ({ s.reset with controller := c }, [])
              | (c, true) => State.sendAndReset { s.reset with
                  controller :=
                    setSticks U (w.axis .lx) (w.axis .ly) (w.axis .rx) (w.axis .ry) c } := by
  rw [State.onControllerState, Unicode.words]
  rcases U.split state with - | ⟨btns, - | ⟨lx, - | ⟨ly, - | ⟨rx, - | ⟨ry, rest⟩⟩⟩⟩⟩ <;> rfl

/-- **A state that is read to its end** is on the joystick, whatever its sticks are. -/
theorem update_of_complete (s : State) {state : Str} {w : Words} (hw : U.words state = some w)
    (hlen : 15 ≤ w.btns.length) {d : Fin 10} (hd : w.dpad U = some d) :
    (s.onControllerState U pluslist state).2 =
      [.reset, .update (joystick (setSticks U (w.axis .lx) (w.axis .ly) (w.axis .rx) (w.axis .ry)
        { Controller.neutral with
          dpad := d
          pressed := fun btn => w.btns[btn.index]? = some '1' && s.allows U pluslist btn }))] := by
  rw [onControllerState_eq_words, hw]
  simp only [hd, pressButtons_of_lt ((index_lt_iff w.btns).mpr hlen), sendAndReset_reset]
  refine congrArg (fun pressed => [Obs.reset, .update (joystick (setSticks U (w.axis .lx)
    (w.axis .ly) (w.axis .rx) (w.axis .ry) ⟨d, pressed, fun _ => Twitch.stickCenter⟩))])
    (funext fun btn => ?_)
  by_cases hone : w.btns[btn.index]? = some '1'
  · simp [Btn.mem_all, hone]
  · simp [hone, State.reset, Controller.neutral]

/-- **A state that is not** leaves the joystick alone. -/
theorem no_update_of_not_complete (s : State) {state : Str} (h : ¬Complete U state) :
    (s.onControllerState U pluslist state).2 = [] := by
  rw [onControllerState_eq_words]
  cases hw : U.words state with
  | none => rfl
  | some w =>
    cases hd : w.dpad U with
    | none => simp [hd]
    | some d =>
      have hshort : ¬15 ≤ w.btns.length := fun hlen => h ⟨w, hw, hlen, by simp [hd]⟩
      have hfalse := mt (snd_pressButtons (s.allows U pluslist) w.btns Btn.all
        { s.reset.controller with dpad := d }).mp (mt (index_lt_iff w.btns).mp hshort)
      simp only [hd]
      split
      · rfl
      · rename_i hpress
        exact absurd (congrArg Prod.snd hpress) hfalse

/-! ### What is on the joystick -/

/-- What the joystick is to show of a state, where some buttons are allowed. -/
def Target.heldIn (t : StateText) (allows : Btn → Bool) : Target → Bool
  | .dir d => d ∈ dirsOf t.dpad.castSucc
  | .btn button => t.pressed button && allows button

/-- The controller a state is read into. -/
def controllerOf (t : StateText) (allows : Btn → Bool) : Controller where
  dpad := t.dpad.castSucc
  pressed := fun btn => t.pressed btn && allows btn
  stick := fun
    | .lx => t.axis .lx
    | .ly => 255 - t.axis .ly
    | .rx => t.axis .rx
    | .ry => 255 - t.axis .ry

theorem update_of_text (s : State) (t : StateText) :
    (s.onControllerState U pluslist t.text).2 =
      [.reset, .update (joystick (controllerOf t (s.allows U pluslist)))] := by
  have hd : (⟨t.btns, fun s => Twitch.digitText (t.number s)⟩ : Words).dpad U =
      some t.dpad.castSucc := U.digit_digitChar t.dpad.castSucc
  rw [update_of_complete s (Twitch.words_text U t) (Nat.le_of_eq rfl) hd, setSticks,
    Twitch.setSticks_text]
  refine congrArg (fun c => [Obs.reset, .update (joystick c)]) ?_
  have hpressed : ∀ btn : Btn, decide (t.btns[btn.index]? = some '1') = t.pressed btn := by
    intro btn
    rw [Twitch.btns_index]
    cases t.pressed btn <;> rfl
  have hstick : ∀ c : Controller, (Twitch.stickActs .one t).foldl (fun c a => a.apply c) c =
      { c with stick := (controllerOf t (s.allows U pluslist)).stick } := by
    intro c
    refine congrArg (fun stick => (⟨c.dpad, c.pressed, stick⟩ : Controller)) (funext fun x => ?_)
    cases x <;> rfl
  simp only [hpressed, hstick]
  rfl

end

/-- **A state is on the joystick as it was sent**, whatever came before it: the joystick is
reset once and updated once, a bit of its buttons is set just for what is held in the state and
allowed, and the axes are those of the state, on the scale of the joystick and with the vertical
ones turned round. -/
theorem joystick_exact (U : Unicode) (pluslist : List Str) (s : State) (t : StateText) :
    ∃ n : ℕ,
      (s.step U pluslist (.state t.text)).2 =
        [.reset, .update
          { lButtons := n
            wAxisX := t.axis .lx * 128
            wAxisY := (255 - t.axis .ly) * 128
            wAxisXRot := t.axis .rx * 128
            wAxisYRot := (255 - t.axis .ry) * 128 }] ∧
      (∀ target : Target, n.testBit target.number = target.heldIn t (s.allows U pluslist)) ∧
      ∀ k ∉ Set.range Target.number, n.testBit k = false := by
  let shown : State :=
    ⟨controllerOf t (s.allows U pluslist), fun d => d ∈ dirsOf t.dpad.castSucc, []⟩
  refine ⟨shown.btnNum, (update_of_text s t).trans ?_, fun target => ?_,
    fun k => testBit_btnNum_of_notMem shown⟩
  · have hle : ∀ x, t.axis x ≤ 255 := t.number_le
    have haxis : ∀ x, cLong (t.axis x * 128) = t.axis x * 128 := fun x =>
      cLong_axis (by omega) (by have := hle x; omega)
    have hturned : ∀ x, cLong ((255 - t.axis x) * 128) = (255 - t.axis x) * 128 := fun x =>
      cLong_axis (by have := hle x; omega) (by omega)
    simp only [joystick, State.data, cLong_btnNum, controllerOf, haxis, hturned]
    rfl
  · rw [testBit_btnNum]
    cases target <;> rfl

example : (State.init.step .ascii [] (.state Twitch.aAndHome.text)).2 =
    [.reset, .update ⟨2 ^ 10, 128 * 128, 255 * 128, 128 * 128, 127 * 128⟩] := by
  decide +kernel

/-- **The two programs read every text alike**, but for the neutral one: where the player may press
the same buttons, `twitch-control.py` sends a line just when the joystick is updated, and both
show the same controller. -/
theorem reads_alike (U : Unicode) (pluslist : List Str) (s : State) {c : Client}
    (hopen : ¬c.switches.shut .one) {state : Str} (hne : state ≠ Twitch.neutralState)
    (hallows : ∀ btn, s.allows U pluslist btn = Twitch.allows U c .one btn) :
    (linesTo .one (Twitch.step U c (.state .one state)).2 = [] ∧
        (s.step U pluslist (.state state)).2 = []) ∨
      ∃ k : Controller, linesTo .one (Twitch.step U c (.state .one state)).2 = [k.getOutput] ∧
        (s.step U pluslist (.state state)).2 = [.reset, .update (joystick k)] := by
  by_cases hcomplete : Complete U state
  · obtain ⟨w, hw, hlen, hdpad⟩ := hcomplete
    obtain ⟨d, hd⟩ := Option.ne_none_iff_exists'.mp hdpad
    have hleft : Twitch.leftover U c .one state =
        { Controller.neutral with
          dpad := d
          pressed := fun btn => w.btns[btn.index]? = some '1' && s.allows U pluslist btn } := by
      rw [Twitch.leftover, Option.mem_def.mp hw]
      simp only [hd, hallows]
    refine Or.inr ⟨_, Twitch.lines_of_complete hopen hne hw hlen hdpad, ?_⟩
    rw [hleft]
    exact update_of_complete s hw hlen hd
  · exact Or.inl ⟨(Twitch.step_of_not_complete hopen hne hcomplete).2 .one,
      no_update_of_not_complete s hcomplete⟩

/-- A player without a name. -/
theorem reads_alike_start :
    ∃ k : Controller,
      linesTo .one (Twitch.step .ascii (Client.init none none) (.state .one
        Twitch.aAndHome.text)).2 = [k.getOutput] ∧
      (State.init.step .ascii [] (.state Twitch.aAndHome.text)).2 =
        [.reset, .update (joystick k)] := by
  have hopen : ¬(Client.init none none).switches.shut .one := by
    simp [Twitch.Switches.shut, Client.init, Twitch.Slot.cNum]
  have hallows : ∀ btn, State.init.allows .ascii [] btn =
      Twitch.allows .ascii (Client.init none none) .one btn := by
    intro btn
    cases btn <;> decide
  have hne : Twitch.aAndHome.text ≠ Twitch.neutralState := by decide
  rcases reads_alike .ascii [] State.init hopen hne hallows with ⟨-, hnone⟩ | halike
  · exact absurd ((update_of_text State.init Twitch.aAndHome).symm.trans hnone) (by simp)
  · exact halike

end Wiiu

end SwitchController
