import SwitchController.Twitch.Controller

/-!
# The keyboard as a controller

`pc-control.py` asks Windows for the state of its keys, one after the other, makes a state of the
controller of them and sends it if the last line is more than 80 ms old; then it begins again, at
once. It asks in every turn, and sends in few of them.

What Windows answers is not for the program to say, and nothing is assumed of it but that the keys
do not depend on each other: `SwitchController.Keyboard.KeyState` is whatever Windows knows of
a key, with what pressing, releasing and asking make of it. So an event between two questions of
a turn counts as before the turn or after it, by whether its key has been asked for.

It is documented that `GetAsyncKeyState` answers not only whether a key is down but also whether it
has been pressed since it was asked last. Where that is so
(`SwitchController.Keyboard.KeyState.Sticky`), a key may be pressed and released between two
questions and is still noticed, once. Then a tap that is noticed in a turn that sends nothing is
gone, just as if the key had not been touched; in a turn that sends, it is in the line although the
key is up again (`SwitchController.Keyboard.tap_fate`). No other program is taken to ask for the
keys.
-/

namespace SwitchController

namespace Keyboard

open EventMachine

open Twitch (Str Controller Btn Stick stickMin stickMax dpadUp dpadDown dpadLeft dpadRight)

/-! ### The program -/

/-- The keys. -/
inductive Key where
  | w | s | a | d | i | k | j | l | right | down | up | left | t | g | f | h
  | o | p | nine | zero | five | six | escape
  deriving DecidableEq

/-- An axis is assigned. -/
def setStick (c : Controller) (s : Stick) (v : ℤ) : Controller :=
  { c with stick := Function.update c.stick s v }

/-- **What is assigned for a key.** -/
def Key.assign (c : Controller) : Key → Controller
  | .w => setStick c .ly stickMin
  | .s => setStick c .ly stickMax
  | .a => setStick c .lx stickMin
  | .d => setStick c .lx stickMax
  | .i => setStick c .ry stickMin
  | .k => setStick c .ry stickMax
  | .j => setStick c .rx stickMin
  | .l => setStick c .rx stickMax
  | .right => c.set .a true
  | .down => c.set .b true
  | .up => c.set .x true
  | .left => c.set .y true
  | .t => { c with dpad := dpadUp }
  | .g => { c with dpad := dpadDown }
  | .f => { c with dpad := dpadLeft }
  | .h => { c with dpad := dpadRight }
  | .o => c.set .l true
  | .p => c.set .r true
  | .nine => c.set .zl true
  | .zero => c.set .zr true
  | .five => c.set .minus true
  | .six => c.set .plus true
  | .escape => c

/-- The keys in the order they are asked for. -/
def Key.all : List Key :=
  [.w, .s, .a, .d, .i, .k, .j, .l, .right, .down, .up, .left, .t, .g, .f, .h, .o, .p, .nine, .zero,
    .five, .six, .escape]

/-- **The controller**, for the keys that are found pressed. It is reset first. -/
def controllerOf (pressed : Key → Bool) : Controller :=
  Key.all.foldl (fun c key => if pressed key then key.assign c else c) .neutral

/-- **What Windows knows of a key**, and what becomes of it. -/
structure KeyState (κ : Type) where
  /-- Whether it is down. -/
  held : κ → Bool
  press : κ → κ
  release : κ → κ
  /-- `GetAsyncKeyState`, as a truth value, -/
  answer : κ → Bool
  /-- and what is left when the answer has been given. -/
  asked : κ → κ

/-- **The state of the keys and of the program.** -/
structure State (κ : Type) where
  keys : Key → κ
  /-- `start`, in nanoseconds. -/
  start : ℕ
  /-- The program has not called `exit`. -/
  running : Bool

/-- What can happen. -/
inductive Event where
  | press (key : Key)
  | release (key : Key)
  /-- A turn of the loop, with the readings of the clock for `end` and `start`. -/
  | turn (finish start : ℕ)

/-- The time between two lines. -/
def sendGap : ℕ := 80 * 1000000

section

variable {κ : Type} (K : KeyState κ)

/-- The answers to a turn's questions. -/
def KeyState.answers (s : State κ) (key : Key) : Bool := K.answer (s.keys key)

/-- **One step**, with what is sent. In a turn every key is asked for. -/
def KeyState.step (s : State κ) : Event → State κ × List Str
  | .press key => ({ s with keys := Function.update s.keys key (K.press (s.keys key)) }, [])
  | .release key => ({ s with keys := Function.update s.keys key (K.release (s.keys key)) }, [])
  | .turn finish start =>
      if !s.running then (s, [])
      else if K.answers s .escape then
        ({ s with keys := fun key => K.asked (s.keys key), running := false }, [("RELEASE" : Str)])
      else if finish - s.start > sendGap then
        ({ s with keys := fun key => K.asked (s.keys key), start := start },
          [(controllerOf (K.answers s)).getOutput])
      else ({ s with keys := fun key => K.asked (s.keys key) }, [])

/-- **`GetAsyncKeyState` as it is documented**, for a key that is pressed and released. -/
structure KeyState.Sticky : Prop where
  /-- It is noticed when it is asked for, though it is up again, -/
  noticed : ∀ k, K.held k = false → K.answer (K.release (K.press k)) = true
  /-- and forgotten once it has been. -/
  forgotten : ∀ k, K.held k = false → K.asked (K.release (K.press k)) = K.asked k

end

/-! ### The keys in the line -/

/-- The button of a key. -/
def Key.button? : Key → Option Btn
  | .right => some .a
  | .down => some .b
  | .up => some .x
  | .left => some .y
  | .o => some .l
  | .p => some .r
  | .nine => some .zl
  | .zero => some .zr
  | .five => some .minus
  | .six => some .plus
  | _ => none

theorem pressed_assign (c : Controller) (key : Key) (btn : Btn) :
    (key.assign c).pressed btn = (c.pressed btn || key.button? = some btn) := by
  have hset : ∀ btn' : Btn, (c.set btn' true).pressed btn =
      (c.pressed btn || decide (some btn' = some btn)) := by
    intro btn'
    rcases eq_or_ne btn btn' with rfl | hne
    · simp [Controller.set]
    · simp [Controller.set, hne, hne.symm]
  cases key with
  | right | down | up | left | o | p | nine | zero | five | six => exact hset _
  | _ => exact (Bool.or_false _).symm

/-- **A button is pressed** if one of its keys is. -/
theorem pressed_controllerOf (pressed : Key → Bool) (btn : Btn) :
    (controllerOf pressed).pressed btn =
      Key.all.any fun key => pressed key && key.button? = some btn := by
  have hfold : ∀ (keys : List Key) (c : Controller),
      (keys.foldl (fun c key => if pressed key then key.assign c else c) c).pressed btn =
        (c.pressed btn || keys.any fun key => pressed key && key.button? = some btn) := by
    intro keys
    induction keys with
    | nil => exact fun c => (Bool.or_false _).symm
    | cons key keys ih =>
      intro c
      rw [List.foldl_cons, ih, List.any_cons, ← Bool.or_assoc]
      congr 1
      cases hpressed : pressed key with
      | false => simp
      | true => simp [pressed_assign]
  exact (hfold _ _).trans (Bool.false_or _)

theorem Key.mem_all (key : Key) : key ∈ Key.all := by
  cases key <;> decide

/-! ### Taps -/

section

variable {κ : Type} {K : KeyState κ} {s : State κ} {key : Key}

/-- What a tap leaves. -/
def KeyState.tap (K : KeyState κ) (s : State κ) (key : Key) : State κ :=
  { s with keys := Function.update s.keys key (K.release (K.press (s.keys key))) }

theorem runFrom_tap (K : KeyState κ) (s : State κ) (key : Key) :
    runFrom K.step s [.press key, .release key] = (K.tap s key, []) := by
  simp [runFrom_cons, KeyState.step, KeyState.tap]

/-- It is the only key whose answer is another. -/
theorem answers_tap (hK : K.Sticky) (hup : K.held (s.keys key) = false) :
    K.answers (K.tap s key) = Function.update (K.answers s) key true := by
  funext key'
  rcases eq_or_ne key' key with rfl | hne
  · simp [KeyState.answers, KeyState.tap, hK.noticed _ hup]
  · simp [KeyState.answers, KeyState.tap, hne]

/-- Once it has been asked for, there is nothing left of it. -/
theorem asked_tap (hK : K.Sticky) (hup : K.held (s.keys key) = false) :
    (fun key' => K.asked ((K.tap s key).keys key')) = fun key' => K.asked (s.keys key') := by
  funext key'
  rcases eq_or_ne key' key with rfl | hne
  · simp [KeyState.tap, hK.forgotten _ hup]
  · simp [KeyState.tap, hne]

/-- A turn of the loop. -/
theorem step_turn (hrun : s.running = true) (finish start : ℕ) :
    K.step s (.turn finish start) =
      if K.answers s .escape then
        ({ s with keys := fun key => K.asked (s.keys key), running := false }, [("RELEASE" : Str)])
      else if finish - s.start > sendGap then
        ({ s with keys := fun key => K.asked (s.keys key), start := start },
          [(controllerOf (K.answers s)).getOutput])
      else ({ s with keys := fun key => K.asked (s.keys key) }, []) :=
  if_neg (by rw [hrun]; decide)

/-- **A turn that sends nothing** leaves no trace of a tap. -/
theorem step_tap (hK : K.Sticky) (hup : K.held (s.keys key) = false) (hkey : key ≠ .escape)
    (hrun : s.running = true) {finish start : ℕ} (hgap : finish - s.start ≤ sendGap) :
    K.step (K.tap s key) (.turn finish start) = K.step s (.turn finish start) := by
  have hescape : K.answers (K.tap s key) .escape = K.answers s .escape := by
    rw [answers_tap hK hup, Function.update_of_ne hkey.symm]
  have hnot : ¬finish - s.start > sendGap := Nat.not_lt.mpr hgap
  have hnot' : ¬finish - (K.tap s key).start > sendGap := hnot
  rw [step_turn (s := K.tap s key) hrun, step_turn hrun, hescape, asked_tap hK hup, if_neg hnot,
    if_neg hnot']
  rfl

/-- **A turn that sends** has it in its line. -/
theorem step_tap_of_gap (hK : K.Sticky) (hup : K.held (s.keys key) = false) {btn : Btn}
    (hbtn : key.button? = some btn) (hrun : s.running = true)
    (hescape : K.answers s .escape = false) {finish : ℕ} (hgap : finish - s.start > sendGap)
    (start : ℕ) :
    ∃ msg, (K.step (K.tap s key) (.turn finish start)).2 = [msg] ∧ msg[btn.index]? = some '1' := by
  have hkey : key ≠ .escape := by
    rintro rfl
    exact absurd hbtn (by decide +revert)
  have hescape' : ¬K.answers (K.tap s key) .escape = true := by
    rw [answers_tap hK hup, Function.update_of_ne hkey.symm, hescape]
    exact Bool.false_ne_true
  have hgap' : finish - (K.tap s key).start > sendGap := hgap
  refine ⟨(controllerOf (K.answers (K.tap s key))).getOutput, ?_, ?_⟩
  · rw [step_turn (s := K.tap s key) hrun, if_neg hescape', if_pos hgap']
  · have hpressed : (controllerOf (K.answers (K.tap s key))).pressed btn = true := by
      rw [pressed_controllerOf, List.any_eq_true]
      refine ⟨key, key.mem_all, ?_⟩
      rw [answers_tap hK hup, Function.update_self, hbtn]
      simp
    rw [Twitch.getOutput_index, hpressed]
    rfl

/-- **The fate of a tap**, whatever happens before and after, where `GetAsyncKeyState` is as it is
documented. If the next turn of the loop sends nothing, it is as if the key had not been touched:
the run goes on and sends as it would without the tap. If the turn sends, the line shows the button
pressed. -/
theorem tap_fate (hK : K.Sticky) {btn : Btn} (hbtn : key.button? = some btn) {es es' : List Event}
    {finish start : ℕ} (hrun : (runFrom K.step s es).1.running = true)
    (hup : K.held ((runFrom K.step s es).1.keys key) = false) :
    (finish - (runFrom K.step s es).1.start ≤ sendGap →
      runFrom K.step s (es ++ ([.press key, .release key] ++ .turn finish start :: es')) =
        runFrom K.step s (es ++ .turn finish start :: es')) ∧
      (finish - (runFrom K.step s es).1.start > sendGap →
        K.answers (runFrom K.step s es).1 .escape = false →
        ∃ msg rest,
          (runFrom K.step s (es ++ ([.press key, .release key] ++ .turn finish start :: es'))).2 =
              (runFrom K.step s es).2 ++ msg :: rest ∧ msg[btn.index]? = some '1') := by
  have hkey : key ≠ .escape := by
    rintro rfl
    exact absurd hbtn (by decide +revert)
  have htap : runFrom K.step s (es ++ ([.press key, .release key] ++ .turn finish start :: es')) =
      ((runFrom K.step (K.tap (runFrom K.step s es).1 key) (.turn finish start :: es')).1,
        (runFrom K.step s es).2 ++
          (runFrom K.step (K.tap (runFrom K.step s es).1 key) (.turn finish start :: es')).2) := by
    rw [runFrom_append, runFrom_append, runFrom_tap]
    rfl
  refine ⟨fun hgap => ?_, fun hgap hescape => ?_⟩
  · rw [htap, runFrom_append, runFrom_cons, runFrom_cons, step_tap hK hup hkey hrun hgap]
  · obtain ⟨msg, hmsg, hone⟩ := step_tap_of_gap hK hup hbtn hrun hescape hgap start
    refine ⟨msg, (runFrom K.step
      (K.step (K.tap (runFrom K.step s es).1 key) (.turn finish start)).1 es').2, ?_, hone⟩
    rw [htap, runFrom_cons, hmsg]
    rfl

end

/-- A keyboard that is as it is documented: of a key it is known whether it is down, and whether it
has been pressed since it was asked for. -/
def documented : KeyState (Bool × Bool) where
  held := Prod.fst
  press := fun _ => (true, true)
  release := fun k => (false, k.2)
  answer := fun k => k.1 || k.2
  asked := fun k => (k.1, false)

theorem sticky_documented : documented.Sticky where
  noticed := fun _ _ => rfl
  forgotten := fun k hk => by
    obtain ⟨held, since⟩ := k
    obtain rfl : held = false := hk
    rfl

/-- The program has just sent a line when the key of `a` is tapped: it is asked for after 40 ms, and
the next line does not have it. Had it been asked for after 90 ms, the line would have had it. -/
theorem tap_fate_lost :
    let s : State (Bool × Bool) := ⟨fun _ => (false, false), 0, true⟩
    (runFrom documented.step s [.press .right, .release .right, .turn 40000000 40000000,
        .turn 90000000 90000000]).2 = [("800000000000000 128 128 128 128" : Str)] ∧
      ∃ msg rest, (runFrom documented.step s [.press .right, .release .right,
        .turn 90000000 90000000]).2 = msg :: rest ∧ msg[6]? = some '1' := by
  intro s
  have hlost := (@tap_fate _ documented s .right sticky_documented .a rfl []
    [.turn 90000000 90000000] 40000000 40000000 rfl rfl).1 (by decide)
  have hkept := (@tap_fate _ documented s .right sticky_documented .a rfl [] [] 90000000 90000000
    rfl rfl).2 (by decide) (by decide)
  exact ⟨(congrArg Prod.snd hlost).trans (by decide +kernel), hkept⟩

end Keyboard

end SwitchController
