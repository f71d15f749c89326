import SwitchController.Twitch.Malformed

/-!
# The reader of recordings

`twitch-control-TAS-reader.py` sends the states of a text file to one controller. Its
`on_controller_state` was copied from `twitch-control.py`, without the gate, the permissions and
the shortcut for the neutral state, and without the `try` around the sticks: whatever goes wrong
ends the script.

Two of the names are from another `SwitchController`. The buttons of the sticks are assigned to
`lclick` and `rclick`, attributes that neither `reset` nor `getOutput` knows, so they are never
transmitted. That and the neutral state are all that keeps the two from sending the same lines
(`SwitchController.Tas.decoders_agree_iff`).
-/

namespace SwitchController

namespace Tas

open EventMachine

open Twitch

/-! ### The script -/

/-- An attribute that is assigned. -/
inductive Attr where
  /-- A button of the controller. -/
  | known (btn : Btn)
  | lclick
  | rclick
  deriving DecidableEq

/-- **The controller of the script**, with the attributes it has been given. -/
structure Reader where
  controller : Controller
  lclick : Bool
  rclick : Bool

/-- A new controller. -/
def Reader.init : Reader := ⟨.neutral, false, false⟩

/-- `controller.reset()`, which leaves the two attributes alone. -/
def Reader.reset (r : Reader) : Reader := { r with controller := .neutral }

/-- An attribute is set to `1`. -/
def Reader.set (r : Reader) : Attr → Reader
  | .known btn => { r with controller := r.controller.set btn true }
  | .lclick => { r with lclick := true }
  | .rclick => { r with rclick := true }

/-- The characters that are looked at, and what they are assigned to. -/
def attributes : List (ℕ × Attr) :=
  [(1, .lclick), (2, .known .l), (3, .known .zl), (4, .known .minus), (5, .known .capture),
    (6, .known .a), (7, .known .b), (8, .known .x), (9, .known .y), (10, .rclick), (11, .known .r),
    (12, .known .zr), (13, .known .plus), (14, .known .home)]

/-- **The buttons.** A character that is missing raises `IndexError`. -/
def Reader.press (btns : Str) : List (ℕ × Attr) → Reader → Option Reader
  | [], r => some r
  | (i, attr) :: rest, r => match btns[i]? with
      | none => none
      | some '1' => Reader.press btns rest (r.set attr)
      | some _ => Reader.press btns rest r

/-- `controller.dpad`. -/
def Reader.setDpad (r : Reader) (d : Fin 10) : Reader :=
  { r with controller := { r.controller with dpad := d } }

/-- `controller.LX` to `controller.RY`. -/
def Reader.setSticks (r : Reader) (lx ly rx ry : ℤ) : Reader :=
  { r with
    controller := { r.controller with
      stick := fun
        | .lx => lx
        | .ly => 255 - ly
        | .rx => rx
        | .ry => 255 - ry } }

/-- **`on_controller_state`** up to its send, where it does not raise. -/
def Reader.onControllerState (U : Unicode) (r : Reader) (args : Str) : Option Reader :=
  match U.split args with
  | btns :: lx :: ly :: rx :: ry :: _ => do
      let d ← btns.head?.bind U.digit
      let r ← Reader.press btns attributes (r.reset.setDpad d)
      some (r.setSticks (← U.int lx) (← U.int ly) (← U.int rx) (← U.int ry))
  | _ => none

/-- The script is in its loop, or an exception has ended it. -/
inductive Reading where
  | running (r : Reader)
  | ended

/-- **One line of the file**, with what is sent for it. -/
def Reading.exec (U : Unicode) : Reading → Str → Reading × List Str
  | .ended, _ => (.ended, [])
  | .running r, line => match r.onControllerState U line with
      | none => (.ended, [])
      | some r => (.running r, [r.controller.getOutput])

/-- **The script**, for the lines of its file. -/
def read (U : Unicode) (lines : List Str) : Reading × List Str :=
  runFrom (Reading.exec U) (.running .init) lines

/-! ### What is sent for a state -/

/-- Whether the state has the button an attribute stands for. -/
def Attr.pressedIn (t : StateText) : Attr → Bool
  | .known btn => t.pressed btn
  | .lclick => t.pressed .lstick
  | .rclick => t.pressed .rstick

theorem btns_attributes (t : StateText) : ∀ entry ∈ attributes,
    t.btns[entry.1]? = some (pressedDigit (entry.2.pressedIn t)) := by
  simp only [attributes, List.forall_mem_cons]
  refine ⟨rfl, rfl, rfl, rfl, rfl, rfl, rfl, rfl, rfl, rfl, rfl, rfl, rfl, rfl, ?_⟩
  exact List.forall_mem_nil _

/-- An attribute the state has is set, and of the buttons no other. -/
theorem controller_set (r : Reader) (attr : Attr) :
    (r.set attr).controller = { r.controller with
      pressed := fun btn => r.controller.pressed btn || attr = .known btn } := by
  cases attr with
  | known btn' =>
    refine congrArg (fun pressed => (⟨_, pressed, _⟩ : Controller)) (funext fun btn => ?_)
    rcases eq_or_ne btn btn' with rfl | hne
    · simp
    · simp [hne, hne.symm]
  | _ => simp [Reader.set]

/-- **The buttons that are pressed** are those the controller knows. -/
theorem press_text (t : StateText) {l : List (ℕ × Attr)}
    (hl : ∀ entry ∈ l, t.btns[entry.1]? = some (pressedDigit (entry.2.pressedIn t))) (r : Reader) :
    ∃ r', Reader.press t.btns l r = some r' ∧
      r'.controller = { r.controller with
        pressed := fun btn =>
          r.controller.pressed btn ||
            (t.pressed btn && l.any fun entry => entry.2 = .known btn) } := by
  induction l generalizing r with
  | nil => exact ⟨r, rfl, by simp⟩
  | cons entry l ih =>
    obtain ⟨i, attr⟩ := entry
    obtain ⟨hdigit, hl⟩ := List.forall_mem_cons.mp hl
    cases hattr : attr.pressedIn t with
    | false =>
      obtain ⟨r', hpress, hr'⟩ := ih hl r
      refine ⟨r', ?_, hr'.trans ?_⟩
      · rw [Reader.press, hdigit, hattr]
        exact hpress
      · refine congrArg (fun pressed => (⟨_, pressed, _⟩ : Controller)) (funext fun btn => ?_)
        rcases eq_or_ne attr (.known btn) with rfl | hne
        · have hpressed : t.pressed btn = false := hattr
          simp [hpressed]
        · simp [hne]
    | true =>
      obtain ⟨r', hpress, hr'⟩ := ih hl (r.set attr)
      refine ⟨r', ?_, hr'.trans ?_⟩
      · rw [Reader.press, hdigit, hattr]
        exact hpress
      · rw [controller_set]
        refine congrArg (fun pressed => (⟨_, pressed, _⟩ : Controller)) (funext fun btn => ?_)
        rcases eq_or_ne attr (.known btn) with rfl | hne
        · have hpressed : t.pressed btn = true := hattr
          simp [hpressed]
        · simp [hne]

/-- **What the controller is after a state**, whatever it was before. -/
def shownOf (t : StateText) : Controller where
  dpad := t.dpad.castSucc
  pressed := fun btn => t.pressed btn && (btn ≠ .lstick && btn ≠ .rstick)
  stick := fun
    | .lx => t.axis .lx
    | .ly => 255 - t.axis .ly
    | .rx => t.axis .rx
    | .ry => 255 - t.axis .ry

theorem onControllerState_text (U : Unicode) (r : Reader) (t : StateText) :
    ∃ r', r.onControllerState U t.text = some r' ∧ r'.controller = shownOf t := by
  have hdpad : t.btns.head?.bind U.digit = some t.dpad.castSucc :=
    U.digit_digitChar t.dpad.castSucc
  obtain ⟨r', hpress, hr'⟩ := press_text t (btns_attributes t) (r.reset.setDpad t.dpad.castSucc)
  refine ⟨r'.setSticks (t.axis .lx) (t.axis .ly) (t.axis .rx) (t.axis .ry), ?_, ?_⟩
  · rw [Reader.onControllerState, split_text]
    simp only [Stick.all, List.map_cons, List.map_nil, hdpad, Option.bind_eq_bind, Option.bind_some,
      hpress, U.int_digitText (t.number_ne_nil _)]
    rfl
  · rw [Reader.setSticks, hr', shownOf]
    refine congrArg (fun pressed => (⟨_, pressed, _⟩ : Controller)) (funext fun btn => ?_)
    cases btn <;> simp [attributes, Reader.setDpad, Reader.reset, Controller.neutral]

/-- **A state is sent**, after any others. -/
theorem exec_text (U : Unicode) (ts : List StateText) (t : StateText) :
    (Reading.exec U (read U (ts.map StateText.text)).1 t.text).2 = [(shownOf t).getOutput] := by
  -- no state ends the script
  have hrunning : ∃ r, (read U (ts.map StateText.text)).1 = .running r := by
    induction ts using List.reverseRecOn with
    | nil => exact ⟨.init, rfl⟩
    | append_singleton ts t ih =>
      obtain ⟨r, hr⟩ := ih
      obtain ⟨r', hr', -⟩ := onControllerState_text U r t
      refine ⟨r', ?_⟩
      rw [read] at hr
      rw [read, List.map_append, List.map_singleton, runFrom_concat, hr, Reading.exec, hr']
  obtain ⟨r, hr⟩ := hrunning
  obtain ⟨r', hr', hcontroller⟩ := onControllerState_text U r t
  rw [hr, Reading.exec, hr', ← hcontroller]

/-! ### The two decoders -/

/-- What is relayed for a player who may press everything. -/
theorem linesTo_of_allowed {U : Unicode} {c : Client} {n : Slot} (hopen : ¬c.switches.shut n)
    {p : Str} (hp : c.switches.player U n = some p) (hmod : p ∈ modlist)
    (hplus : p ∈ c.permissions.pluslist) {t : StateText} (hne : t.text ≠ neutralState) :
    linesTo n (step U c (.state n t.text)).2 =
      [({ shownOf t with pressed := t.pressed } : Controller).getOutput] := by
  have hallows : ∀ btn, allows U c n btn = true := by
    intro btn
    cases btn <;> simp [allows, playerIn_of_player U hp, hmod, hplus]
  have hpad : (onControllerState U c n t.text).filterMap Act.pad? =
      writes U c n t ++ [.send n] := by
    rw [Twitch.onControllerState_text U hopen hne, filterMap_pad?_map]
  rw [linesTo_state, hpad, lines_concat_send (slot_writes U t), foldl_writes]
  simp only [hallows, Bool.and_true]
  rfl

/-- The buttons of the sticks are all that is missing. -/
theorem getOutput_shownOf_iff (t : StateText) :
    (shownOf t).getOutput = ({ shownOf t with pressed := t.pressed } : Controller).getOutput ↔
      t.pressed .lstick = false ∧ t.pressed .rstick = false := by
  constructor
  · intro heq
    have hdigit : ∀ btn : Btn, (shownOf t).pressed btn = t.pressed btn := by
      intro btn
      have hindex := congrArg (·[btn.index]?) heq
      simp only [getOutput_index, Option.some_inj] at hindex
      rw [Bool.eq_iff_iff, ← pressedDigit_eq_one, hindex, pressedDigit_eq_one]
    exact ⟨(hdigit .lstick).symm.trans (by simp [shownOf]),
      (hdigit .rstick).symm.trans (by simp [shownOf])⟩
  · rintro ⟨hl, hr⟩
    refine congrArg (fun pressed => (⟨_, pressed, _⟩ : Controller).getOutput) (funext fun btn => ?_)
    cases btn <;> simp [hl, hr]

/-- The text tells the axes. -/
theorem axis_of_text_eq {t t' : StateText} (h : t.text = t'.text) (s : Stick) :
    t.axis s = t'.axis s := by
  have hwords := words_text .ascii t
  rw [h, words_text, Option.some_inj, Words.mk.injEq] at hwords
  have hint := Unicode.ascii.int_digitText (t.number_ne_nil s)
  rw [← congrFun hwords.2 s, Unicode.ascii.int_digitText (t'.number_ne_nil s)] at hint
  exact (Int.ofNat_inj.mp (Option.some_inj.mp hint)).symm

/-- For the neutral state the reader sends the vertical axes below the centre. -/
theorem getOutput_shownOf_neutral {t : StateText} (h : t.text = neutralState) :
    (shownOf t).getOutput ≠ neutralState := by
  have haxis : ∀ s, t.axis s = 128 := axis_of_text_eq (h.trans text_neutralText.symm)
  intro heq
  have haxes := congrArg axesOf heq
  rw [axesOf_getOutput] at haxes
  simp only [shownOf, haxis] at haxes
  exact absurd haxes (by decide)

/-- **The two decoders**: for every state and any states before it, the line sent by
`twitch-control-TAS-reader.py` is that sent for the first slot by `twitch-control.py`, whose player
may press everything, just when the state is not the neutral one and presses none of the
sticks. -/
theorem decoders_agree_iff (U : Unicode) (ts : List StateText) (t : StateText) {c : Client}
    (hon : c.switches.controllerEnabled = true) {p : Str} (hp : c.switches.player U .one = some p)
    (hmod : p ∈ modlist) (hplus : p ∈ c.permissions.pluslist) :
    ∃ msg msg', (Reading.exec U (read U (ts.map StateText.text)).1 t.text).2 = [msg] ∧
      linesTo .one (step U c (.state .one t.text)).2 = [msg'] ∧
      (msg = msg' ↔ t.text ≠ neutralState ∧ t.pressed .lstick = false ∧
        t.pressed .rstick = false) := by
  have hopen : ¬c.switches.shut .one := by
    rintro (hoff | ⟨hpos, -⟩)
    · exact absurd (hon.symm.trans hoff) (by decide)
    · exact absurd hpos (by decide)
  by_cases hne : t.text = neutralState
  · refine ⟨_, neutralState, exec_text U ts t, ?_, ?_⟩
    · rw [hne]
      exact lines_neutralState hopen
    · exact iff_of_false (getOutput_shownOf_neutral hne) fun h => h.1 hne
  · refine ⟨_, _, exec_text U ts t, linesTo_of_allowed hopen hp hmod hplus hne, ?_⟩
    rw [getOutput_shownOf_iff]
    exact (and_iff_right hne).symm

/-- A client with a moderator in the first slot, who has plus permission. -/
def moderated : Client :=
  { Client.init (some [("silvermagpi" : Str)]) none with
    switches := ⟨true, true, false, [some "SilverMagpi"], "none"⟩ }

/-- `a` and `home`, after the neutral state. -/
theorem decoders_agree_aAndHome :
    ∃ msg, (Reading.exec .ascii (read .ascii [neutralText.text]).1 aAndHome.text).2 = [msg] ∧
      linesTo .one (step .ascii moderated (.state .one aAndHome.text)).2 = [msg] := by
  have hp : moderated.switches.player .ascii .one = some ("silvermagpi" : Str) := by decide
  obtain ⟨msg, msg', hmsg, hmsg', hiff⟩ :=
    decoders_agree_iff .ascii [neutralText] aAndHome rfl hp (by decide) (by decide)
  obtain rfl : msg = msg' := hiff.mpr ⟨by decide, rfl, rfl⟩
  exact ⟨msg, hmsg, hmsg'⟩

/-- **The decoders disagree** on a state that presses the left stick, and on the neutral state. -/
theorem decoders_lstick :
    (read .ascii ["810000000000000 128 128 128 128", "800000000000000 128 128 128 128"]).2 =
        [("800000000000000 128 127 128 127" : Str), "800000000000000 128 127 128 127"] ∧
      linesTo .one (run .ascii moderated [.state .one "810000000000000 128 128 128 128",
          .state .one "800000000000000 128 128 128 128"]).2 =
        ["810000000000000 128 127 128 127", "800000000000000 128 128 128 128"] := by
  decide +kernel

end Tas

end SwitchController
