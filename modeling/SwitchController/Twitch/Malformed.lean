import SwitchController.Twitch.Relayed

/-!
# States that are not well formed

`on_controller_state` resets the controller before it reads the text, and assigns what it reads
field by field. A text that ends too early, or has no digit in front, raises an exception
somewhere on the way, and what was assigned until then stays
(`SwitchController.Twitch.leftover`): it is not transmitted now, but with whatever is sent next. A
text that is wrong in another way raises nothing, and a line is transmitted for it. So a text
that is not well formed has no effect only where the controller happens to be as the text would
leave it (`SwitchController.Twitch.malformed_iff`).

The neutral state is a case by itself. It is compared as a text, and the vertical axes of it are
not turned round, as they are for every other state: the centre is `128` with nothing pressed,
and `127` with a button pressed (`SwitchController.Twitch.axes_agree_iff`).
-/

namespace SwitchController

namespace Twitch

open EventMachine

/-! ### What is read -/

/-- The words a state is read from. -/
structure Words where
  btns : Str
  axis : Stick → Str

/-- The first five words of a text, if there are so many. -/
def Unicode.words (U : Unicode) (state : Str) : Option Words :=
  match U.split state with
  | btns :: lx :: ly :: rx :: ry :: _ => some ⟨btns, fun
      | .lx => lx
      | .ly => ly
      | .rx => rx
      | .ry => ry⟩
  | _ => none

/-- The digit of the d-pad. -/
def Words.dpad (U : Unicode) (w : Words) : Option (Fin 10) := w.btns.head?.bind U.digit

/-- **A state that is read to its end**: five words, of which the first starts with a digit and has
a character for each button. -/
def Complete (U : Unicode) (state : Str) : Prop :=
  ∃ w ∈ U.words state, 15 ≤ w.btns.length ∧ w.dpad U ≠ none

/-- **A state that is well formed**: the digit is that of a direction, and the other words are
numbers of one byte. -/
def WellFormed (U : Unicode) (state : Str) : Prop :=
  ∃ w ∈ U.words state, 15 ≤ w.btns.length ∧ (∃ d ∈ w.dpad U, d ≤ dpadCenter) ∧
    ∀ s ∈ Stick.all, ∃ v ∈ U.int (w.axis s), 0 ≤ v ∧ v ≤ 255

instance (U : Unicode) (state : Str) : Decidable (Complete U state) :=
  inferInstanceAs (Decidable (∃ _ ∈ _, _))

instance (U : Unicode) (state : Str) : Decidable (WellFormed U state) :=
  inferInstanceAs (Decidable (∃ _ ∈ _, _))

/-- **What a text leaves on the controller**, up to its sticks. -/
def leftover (U : Unicode) (c : Client) (n : Slot) (state : Str) : Controller :=
  match U.words state with
  | none => .neutral
  | some w => match w.dpad U with
      | none => .neutral
      | some d =>
          { Controller.neutral with
            dpad := d
            pressed := fun btn => w.btns[btn.index]? = some '1' && allows U c n btn }

section

variable {U : Unicode} {c : Client} {n : Slot} {state : Str}

/-! ### The buttons, up to the one that is missing -/

/-- A button is missing if and only if an exception is raised for it. -/
theorem raises_pressButtons (U : Unicode) (c : Client) (n : Slot) (btns : Str) (l : List Btn) :
    (pressButtons U c n btns l).raises = true ↔ ∃ btn ∈ l, btns[btn.index]? = none := by
  induction l with
  | nil => simp [pressButtons, Script.pure]
  | cons btn l ih =>
    rw [pressButtons, List.exists_mem_cons_iff, ← ih]
    cases hdigit : btns[btn.index]? with
    | none => simp [Script.raise]
    | some digit =>
      split
      · exact absurd ‹_› (by simp)
      · simp
      · simp

theorem raises_pressButtons_all (U : Unicode) (c : Client) (n : Slot) (btns : Str) :
    (pressButtons U c n btns Btn.all).raises = true ↔ btns.length < 15 := by
  rw [raises_pressButtons]
  constructor
  · rintro ⟨btn, -, hnone⟩
    have hle := List.getElem?_eq_none_iff.mp hnone
    have hindex : btn.index < 15 := by cases btn <;> decide
    omega
  · intro hlt
    refine ⟨.home, by decide, List.getElem?_eq_none_iff.mpr ?_⟩
    exact Nat.lt_succ_iff.mp hlt

/-- **The buttons that are assigned**, of some in the order of the line. -/
theorem foldl_pressButtons (btns : Str) {l : List Btn}
    (hl : l.Pairwise fun btn btn' => btn.index < btn'.index) (k : Controller) :
    ((pressButtons U c n btns l).acts.filterMap Act.pad?).foldl (fun c a => a.apply c) k =
      { k with
        pressed := fun btn =>
          if btn ∈ l ∧ btns[btn.index]? = some '1' then allows U c n btn else k.pressed btn } := by
  induction l generalizing k with
  | nil => simp [pressButtons]
  | cons btn l ih =>
    obtain ⟨hbtn, hl⟩ := List.pairwise_cons.mp hl
    cases hdigit : btns[btn.index]? with
    | none =>
      -- what is missing here is missing from here on
      have hmissing : ∀ btn' ∈ btn :: l, btns[btn'.index]? = none := by
        have hle := List.getElem?_eq_none_iff.mp hdigit
        refine List.forall_mem_cons.mpr ⟨hdigit, fun btn' hmem => ?_⟩
        exact List.getElem?_eq_none_iff.mpr (hle.trans (hbtn btn' hmem).le)
      have hnot : ∀ btn', ¬(btn' ∈ btn :: l ∧ btns[btn'.index]? = some '1') := by
        rintro btn' ⟨hmem, hone⟩
        exact absurd ((hmissing btn' hmem).symm.trans hone) (by simp)
      rw [pressButtons, hdigit]
      simp only [hnot, if_false, acts_raise, List.filterMap_nil, List.foldl_nil]
    | some digit =>
      by_cases hone : digit = '1'
      · subst hone
        rw [pressButtons, hdigit]
        simp only [pure_andThen, List.cons_append, List.nil_append, List.filterMap_cons, Act.pad?,
          List.foldl_cons, apply_button]
        rw [ih hl]
        refine congrArg (fun pressed => (⟨k.dpad, pressed, k.stick⟩ : Controller))
          (funext fun btn' => ?_)
        rcases eq_or_ne btn' btn with rfl | hne
        · simp [Controller.set, hdigit]
        · simp [Controller.set, hne]
      · have hskip : pressButtons U c n btns (btn :: l) = pressButtons U c n btns l := by
          simp [pressButtons, hdigit]
        rw [hskip, ih hl]
        refine congrArg (fun pressed => (⟨k.dpad, pressed, k.stick⟩ : Controller))
          (funext fun btn' => ?_)
        rcases eq_or_ne btn' btn with rfl | hne
        · simp [hdigit, hone]
        · simp [hne]

/-! ### The fields, up to the sticks -/

/-- The assignments to the d-pad and to the buttons. -/
def fieldActs (U : Unicode) (c : Client) (n : Slot) (btns : Str) : Script :=
  (setDpad U n btns).andThen (pressButtons U c n btns Btn.all)

theorem andThen_assoc (s t u : Script) : (s.andThen t).andThen u = s.andThen (t.andThen u) := by
  simp only [Script.andThen]
  split_ifs <;> simp_all

/-- **A state that is not the neutral one**, where the gate is open. -/
theorem onControllerState_eq (hopen : ¬c.switches.shut n) (hne : state ≠ neutralState) :
    onControllerState U c n state = .pad (.reset n) :: match U.words state with
      | none => []
      | some w => ((fieldActs U c n w.btns).andThen <| .pure ((setSticks U n (w.axis .lx)
          (w.axis .ly) (w.axis .rx) (w.axis .ry) ++ [PadAct.send n]).map .pad)).acts := by
  obtain ⟨hon, hgame⟩ := gate_of_not_shut hopen
  rw [onControllerState, hon, if_neg (by simp), if_neg hgame, if_neg hne, Unicode.words]
  rcases U.split state with - | ⟨btns, - | ⟨lx, - | ⟨ly, - | ⟨rx, - | ⟨ry, rest⟩⟩⟩⟩⟩
  case cons.cons.cons.cons.cons =>
    simp only [fieldActs, andThen_assoc]
    rfl
  all_goals rfl

/-- An exception is raised by what is not complete. -/
theorem raises_fieldActs (btns : Str) :
    (fieldActs U c n btns).raises = true ↔ btns.head?.bind U.digit = none ∨ btns.length < 15 := by
  rw [fieldActs, setDpad]
  cases btns.head?.bind U.digit with
  | none => simp [Script.raise, Script.andThen]
  | some d => simpa using raises_pressButtons_all U c n btns

/-- Nothing is sent before the sticks. -/
theorem slot_fieldActs (U : Unicode) (c : Client) (n : Slot) (btns : Str) :
    ∀ a ∈ (fieldActs U c n btns).acts.filterMap Act.pad?, a.slot = n ∧ ∀ m, a ≠ .send m := by
  suffices ∀ a ∈ (fieldActs U c n btns).acts, ∀ b, a.pad? = some b →
      b.slot = n ∧ ∀ m, b ≠ .send m by
    intro b hb
    obtain ⟨a, ha, hpad⟩ := List.mem_filterMap.mp hb
    exact this a ha b hpad
  refine forall_andThen ?_ ?_
  · rw [setDpad]
    split
    · exact List.forall_mem_nil _
    · simp [PadAct.slot]
  · induction Btn.all with
    | nil => exact List.forall_mem_nil _
    | cons btn l ih =>
      rw [pressButtons]
      split
      · exact List.forall_mem_nil _
      · refine forall_andThen ?_ ih
        split <;> simp [PadAct.slot]
      · exact ih

/-- The d-pad and the buttons as they are left. -/
theorem foldl_fieldActs (U : Unicode) (c : Client) (n : Slot) (btns : Str) :
    ((fieldActs U c n btns).acts.filterMap Act.pad?).foldl (fun c a => a.apply c) .neutral =
      match btns.head?.bind U.digit with
      | none => Controller.neutral
      | some d =>
          { Controller.neutral with
            dpad := d
            pressed := fun btn => btns[btn.index]? = some '1' && allows U c n btn } := by
  rw [fieldActs, setDpad]
  cases btns.head?.bind U.digit with
  | none => rfl
  | some d =>
    simp only [pure_andThen, List.cons_append, List.nil_append, List.filterMap_cons, Act.pad?,
      List.foldl_cons]
    rw [foldl_pressButtons btns (by decide)]
    refine congrArg (fun pressed => (⟨d, pressed, fun _ => stickCenter⟩ : Controller))
      (funext fun btn => ?_)
    by_cases hone : btns[btn.index]? = some '1'
    · simp [Btn.mem_all, hone]
    · simp [hone, PadAct.apply, Controller.neutral]

/-! ### States that are not complete -/

theorem pads_state (U : Unicode) (c : Client) (n : Slot) (state : Str) :
    (step U c (.state n state)).1.pads = Function.update c.pads n
      (((onControllerState U c n state).filterMap Act.pad?).foldl (fun c a => a.apply c)
        (c.pads n)) := by
  refine (pads_perform c _).1.trans (fst_runFrom_slot (fun a ha => ?_) c.pads)
  have hmem := (mem_filterMap_of_isPartialInv isPartialInv_pad).mp ha
  obtain ⟨b, hb, hslot⟩ := slot_onControllerState U c n state _ hmem
  obtain rfl := Act.pad.inj hb
  exact hslot

theorem leftover_of_words {w : Words} (hw : U.words state = some w) :
    leftover U c n state =
      ((fieldActs U c n w.btns).acts.filterMap Act.pad?).foldl (fun c a => a.apply c) .neutral := by
  rw [foldl_fieldActs, leftover, hw]
  rfl

theorem raises_of_not_complete (h : ¬Complete U state) {w : Words} (hw : U.words state = some w) :
    (fieldActs U c n w.btns).raises = true := by
  by_contra hraises
  rw [raises_fieldActs, not_or, not_lt] at hraises
  exact h ⟨w, hw, hraises.2, hraises.1⟩

/-- **A state that is not complete** is not transmitted, and leaves what was read of it. -/
theorem step_of_not_complete (hopen : ¬c.switches.shut n) (hne : state ≠ neutralState)
    (h : ¬Complete U state) :
    (step U c (.state n state)).1.pads = Function.update c.pads n (leftover U c n state) ∧
      ∀ m, linesTo m (step U c (.state n state)).2 = [] := by
  obtain ⟨front, hacts, hfront, hleft⟩ : ∃ front : List PadAct,
      (onControllerState U c n state).filterMap Act.pad? = .reset n :: front ∧
        (∀ a ∈ front, a.slot = n ∧ ∀ m, a ≠ .send m) ∧
          front.foldl (fun c a => a.apply c) .neutral = leftover U c n state := by
    rw [onControllerState_eq hopen hne]
    cases hw : U.words state with
    | none => exact ⟨[], rfl, List.forall_mem_nil _, by rw [leftover, hw]; rfl⟩
    | some w =>
      refine ⟨_, ?_, slot_fieldActs U c n w.btns, (leftover_of_words hw).symm⟩
      simp [Script.andThen, raises_of_not_complete h hw]
  constructor
  · rw [pads_state, hacts, List.foldl_cons]
    exact congrArg _ hleft
  · intro m
    rw [linesTo_state, hacts]
    refine lines_runFrom (List.forall_mem_cons.mpr ⟨by simp, fun a ha => (hfront a ha).2 m⟩) c.pads

/-- **A state that is complete** is transmitted, whatever its sticks are. -/
theorem lines_of_complete (hopen : ¬c.switches.shut n) (hne : state ≠ neutralState) {w : Words}
    (hw : U.words state = some w) (hlen : 15 ≤ w.btns.length) (hdpad : w.dpad U ≠ none) :
    linesTo n (step U c (.state n state)).2 =
      [((setSticks U n (w.axis .lx) (w.axis .ly) (w.axis .rx) (w.axis .ry)).foldl
        (fun c a => a.apply c) (leftover U c n state)).getOutput] := by
  have hraises : (fieldActs U c n w.btns).raises = false := by
    rw [← Bool.not_eq_true, raises_fieldActs, not_or, not_lt]
    exact ⟨hdpad, hlen⟩
  have hsticks : ∀ a ∈ setSticks U n (w.axis .lx) (w.axis .ly) (w.axis .rx) (w.axis .ry),
      a.slot = n ∧ ∀ m, a ≠ .send m := by
    intro a ha
    obtain ⟨s, v, rfl⟩ := stick_of_mem_setSticks a ha
    exact ⟨rfl, by simp⟩
  have hacts : (onControllerState U c n state).filterMap Act.pad? =
      (.reset n :: (fieldActs U c n w.btns).acts.filterMap Act.pad? ++
        setSticks U n (w.axis .lx) (w.axis .ly) (w.axis .rx) (w.axis .ry)) ++ [.send n] := by
    rw [onControllerState_eq hopen hne, hw]
    simp [Script.andThen, hraises, Function.comp_def]
  rw [linesTo_state, hacts, lines_concat_send, List.foldl_append, List.foldl_cons,
    leftover_of_words hw]
  · rfl
  · refine List.forall_mem_append.mpr ⟨List.forall_mem_cons.mpr ⟨⟨rfl, by simp⟩, ?_⟩, hsticks⟩
    exact slot_fieldActs U c n w.btns

/-! ### The states that are well formed -/

theorem words_text (U : Unicode) (t : StateText) :
    U.words t.text = some ⟨t.btns, fun s => digitText (t.number s)⟩ := by
  rw [Unicode.words, split_text]
  refine congrArg (fun axis => some (Words.mk t.btns axis)) (funext fun s => ?_)
  cases s <;> rfl

/-- **The states of remote controllers are well formed.** -/
theorem wellFormed_text (U : Unicode) (t : StateText) : WellFormed U t.text := by
  have hdpad : (⟨t.btns, fun s => digitText (t.number s)⟩ : Words).dpad U = some t.dpad.castSucc :=
    U.digit_digitChar t.dpad.castSucc
  refine ⟨_, words_text U t, Nat.le_of_eq rfl, ⟨_, hdpad, t.dpad.le_last⟩, fun s _ => ?_⟩
  have hle := t.number_le s
  exact ⟨_, U.int_digitText (t.number_ne_nil s), by omega, by omega⟩

/-- Nothing pressed. -/
def neutralText : StateText := { plusAlone with pressed := fun _ => false }

theorem text_neutralText : neutralText.text = neutralState := by decide

theorem wellFormed_neutralState (U : Unicode) : WellFormed U neutralState :=
  text_neutralText ▸ wellFormed_text U neutralText

end

/-- **What a text that is not well formed does.** Nothing is transmitted and no controller changes
just when the gate is shut, or the text is not read to its end and the controller is as the text
leaves it. -/
theorem malformed_iff (U : Unicode) (c : Client) (n : Slot) {state : Str}
    (h : ¬WellFormed U state) :
    ((step U c (.state n state)).1.pads = c.pads ∧
        ∀ m, linesTo m (step U c (.state n state)).2 = []) ↔
      c.switches.shut n ∨ (¬Complete U state ∧ c.pads n = leftover U c n state) := by
  by_cases hshut : c.switches.shut n
  · exact iff_of_true (step_of_shut U hshut state) (Or.inl hshut)
  have hne : state ≠ neutralState := by
    rintro rfl
    exact h (wellFormed_neutralState U)
  by_cases hcomplete : Complete U state
  · -- it is transmitted
    obtain ⟨w, hw, hlen, hdpad⟩ := hcomplete
    have hlines := lines_of_complete hshut hne hw hlen hdpad
    refine iff_of_false (fun hnone => ?_) ?_
    · exact absurd (hlines.symm.trans (hnone.2 n)) (List.cons_ne_nil _ _)
    · rintro (hshut' | hnot)
      · exact hshut hshut'
      · exact hnot.1 ⟨w, hw, hlen, hdpad⟩
  · obtain ⟨hpads, hlines⟩ := step_of_not_complete hshut hne hcomplete
    rw [hpads, Function.update_eq_self_iff]
    constructor
    · exact fun hsame => Or.inr ⟨hcomplete, hsame.1.symm⟩
    · rintro (hshut' | hsame)
      · exact absurd hshut' hshut
      · exact ⟨hsame.2.symm, hlines⟩

/-- A text that ends too early leaves its `a` pressed, and does nothing when it comes again. With
the remote controllers disabled, a text that would be transmitted does nothing either. -/
theorem malformed_again :
    let early : Str := "8000001 128 128 128 128"
    let wrong : Str := "900000000000000 0 0 0 256"
    let c := (step .ascii (Client.init none none) (.state .one early)).1
    let shut := { c with switches := { c.switches with controllerEnabled := false } }
    (c.pads .one).pressed .a = true ∧
      ((step .ascii c (.state .one early)).1.pads = c.pads ∧
        ∀ m, linesTo m (step .ascii c (.state .one early)).2 = []) ∧
      (step .ascii shut (.state .one wrong)).1.pads = shut.pads ∧
        ∀ m, linesTo m (step .ascii shut (.state .one wrong)).2 = [] := by
  intro early wrong c shut
  have hearly : ¬WellFormed .ascii early := by decide
  have hwrong : ¬WellFormed .ascii wrong := by decide
  have hcomplete : ¬Complete .ascii early := by decide
  have hleft : c.pads .one = leftover .ascii c .one early := by
    have hopen : ¬(Client.init none none).switches.shut .one := by
      change ¬(_ ∨ _)
      decide
    obtain ⟨hpads, -⟩ := step_of_not_complete hopen (by decide : early ≠ neutralState) hcomplete
    exact (congrFun hpads .one).trans (Function.update_self ..)
  refine ⟨by decide +kernel, ?_, ?_⟩
  · exact (malformed_iff .ascii c .one hearly).mpr (Or.inr ⟨hcomplete, hleft⟩)
  · exact (malformed_iff .ascii shut .one hwrong).mpr (Or.inl (Or.inl rfl))

/-- **A text that ends too early is transmitted later**: its `a`, with the `b` of a chat command. A
text with a d-pad above `8` is transmitted at once. -/
theorem malformed_a :
    ¬WellFormed .ascii "8000001 128 128 128 128" ∧
      linesTo .one (run .ascii (Client.init none none)
        [.state .one "8000001 128 128 128 128", .chat "viewer" "b", .tick]).2 =
          ["800000110000000 128 128 128 128", "800000000000000 128 128 128 128"] ∧
      ¬WellFormed .ascii "900000000000000 0 0 0 256" ∧
      linesTo .one (run .ascii (Client.init none none)
        [.state .one "900000000000000 0 0 0 256"]).2 = ["900000000000000 0 255 0 -1"] := by
  decide +kernel

/-! ### The neutral state -/

/-- The axes of a line, as they are written. -/
def axesOf (line : Str) : Str := line.dropWhile (· ≠ ' ')

theorem axesOf_getOutput (k : Controller) :
    axesOf k.getOutput = [Stick.lx, .ly, .rx, .ry].flatMap fun s => ' ' :: intStr (k.stick s) := by
  have hfield : ∀ ch ∈ natStr k.dpad ++ Btn.all.map fun btn => pressedDigit (k.pressed btn),
      ch ≠ ' ' := by
    refine List.forall_mem_append.mpr ⟨?_, List.forall_mem_map.mpr fun btn _ => ?_⟩
    · rw [natStr_of_lt]
      refine List.forall_mem_singleton.mpr fun hblank => ?_
      obtain ⟨-, -, hspace, -⟩ := digitChar_ascii k.dpad
      rw [hblank] at hspace
      exact absurd hspace (by decide)
    · rw [pressedDigit]
      split <;> decide
  rw [axesOf, Controller.getOutput, List.dropWhile_append_of_pos (by simpa using hfield)]
  rfl

section

variable {U : Unicode} {c : Client} {n : Slot} {state : Str}

/-- **The axes of a state that is well formed**, other than the neutral one: the vertical ones are
turned round. -/
theorem axes_of_wellFormed (hopen : ¬c.switches.shut n) (hne : state ≠ neutralState)
    (h : WellFormed U state) {w : Words} (hw : U.words state = some w) {v : Stick → ℤ}
    (hv : ∀ s, U.int (w.axis s) = some (v s)) :
    ∃ msg, linesTo n (step U c (.state n state)).2 = [msg] ∧
      axesOf msg = [v .lx, 255 - v .ly, v .rx, 255 - v .ry].flatMap fun x => ' ' :: intStr x := by
  obtain ⟨w', hw', hlen, ⟨d, hd, -⟩, -⟩ := h
  obtain rfl : w = w' := Option.some_inj.mp (hw.symm.trans hw')
  refine ⟨_, lines_of_complete hopen hne hw hlen (by simp [Option.mem_def.mp hd]), ?_⟩
  rw [axesOf_getOutput]
  simp [setSticks, hv, PadAct.apply]

/-- The values of the axes. -/
theorem exists_axes (h : WellFormed U state) {w : Words} (hw : U.words state = some w) :
    ∃ v : Stick → ℤ, ∀ s, U.int (w.axis s) = some (v s) := by
  obtain ⟨w', hw', -, -, haxes⟩ := h
  obtain rfl : w = w' := Option.some_inj.mp (hw.symm.trans hw')
  have hall : ∀ s, s ∈ Stick.all := by
    intro s
    cases s <;> decide
  choose v hv _ using fun s => haxes s (hall s)
  exact ⟨v, hv⟩

/-- The neutral state is transmitted as it is. -/
theorem lines_neutralState (hopen : ¬c.switches.shut n) :
    linesTo n (step U c (.state n neutralState)).2 = [neutralState] := by
  obtain ⟨hon, hgame⟩ := gate_of_not_shut hopen
  have hacts : onControllerState U c n neutralState =
      ([PadAct.reset n, .reset n] ++ [PadAct.send n]).map .pad := by
    rw [onControllerState, hon, if_neg (by simp), if_neg hgame, if_pos rfl]
    rfl
  rw [linesTo_state, hacts, filterMap_pad?_map, lines_concat_send (by simp [PadAct.slot])]
  exact congrArg (fun msg => [msg]) getOutput_neutral

/-- The axes of it are centred, and those of any other state with the same values are not. -/
theorem axes_ne_neutralState (hopen : ¬c.switches.shut n) (h : WellFormed U state)
    (hne : state ≠ neutralState) {w w' : Words} (hw : U.words state = some w)
    (hw' : U.words neutralState = some w') (hsame : ∀ s, U.int (w.axis s) = U.int (w'.axis s)) :
    ∃ msg, linesTo n (step U c (.state n state)).2 = [msg] ∧ axesOf msg ≠ axesOf neutralState := by
  have hv : ∀ s, U.int (w.axis s) = some ((fun _ => 128 : Stick → ℤ) s) := by
    rw [← text_neutralText, words_text] at hw'
    obtain rfl := Option.some_inj.mp hw'
    exact fun s => (hsame s).trans (U.int_digitText (neutralText.number_ne_nil s))
  obtain ⟨msg, hmsg, haxes⟩ := axes_of_wellFormed hopen hne h hw hv
  refine ⟨msg, hmsg, ?_⟩
  rw [haxes]
  decide

end

/-- **Buttons move the sticks, from or to the neutral state.** Two well-formed states with the same
axes, each relayed in the same slot by any client with its gate open, are transmitted with the same
axes just when both of them are the neutral state or none is. -/
theorem axes_agree_iff (U : Unicode) {c c' : Client} {n : Slot} (hopen : ¬c.switches.shut n)
    (hopen' : ¬c'.switches.shut n) {state state' : Str} (h : WellFormed U state)
    (h' : WellFormed U state') {w w' : Words} (hw : U.words state = some w)
    (hw' : U.words state' = some w') (hsame : ∀ s, U.int (w.axis s) = U.int (w'.axis s)) :
    ∃ msg msg', linesTo n (step U c (.state n state)).2 = [msg] ∧
      linesTo n (step U c' (.state n state')).2 = [msg'] ∧
      (axesOf msg = axesOf msg' ↔ (state = neutralState ↔ state' = neutralState)) := by
  by_cases hne : state = neutralState
  · subst hne
    by_cases hne' : state' = neutralState
    · subst hne'
      exact ⟨_, _, lines_neutralState hopen, lines_neutralState hopen', by simp⟩
    · obtain ⟨msg', hmsg', hdiff⟩ :=
        axes_ne_neutralState hopen' h' hne' hw' hw fun s => (hsame s).symm
      exact ⟨_, msg', lines_neutralState hopen, hmsg',
        iff_of_false hdiff.symm (by simpa using hne')⟩
  · by_cases hne' : state' = neutralState
    · subst hne'
      obtain ⟨msg, hmsg, hdiff⟩ := axes_ne_neutralState hopen h hne hw hw' hsame
      exact ⟨msg, _, hmsg, lines_neutralState hopen', iff_of_false hdiff (by simpa using hne)⟩
    · obtain ⟨v, hv⟩ := exists_axes h hw
      obtain ⟨msg, hmsg, haxes⟩ := axes_of_wellFormed hopen hne h hw hv
      obtain ⟨msg', hmsg', haxes'⟩ := axes_of_wellFormed hopen' hne' h' hw'
        fun s => (hsame s).symm.trans (hv s)
      exact ⟨msg, msg', hmsg, hmsg', iff_of_true (haxes.trans haxes'.symm) (by simp [hne, hne'])⟩

/-- `a` and `plus`, with the sticks at the centre. -/
theorem axes_agree_aAndPlus :
    ∃ msg msg',
      linesTo .two (step .ascii (Client.init none none)
          (.state .two "800000100000000 128 128 128 128")).2 = [msg] ∧
        linesTo .two (step .ascii (Client.init none none)
          (.state .two "800000000000010 128 128 128 128")).2 = [msg'] ∧
        axesOf msg = axesOf msg' := by
  have hopen : ¬(Client.init none none).switches.shut .two := by
    simp [Switches.shut, Client.init, singlePlayerGames, Slot.cNum, -String.reduceToList]
    decide
  have ha : WellFormed .ascii "800000100000000 128 128 128 128" := by decide
  have hplus : WellFormed .ascii "800000000000010 128 128 128 128" := by decide
  obtain ⟨msg, msg', hmsg, hmsg', hiff⟩ := axes_agree_iff .ascii hopen hopen ha hplus rfl rfl (by
    intro s
    cases s <;> rfl)
  exact ⟨msg, msg', hmsg, hmsg', hiff.mpr (by decide)⟩

/-- **The neutral state and one with `a`**: the sticks of the second are below the centre. -/
theorem axes_neutral_ne_a :
    let c := Client.init none none
    linesTo .one (step .ascii c (.state .one "800000000000000 128 128 128 128")).2 =
        ["800000000000000 128 128 128 128"] ∧
      linesTo .one (step .ascii c (.state .one "800000100000000 128 128 128 128")).2 =
        ["800000100000000 128 127 128 127"] := by
  decide +kernel

end Twitch

end SwitchController
