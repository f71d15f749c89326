import SwitchController.Twitch.Authority
import SwitchController.Twitch.Provenance

/-!
# What is relayed of a state

`on_controller_state` resets the controller of the slot, copies the fields of the text to it
one by one, and has `getOutput` write them down again. The text it transmits is the text it was
given, with the vertical axes turned round and with the buttons the player may not press let
go, and nothing of what was on the controller before is left in it
(`SwitchController.Twitch.relayed_exact`).

Who the player is, is looked up in `currentPlayers`, and a slot without an entry there has the
empty name. That is a name like any other: a moderator who says `!giveplus,` puts it on
`pluslist`, and from then on whoever is in a slot without a player may press `plus`
(`SwitchController.Twitch.unidentified_iff`).
-/

namespace SwitchController

namespace Twitch

open EventMachine

/-! ### States that are well formed -/

/-- The axes in the order of the line. -/
def Stick.all : List Stick := [.lx, .ly, .rx, .ry]

/-- **A state** as a remote controller sends it: a digit for the d-pad, a digit for each button,
and the four axes in decimal. -/
structure StateText where
  dpad : Fin 9
  pressed : Btn → Bool
  number : Stick → List (Fin 10)
  number_ne_nil : ∀ s, number s ≠ []
  number_le : ∀ s, decimalFrom 0 (number s) ≤ 255

namespace StateText

variable (t : StateText)

/-- The value of an axis. -/
def axis (s : Stick) : ℕ := decimalFrom 0 (t.number s)

/-- The first word. -/
def btns : Str := Nat.digitChar t.dpad :: Btn.all.map fun btn => pressedDigit (t.pressed btn)

/-- **The text.** -/
def text : Str := t.btns ++ (Stick.all.map fun s => digitText (t.number s)).flatMap (' ' :: ·)

/-- **What is relayed of it**, for a player who is a moderator or not, and has plus permission or
not. -/
def relayed (mod plus : Bool) : Str :=
  (Nat.digitChar t.dpad :: Btn.all.map fun btn => pressedDigit (match btn with
    | .capture => t.pressed .capture && mod
    | .plus => t.pressed .plus && plus
    | .home => t.pressed .home && mod
    | btn => t.pressed btn)) ++
  ([t.axis .lx, 255 - t.axis .ly, t.axis .rx, 255 - t.axis .ry].map natStr).flatMap (' ' :: ·)

end StateText

/-- The player of a slot as it is looked up: `currentPlayers[cNum].lower()`, and the empty name if
there is no such entry. -/
def Switches.player (U : Unicode) (s : Switches) (n : Slot) : Option Str :=
  match s.currentPlayers[n.cNum]? with
  | none => some []
  | some entry => entry.map U.lower

/-- `on_controller_state` does nothing: the controllers are disabled, or the game is for one
player and this is another. -/
def Switches.shut (s : Switches) (n : Slot) : Prop :=
  s.controllerEnabled = false ∨ 0 < n.cNum ∧ s.currentGame ∈ singlePlayerGames

section

variable (U : Unicode) {c : Client} {n : Slot}

/-! ### The text taken apart -/

theorem space_pressedDigit (p : Bool) : U.space (pressedDigit p) = false := by
  cases p
  · exact U.space_ascii '0' (by decide)
  · exact U.space_ascii '1' (by decide)

/-- **`split`** gives the five words. -/
theorem split_text (t : StateText) :
    U.split t.text = t.btns :: Stick.all.map fun s => digitText (t.number s) := by
  refine U.split_words (List.forall_mem_cons.mpr ⟨⟨List.cons_ne_nil _ _, ?_⟩, ?_⟩)
  · refine List.forall_mem_cons.mpr ⟨U.space_digitChar t.dpad.castSucc, ?_⟩
    exact List.forall_mem_map.mpr fun btn _ => space_pressedDigit U _
  · refine List.forall_mem_map.mpr fun s _ => ⟨?_, ?_⟩
    · exact fun h => t.number_ne_nil s (List.map_eq_nil_iff.mp h)
    · exact List.forall_mem_map.mpr fun d _ => U.space_digitChar d

theorem btns_index (t : StateText) (btn : Btn) :
    t.btns[btn.index]? = some (pressedDigit (t.pressed btn)) := by
  cases btn <;> rfl

/-- The buttons that are pressed are assigned, and no other. -/
theorem pressButtons_of_index {btns : Str} {pressed : Btn → Bool}
    (h : ∀ btn : Btn, btns[btn.index]? = some (pressedDigit (pressed btn))) (l : List Btn) :
    pressButtons U c n btns l = .pure ((l.filter pressed).map fun btn =>
      .pad (if allows U c n btn then .press n btn (.state c.clock) else .release n btn)) := by
  induction l with
  | nil => rfl
  | cons btn l ih =>
    rw [pressButtons, h btn, ih]
    cases hp : pressed btn with
    | false =>
      rw [List.filter_cons_of_neg (by simp [hp])]
      rfl
    | true =>
      rw [List.filter_cons_of_pos hp]
      rfl

/-- The assignments to the sticks, -/
def stickActs (n : Slot) (t : StateText) : List PadAct :=
  [.stick n .lx (t.axis .lx), .stick n .ly (255 - t.axis .ly), .stick n .rx (t.axis .rx),
    .stick n .ry (255 - t.axis .ry)]

theorem setSticks_text (t : StateText) :
    setSticks U n (digitText (t.number .lx)) (digitText (t.number .ly)) (digitText (t.number .rx))
      (digitText (t.number .ry)) = stickActs n t := by
  simp only [setSticks, U.int_digitText (t.number_ne_nil _)]
  rfl

theorem setDpad_text (t : StateText) :
    setDpad U n t.btns = .pure [.pad (.dpad n t.dpad.castSucc)] := by
  have hdigit : t.btns.head?.bind U.digit = some t.dpad.castSucc :=
    U.digit_digitChar t.dpad.castSucc
  rw [setDpad, hdigit]

/-- to the buttons, -/
def buttonActs (U : Unicode) (c : Client) (n : Slot) (t : StateText) : List PadAct :=
  (Btn.all.filter t.pressed).map fun btn =>
    if allows U c n btn then .press n btn (.state c.clock) else .release n btn

/-- and all of them. -/
def writes (U : Unicode) (c : Client) (n : Slot) (t : StateText) : List PadAct :=
  .reset n :: .dpad n t.dpad.castSucc :: (buttonActs U c n t ++ stickActs n t)

variable {U} in
/-- A gate that is not shut: the two tests of `on_controller_state`. -/
theorem gate_of_not_shut (hopen : ¬c.switches.shut n) :
    c.switches.controllerEnabled = true ∧
      ¬(n ≠ .one ∧ c.switches.currentGame ∈ singlePlayerGames) := by
  refine ⟨by simpa using fun h => hopen (Or.inl h), ?_⟩
  rintro ⟨hn, hsingle⟩
  refine hopen (Or.inr ⟨?_, hsingle⟩)
  cases n <;> first | exact absurd rfl hn | decide

/-- **What a state has `on_controller_state` do.** -/
theorem onControllerState_text {t : StateText} (hopen : ¬c.switches.shut n)
    (hne : t.text ≠ neutralState) :
    onControllerState U c n t.text = (writes U c n t ++ [PadAct.send n]).map .pad := by
  obtain ⟨hon, hgame⟩ := gate_of_not_shut hopen
  rw [onControllerState, hon, if_neg (by simp), if_neg hgame, if_neg hne, split_text]
  simp only [Stick.all, List.map_cons, List.map_nil, setDpad_text,
    pressButtons_of_index U (btns_index t), setSticks_text]
  simp [writes, buttonActs, sendAndReset, Function.comp_def]

/-! ### The controller it leaves, and the line -/

theorem slot_writes (t : StateText) :
    ∀ a ∈ writes U c n t, a.slot = n ∧ ∀ m, a ≠ .send m := by
  have hbuttons : ∀ a ∈ buttonActs U c n t, a.slot = n ∧ ∀ m, a ≠ .send m := by
    refine List.forall_mem_map.mpr fun btn _ => ?_
    split
    · exact ⟨rfl, by simp⟩
    · exact ⟨rfl, by simp⟩
  have hsticks : ∀ a ∈ stickActs n t, a.slot = n ∧ ∀ m, a ≠ .send m := by
    simp [stickActs, PadAct.slot]
  simp only [writes, List.forall_mem_cons, List.forall_mem_append]
  exact ⟨⟨rfl, by simp⟩, ⟨rfl, by simp⟩, hbuttons, hsticks⟩

/-- A button of the text is set to whether the player may press it. -/
theorem apply_button (btn : Btn) (k : Controller) :
    (if allows U c n btn then PadAct.press n btn (.state c.clock) else .release n btn).apply k =
      k.set btn (allows U c n btn) := by
  split_ifs with h
  · rw [h]
    rfl
  · rw [Bool.eq_false_iff.mpr h]
    rfl

theorem foldl_buttons (l : List Btn) (k : Controller) :
    (l.map fun btn => if allows U c n btn then PadAct.press n btn (.state c.clock)
        else .release n btn).foldl (fun c a => a.apply c) k =
      { k with pressed := fun btn => if btn ∈ l then allows U c n btn else k.pressed btn } := by
  simp only [List.foldl_map, apply_button]
  exact foldl_set l _ k

/-- **The controller a state leaves**, whatever it was before. -/
theorem foldl_writes (t : StateText) (k : Controller) :
    (writes U c n t).foldl (fun c a => a.apply c) k =
      { dpad := t.dpad.castSucc
        pressed := fun btn => t.pressed btn && allows U c n btn
        stick := fun
          | .lx => t.axis .lx
          | .ly => 255 - t.axis .ly
          | .rx => t.axis .rx
          | .ry => 255 - t.axis .ry } := by
  rw [writes, List.foldl_cons, List.foldl_cons, List.foldl_append, buttonActs, foldl_buttons]
  refine congrArg₂ (fun pressed stick => (⟨t.dpad.castSucc, pressed, stick⟩ : Controller))
    (funext fun btn => ?_) (funext fun s => ?_)
  · cases hp : t.pressed btn <;> simp [hp, Btn.mem_all, PadAct.apply, Controller.neutral]
  · cases s <;> rfl

theorem intStr_sub {v : ℕ} (h : v ≤ 255) : intStr (255 - (v : ℤ)) = natStr (255 - v) := by
  have hcast : (255 : ℤ) - v = ((255 - v : ℕ) : ℤ) := by omega
  rw [hcast]
  exact if_neg (by omega)

theorem intStr_natCast (v : ℕ) : intStr (v : ℤ) = natStr v := if_neg (by omega)

/-- The empty name has no other lower case. -/
theorem cPlayer_of_player {s : Switches} {p : Str} (hp : s.player U n = some p) :
    ∃ player, s.cPlayer n = some player ∧ U.lower player = p := by
  rw [Switches.player] at hp
  rw [Switches.cPlayer]
  cases hentry : s.currentPlayers[n.cNum]? with
  | none =>
    rw [hentry] at hp
    exact ⟨[], rfl, (U.lower_ascii [] (List.forall_mem_nil _)).trans (Option.some_inj.mp hp)⟩
  | some entry =>
    rw [hentry] at hp
    exact Option.map_eq_some_iff.mp hp

theorem playerIn_of_player {s : Switches} {p : Str} (hp : s.player U n = some p)
    (users : List Str) : s.playerIn U n users = decide (p ∈ users) := by
  obtain ⟨player, hplayer, rfl⟩ := cPlayer_of_player U hp
  rw [Switches.playerIn, hplayer]

/-- **`getOutput`** writes down what is relayed. -/
theorem getOutput_writes (t : StateText) {p : Str} (hp : c.switches.player U n = some p)
    (k : Controller) :
    ((writes U c n t).foldl (fun c a => a.apply c) k).getOutput =
      t.relayed (p ∈ modlist) (p ∈ c.permissions.pluslist) := by
  have hmod := playerIn_of_player U hp modlist
  have hplus := playerIn_of_player U hp c.permissions.pluslist
  rw [foldl_writes, Controller.getOutput, StateText.relayed, natStr_of_lt]
  simp [Btn.all, allows, hmod, hplus, intStr_natCast, intStr_sub (t.number_le _), StateText.axis]

theorem linesTo_state (U : Unicode) (c : Client) (m n : Slot) (state : Str) :
    linesTo m (step U c (.state n state)).2 =
      (runFrom Pads.exec c.pads ((onControllerState U c n state).filterMap Act.pad?)).2.filterMap
        (PadObs.line? m) :=
  linesTo_perform c _ m

/-- A state has lines transmitted to no other controller. -/
theorem linesTo_state_of_ne {m : Slot} (hm : m ≠ n) (state : Str) :
    linesTo m (step U c (.state n state)).2 = [] := by
  rw [linesTo_state]
  refine lines_runFrom ?_ c.pads
  rintro _ ha rfl
  have hmem := (mem_filterMap_of_isPartialInv isPartialInv_pad).mp ha
  obtain ⟨b, hb, hslot⟩ := slot_onControllerState U c n state _ hmem
  obtain rfl := Act.pad.inj hb
  exact hm hslot

variable {U} in
/-- Statements on one controller that send nothing, and a send after them. -/
theorem lines_concat_send {as : List PadAct} (h : ∀ a ∈ as, a.slot = n ∧ ∀ m, a ≠ .send m)
    (p : Pads) :
    (runFrom Pads.exec p (as ++ [.send n])).2.filterMap (PadObs.line? n) =
      [(as.foldl (fun c a => a.apply c) (p n)).getOutput] := by
  rw [runFrom_concat, List.filterMap_append, lines_runFrom fun a ha => (h a ha).2 n,
    List.nil_append, fst_runFrom_slot fun a ha => (h a ha).1]
  simp [Pads.exec]

/-- **A state is relayed.** -/
theorem linesTo_text {t : StateText} (hopen : ¬c.switches.shut n) (hne : t.text ≠ neutralState)
    {p : Str} (hp : c.switches.player U n = some p) :
    linesTo n (step U c (.state n t.text)).2 =
      [t.relayed (p ∈ modlist) (p ∈ c.permissions.pluslist)] := by
  have hpad : (onControllerState U c n t.text).filterMap Act.pad? =
      writes U c n t ++ [.send n] := by
    rw [onControllerState_text U hopen hne, filterMap_pad?_map]
  rw [linesTo_state, hpad, lines_concat_send (slot_writes U t), getOutput_writes U t hp]

theorem onControllerState_of_shut (h : c.switches.shut n) (state : Str) :
    onControllerState U c n state = [] := by
  rcases h with hoff | ⟨hn, hgame⟩
  · simp [onControllerState, hoff]
  · have hne : n ≠ .one := by
      rintro rfl
      exact absurd hn (by decide)
    simp [onControllerState, hne, hgame]

/-- A gate that is shut lets nothing through. -/
theorem step_of_shut (h : c.switches.shut n) (state : Str) :
    (step U c (.state n state)).1.pads = c.pads ∧
      ∀ m, linesTo m (step U c (.state n state)).2 = [] := by
  have hquiet : ∀ a ∈ script U c (.state n state), a.kind ≠ .pad := by
    rw [script, onControllerState_of_shut U h]
    exact List.forall_mem_nil _
  exact ⟨(pads_perform_quiet c hquiet).1, linesTo_perform_quiet c hquiet⟩

end

/-- **What is relayed of a state.** A state other than the neutral one does nothing while the
controllers are disabled, or in another slot than the first during a game for one player.
Otherwise it has one line transmitted, to the controller of its slot: the same d-pad and
buttons, but for `capture` and `home` unless the player is a moderator and `plus` unless the player
has plus permission, and the same axes, the vertical ones turned round. The controllers may be in
any state before. -/
theorem relayed_exact (U : Unicode) (c : Client) (n : Slot) {t : StateText}
    (hne : t.text ≠ neutralState) {p : Str} (hp : c.switches.player U n = some p) :
    (c.switches.shut n →
      (step U c (.state n t.text)).1.pads = c.pads ∧
        ∀ m, linesTo m (step U c (.state n t.text)).2 = []) ∧
    (¬c.switches.shut n →
      linesTo n (step U c (.state n t.text)).2 =
          [t.relayed (p ∈ modlist) (p ∈ c.permissions.pluslist)] ∧
        ∀ m ≠ n, linesTo m (step U c (.state n t.text)).2 = []) :=
  ⟨fun h => step_of_shut U h t.text,
    fun h => ⟨linesTo_text U h hne hp, fun _ hm => linesTo_state_of_ne U hm t.text⟩⟩

/-- `a` and `home`, with the left stick up. -/
def aAndHome : StateText where
  dpad := Fin.last 8
  pressed := fun btn => btn = .a || btn = .home
  number := fun
    | .ly => ("0" : Str).filterMap asciiDigit
    | _ => ("128" : Str).filterMap asciiDigit
  number_ne_nil := by rintro (- | - | - | -) <;> decide
  number_le := by rintro (- | - | - | -) <;> decide

/-- A player without a name may press `a`. -/
theorem relayed_exact_aAndHome :
    aAndHome.text = "800000100000001 128 0 128 128" ∧
      linesTo .one (step .ascii (Client.init none none) (.state .one aAndHome.text)).2 =
        ["800000100000000 128 255 128 127"] := by
  have hplayer : (Client.init none none).switches.player .ascii .one = some [] := rfl
  have hopen : ¬(Client.init none none).switches.shut .one := by
    simp [Switches.shut, Client.init, Slot.cNum]
  have hexact := relayed_exact .ascii (Client.init none none) .one (t := aAndHome) (by decide)
    hplayer
  exact ⟨by decide, (hexact.2 hopen).1⟩

/-! ### Players without a name -/

section

variable {U : Unicode} {c : Client} {n : Slot}

/-- A statement that leaves a button pressed presses it, or finds it pressed. -/
theorem pressed_exec {p : Pads} {a : PadAct} {btn : Btn}
    (h : ((p.exec a).1 n).pressed btn = true) :
    (p n).pressed btn = true ∨ ∃ cause, a = .press n btn cause := by
  rw [fst_exec] at h
  rcases eq_or_ne n a.slot with rfl | hn
  · rw [Function.update_self] at h
    cases a with
    | reset m => exact absurd h (by simp [PadAct.apply, Controller.neutral])
    | press m btn' cause =>
      rcases eq_or_ne btn btn' with rfl | hb
      · exact Or.inr ⟨cause, rfl⟩
      · exact Or.inl (by simpa [PadAct.apply, Controller.set, hb] using h)
    | release m btn' =>
      rcases eq_or_ne btn btn' with rfl | hb
      · exact absurd h (by simp [PadAct.apply, Controller.set])
      · exact Or.inl (by simpa [PadAct.apply, Controller.set, hb] using h)
    | _ => exact Or.inl h
  · rw [Function.update_of_ne hn] at h
    exact Or.inl h

/-- **A line shows what was pressed**, of a controller on which nothing else is. -/
theorem digit_of_presses {may : Btn → Prop} {as : List PadAct}
    (has : ∀ a ∈ as, ∀ btn cause, a = .press n btn cause → may btn) {p : Pads}
    (hp : ∀ btn, (p n).pressed btn = true → may btn) :
    ∀ msg ∈ (runFrom Pads.exec p as).2.filterMap (PadObs.line? n),
      ∀ btn : Btn, msg[btn.index]? = some '1' → may btn := by
  induction as generalizing p with
  | nil => exact List.forall_mem_nil _
  | cons a as ih =>
    obtain ⟨ha, has⟩ := List.forall_mem_cons.mp has
    rw [runFrom_cons, List.filterMap_append]
    refine List.forall_mem_append.mpr ⟨?_, ih has fun btn => ?_⟩
    · cases a with
      | send m =>
        intro msg hmsg btn hdigit
        obtain ⟨rfl, rfl⟩ : m = n ∧ (p m).getOutput = msg := by simpa [Pads.exec] using hmsg
        rw [getOutput_index, Option.some_inj, pressedDigit_eq_one] at hdigit
        exact hp btn hdigit
      | _ => exact List.forall_mem_nil _
    · intro hpressed
      rcases pressed_exec hpressed with hold | ⟨cause, hpress⟩
      · exact hp btn hold
      · exact ha btn cause hpress

theorem onControllerState_cases (U : Unicode) (c : Client) (n : Slot) (state : Str) :
    onControllerState U c n state = [] ∨
      ∃ acts, onControllerState U c n state = .pad (.reset n) :: acts := by
  rw [onControllerState]
  split_ifs
  · exact Or.inl rfl
  · exact Or.inl rfl
  · exact Or.inr ⟨_, rfl⟩
  · exact Or.inr ⟨_, rfl⟩

/-- **A line shows what the player may press**, and nothing more. -/
theorem allows_of_digit {state msg : Str} (hmsg : msg ∈ linesTo n (step U c (.state n state)).2)
    {btn : Btn} (hdigit : msg[btn.index]? = some '1') : allows U c n btn = true := by
  rw [linesTo_state] at hmsg
  rcases onControllerState_cases U c n state with hnil | ⟨acts, hacts⟩
  · rw [hnil] at hmsg
    exact absurd hmsg List.not_mem_nil
  · -- after the reset nothing is pressed but by the player
    have hpress : ∀ a ∈ acts.filterMap Act.pad?, ∀ btn cause, a = .press n btn cause →
        allows U c n btn = true := by
      rintro _ ha btn cause rfl
      have hmem := (mem_filterMap_of_isPartialInv isPartialInv_pad).mp ha
      exact (press_onControllerState _ (hacts ▸ List.mem_cons_of_mem _ hmem) rfl).2.2
    have hreset : (onControllerState U c n state).filterMap Act.pad? =
        .reset n :: acts.filterMap Act.pad? := by
      rw [hacts]
      rfl
    rw [hreset, runFrom_cons, List.filterMap_append] at hmsg
    refine digit_of_presses hpress ?_ msg (by simpa [Pads.exec] using hmsg) btn hdigit
    simp [Controller.neutral]

/-- A moderator gives plus permission to nobody: the name is left out. -/
def Event.givesNobody (U : Unicode) (e : Event) : Prop :=
  ∃ username message, e = .chat username message ∧ username ∈ modlist ∧
    U.commands message = [("!giveplus" : Str), []]

/-- **The empty name comes on `pluslist` in this way**, and in no other. -/
theorem empty_not_mem_pluslist_step {e : Event} (he : ¬e.givesNobody U)
    (h : [] ∉ c.permissions.pluslist) : [] ∉ (step U c e).1.permissions.pluslist := by
  by_cases hlist : ∃ username message cmd user, e = .chat username message ∧
      username ∈ modlist ∧ U.commands message = [cmd, user] ∧ cmd ∈ listCommands
  · obtain ⟨username, message, cmd, user, rfl, hmod, hcmd, hmem⟩ := hlist
    obtain ⟨hgive, hremove, hban, hunban⟩ := @lists_twoWords U c username message hmod user
    simp only [listCommands, List.mem_cons, List.not_mem_nil, or_false] at hmem
    rcases hmem with rfl | rfl | rfl | rfl
    · rw [(hgive hcmd).1, List.mem_append, List.mem_singleton]
      rintro (hold | rfl)
      · exact h hold
      · exact he ⟨username, message, rfl, hmod, hcmd⟩
    · rw [(hremove hcmd).1]
      exact fun hmem => h (List.mem_of_mem_erase hmem)
    · rwa [(hban hcmd).1]
    · rwa [(hunban hcmd).1]
  · obtain ⟨hplus, -⟩ := lists_step (U := U) (c := c) (e := e)
      fun username message cmd user hchat hmod hcmd hmem =>
        hlist ⟨username, message, cmd, user, hchat, hmod, hcmd, hmem⟩
    rwa [hplus]

theorem empty_not_mem_pluslist_run {es : List Event} (h : [] ∉ c.permissions.pluslist)
    (hes : ∀ e ∈ es, ¬e.givesNobody U) : [] ∉ (run U c es).1.permissions.pluslist := by
  induction es using List.reverseRecOn with
  | nil => exact h
  | append_singleton es e ih =>
    obtain ⟨hes, he⟩ := List.forall_mem_append.mp hes
    rw [run_concat]
    exact empty_not_mem_pluslist_step (he e List.mem_cons_self) (ih hes)

theorem allows_of_no_entry (h : c.switches.currentPlayers[n.cNum]? = none) :
    allows U c n .home = false ∧ allows U c n .capture = false ∧
      allows U c n .plus = decide ([] ∈ c.permissions.pluslist) := by
  have hplayer : c.switches.player U n = some [] := by rw [Switches.player, h]
  have hmod : allows U c n .home = false :=
    (playerIn_of_player U hplayer modlist).trans (by decide)
  exact ⟨hmod, hmod, playerIn_of_player U hplayer _⟩

end

/-- `plus`, and nothing else. -/
def plusAlone : StateText where
  dpad := Fin.last 8
  pressed := fun btn => btn = .plus
  number := fun _ => ("128" : Str).filterMap asciiDigit
  number_ne_nil := fun _ => by decide
  number_le := fun _ => by decide

/-- **What a player without a name may press.** After any run from an empty `pluslist`, a state in a
slot without a player has no line transmitted that presses `home` or `capture`. None presses `plus`
exactly when the gate is shut or the empty name is not on `pluslist`, and it is not as long as no
moderator gives plus permission to nobody. -/
theorem unidentified_iff (U : Unicode) {c₀ : Client} (hplus : c₀.permissions.pluslist = [])
    (es : List Event) {n : Slot}
    (hnone : (run U c₀ es).1.switches.currentPlayers[n.cNum]? = none) :
    let c := (run U c₀ es).1
    (∀ state m, ∀ msg ∈ linesTo m (step U c (.state n state)).2,
      msg[Btn.home.index]? ≠ some '1' ∧ msg[Btn.capture.index]? ≠ some '1') ∧
    ((∀ state m, ∀ msg ∈ linesTo m (step U c (.state n state)).2,
        msg[Btn.plus.index]? ≠ some '1') ↔
      c.switches.shut n ∨ [] ∉ c.permissions.pluslist) ∧
    ((∀ e ∈ es, ¬e.givesNobody U) → [] ∉ c.permissions.pluslist) := by
  intro c
  obtain ⟨hhome, hcapture, hallows⟩ := allows_of_no_entry (U := U) hnone
  have hdigit : ∀ btn, allows U c n btn = false → ∀ state m,
      ∀ msg ∈ linesTo m (step U c (.state n state)).2, msg[btn.index]? ≠ some '1' := by
    intro btn hbtn state m msg hmsg hone
    rcases eq_or_ne m n with rfl | hm
    · exact absurd (allows_of_digit hmsg hone) (by simp [hbtn])
    · rw [linesTo_state_of_ne U hm] at hmsg
      exact List.not_mem_nil hmsg
  refine ⟨fun state m msg hmsg => ⟨hdigit _ hhome state m msg hmsg,
    hdigit _ hcapture state m msg hmsg⟩, ⟨fun hall => ?_, ?_⟩, fun hes => ?_⟩
  · by_contra hcond
    obtain ⟨hopen, hmem⟩ := not_or.mp hcond
    have hplayer : c.switches.player U n = some [] := by rw [Switches.player, hnone]
    have hlines := linesTo_text U (t := plusAlone) hopen (by decide) hplayer
    refine hall plusAlone.text n _ (hlines ▸ List.mem_singleton_self _) ?_
    rw [decide_eq_true (not_not.mp hmem)]
    rfl
  · rintro (hshut | hnot) state m msg hmsg
    · rw [(step_of_shut U hshut state).2 m] at hmsg
      exact absurd hmsg List.not_mem_nil
    · exact hdigit _ (hallows.trans (decide_eq_false hnot)) state m msg hmsg
  · exact empty_not_mem_pluslist_run (hplus ▸ List.not_mem_nil) hes

/-- With plus permission given to somebody, it is refused to a player without a name. -/
theorem unidentified_somebody :
    let c := (run .ascii (Client.init none none) [.chat "alua2020" "!giveplus,viewer"]).1
    ("viewer" : Str) ∈ c.permissions.pluslist ∧
      ∀ state m, ∀ msg ∈ linesTo m (step .ascii c (.state .one state)).2,
        msg[Btn.plus.index]? ≠ some '1' := by
  intro c
  have hiff := @unidentified_iff .ascii (Client.init none none) rfl
    [.chat "alua2020" "!giveplus,viewer"] .one (by decide +kernel)
  refine ⟨by decide +kernel, hiff.2.1.mpr (Or.inr (hiff.2.2 ?_))⟩
  rintro e he ⟨username, message, rfl, -, hcmd⟩
  obtain ⟨rfl, rfl⟩ : username = ("alua2020" : Str) ∧ message = ("!giveplus,viewer" : Str) := by
    simpa using he
  exact absurd hcmd (by decide +kernel)

/-- **A player without a name presses `plus`**: a moderator has left out the name. -/
theorem plus_unidentified :
    let c := (run .ascii (Client.init none none) [.chat "alua2020" "!giveplus,"]).1
    c.switches.currentPlayers[Slot.one.cNum]? = none ∧
      linesTo .one (step .ascii c (.state .one "800000000000010 128 128 128 128")).2 =
        ["800000000000010 128 127 128 127"] := by
  decide +kernel

end Twitch

end SwitchController
