import SwitchController.Twitch.Relayed

/-!
# Combinations of buttons

A command with a `+` in it is a combination. Its parts are stripped of blanks, the letters `s` and
`h` are taken out of each, wherever they stand, for they tell how long it is held, and what is left
is looked up. The table has the names of the directions as that leaves them, `rigt` for `right`,
but it has `minus` in full. So of the nine buttons a combination can name, eight are pressed, and
`minus` never is (`SwitchController.Twitch.combo_iff`).
-/

namespace SwitchController

namespace Twitch

open EventMachine

/-! ### Parts -/

/-- **A part of a combination**: a button of the table, with modifiers before it and blanks
around. -/
structure ComboPart (U : Unicode) where
  name : Str
  btn : Btn
  mem_combos : (name, .press btn) ∈ combos
  modifiers : Str
  eq_of_mem : ∀ ch ∈ modifiers, ch = 's' ∨ ch = 'h'
  before : Str
  after : Str
  space_of_mem : ∀ ch ∈ before ++ after, U.space ch = true

/-- The part as it is written, -/
def ComboPart.text {U : Unicode} (p : ComboPart U) : Str :=
  p.before ++ (p.modifiers ++ p.name) ++ p.after

/-- and the parts together. -/
def combo {U : Unicode} (parts : List (ComboPart U)) : Str :=
  ['+'].intercalate (parts.map ComboPart.text)

/-- A controller that is neutral, but for these buttons. -/
def holding (btns : List Btn) : Controller :=
  { Controller.neutral with pressed := fun btn => decide (btn ∈ btns) }

/-! ### The table -/

/-- The names of the buttons as texts. -/
theorem combos_text : ∀ entry ∈ combos, ∀ btn ∈ Btn.all, entry.2 = .press btn →
    '+' ∉ entry.1 ∧ entry.1.all (fun ch => ch.toNat < 128 && !asciiSpace ch) = true := by
  decide +kernel

/-- **The table in its own terms**: with `s` and `h` taken out of it, each name but one is still
there. -/
theorem combos_remove : ∀ entry ∈ combos,
    (combos.filter (·.1 = remove 'h' (remove 's' entry.1))).map Prod.snd =
      if entry.2 = .press .minus then [] else [entry.2] := by
  decide

theorem plus_not_mem_names : ∀ br ∈ moves, ∀ name ∈ br.names, '+' ∉ name := by
  decide +kernel

/-- No other test holds of a combination. -/
theorem branches_of_plus {cmd : Str} (h : '+' ∈ cmd) : branches cmd = [] := by
  refine List.filter_eq_nil_iff.mpr fun br hbr hname => ?_
  exact plus_not_mem_names br hbr cmd (of_decide_eq_true hname) h

theorem isIn_plus {cmd : Str} (h : '+' ∈ cmd) : isIn "+" cmd = true := by
  obtain ⟨s, t, rfl⟩ := List.append_of_mem h
  exact decide_eq_true ⟨s, t, by simp⟩

namespace ComboPart

variable {U : Unicode} (p : ComboPart U)

theorem forall_name : '+' ∉ p.name ∧ ∀ ch ∈ p.name, U.space ch = false := by
  obtain ⟨hplus, hall⟩ := combos_text _ p.mem_combos p.btn p.btn.mem_all rfl
  refine ⟨hplus, fun ch hch => ?_⟩
  have hascii : ch.toNat < 128 ∧ asciiSpace ch = false := by
    simpa using List.all_eq_true.mp hall ch hch
  rw [U.space_ascii ch hascii.1, hascii.2]

theorem space_modifiers : ∀ ch ∈ p.modifiers, U.space ch = false := by
  intro ch hch
  rcases p.eq_of_mem ch hch with rfl | rfl <;> exact U.space_ascii _ (by decide)

theorem plus_not_mem_text : '+' ∉ p.text := by
  have hspace : U.space '+' = false := U.space_ascii '+' (by decide)
  have hblank : '+' ∉ p.before ++ p.after := fun h => by simpa [hspace] using p.space_of_mem _ h
  have hmodifiers : '+' ∉ p.modifiers := fun h => by simpa using p.eq_of_mem _ h
  rw [List.mem_append, not_or] at hblank
  simp [text, hblank, hmodifiers, p.forall_name.1]

/-- **What is left of a part**, stripped and without modifiers, is what is left of its name. -/
theorem remove_strip :
    remove 'h' (remove 's' (U.strip p.text)) = remove 'h' (remove 's' p.name) := by
  have hbefore : ∀ ch ∈ p.before, U.space ch = true := fun ch hch =>
    p.space_of_mem ch (List.mem_append_left _ hch)
  have hafter : ∀ ch ∈ p.after, U.space ch = true := fun ch hch =>
    p.space_of_mem ch (List.mem_append_right _ hch)
  have hcore : ∀ ch ∈ p.modifiers ++ p.name, U.space ch = false :=
    List.forall_mem_append.mpr ⟨p.space_modifiers, p.forall_name.2⟩
  have hmodifiers : remove 'h' (remove 's' p.modifiers) = [] := by
    rw [remove, remove, List.filter_filter]
    refine List.filter_eq_nil_iff.mpr fun ch hch => ?_
    rcases p.eq_of_mem ch hch with rfl | rfl <;> decide
  rw [text, U.strip_append hbefore hafter, U.strip_of_forall hcore]
  simp only [remove, List.filter_append] at hmodifiers ⊢
  rw [hmodifiers, List.nil_append]

/-- What is looked up for it. -/
theorem settings_eq :
    (combos.filter (·.1 = remove 'h' (remove 's' (U.strip p.text)))).map Prod.snd =
      if p.btn = .minus then [] else [.press p.btn] := by
  rw [p.remove_strip, combos_remove _ p.mem_combos]
  simp

end ComboPart

/-! ### Execution -/

section

variable {U : Unicode} {parts : List (ComboPart U)}

theorem plus_mem_combo (h : 2 ≤ parts.length) : '+' ∈ combo parts := by
  match parts, h with
  | first :: next :: parts, _ =>
    rw [combo, List.map_cons, List.map_cons, List.intercalate_cons_cons]
    simp

/-- **The buttons a combination presses.** -/
theorem comboSettings_combo (h : 2 ≤ parts.length) :
    comboSettings U (combo parts) =
      ((parts.map ComboPart.btn).filter (· ≠ .minus)).map .press := by
  have hne : parts.map ComboPart.text ≠ [] := by
    rintro hnil
    rw [List.map_eq_nil_iff.mp hnil] at h
    exact absurd h (by simp)
  have hsplit : (combo parts).splitOn '+' = parts.map ComboPart.text :=
    List.splitOn_intercalate '+' (List.forall_mem_map.mpr fun p _ => p.plus_not_mem_text) hne
  rw [comboSettings, if_pos (isIn_plus (plus_mem_combo h)), Unicode.splitStrip, hsplit,
    List.map_map, List.flatMap_map]
  -- part by part
  clear h hne hsplit
  induction parts with
  | nil => rfl
  | cons p parts ih =>
    rw [List.flatMap_cons, ih, Function.comp_apply, p.settings_eq, List.map_cons, List.filter_cons]
    by_cases hp : p.btn = .minus <;> simp [hp]

theorem resetAfter_combo (lockon : Bool) (h : 2 ≤ parts.length) :
    resetAfter lockon (combo parts) = true :=
  if_pos (isIn_plus (plus_mem_combo h))

theorem foldl_press (btns : List Btn) (cause : Cause) :
    (btns.map fun btn => PadAct.press .one btn cause).foldl (fun c a => a.apply c) .neutral =
      holding btns := by
  rw [List.foldl_map]
  refine (foldl_set btns (fun _ => true) .neutral).trans ?_
  simp [holding, Controller.neutral]

/-- Statements on one controller that send nothing, and `send_and_reset` after them. -/
theorem lines_sendAndReset {n : Slot} {as : List PadAct}
    (h : ∀ a ∈ as, a.slot = n ∧ ∀ m, a ≠ .send m) (p : Pads) :
    (runFrom Pads.exec p (as ++ sendAndReset true n)).2.filterMap (PadObs.line? n) =
      [(as.foldl (fun c a => a.apply c) (p n)).getOutput, neutralState] := by
  have hsplit : as ++ sendAndReset true n = (as ++ [.send n]) ++ [.reset n, .send n] := by
    simp [sendAndReset]
  rw [hsplit, runFrom_append, List.filterMap_append, lines_concat_send h]
  simp [runFrom_cons, Pads.exec, getOutput_neutral, List.filterMap_cons]

/-- **The lines of a tick** that executes a combination. -/
theorem linesTo_combo {c : Client} {stamp : ℕ} {fresh : Bool} (h : 2 ≤ parts.length)
    (hnext : c.queue.next? = some (⟨combo parts, stamp⟩, fresh))
    (hneutral : c.pads .one = .neutral) (hlock : c.switches.lockon = false) :
    linesTo .one (step U c .tick).2 =
      [(holding ((parts.map ComboPart.btn).filter (· ≠ .minus))).getOutput, neutralState] := by
  have hpad : (script U c .tick).filterMap Act.pad? =
      (((parts.map ComboPart.btn).filter (· ≠ .minus)).map fun btn =>
        PadAct.press .one btn (.chat stamp)) ++ sendAndReset true .one := by
    have hmove : (ifThen (c.queue.commandQueue ≠ []) [Act.queue .advance]).filterMap Act.pad? =
        [] := by
      rw [ifThen]
      split <;> rfl
    simp only [script, decreaseQueue, hnext, executeActs, branches_of_plus (plus_mem_combo h),
      comboSettings_combo h, resetAfter_combo _ h, ifThen_neg (ne_true_of_eq_false hlock),
      List.flatten_cons, List.filterMap_append, hmove]
    simp [List.filterMap_cons, List.filterMap_map, Function.comp_def, Setting.act]
  refine (linesTo_perform c _ .one).trans ?_
  rw [hpad, lines_sendAndReset, hneutral, foldl_press]
  exact List.forall_mem_map.mpr fun btn _ => ⟨rfl, by simp⟩

end

/-- **Combinations.** A combination of two parts or more, executed with the first controller
neutral and lock-on off, is sent as a line with just the buttons that it names, and the neutral
line after it, unless it names `minus`. -/
theorem combo_iff (U : Unicode) (c : Client) {parts : List (ComboPart U)} {stamp : ℕ} {fresh : Bool}
    (hlen : 2 ≤ parts.length) (hnext : c.queue.next? = some (⟨combo parts, stamp⟩, fresh))
    (hneutral : c.pads .one = .neutral) (hlock : c.switches.lockon = false) :
    linesTo .one (step U c .tick).2 =
        [(holding (parts.map ComboPart.btn)).getOutput, neutralState] ↔
      ∀ p ∈ parts, p.btn ≠ .minus := by
  rw [linesTo_combo hlen hnext hneutral hlock]
  constructor
  · intro hlines p hp hminus
    have hindex := congrArg (·[Btn.minus.index]?) (List.cons.inj hlines).1
    simp only [getOutput_index] at hindex
    have hnone : ∀ p ∈ parts, p.btn ≠ .minus := by simpa [holding, pressedDigit] using hindex
    exact hnone p hp hminus
  · intro hminus
    rw [List.filter_eq_self.mpr]
    simpa using hminus

/-- A combination of two buttons, one of them held. -/
theorem combo_a_hb :
    let c := { Client.init none none with queue := ⟨[⟨"a + hb", 0⟩], []⟩ }
    linesTo .one (step .ascii c .tick).2 =
      [("800000110000000 128 128 128 128" : Str), neutralState] := by
  intro c
  have hcombo := @combo_iff .ascii c
    [⟨"a", .a, by decide, [], List.forall_mem_nil _, [], " ", List.all_eq_true.mp (by decide)⟩,
      ⟨"b", .b, by decide, "h", by simp, " ", [], List.all_eq_true.mp (by decide)⟩] 0 true
    (by decide) rfl rfl rfl
  exact (hcombo.mpr (by simp)).trans (by decide)

/-- **A combination with `minus`**: only the other button is pressed. -/
theorem combo_a_minus :
    let c := { Client.init none none with queue := ⟨[⟨"a+minus", 0⟩], []⟩ }
    linesTo .one (step .ascii c .tick).2 =
      [("800000100000000 128 128 128 128" : Str), neutralState] := by
  decide +kernel

end Twitch

end SwitchController
