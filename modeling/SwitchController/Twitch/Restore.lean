import SwitchController.Twitch.Votes

/-!
# What `goto_game` leaves behind

`goto_game` disables the chat and the controllers while it steers the console, and enables them
again when it is done. It does not remember how it found them. With the icon found both are
enabled in the end, whoever had disabled them; after four attempts in vain only the controllers
are, and nobody can play by chat until a moderator enables it. The name of the game is set before
the search, and stays when the search fails.
-/

namespace SwitchController

namespace Twitch

/-- The icon is found at one of so many attempts and one more, from one of them on. -/
def foundFrom (find : ℕ → Option (ℕ × ℕ)) (left attempt : ℕ) : Bool :=
  (List.range' attempt (left + 1)).any fun i => (find i).isSome

/-- **The icon is found**, at one of the four attempts. -/
def Found (find : ℕ → Option (ℕ × ℕ)) : Prop := ∃ i < 4, find i ≠ none

variable {g : Game} {find : ℕ → Option (ℕ × ℕ)}

theorem foundFrom_iff : foundFrom find 3 0 = true ↔ Found find := by
  simp only [foundFrom, List.any_eq_true, List.mem_range'_1, Option.isSome_iff_ne_none, Found]
  constructor
  · rintro ⟨i, ⟨-, hi⟩, hfind⟩
    exact ⟨i, hi, hfind⟩
  · rintro ⟨i, hi, hfind⟩
    exact ⟨i, ⟨Nat.zero_le i, hi⟩, hfind⟩

theorem filterMap_switch?_pads (as : List PadAct) :
    (as.map Act.pad).filterMap Act.switch? = [] := by
  simp [List.filterMap_map, Function.comp_def]

theorem switch_startGame (g : Game) (x y : ℕ) :
    (startGame g x y).filterMap Act.switch? = [.controllerEnabled true, .chatEnabled true] := by
  rw [startGame, List.filterMap_append, filterMap_switch?_pads]
  rfl

/-- **The two ends of the search**: one enables the controllers and the chat, the other only the
controllers. -/
theorem switch_search (left attempt : ℕ) :
    (search g find left attempt).filterMap Act.switch? =
      .controllerEnabled true ::
        if foundFrom find left attempt then [.chatEnabled true] else [] := by
  induction left generalizing attempt with
  | zero =>
    rw [search]
    cases hfind : find attempt with
    | none =>
      have hnot : foundFrom find 0 attempt = false := by simp [foundFrom, hfind]
      rw [hnot]
      rfl
    | some pos =>
      have hfound : foundFrom find 0 attempt = true := by simp [foundFrom, hfind]
      rw [hfound]
      exact switch_startGame g pos.1 pos.2
  | succ left ih =>
    rw [search]
    cases hfind : find attempt with
    | none =>
      -- what is found is found later
      have hlater : foundFrom find (left + 1) attempt = foundFrom find left (attempt + 1) := by
        simp [foundFrom, List.range'_succ, hfind]
      rw [hlater, List.filterMap_append, filterMap_switch?_pads, List.nil_append, ih]
    | some pos =>
      have hfound : foundFrom find (left + 1) attempt = true := by
        simp [foundFrom, List.range'_succ, hfind]
      rw [hfound]
      exact switch_startGame g pos.1 pos.2

/-- **The switches in the end.** -/
theorem switches_gotoGame (c : Client) (g : Game) (find : ℕ → Option (ℕ × ℕ)) :
    (c.perform (gotoGame g find)).1.switches =
      { c.switches with
        currentGame := g.nameofgame
        controllerEnabled := true
        chatEnabled := foundFrom find 3 0 } := by
  have hacts : (gotoGame g find).filterMap Act.switch? =
      [.currentGame g.nameofgame, .controllerEnabled false, .chatEnabled false] ++
        (search g find 3 0).filterMap Act.switch? := by
    rw [gotoGame, List.filterMap_append, List.filterMap_append, filterMap_switch?_pads,
      List.append_nil]
    rfl
  rw [switches_perform, hacts, switch_search, List.foldl_append, List.foldl_cons]
  cases foundFrom find 3 0 <;> rfl

/-- **What is restored.** When `goto_game` returns, the chat and the controllers are as it found
them, and after a search in vain the name of the game is, too, just when the controllers were
enabled, the chat was enabled if and only if the icon is found, and the game searched in vain was
the current one before. -/
theorem restores_iff (c : Client) (g : Game) (find : ℕ → Option (ℕ × ℕ)) :
    let s := c.switches
    let s' := (c.perform (gotoGame g find)).1.switches
    (s'.chatEnabled = s.chatEnabled ∧ s'.controllerEnabled = s.controllerEnabled ∧
        (¬Found find → s'.currentGame = s.currentGame)) ↔
      s.controllerEnabled = true ∧ (s.chatEnabled = true ↔ Found find) ∧
        (¬Found find → s.currentGame = g.nameofgame) := by
  intro s s'
  have hs' : s' = { s with
      currentGame := g.nameofgame
      controllerEnabled := true
      chatEnabled := foundFrom find 3 0 } := switches_gotoGame c g find
  rw [hs']
  constructor
  · rintro ⟨hchat, hcontroller, hgame⟩
    refine ⟨hcontroller.symm, ?_, fun hnot => (hgame hnot).symm⟩
    rw [← hchat]
    exact foundFrom_iff
  · rintro ⟨hcontroller, hchat, hgame⟩
    refine ⟨?_, hcontroller.symm, fun hnot => (hgame hnot).symm⟩
    rw [Bool.eq_iff_iff, hchat]
    exact foundFrom_iff

/-- **A search in vain** leaves the chat disabled, with the name of a game that was not started; a
search that succeeds enables the chat a moderator had disabled. -/
theorem switches_of_search :
    let c := Client.init none none
    let c' := { c with switches := { c.switches with chatEnabled := false } }
    (c.perform (gotoGame botw fun _ => none)).1.switches =
        ⟨false, true, false, [], "The Legend of Zelda: Breath of the Wild"⟩ ∧
      (c'.perform (gotoGame botw fun _ => some (0, 0))).1.switches.chatEnabled = true := by
  decide +kernel

end Twitch

end SwitchController
