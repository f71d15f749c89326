import SwitchController.Twitch.Chat

/-!
# Remote controllers

A remote player's controller sends its state as text, in the format of `getOutput`, and
`on_controller_state` copies it to the controller of the slot. The buttons `capture`, `plus`
and `home` are for some of the players only.

The text comes from outside and may be anything. The function assigns field by field as it
reads, and ends with an exception wherever the text does not have what it looks for, so the
controller is left with the fields set so far. A stick that is not a number, in contrast, only
ends the assignment of the sticks.
-/

namespace SwitchController

namespace Twitch

/-- `singlePlayerGames`. -/
def singlePlayerGames : List Str := ["The Legend of Zelda: Breath of the Wild"]

/-- The state of a controller that is let go. -/
def neutralState : Str := "800000000000000 128 128 128 128"

theorem getOutput_neutral : Controller.neutral.getOutput = neutralState := by decide

/-- **`cPlayer`**: the player of a slot, the empty name if there is no such entry, `none` if the
entry is no string. -/
def Switches.cPlayer (s : Switches) (n : Slot) : Option Str :=
  match s.currentPlayers[n.cNum]? with
  | none => some []
  | some player => player

/-- Whether the player of a slot is on a list, by the lower case of the name. -/
def Switches.playerIn (U : Unicode) (s : Switches) (n : Slot) (users : List Str) : Bool :=
  match s.cPlayer n with
  | none => false
  | some player => U.lower player ∈ users

/-- Who may press a button. -/
def allows (U : Unicode) (c : Client) (n : Slot) : Btn → Bool
  | .capture => c.switches.playerIn U n modlist
  | .plus => c.switches.playerIn U n c.permissions.pluslist
  | .home => c.switches.playerIn U n modlist
  | _ => true

/-- **The buttons**, from one of them on: a digit that is missing raises `IndexError`. -/
def pressButtons (U : Unicode) (c : Client) (n : Slot) (btns : Str) : List Btn → Script
  | [] => .pure []
  | btn :: rest => match btns[btn.index]? with
      | none => .raise []
      | some '1' =>
          .andThen (.pure [.pad (if allows U c n btn then .press n btn (.state c.clock)
            else .release n btn)]) (pressButtons U c n btns rest)
      | some _ => pressButtons U c n btns rest

/-- **The sticks**, up to the first that is not a number. The vertical axes are turned round. -/
def setSticks (U : Unicode) (n : Slot) (lx ly rx ry : Str) : List PadAct :=
  match U.int lx with
  | none => []
  | some x => .stick n .lx x :: match U.int ly with
      | none => []
      | some y => .stick n .ly (255 - y) :: match U.int rx with
          | none => []
          | some x' => .stick n .rx x' :: match U.int ry with
              | none => []
              | some y' => [.stick n .ry (255 - y')]

/-- The d-pad: `int` of a character that is no digit raises `ValueError`. -/
def setDpad (U : Unicode) (n : Slot) (btns : Str) : Script :=
  match btns.head?.bind U.digit with
  | none => .raise []
  | some d => .pure [.pad (.dpad n d)]

/-- **`on_controller_state`**, of a slot. -/
def onControllerState (U : Unicode) (c : Client) (n : Slot) (state : Str) : List Act :=
  if !c.switches.controllerEnabled then []
  else if n ≠ .one ∧ c.switches.currentGame ∈ singlePlayerGames then []
  else if state = neutralState then [.pad (.reset n), .pad (.reset n), .pad (.send n)]
  else
    .pad (.reset n) :: match U.split state with
      | btns :: lx :: ly :: rx :: ry :: _ =>
          (Script.andThen (setDpad U n btns) <| .andThen (pressButtons U c n btns Btn.all) <|
            .pure ((setSticks U n lx ly rx ry ++ sendAndReset false n).map .pad)).acts
      | _ => []

section

variable (U : Unicode) (c : Client) (n : Slot)

variable {U n} in
theorem stick_of_mem_setSticks {lx ly rx ry : Str} :
    ∀ a ∈ setSticks U n lx ly rx ry, ∃ s v, a = .stick n s v := by
  rw [setSticks]
  cases U.int lx with
  | none => exact List.forall_mem_nil _
  | some x =>
    refine List.forall_mem_cons.mpr ⟨⟨_, _, rfl⟩, ?_⟩
    cases U.int ly with
    | none => exact List.forall_mem_nil _
    | some y =>
      refine List.forall_mem_cons.mpr ⟨⟨_, _, rfl⟩, ?_⟩
      cases U.int rx with
      | none => exact List.forall_mem_nil _
      | some x' =>
        refine List.forall_mem_cons.mpr ⟨⟨_, _, rfl⟩, ?_⟩
        cases U.int ry with
        | none => exact List.forall_mem_nil _
        | some y' => exact List.forall_mem_singleton.mpr ⟨_, _, rfl⟩

/-- **A state event is about the controller of its slot**, and nothing else. -/
theorem slot_onControllerState (state : Str) :
    ∀ a ∈ onControllerState U c n state, ∃ b : PadAct, a = .pad b ∧ b.slot = n := by
  have hbuttons : ∀ btns l, ∀ a ∈ (pressButtons U c n btns l).acts,
      ∃ b : PadAct, a = .pad b ∧ b.slot = n := by
    intro btns l
    induction l with
    | nil => exact List.forall_mem_nil _
    | cons btn l ih =>
      rw [pressButtons]
      split
      · exact List.forall_mem_nil _
      · refine forall_andThen (List.forall_mem_singleton.mpr ⟨_, rfl, ?_⟩) ih
        split <;> rfl
      · exact ih
  rw [onControllerState]
  split_ifs
  · exact List.forall_mem_nil _
  · exact List.forall_mem_nil _
  · simp [PadAct.slot]
  · refine List.forall_mem_cons.mpr ⟨⟨_, rfl, rfl⟩, ?_⟩
    split
    · refine forall_andThen ?_ (forall_andThen (hbuttons _ _) ?_)
      · rw [setDpad]
        split
        · exact List.forall_mem_nil _
        · exact List.forall_mem_singleton.mpr ⟨_, rfl, rfl⟩
      · refine List.forall_mem_map.mpr fun b hb => ⟨b, rfl, ?_⟩
        rcases List.mem_append.mp hb with hstick | hsend
        · obtain ⟨s, v, rfl⟩ := stick_of_mem_setSticks b hstick
          rfl
        · obtain rfl : b = .send n := by simpa [sendAndReset] using hsend
          rfl
    · exact List.forall_mem_nil _

theorem kind_onControllerState (state : Str) :
    ∀ a ∈ onControllerState U c n state, a.kind = .pad := by
  intro a ha
  obtain ⟨b, rfl, -⟩ := slot_onControllerState U c n state a ha
  rfl

end

end Twitch

end SwitchController
