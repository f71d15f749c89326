import SwitchController.Twitch.Moves
import SwitchController.Twitch.Relay
import SwitchController.Twitch.Goto

/-!
# Runs

The program has three kinds of threads: the main loop, which handles chat messages and the
queue; the thread of the socket, which handles states of remote controllers and turn updates;
and the timers. An event is what one of them does at a time
(`SwitchController.Twitch.Event`), and a run is any sequence of events.

A handler is taken to run without interruption, with the exception of `goto_game`, which
sleeps between its sends.
-/

namespace SwitchController

namespace Twitch

open EventMachine

/-- **What can happen.** -/
inductive Event where
  /-- `handleChat(username, message)`. -/
  | chat (username message : Str)
  /-- `decreaseQueue()`, when more than 8.33 ms have passed. -/
  | tick
  /-- `on_controller_state`, of a slot. -/
  | state (n : Slot) (state : Str)
  /-- `on_turn_times_left`, with user names. -/
  | turns (players : List (Option Str))
  /-- A pending timer calls `end_goto_vote`. -/
  | endGotoVote (i : ℕ) (find : ℕ → Option (ℕ × ℕ))
  /-- A pending timer calls `reenable_goto`. -/
  | reenableGoto
  /-- A call of `goto_game` goes on to its next send. -/
  | gotoStep (i : ℕ)

variable (U : Unicode)

/-- What is done at an event. -/
def script (c : Client) : Event → List Act
  | .chat username message => handleChat U c username message
  | .tick => decreaseQueue U c
  | .state n state => onControllerState U c n state
  | .turns players => [.switch (.currentPlayers players)]
  | .endGotoVote i find => endGotoVote c i find
  | .reenableGoto => [.poll .reenableGoto]
  | .gotoStep i => gotoStep c i

/-- **One event.** -/
def step (c : Client) (e : Event) : Client × List Obs :=
  ({ (c.perform (script U c e)).1 with clock := c.clock + 1 }, (c.perform (script U c e)).2)

/-- **A run.** -/
def run (c : Client) (es : List Event) : Client × List Obs := runFrom (step U) c es

theorem run_concat (c : Client) (es : List Event) (e : Event) :
    run U c (es ++ [e]) =
      ((step U (run U c es).1 e).1, (run U c es).2 ++ (step U (run U c es).1 e).2) :=
  runFrom_concat (step U) c es e

/-- Only a tick executes commands. -/
theorem kind_script (c : Client) {e : Event} (he : e ≠ .tick) :
    ∀ a ∈ script U c e, a.kind ≠ .queue := by
  cases e with
  | chat username message => exact fun a ha => (kind_handleChat a ha).1
  | tick => exact absurd rfl he
  | state n state =>
    intro a ha
    rw [kind_onControllerState U c n state a ha]
    decide
  | turns players => simp [script]
  | endGotoVote i find => exact fun a ha => (kind_endGotoVote c i find a ha).1
  | reenableGoto => simp [script]
  | gotoStep i => exact fun a ha => (kind_gotoStep c i a ha).1

/-- A tick leaves the switches alone. -/
theorem switches_tick (U : Unicode) (c : Client) : (step U c .tick).1.switches = c.switches :=
  switches_perform_quiet c (kind_decreaseQueue_ne U c (by decide) (by decide))

/-- Only a message changes the permissions or adds to the queue. -/
theorem kind_script_of_not_chat (c : Client) {e : Event}
    (he : ∀ username message, e ≠ .chat username message) :
    ∀ a ∈ script U c e, a.kind ≠ .permission ∧ a.kind ≠ .submit := by
  cases e with
  | chat username message => exact absurd rfl (he username message)
  | tick =>
    intro a ha
    rcases kind_decreaseQueue U c a ha with h | h <;> rw [h] <;> decide
  | state n state =>
    intro a ha
    rw [kind_onControllerState U c n state a ha]
    decide
  | turns players => simp [script]
  | endGotoVote i find => exact fun a ha => (kind_endGotoVote c i find a ha).2
  | reenableGoto => simp [script]
  | gotoStep i =>
    intro a ha
    obtain ⟨-, hperm, hsubmit, -⟩ := kind_gotoStep c i a ha
    exact ⟨hperm, hsubmit⟩

end Twitch

end SwitchController
