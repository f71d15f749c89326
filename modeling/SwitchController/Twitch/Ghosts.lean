import SwitchController.Lib.View
import SwitchController.Twitch.Run

/-!
# What only the log reads

Commands carry the number of the message they came with, presses their cause, and the client counts
its events. None of this is in the source: it is there so that statements about a run can tell one
command from another, and nothing the program does depends on it.

`bare` takes it off, of statements, of states and of what is observed. A run is the same without
(`SwitchController.Twitch.bare_step`), so two clients that differ in it alone transmit the same
lines, whatever happens (`SwitchController.Twitch.linesTo_bare`).
-/

namespace SwitchController

namespace Twitch

open EventMachine

/-! ### Without the marks -/

/-- A command without its number. -/
def Queued.bare (q : Queued) : Queued := ⟨q.cmd, 0⟩

/-- The queues without the numbers. -/
def Queue.bare (q : Queue) : Queue :=
  ⟨q.commandQueue.map Queued.bare, q.nextCommands.map Queued.bare⟩

/-- A statement on controllers without its cause, -/
def PadAct.bare : PadAct → PadAct
  | .press n btn _ => .press n btn .lockon
  | a => a

/-- and what is observed of it. -/
def PadObs.bare : PadObs → PadObs
  | .pressed n btn _ => .pressed n btn .lockon
  | o => o

/-- A statement on queues, -/
def QueueAct.bare : QueueAct → QueueAct
  | .insert q => .insert q.bare
  | a => a

/-- and what is observed of it. -/
def QueueObs.bare : QueueObs → QueueObs
  | .appended q => .appended q.bare
  | .executed q fresh => .executed q.bare fresh

/-- A statement without its marks. -/
def Act.bare : Act → Act
  | .pad a => .pad a.bare
  | .queue a => .queue a.bare
  | .submit cmds => .submit (cmds.map Queued.bare)
  | a => a

/-- An observation without its marks. -/
def Obs.bare : Obs → Obs
  | .pad o => .pad o.bare
  | .queue o => .queue o.bare
  | o => o

/-- **The client without its marks.** -/
def Client.bare (c : Client) : Client := { c with queue := c.queue.bare, clock := 0 }

@[simp] theorem Queued.bare_bare (q : Queued) : q.bare.bare = q.bare := rfl

@[simp] theorem Client.bare_bare (c : Client) : c.bare.bare = c.bare := by
  simp [Client.bare, Queue.bare, Function.comp_def]

/-! ### Statements -/

/-- A statement on controllers. -/
theorem bare_pads_exec (p : Pads) (a : PadAct) :
    (p.exec a).1 = (p.exec a.bare).1 ∧ (p.exec a).2.map PadObs.bare = (p.exec a.bare).2 := by
  cases a <;> exact ⟨rfl, rfl⟩

/-- A statement on queues. -/
theorem bare_queue_exec (q : Queue) (a : QueueAct) :
    (q.exec a).1.bare = (q.bare.exec a.bare).1 ∧
      (q.exec a).2.map QueueObs.bare = (q.bare.exec a.bare).2 := by
  obtain ⟨commandQueue, nextCommands⟩ := q
  cases a with
  | advance => cases commandQueue <;> simp [Queue.exec, Queue.bare, QueueAct.bare]
  | take fresh =>
    have hlast : (nextCommands.map Queued.bare).getLast? =
        nextCommands.getLast?.map Queued.bare := List.getLast?_map
    cases hx : nextCommands.getLast? with
    | none => simp [Queue.exec, Queue.bare, QueueAct.bare, hlast, hx]
    | some x =>
      simp [Queue.exec, Queue.bare, QueueAct.bare, QueueObs.bare, hlast, hx, List.map_dropLast]
  | insert x => exact ⟨rfl, rfl⟩

/-- **One statement.** -/
theorem bare_exec (c : Client) (a : Act) :
    (c.exec a).1.bare = (c.bare.exec a.bare).1 ∧
      (c.exec a).2.map Obs.bare = (c.bare.exec a.bare).2 := by
  cases a with
  | pad a =>
    obtain ⟨hpads, hlog⟩ := bare_pads_exec c.pads a
    refine ⟨congrArg (fun pads => { c.bare with pads := pads }) hpads, ?_⟩
    change ((c.pads.exec a).2.map Obs.pad).map Obs.bare = (c.pads.exec a.bare).2.map Obs.pad
    rw [← hlog, List.map_map, List.map_map]
    rfl
  | queue a =>
    obtain ⟨hqueue, hlog⟩ := bare_queue_exec c.queue a
    refine ⟨congrArg (fun queue => { c.bare with queue := queue }) hqueue, ?_⟩
    change ((c.queue.exec a).2.map Obs.queue).map Obs.bare =
      (c.queue.bare.exec a.bare).2.map Obs.queue
    rw [← hlog, List.map_map, List.map_map]
    rfl
  | submit cmds =>
    have hon : c.bare.switches.chatEnabled = c.switches.chatEnabled := rfl
    rw [Client.exec, Act.bare, Client.exec, hon]
    split
    · exact ⟨by simp [Client.bare, Queue.bare], by simp [Obs.bare, QueueObs.bare]⟩
    · exact ⟨rfl, rfl⟩
  | poll a => exact ⟨rfl, by simp [Client.exec, Act.bare, Client.bare, Obs.bare]⟩
  | _ => exact ⟨rfl, rfl⟩

/-- **A script.** -/
theorem bare_perform (c : Client) (acts : List Act) :
    (c.perform acts).1.bare = (c.bare.perform (acts.map Act.bare)).1 ∧
      (c.perform acts).2.map Obs.bare = (c.bare.perform (acts.map Act.bare)).2 := by
  rw [← List.filterMap_eq_map, ← List.filterMap_eq_map]
  refine runFrom_part Client.bare (some ∘ Act.bare) (some ∘ Obs.bare) (fun c a _ a' ha => ?_)
    (fun c a _ ha => absurd ha (Option.some_ne_none _)) c
  obtain rfl : a.bare = a' := Option.some.inj ha
  rw [List.filterMap_eq_map]
  exact bare_exec c a

/-! ### Handlers -/

section

variable (U : Unicode) (c : Client)

/-- What a message gives to the queue. -/
theorem bare_submitted (username : Str) (commands : List Str) :
    (submitted c username commands).map Queued.bare =
      (submitted c.bare username commands).map Queued.bare := by
  have hlist : c.bare.permissions.pluslist = c.permissions.pluslist := rfl
  rw [submitted, submitted, hlist]
  split
  · rw [List.map_map, List.map_map]
    rfl
  · rfl

theorem bare_handleChat (username message : Str) :
    (handleChat U c username message).map Act.bare =
      (handleChat U c.bare username message).map Act.bare := by
  have hacts : chatActs U c.bare username message = chatActs U c username message := by
    rw [chatActs, chatActs]
    rcases U.commands message with _ | ⟨cmd, _ | ⟨arg, _ | ⟨x, rest⟩⟩⟩ <;> rfl
  have hraises : (commandActs c.bare username (U.commands message)).raises =
      (commandActs c username (U.commands message)).raises := by
    rcases U.commands message with _ | ⟨cmd, _ | ⟨arg, _ | ⟨x, rest⟩⟩⟩ <;> rfl
  rw [handleChat_eq, handleChat_eq, hacts, hraises, List.map_append, List.map_append]
  split
  · rfl
  · exact congrArg (fun cmds => _ ++ [Act.submit cmds]) (bare_submitted c username _)

/-- A command that is executed. -/
theorem bare_executeActs (lockon : Bool) (q : Queued) :
    (executeActs U lockon q).map Act.bare = (executeActs U lockon q.bare).map Act.bare := by
  have hset : ∀ s : Setting, (s.act (.chat q.stamp)).bare = (s.act (.chat q.bare.stamp)).bare := by
    intro s
    cases s <;> rfl
  rw [executeActs, executeActs]
  simp only [List.map_append, List.map_flatMap, List.map_map, Function.comp_def, Act.bare, hset]
  rfl

theorem next?_bare (q : Queue) :
    q.bare.next? = q.next?.map fun x => (x.1.bare, x.2) := by
  obtain ⟨commandQueue, nextCommands⟩ := q
  cases commandQueue with
  | nil => simp [Queue.next?, Queue.bare, Function.comp_def]
  | cons x rest => rfl

theorem bare_decreaseQueue :
    (decreaseQueue U c).map Act.bare = (decreaseQueue U c.bare).map Act.bare := by
  have hempty : (c.bare.queue.commandQueue ≠ []) = (c.queue.commandQueue ≠ []) := by
    simp [Client.bare, Queue.bare]
  have hnext : c.bare.queue.next? = c.queue.next?.map fun x => (x.1.bare, x.2) :=
    next?_bare c.queue
  rw [decreaseQueue, decreaseQueue, hnext]
  simp only [hempty, List.map_flatten, List.map_cons, List.map_nil]
  cases c.queue.next? with
  | none => rfl
  | some x =>
    simp only [Option.map_some, List.map_cons, bare_executeActs U c.switches.lockon x.1]
    rfl

/-- The buttons of a remote controller. -/
theorem bare_pressButtons (n : Slot) (btns : Str) (l : List Btn) :
    (pressButtons U c n btns l).acts.map Act.bare =
        (pressButtons U c.bare n btns l).acts.map Act.bare ∧
      (pressButtons U c n btns l).raises = (pressButtons U c.bare n btns l).raises := by
  induction l with
  | nil => exact ⟨rfl, rfl⟩
  | cons btn l ih =>
    have hallows : allows U c.bare n btn = allows U c n btn := by
      cases btn <;> rfl
    rw [pressButtons, pressButtons, hallows]
    split
    · exact ⟨rfl, rfl⟩
    · rw [pure_andThen, pure_andThen, List.map_append, List.map_append, ih.1]
      refine ⟨congrArg (· ++ _) ?_, ih.2⟩
      split <;> rfl
    · exact ih

theorem bare_onControllerState (n : Slot) (state : Str) :
    (onControllerState U c n state).map Act.bare =
      (onControllerState U c.bare n state).map Act.bare := by
  have hswitches : c.bare.switches = c.switches := rfl
  rw [onControllerState, onControllerState, hswitches]
  split_ifs
  · rfl
  · rfl
  · rfl
  · rw [List.map_cons, List.map_cons]
    refine congrArg (_ :: ·) ?_
    split
    · rename_i btns lx ly rx ry _ _
      obtain ⟨hacts, hraises⟩ := bare_pressButtons U c n btns Btn.all
      simp only [Script.andThen, hraises, acts_pure]
      split_ifs <;> simp only [List.map_append, hacts]
    · rfl

/-- **No handler depends on the marks.** -/
theorem bare_script (e : Event) :
    (script U c e).map Act.bare = (script U c.bare e).map Act.bare := by
  cases e with
  | chat username message => exact bare_handleChat U c username message
  | tick => exact bare_decreaseQueue U c
  | state n state => exact bare_onControllerState U c n state
  | _ => rfl

/-- **One event** is the same without the marks. -/
theorem bare_step (e : Event) :
    (step U c e).1.bare = (step U c.bare e).1.bare ∧
      (step U c e).2.map Obs.bare = (step U c.bare e).2.map Obs.bare := by
  obtain ⟨hstate, hlog⟩ := bare_perform c (script U c e)
  obtain ⟨hstate', hlog'⟩ := bare_perform c.bare (script U c.bare e)
  rw [Client.bare_bare, ← bare_script U c e] at hstate' hlog'
  -- the number of events is one of the marks
  exact ⟨hstate.trans hstate'.symm, hlog.trans hlog'.symm⟩

end

/-- Lines have no marks. -/
theorem linesTo_map_bare (n : Slot) (log : List Obs) :
    linesTo n (log.map Obs.bare) = linesTo n log := by
  simp only [linesTo, List.filterMap_filterMap, List.filterMap_map]
  congr 1
  funext o
  rcases o with (_ | _ | _ | _) | _ | _ | _ <;> rfl

/-- **The lines of a run do not depend on the marks.** -/
theorem linesTo_bare (U : Unicode) (n : Slot) (c : Client) (es : List Event) :
    linesTo n (run U c.bare es).2 = linesTo n (run U c es).2 := by
  have hlog := (runFrom_view_all Client.bare (some ∘ Obs.bare) (G := fun _ => True)
    (fun c e _ => by simpa only [List.filterMap_eq_map] using bare_step U c e)
    c.bare_bare fun e (_ : e ∈ es) => trivial).2
  rw [List.filterMap_eq_map] at hlog
  rw [← linesTo_map_bare, run, hlog, linesTo_map_bare, run]

end Twitch

end SwitchController
