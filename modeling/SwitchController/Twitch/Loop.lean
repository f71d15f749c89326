import SwitchController.Twitch.Acceptance
import SwitchController.Twitch.Authority
import SwitchController.Twitch.Drain
import SwitchController.Twitch.Irc

/-!
# The main loop

`Client.loop` does three things in turn. It announces the lists of users to the server, if that
is some time ago; it reads what the chat has sent and handles it; and it executes a command, if
the last one is more than 8.33 ms ago. The other threads do as they like in between.

So a run of the loop is a sequence of such parts and of events of other threads
(`SwitchController.Twitch.LoopEvent`), with readings of the clock and the chunks `recv` gives for
what comes from outside. It is a run of the program
(`SwitchController.Twitch.exists_run_mainLoop`) in which the messages are those of the chunks, and
the ticks keep their distance:

* at most one command is executed in 8.33 ms, however fast the loop is
  (`SwitchController.Twitch.executed_rate`);
* if the lines of the chat arrive as they should, the words of the messages get to the queue and
  out of it in the order they were said, and none is lost or executed twice
  (`SwitchController.Twitch.said_executed`).

Readings of the clock are in nanoseconds. The order of the three parts does not matter to these
results, so it is not asked for.
-/

namespace SwitchController

namespace Twitch

open EventMachine

/-! ### The loop -/

/-- What the other threads do: the main thread handles messages and executes commands. -/
def Event.fromOthers : Event → Bool
  | .chat _ _ | .tick => false
  | _ => true

/-- **The parts of `Client.loop`**, and what comes in between. -/
inductive LoopEvent where
  /-- The announcements, with the readings of the clock for `self.botend` and `self.botstart`,
  `self.controllerEnd` and `self.controllerStart`. -/
  | announce (botend botstart controllerEnd controllerStart : ℕ)
  /-- `stayConnected`, with what `recv` gives, and `handleChat`. -/
  | receive (chunk : ByteArray)
  /-- `decreaseQueue`, with the readings for `self.end` and `self.start`. -/
  | decrease (finish start : ℕ)
  /-- What another thread does. -/
  | other (e : Event) (he : e.fromOthers = true)

/-- **The program and its stopwatches.** -/
structure MainLoop where
  client : Client
  start : ℕ
  botstart : ℕ
  controllerStart : ℕ

/-- What is observed of the loop. -/
inductive LoopObs where
  /-- What the handlers do. -/
  | client (o : Obs)
  /-- `PONG :tmi.twitch.tv` is sent. -/
  | pong
  /-- `joinSecure`, `banlist`, `modlist`, `pluslist` and `sublist` are emitted. -/
  | announced (banlist pluslist : List Str)
  /-- The advertisement in the chat. -/
  | advert
  deriving DecidableEq

/-- What the handlers do. -/
@[simp] def LoopObs.client? : LoopObs → Option Obs
  | .client o => some o
  | _ => none

/-- A message that is handled. -/
def IrcObs.event? : IrcObs → Option Event
  | .pong => none
  | .handleChat username message => some (.chat username message)

/-- The time between two commands. -/
def tickGap : ℕ := 8333330

/-- The time between two announcements, -/
def announceGap : ℕ := 6000 * 1000000

/-- and the time between two advertisements. -/
def advertGap : ℕ := 1000 * 60 * 5 * 1000000

section

variable (U : Unicode)

/-- **What happens to the program.** -/
def MainLoop.events (x : MainLoop) : LoopEvent → List Event
  | .announce _ _ _ _ => []
  | .receive chunk => (U.loop chunk).filterMap IrcObs.event?
  | .decrease finish _ => if finish - x.start > tickGap then [.tick] else []
  | .other e _ => [e]

/-- What happens besides. -/
def MainLoop.besides (x : MainLoop) : LoopEvent → List LoopObs
  | .announce botend _ controllerEnd _ =>
      (if botend - x.botstart > advertGap then
          [.announced x.client.permissions.banlist x.client.permissions.pluslist, .advert]
        else []) ++
        if controllerEnd - x.controllerStart > announceGap then
          [.announced x.client.permissions.banlist x.client.permissions.pluslist]
        else []
  | .receive chunk => if .pong ∈ U.loop chunk then [.pong] else []
  | .decrease _ _ => []
  | .other _ _ => []

/-- The stopwatches that are started again. -/
def MainLoop.restart (x : MainLoop) : LoopEvent → MainLoop
  | .announce botend botstart controllerEnd controllerStart =>
      { x with
        botstart := if botend - x.botstart > advertGap then botstart else x.botstart
        controllerStart :=
          if controllerEnd - x.controllerStart > announceGap then controllerStart
          else x.controllerStart }
  | .decrease finish start =>
      { x with start := if finish - x.start > tickGap then start else x.start }
  | _ => x

/-- **One part.** -/
def MainLoop.step (x : MainLoop) (e : LoopEvent) : MainLoop × List LoopObs :=
  ({ x.restart e with client := (run U x.client (x.events U e)).1 },
    x.besides U e ++ (run U x.client (x.events U e)).2.map .client)

/-- **A run of the loop.** -/
def loopRun (x : MainLoop) (es : List LoopEvent) : MainLoop × List LoopObs :=
  runFrom (MainLoop.step U) x es

/-- What is observed of the program. -/
theorem client_step (x : MainLoop) (e : LoopEvent) :
    (x.step U e).2.filterMap LoopObs.client? = (run U x.client (x.events U e)).2 := by
  have hbesides : (x.besides U e).filterMap LoopObs.client? = [] := by
    refine List.filterMap_eq_nil_iff.mpr ?_
    cases e with
    | announce => 
      simp only [MainLoop.besides]
      split <;> split <;> simp
    | receive chunk =>
      simp only [MainLoop.besides]
      split <;> simp
    | _ => exact List.forall_mem_nil _
  rw [MainLoop.step, List.filterMap_append, hbesides, List.nil_append, List.filterMap_map]
  exact List.filterMap_some

/-- The chunks that are read. -/
def LoopEvent.chunk? : LoopEvent → Option ByteArray
  | .receive chunk => some chunk
  | _ => none

/-- The messages that are handled. -/
def Event.chat? : Event → Option (Str × Str)
  | .chat username message => some (username, message)
  | _ => none

/-- The message of a chunk. -/
def IrcObs.chat? : IrcObs → Option (Str × Str)
  | .pong => none
  | .handleChat username message => some (username, message)

theorem chat?_of_fromOthers {e : Event} (he : e.fromOthers = true) : e.chat? = none := by
  cases e with
  | chat username message => exact absurd he Bool.false_ne_true
  | _ => rfl

/-- **A run of the loop is a run of the program**, in which the messages are those of the
chunks. -/
theorem exists_run_mainLoop (x : MainLoop) (es : List LoopEvent) :
    ∃ es' : List Event,
      (loopRun U x es).1.client = (run U x.client es').1 ∧
      (loopRun U x es).2.filterMap LoopObs.client? = (run U x.client es').2 ∧
      es'.filterMap Event.chat? =
        ((es.filterMap LoopEvent.chunk?).flatMap U.loop).filterMap IrcObs.chat? := by
  induction es generalizing x with
  | nil => exact ⟨[], rfl, rfl, rfl⟩
  | cons e es ih =>
    obtain ⟨es', hstate, hlog, hchat⟩ := ih (x.step U e).1
    refine ⟨x.events U e ++ es', ?_, ?_, ?_⟩
    · rw [loopRun, runFrom_cons, run, runFrom_append]
      exact hstate
    · rw [loopRun, runFrom_cons, List.filterMap_append, client_step, run, run, runFrom_append]
      exact congrArg (_ ++ ·) hlog
    · rw [List.filterMap_append, hchat]
      cases e with
      | receive chunk =>
        rw [List.filterMap_cons_some (f := LoopEvent.chunk?) rfl, List.flatMap_cons,
          List.filterMap_append, MainLoop.events, List.filterMap_filterMap]
        refine congrArg (· ++ _) (congrArg (List.filterMap · _) (funext fun o => ?_))
        cases o <;> rfl
      | announce => rfl
      | decrease finish start =>
        rw [MainLoop.events]
        split <;> rfl
      | other e he =>
        rw [MainLoop.events, List.filterMap_cons_none (chat?_of_fromOthers he)]
        rfl

/-! ### How fast it is -/

/-- The readings of the clock are in their order. -/
def MainLoop.InOrder (x : MainLoop) : LoopEvent → Prop
  | .announce botend botstart controllerEnd controllerStart =>
      botend ≤ botstart ∧ botstart ≤ controllerEnd ∧ x.controllerStart ≤ controllerEnd ∧
        controllerEnd ≤ controllerStart
  | .decrease finish start => finish ≤ start
  | _ => True

/-- A tick executes one command at most, -/
theorem length_executed_tick (c : Client) : (executed (step U c .tick).2).length ≤ 1 := by
  rcases tick_cases U c with ⟨-, -, hlog⟩ | ⟨x, fresh, rest, -, -, hlog, -⟩
  · rw [executed, hlog]
    exact Nat.zero_le 1
  · rw [executed, hlog]
    exact Nat.le_refl 1

/-- and nothing else does. -/
theorem executed_of_ne_tick (c : Client) {e : Event} (he : e ≠ .tick) :
    executed (step U c e).2 = [] :=
  (queue_perform_quiet (kind_script U c he) c).2.1

theorem executed_run_of_ne_tick (c : Client) {es : List Event} (hes : ∀ e ∈ es, e ≠ .tick) :
    executed (run U c es).2 = [] := by
  induction es generalizing c with
  | nil => rfl
  | cons e es ih =>
    obtain ⟨he, hes⟩ := List.forall_mem_cons.mp hes
    rw [run, runFrom_cons, executed_append, executed_of_ne_tick U c he, List.nil_append]
    exact ih _ hes

/-- The only tick is that of `decreaseQueue`. -/
theorem ne_tick_of_mem_events {x : MainLoop} {e : LoopEvent}
    (he : ¬∃ finish start, e = .decrease finish start ∧ finish - x.start > tickGap) :
    ∀ e' ∈ x.events U e, e' ≠ .tick := by
  cases e with
  | announce => exact List.forall_mem_nil _
  | receive chunk =>
    intro e' he'
    obtain ⟨o, -, ho⟩ := List.mem_filterMap.mp he'
    cases o with
    | pong => exact absurd ho.symm (Option.some_ne_none e')
    | handleChat username message =>
      obtain rfl := Option.some.inj ho
      simp
  | decrease finish start =>
    rw [MainLoop.events, if_neg fun hgap => he ⟨finish, start, rfl, hgap⟩]
    exact List.forall_mem_nil _
  | other e hothers =>
    refine List.forall_mem_singleton.mpr ?_
    rintro rfl
    exact absurd hothers Bool.false_ne_true

/-- **No more than 120 commands in a second.** Whatever the loop reads and whatever the other
threads do, the commands that are executed in a run, at 8.33 ms each, take no more time than has
passed between the first and the last restart of the stopwatch. -/
theorem executed_rate {x : MainLoop} {es : List LoopEvent}
    (h : Guarded (MainLoop.step U) (fun x _ e => x.InOrder e) x es) :
    (executed ((loopRun U x es).2.filterMap LoopObs.client?)).length * (tickGap + 1) + x.start ≤
      (loopRun U x es).1.start := by
  refine runFrom_invariant_of_guard (P := fun (y : MainLoop) log =>
    (executed (log.filterMap LoopObs.client?)).length * (tickGap + 1) + x.start ≤ y.start)
    ?_ ?_ h
  · simp [executed]
  · intro y log e hy he
    rw [List.filterMap_append, client_step, executed_append, List.length_append, Nat.add_mul]
    by_cases htick : ∃ finish start, e = .decrease finish start ∧ finish - y.start > tickGap
    · obtain ⟨finish, start, rfl, hgap⟩ := htick
      have hstart : (y.step U (.decrease finish start)).1.start = start := if_pos hgap
      have hone :
          (executed (run U y.client (y.events U (.decrease finish start))).2).length ≤ 1 := by
        rw [MainLoop.events, if_pos hgap, run, runFrom_cons, runFrom_nil, List.append_nil]
        exact length_executed_tick U y.client
      have hmul := Nat.mul_le_mul_right (tickGap + 1) hone
      have hle : finish ≤ start := he
      rw [hstart]
      omega
    · have hnone : executed (run U y.client (y.events U e)).2 = [] :=
        executed_run_of_ne_tick U y.client (ne_tick_of_mem_events U htick)
      have hstart : (y.step U e).1.start = y.start := by
        cases e with
        | decrease finish start => exact if_neg fun hgap => htick ⟨finish, start, rfl, hgap⟩
        | _ => rfl
      rw [hnone, hstart]
      simpa using hy

/-- Two commands, as soon as they may be executed. -/
theorem executed_rate_two :
    let c : Client := { Client.init none none with queue := ⟨[⟨"a", 0⟩, ⟨"b", 0⟩], []⟩ }
    let x : MainLoop := ⟨c, 0, 0, 0⟩
    let es : List LoopEvent := [.decrease 8333331 8333331, .decrease 16666662 16666662]
    (executed ((loopRun .ascii x es).2.filterMap LoopObs.client?)).length = 2 ∧
      2 * (tickGap + 1) + 0 ≤ (loopRun .ascii x es).1.start := by
  intro c x es
  have hlength : (executed ((loopRun .ascii x es).2.filterMap LoopObs.client?)).length = 2 := by
    decide +kernel
  have horder : GuardedFrom (MainLoop.step .ascii) MainLoop.InOrder x es :=
    ⟨Nat.le_refl _, Nat.le_refl _, trivial⟩
  have hrate := executed_rate .ascii (guarded_of_guardedFrom horder)
  rw [hlength] at hrate
  exact ⟨hlength, hrate⟩

/-! ### From the chat to the queue -/

/-- **Words that the user may say**: commands, or some with a plus sign between them, without an
exclamation mark, none of which asks for a permission the user does not have, and not more than
twenty. -/
def Allowed (pluslist : List Str) (username : Str) (words : List Str) : Prop :=
  words.length ≤ 20 ∧ ∀ cmd ∈ words, (cmd ∈ validCommands ∨ '+' ∈ cmd) ∧ '!' ∉ cmd ∧
    (isIn "plus" cmd → username ∈ pluslist) ∧ (isIn "home" cmd → username ∈ modlist)

instance (pluslist : List Str) (username : Str) (words : List Str) :
    Decidable (Allowed pluslist username words) := inferInstanceAs (Decidable (_ ∧ _))

/-- They have no exclamation mark at their start, -/
theorem Allowed.head {pluslist words : List Str} {username : Str}
    (h : Allowed pluslist username words) : ∀ cmd ∈ words, cmd.head? ≠ some '!' :=
  fun cmd hcmd hhead => (h.2 cmd hcmd).2.1 (List.mem_of_head? hhead)

/-- and pass the tests of the loop. -/
theorem Allowed.rejects {pluslist words : List Str} {username : Str}
    (h : Allowed pluslist username words) :
    ∀ cmd ∈ words, rejects pluslist username cmd = false := by
  intro cmd hcmd
  obtain ⟨hvalid, hmark, hplus, hhome⟩ := h.2 cmd hcmd
  have hserver : isIn "!restartserver" cmd = false := isIn_of_not_mem (by decide) hmark
  have hscript : isIn "!restartscript" cmd = false := isIn_of_not_mem (by decide) hmark
  have henable : isIn "!enablegoto" cmd = false := isIn_of_not_mem (by decide) hmark
  have hdisable : isIn "!disablegoto" cmd = false := isIn_of_not_mem (by decide) hmark
  have hknown : cmd ∉ validCommands → isIn "+" cmd = true := fun hnot => by
    obtain ⟨s, t, hst⟩ := List.append_of_mem (hvalid.resolve_left hnot)
    exact decide_eq_true ⟨s, t, by simp [hst]⟩
  simpa [Twitch.rejects, hserver, hscript, henable, hdisable, -String.reduceToList] using
    ⟨⟨hknown, hplus⟩, hhome⟩

/-- The words of a message. -/
def IrcObs.words : IrcObs → List Str
  | .pong => []
  | .handleChat _ message => U.commands message

/-- A message of such words. -/
def IrcObs.Allowed (pluslist : List Str) : IrcObs → Prop
  | .pong => True
  | .handleChat username message => Twitch.Allowed pluslist username (U.commands message)

/-- **The words of a line.** -/
def Line.words {U : Unicode} : Line U → List Str
  | .ping => []
  | .privmsg m => U.commands (U.lower (U.strip m.text))

/-- They get to the queue. -/
theorem appended_chat {c : Client} {username message : Str}
    (hwords : Allowed c.permissions.pluslist username (U.commands message))
    (hon : c.switches.chatEnabled = true) :
    (appended (step U c (.chat username message)).2).map Queued.cmd = U.commands message := by
  have hraises : (commandActs c username (U.commands message)).raises = false :=
    congrArg Script.raises (commandActs_of_head c username hwords.head)
  have hsubmitted : submitted c username (U.commands message) =
      (U.commands message).map (⟨·, c.clock⟩) :=
    if_pos ⟨List.all_eq_true.mpr fun cmd hcmd => by rw [hwords.rejects cmd hcmd]; rfl, hwords.1⟩
  -- what is appended is what has been added to the queue
  have hqueue := queue_chat U c username message
  have hlog := (queue_perform_quiet (kind_script U c (e := .chat username message) (by simp)) c).1
  rw [if_pos ⟨hraises, (chatEnabled_of_head hwords.head).trans hon⟩, hsubmitted] at hqueue
  have hcancel := List.append_cancel_left
    (congrArg Queue.commandQueue (hlog.symm.trans hqueue))
  refine (congrArg (List.map Queued.cmd) hcancel).trans ?_
  rw [List.map_map]
  exact List.map_id _

/-- Who has plus permission stays as it is, -/
theorem pluslist_chat {c : Client} {username message : Str}
    (hwords : Allowed c.permissions.pluslist username (U.commands message)) :
    (step U c (.chat username message)).1.permissions.pluslist = c.permissions.pluslist := by
  have hmark : ∀ cmd ∈ listCommands, '!' ∈ cmd := by decide
  refine (lists_step fun username' message' cmd user heq _ hcmd hmem => ?_).1
  obtain ⟨rfl, rfl⟩ := Event.chat.inj heq
  exact (hwords.2 cmd (by rw [hcmd]; exact List.mem_cons_self)).2.1 (hmark cmd hmem)

/-- whatever happens besides. -/
theorem pluslist_of_not_chat (c : Client) {e : Event} (he : e.chat? = none) :
    (step U c e).1.permissions.pluslist = c.permissions.pluslist := by
  refine (lists_step fun username message _ _ heq => ?_).1
  rw [heq] at he
  exact absurd he (Option.some_ne_none _)

/-- Nothing else appends anything. -/
theorem appended_of_not_chat (c : Client) {e : Event} (he : e.chat? = none) :
    appended (step U c e).2 = [] := by
  have hchat : ∀ username message, e ≠ .chat username message := by
    rintro username message rfl
    exact absurd he (Option.some_ne_none _)
  by_cases htick : e = .tick
  · subst htick
    rcases tick_cases U c with ⟨-, -, hlog⟩ | ⟨x, fresh, rest, -, -, hlog, -⟩ <;>
      rw [appended, hlog] <;> rfl
  · have hnone : (script U c e).filterMap Act.queue? = [] :=
      filterMap_eq_nil_of_isPartialInv isPartialInv_queue fun a ha =>
        kind_script U c htick _ ha rfl
    have hlog := (queue_perform c fun a ha => (kind_script_of_not_chat U c hchat a ha).2).2
    rw [hnone] at hlog
    rw [appended]
    exact congrArg (List.filterMap QueueObs.appended?) hlog

/-- **What one part appends.** -/
theorem appended_part {x : MainLoop} {e : LoopEvent}
    (hon : e.chunk? ≠ none → x.client.switches.chatEnabled = true)
    (hwords : ∀ o ∈ e.chunk?.toList.flatMap U.loop, o.Allowed U x.client.permissions.pluslist) :
    (appended (run U x.client (x.events U e)).2).map Queued.cmd =
        (e.chunk?.toList.flatMap U.loop).flatMap (IrcObs.words U) ∧
      (x.step U e).1.client.permissions.pluslist = x.client.permissions.pluslist := by
  have hrun : ∀ e, run U x.client [e] = step U x.client e := fun e => by
    rw [run, runFrom_cons, runFrom_nil, List.append_nil]
  rw [MainLoop.step]
  cases e with
  | announce => exact ⟨rfl, rfl⟩
  | receive chunk =>
    -- a chunk gives one message at most
    have hone := length_loop_le (U := U) chunk
    have hon := hon (Option.some_ne_none chunk)
    simp only [MainLoop.events, LoopEvent.chunk?, Option.toList_some, List.flatMap_singleton]
      at hwords ⊢
    rcases hloop : U.loop chunk with - | ⟨o, rest⟩
    · exact ⟨rfl, rfl⟩
    · rw [hloop, List.length_cons] at hone
      obtain rfl := List.length_eq_zero_iff.mp (by omega : rest.length = 0)
      rw [hloop] at hwords
      cases o with
      | pong => exact ⟨rfl, rfl⟩
      | handleChat username message =>
        have hallowed := hwords _ List.mem_cons_self
        rw [List.flatMap_singleton, List.filterMap_cons_some (f := IrcObs.event?) rfl,
          List.filterMap_nil, hrun]
        exact ⟨appended_chat U hallowed hon, pluslist_chat U hallowed⟩
  | decrease finish start =>
    rw [MainLoop.events]
    split
    · rw [hrun, appended_of_not_chat U x.client rfl]
      exact ⟨rfl, pluslist_of_not_chat U x.client rfl⟩
    · exact ⟨rfl, rfl⟩
  | other e he =>
    have hnot := chat?_of_fromOthers he
    rw [MainLoop.events, hrun, appended_of_not_chat U x.client hnot]
    exact ⟨rfl, pluslist_of_not_chat U x.client hnot⟩

/-- **What a run of the loop appends** are the words of the chunks. -/
theorem appended_loopRun {x : MainLoop} {es : List LoopEvent}
    (hon : GuardedFrom (MainLoop.step U)
      (fun x e => e.chunk? ≠ none → x.client.switches.chatEnabled = true) x es)
    (hwords : ∀ o ∈ (es.filterMap LoopEvent.chunk?).flatMap U.loop,
      o.Allowed U x.client.permissions.pluslist) :
    (appended ((loopRun U x es).2.filterMap LoopObs.client?)).map Queued.cmd =
      ((es.filterMap LoopEvent.chunk?).flatMap U.loop).flatMap (IrcObs.words U) := by
  induction es generalizing x with
  | nil => rfl
  | cons e es ih =>
    have hcons : (e :: es).filterMap LoopEvent.chunk? =
        e.chunk?.toList ++ es.filterMap LoopEvent.chunk? := by
      cases e <;> rfl
    rw [hcons, List.flatMap_append] at hwords ⊢
    obtain ⟨hfirst, hrest⟩ := List.forall_mem_append.mp hwords
    obtain ⟨hpart, hplus⟩ := appended_part U hon.1 hfirst
    rw [loopRun, runFrom_cons, List.filterMap_append, client_step, appended_append, List.map_append,
      hpart, List.flatMap_append]
    rw [← hplus] at hrest
    exact congrArg (_ ++ ·) (ih hon.2 hrest)

end

/-- **What is said is executed, in the order it is said.** The lines of the chat arrive as they
should, in whatever pieces, and are read by the loop while it executes commands and the other
threads do what they do. If the chat is enabled whenever something is read, and the lines say
nothing but what their users may say, then the commands taken from the queue, followed by those
still in it, are the words of the lines in their order, after what was queued at the start. What
these commands insert is executed besides, and is none of `executedFresh`. -/
theorem said_executed (U : Unicode) {x : MainLoop} {es : List LoopEvent} {lines : List (Line U)}
    {arrivals : List (List ByteArray)} (harrive : List.Forall₂ Arrives lines arrivals)
    (hchunks : es.filterMap LoopEvent.chunk? = arrivals.flatten)
    (hon : GuardedFrom (MainLoop.step U)
      (fun x e => e.chunk? ≠ none → x.client.switches.chatEnabled = true) x es)
    (hwords : ∀ m : PrivMsg U, .privmsg m ∈ lines →
      Allowed x.client.permissions.pluslist (U.lower m.nick.text) (Line.privmsg m).words) :
    (executedFresh ((loopRun U x es).2.filterMap LoopObs.client?) ++
        (loopRun U x es).1.client.queue.commandQueue).map Queued.cmd =
      x.client.queue.commandQueue.map Queued.cmd ++ lines.flatMap Line.words := by
  have hloop : (es.filterMap LoopEvent.chunk?).flatMap U.loop = lines.flatMap Line.expected := by
    rw [hchunks, received_arrivals harrive]
  have hexpected : ∀ line : Line U, line.expected.flatMap (IrcObs.words U) = line.words := by
    intro line
    cases line with
    | ping => rfl
    | privmsg m => exact List.append_nil _
  have hallowed : ∀ o ∈ (es.filterMap LoopEvent.chunk?).flatMap U.loop,
      o.Allowed U x.client.permissions.pluslist := by
    intro o ho
    rw [hloop] at ho
    obtain ⟨line, hline, ho⟩ := List.mem_flatMap.mp ho
    cases line with
    | ping =>
      obtain rfl := List.mem_singleton.mp ho
      trivial
    | privmsg m =>
      obtain rfl := List.mem_singleton.mp ho
      exact hwords m hline
  have happended := appended_loopRun U hon hallowed
  -- the queue is executed in its order
  obtain ⟨es', hstate, hlog, -⟩ := exists_run_mainLoop U x es
  have horder : Accounted x.client.queue (run U x.client es').1.queue (run U x.client es').2 :=
    runFrom_invariant (P := fun (c : Client) log => Accounted x.client.queue c.queue log)
      (accounted_nil _) (fun _ _ e h => h.feed U (.event e)) es'
  rw [hlog] at happended
  rw [hlog, hstate, horder.order, List.map_append, happended, hloop, List.flatMap_assoc]
  exact congrArg (_ ++ ·) (List.flatMap_congr fun line _ => hexpected line)

/-- A user with plus permission says `plus, a+b`, and one command is executed. -/
theorem said_executed_viewer :
    let m : PrivMsg Unicode.ascii := { viewerMsg with text := "plus, a+b", oneLine := by decide }
    let x : MainLoop := ⟨Client.init (some ["viewer"]) none, 0, 0, 0⟩
    let es : List LoopEvent := [.receive (encode (Line.privmsg m).text), .decrease 9000000 9000001]
    (executedFresh ((loopRun .ascii x es).2.filterMap LoopObs.client?) ++
      (loopRun .ascii x es).1.client.queue.commandQueue).map Queued.cmd =
        [("plus" : Str), "a+b"] := by
  intro m x es
  have harrive : List.Forall₂ Arrives [.privmsg m] [[encode (Line.privmsg m).text]] :=
    .cons (arrives_single (.privmsg m)) .nil
  have hon : GuardedFrom (MainLoop.step .ascii)
      (fun x e => e.chunk? ≠ none → x.client.switches.chatEnabled = true) x es :=
    ⟨fun _ => rfl, fun h => absurd rfl h, trivial⟩
  have hwords : (Line.privmsg m).words = [("plus" : Str), "a+b"] := by decide
  have hallowed : Allowed x.client.permissions.pluslist (Unicode.ascii.lower viewer.text)
      [("plus" : Str), "a+b"] := by decide +kernel
  refine (said_executed .ascii harrive rfl hon fun m' hm => ?_).trans ?_
  · obtain rfl : m' = m := by simpa using hm
    rw [hwords]
    exact hallowed
  · exact (List.append_nil _).trans hwords

end Twitch

end SwitchController
