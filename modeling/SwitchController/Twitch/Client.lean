import SwitchController.Twitch.Controller
import SwitchController.Twitch.Poll

/-!
# The client

The state of `twitch-control.py` – the fields of `Client` and the module's own variables – and
the statements its functions are made of. The functions become scripts, lists of such
statements, in the modules that follow.

A statement writes to one part of the state: the controllers, the votes, the permissions, the
queues, the switches, the calls of `goto_game` that are under way. So the parts run as machines
of their own (`SwitchController.Twitch.pads_perform`, `SwitchController.Twitch.poll_perform`), and
what is true of a part by itself is true of the client.
-/

namespace SwitchController

namespace Twitch

open EventMachine

/-! ### Permissions -/

/-- `modlist`, which nothing changes. -/
def modlist : List Str :=
  ["alua2020", "ogcristofer", "stravos96", "yanchan230", "silvermagpi", "twitchplaysconsoles",
    "fosseisanerd", "tpnsbot"]

/-- **The permissions**, and the files they are kept in. -/
structure Permissions where
  pluslist : List Str
  banlist : List Str
  pluslistPkl : Option (List Str)
  banlistPkl : Option (List Str)
  deriving DecidableEq

/-- What is done to the permissions. -/
inductive PermAct where
  /-- `pluslist.append(user)`. -/
  | givePlus (user : Str)
  /-- `pluslist.remove(user)`, if the user is on it. -/
  | removePlus (user : Str)
  /-- `banlist.append(user)`. -/
  | ban (user : Str)
  /-- `banlist.remove(user)`. -/
  | unban (user : Str)
  /-- `pickle.dump([pluslist], f)`. -/
  | dumpPluslist
  /-- `pickle.dump([banlist], f)`. -/
  | dumpBanlist
  deriving DecidableEq

/-- **One statement.** `remove` takes the first occurrence of an element out of a list. -/
def Permissions.exec (p : Permissions) : PermAct → Permissions
  | .givePlus user => { p with pluslist := p.pluslist ++ [user] }
  | .removePlus user => { p with pluslist := p.pluslist.erase user }
  | .ban user => { p with banlist := p.banlist ++ [user] }
  | .unban user => { p with banlist := p.banlist.erase user }
  | .dumpPluslist => { p with pluslistPkl := some p.pluslist }
  | .dumpBanlist => { p with banlistPkl := some p.banlist }

/-! ### Queues -/

/-- A command, with the number of the chat message it came with. The number is there for the
log; nothing else reads it. -/
structure Queued where
  cmd : Str
  stamp : ℕ
  deriving DecidableEq

/-- **The queues.** -/
structure Queue where
  commandQueue : List Queued
  nextCommands : List Queued
  deriving DecidableEq

/-- What is done to the queues. -/
inductive QueueAct where
  /-- The first of `commandQueue` goes to the end of `nextCommands`. -/
  | advance
  /-- The last of `nextCommands` is taken out to be executed; `fresh` if it has just come from
  `commandQueue`. -/
  | take (fresh : Bool)
  /-- `nextCommands.insert(0, cmd)`. -/
  | insert (q : Queued)
  deriving DecidableEq

/-- What is observed of the queues. -/
inductive QueueObs where
  | appended (q : Queued)
  | executed (q : Queued) (fresh : Bool)
  deriving DecidableEq

/-- **One statement.** -/
def Queue.exec (q : Queue) : QueueAct → Queue × List QueueObs
  | .advance => match q.commandQueue with
      | [] => (q, [])
      | x :: rest => (⟨rest, q.nextCommands ++ [x]⟩, [])
  | .take fresh => match q.nextCommands.getLast? with
      | none => (q, [])
      | some x => ({ q with nextCommands := q.nextCommands.dropLast }, [.executed x fresh])
  | .insert x => ({ q with nextCommands := x :: q.nextCommands }, [])

/-! ### Switches -/

/-- **The other fields of `Client`.** A player that is no string is `none`. -/
structure Switches where
  chatEnabled : Bool
  controllerEnabled : Bool
  lockon : Bool
  currentPlayers : List (Option Str)
  currentGame : Str
  deriving DecidableEq

/-- What is done to them. -/
inductive SwitchAct where
  | chatEnabled (on : Bool)
  | controllerEnabled (on : Bool)
  | toggleLockon
  | currentPlayers (players : List (Option Str))
  | currentGame (nameofgame : Str)
  deriving DecidableEq

/-- **One statement.** -/
def Switches.exec (s : Switches) : SwitchAct → Switches
  | .chatEnabled on => { s with chatEnabled := on }
  | .controllerEnabled on => { s with controllerEnabled := on }
  | .toggleLockon => { s with lockon := !s.lockon }
  | .currentPlayers players => { s with currentPlayers := players }
  | .currentGame nameofgame => { s with currentGame := nameofgame }

/-! ### The world outside -/

/-- The events `handleChat` emits, under their names. -/
inductive Emit where
  | restart2
  | restart3
  /-- The event `restart server`. -/
  | restartServer
  | forceRefresh
  | disableInternet
  | enableInternet
  | setTurnLength (length : Str)
  | setForfeitLength (length : Str)
  | banlist (users : List Str)
  deriving DecidableEq

/-- What is sent or called outside the program. -/
inductive IoAct where
  /-- `twitchBot.chat(msg)`. -/
  | chat (msg : Str)
  /-- `self.socketio.emit(..)`. -/
  | emit (e : Emit)
  /-- `os.system(command)`. -/
  | system (command : Str)
  deriving DecidableEq

/-- The command that ends the program. -/
def killPython : Str := "taskkill /f /im python.exe"

/-! ### `goto_game` -/

/-- **A call of `goto_game` under way**: its arguments, what `findImage` finds at each attempt,
and how many of its sends are done, the first not counted. -/
structure GotoCall where
  game : Game
  find : ℕ → Option (ℕ × ℕ)
  sends : ℕ

/-- What happens to the calls. -/
inductive CallAct where
  /-- A call of `goto_game`, up to its first send. -/
  | enter (game : Game) (find : ℕ → Option (ℕ × ℕ))
  /-- A call goes on to its next send. -/
  | resume (i : ℕ)
  /-- A call returns. -/
  | leave (i : ℕ)

/-- The calls that are under way. -/
def execCalls (calls : List GotoCall) : CallAct → List GotoCall
  | .enter game find => calls ++ [⟨game, find, 0⟩]
  | .resume i => calls.modify i fun call => { call with sends := call.sends + 1 }
  | .leave i => calls.eraseIdx i

/-! ### The client -/

/-- **The state of the program.** -/
structure Client where
  pads : Pads
  poll : Poll
  permissions : Permissions
  queue : Queue
  switches : Switches
  calls : List GotoCall
  /-- The number of events so far, for the stamps. -/
  clock : ℕ

/-- The program starts, with the permissions loaded from their files. -/
def Client.init (pluslistPkl banlistPkl : Option (List Str)) : Client where
  pads := Pads.neutral
  poll := Poll.init
  permissions := ⟨pluslistPkl.getD [], banlistPkl.getD [], pluslistPkl, banlistPkl⟩
  queue := ⟨[], []⟩
  switches := ⟨true, true, false, [], "none"⟩
  calls := []
  clock := 0

/-- **The statements.** -/
inductive Act where
  | pad (a : PadAct)
  | poll (a : PollAct)
  | permission (a : PermAct)
  | queue (a : QueueAct)
  | switch (a : SwitchAct)
  | call (a : CallAct)
  | io (a : IoAct)
  /-- The end of `handleChat`: the commands are appended to `commandQueue`, unless the chat is
  disabled. -/
  | submit (cmds : List Queued)

/-- What is observed of the client. -/
inductive Obs where
  | pad (o : PadObs)
  | poll (o : PollObs)
  | queue (o : QueueObs)
  | io (a : IoAct)
  deriving DecidableEq

/-- **One statement.** -/
def Client.exec (c : Client) : Act → Client × List Obs
  | .pad a => ({ c with pads := (c.pads.exec a).1 }, (c.pads.exec a).2.map .pad)
  | .poll a => ({ c with poll := (c.poll.exec a).1 }, (c.poll.exec a).2.map .poll)
  | .permission a => ({ c with permissions := c.permissions.exec a }, [])
  | .queue a => ({ c with queue := (c.queue.exec a).1 }, (c.queue.exec a).2.map .queue)
  | .switch a => ({ c with switches := c.switches.exec a }, [])
  | .call a => ({ c with calls := execCalls c.calls a }, [])
  | .io a => (c, [.io a])
  | .submit cmds =>
      if c.switches.chatEnabled then
        ({ c with queue := { c.queue with commandQueue := c.queue.commandQueue ++ cmds } },
          cmds.map fun q => .queue (.appended q))
      else (c, [])

/-- **A script**, statement by statement. -/
def Client.perform (c : Client) (script : List Act) : Client × List Obs :=
  runFrom Client.exec c script

/-! ### The parts of the client

Each part is acted on by the statements of its kind, and by no others. -/

/-- The kinds of statements. -/
inductive Kind where
  | pad | poll | permission | queue | switch | call | io | submit
  deriving DecidableEq

/-- The kind of a statement. -/
@[simp] def Act.kind : Act → Kind
  | .pad _ => .pad
  | .poll _ => .poll
  | .permission _ => .permission
  | .queue _ => .queue
  | .switch _ => .switch
  | .call _ => .call
  | .io _ => .io
  | .submit _ => .submit

/-- The statements on controllers. -/
@[simp] def Act.pad? : Act → Option PadAct
  | .pad a => some a
  | _ => none

/-- The statements on votes. -/
@[simp] def Act.poll? : Act → Option PollAct
  | .poll a => some a
  | _ => none

/-- The statements on permissions. -/
@[simp] def Act.permission? : Act → Option PermAct
  | .permission a => some a
  | _ => none

/-- The statements on queues. -/
@[simp] def Act.queue? : Act → Option QueueAct
  | .queue a => some a
  | _ => none

/-- The statements on switches. -/
@[simp] def Act.switch? : Act → Option SwitchAct
  | .switch a => some a
  | _ => none

/-- The statements on calls. -/
@[simp] def Act.call? : Act → Option CallAct
  | .call a => some a
  | _ => none

/-- What is observed of the controllers. -/
@[simp] def Obs.pad? : Obs → Option PadObs
  | .pad o => some o
  | _ => none

/-- What is observed of the votes. -/
@[simp] def Obs.poll? : Obs → Option PollObs
  | .poll o => some o
  | _ => none

/-- What is observed of the queues. -/
@[simp] def Obs.queue? : Obs → Option QueueObs
  | .queue o => some o
  | _ => none

section

open Function

theorem isPartialInv_pad : IsPartialInv Act.pad Act.pad? := by
  rintro a (b | b | b | b | b | b | b | b) <;> simp [eq_comm]

theorem isPartialInv_poll : IsPartialInv Act.poll Act.poll? := by
  rintro a (b | b | b | b | b | b | b | b) <;> simp [eq_comm]

theorem isPartialInv_permission : IsPartialInv Act.permission Act.permission? := by
  rintro a (b | b | b | b | b | b | b | b) <;> simp [eq_comm]

theorem isPartialInv_queue : IsPartialInv Act.queue Act.queue? := by
  rintro a (b | b | b | b | b | b | b | b) <;> simp [eq_comm]

theorem isPartialInv_switch : IsPartialInv Act.switch Act.switch? := by
  rintro a (b | b | b | b | b | b | b | b) <;> simp [eq_comm]

theorem isPartialInv_call : IsPartialInv Act.call Act.call? := by
  rintro a (b | b | b | b | b | b | b | b) <;> simp [eq_comm]

end

theorem mem_filterMap_pad? {o : PadObs} {log : List Obs} :
    o ∈ log.filterMap Obs.pad? ↔ .pad o ∈ log :=
  mem_filterMap_of_isPartialInv (by rintro a (b | b | b | b) <;> simp [eq_comm])

theorem mem_filterMap_poll? {o : PollObs} {log : List Obs} :
    o ∈ log.filterMap Obs.poll? ↔ .poll o ∈ log :=
  mem_filterMap_of_isPartialInv (by rintro a (b | b | b | b) <;> simp [eq_comm])

/-- A line to this controller. -/
@[simp] def PadObs.line? (n : Slot) : PadObs → Option Str
  | .sent m msg => if m = n then some msg else none
  | _ => none

/-- **The lines transmitted to a controller**, in order. -/
def linesTo (n : Slot) (log : List Obs) : List Str :=
  (log.filterMap Obs.pad?).filterMap (PadObs.line? n)

@[simp] theorem linesTo_append (n : Slot) (log log' : List Obs) :
    linesTo n (log ++ log') = linesTo n log ++ linesTo n log' := by
  simp [linesTo]

/-- Without a send there is no line. -/
theorem lines_runFrom {m : Slot} {as : List PadAct} (h : ∀ a ∈ as, a ≠ .send m) (p : Pads) :
    (runFrom Pads.exec p as).2.filterMap (PadObs.line? m) = [] := by
  induction as generalizing p with
  | nil => rfl
  | cons a as ih =>
    obtain ⟨ha, has⟩ := List.forall_mem_cons.mp h
    have hone : (p.exec a).2.filterMap (PadObs.line? m) = [] := by
      cases a with
      | send k => simpa [Pads.exec] using ha
      | _ => rfl
    rw [runFrom_cons, List.filterMap_append, hone, ih has, List.nil_append]

@[simp] theorem filterMap_pad?_map (as : List PadAct) :
    (as.map Act.pad).filterMap Act.pad? = as := by
  simp [List.filterMap_map, Function.comp_def]

variable (c : Client) (acts : List Act)

/-- **The controllers are a machine of their own**, -/
theorem pads_perform :
    (c.perform acts).1.pads = (runFrom Pads.exec c.pads (acts.filterMap Act.pad?)).1 ∧
      (c.perform acts).2.filterMap Obs.pad? =
        (runFrom Pads.exec c.pads (acts.filterMap Act.pad?)).2 := by
  refine runFrom_part Client.pads Act.pad? Obs.pad? (fun c a _ b hb => ?_) (fun c a _ ha => ?_) c
  · obtain rfl := (isPartialInv_pad b a).mp hb
    simp [Client.exec, List.filterMap_map, Function.comp_def]
  · rcases a with a | a | a | a | a | a | a | cmds
    all_goals simp [Client.exec, List.filterMap_map, Function.comp_def] at ha ⊢
    split <;> simp

theorem linesTo_perform (n : Slot) :
    linesTo n (c.perform acts).2 =
      (runFrom Pads.exec c.pads (acts.filterMap Act.pad?)).2.filterMap (PadObs.line? n) :=
  congrArg (List.filterMap (PadObs.line? n)) (pads_perform c acts).2

variable {acts} in
/-- A script without statements on controllers. -/
theorem pads_perform_quiet (h : ∀ a ∈ acts, a.kind ≠ .pad) :
    (c.perform acts).1.pads = c.pads ∧ ∀ o, .pad o ∉ (c.perform acts).2 := by
  have hnil : acts.filterMap Act.pad? = [] :=
    filterMap_eq_nil_of_isPartialInv isPartialInv_pad fun b hb => h _ hb rfl
  obtain ⟨hpads, hlog⟩ := pads_perform c acts
  rw [hnil] at hpads hlog
  refine ⟨hpads, fun o ho => ?_⟩
  rw [← mem_filterMap_pad?, hlog] at ho
  exact List.not_mem_nil ho

variable {acts} in
theorem linesTo_perform_quiet (h : ∀ a ∈ acts, a.kind ≠ .pad) (n : Slot) :
    linesTo n (c.perform acts).2 = [] := by
  have hnone : (c.perform acts).2.filterMap Obs.pad? = [] :=
    List.eq_nil_iff_forall_not_mem.mpr fun o ho =>
      (pads_perform_quiet c h).2 o (mem_filterMap_pad?.mp ho)
  rw [linesTo, hnone, List.filterMap_nil]

/-- **and so are the votes**; -/
theorem poll_perform :
    (c.perform acts).1.poll = (runFrom Poll.exec c.poll (acts.filterMap Act.poll?)).1 ∧
      (c.perform acts).2.filterMap Obs.poll? =
        (runFrom Poll.exec c.poll (acts.filterMap Act.poll?)).2 := by
  refine runFrom_part Client.poll Act.poll? Obs.poll? (fun c a _ b hb => ?_) (fun c a _ ha => ?_) c
  · obtain rfl := (isPartialInv_poll b a).mp hb
    simp [Client.exec, List.filterMap_map, Function.comp_def]
  · rcases a with a | a | a | a | a | a | a | cmds
    all_goals simp [Client.exec, List.filterMap_map, Function.comp_def] at ha ⊢
    split <;> simp

variable {acts} in
/-- the queues are, but for what is submitted. -/
theorem queue_perform (h : ∀ a ∈ acts, a.kind ≠ .submit) :
    (c.perform acts).1.queue = (runFrom Queue.exec c.queue (acts.filterMap Act.queue?)).1 ∧
      (c.perform acts).2.filterMap Obs.queue? =
        (runFrom Queue.exec c.queue (acts.filterMap Act.queue?)).2 := by
  refine runFrom_part Client.queue Act.queue? Obs.queue? (fun c a _ b hb => ?_)
    (fun c a hmem ha => ?_) c
  · obtain rfl := (isPartialInv_queue b a).mp hb
    simp [Client.exec, List.filterMap_map, Function.comp_def]
  · rcases a with a | a | a | a | a | a | a | cmds
    all_goals simp [Client.exec, List.filterMap_map, Function.comp_def] at ha ⊢
    exact absurd rfl (h _ hmem)

theorem permissions_perform :
    (c.perform acts).1.permissions =
      (acts.filterMap Act.permission?).foldl Permissions.exec c.permissions := by
  refine fst_runFrom_part Client.permissions Act.permission? _ (fun c a b hb => ?_)
    (fun c a ha => ?_) c acts
  · obtain rfl := (isPartialInv_permission b a).mp hb
    rfl
  · rcases a with a | a | a | a | a | a | a | cmds
    all_goals simp [Client.exec] at ha ⊢
    split <;> rfl

theorem switches_perform :
    (c.perform acts).1.switches =
      (acts.filterMap Act.switch?).foldl Switches.exec c.switches := by
  refine fst_runFrom_part Client.switches Act.switch? _ (fun c a b hb => ?_)
    (fun c a ha => ?_) c acts
  · obtain rfl := (isPartialInv_switch b a).mp hb
    rfl
  · rcases a with a | a | a | a | a | a | a | cmds
    all_goals simp [Client.exec] at ha ⊢
    split <;> rfl

variable {acts} in
theorem switches_perform_quiet (h : ∀ a ∈ acts, a.kind ≠ .switch) :
    (c.perform acts).1.switches = c.switches := by
  rw [switches_perform,
    filterMap_eq_nil_of_isPartialInv isPartialInv_switch fun b hb => h _ hb rfl, List.foldl_nil]

theorem calls_perform :
    (c.perform acts).1.calls = (acts.filterMap Act.call?).foldl execCalls c.calls := by
  refine fst_runFrom_part Client.calls Act.call? _ (fun c a b hb => ?_) (fun c a ha => ?_) c acts
  · obtain rfl := (isPartialInv_call b a).mp hb
    rfl
  · rcases a with a | a | a | a | a | a | a | cmds
    all_goals simp [Client.exec] at ha ⊢
    split <;> rfl

variable {acts} in
theorem calls_perform_quiet (h : ∀ a ∈ acts, a.kind ≠ .call) :
    (c.perform acts).1.calls = c.calls := by
  rw [calls_perform,
    filterMap_eq_nil_of_isPartialInv isPartialInv_call fun b hb => h _ hb rfl, List.foldl_nil]

variable {c acts} in
/-- What is sent and called outside is what the script says. -/
theorem io_mem_perform {a : IoAct} : .io a ∈ (c.perform acts).2 ↔ .io a ∈ acts := by
  rw [Client.perform]
  induction acts generalizing c with
  | nil => simp
  | cons b acts ih =>
    rw [runFrom_cons, List.mem_append, ih, List.mem_cons]
    refine or_congr_left ?_
    cases b with
    | submit cmds =>
      rw [Client.exec]
      split <;> simp
    | _ => simp [Client.exec]

/-! ### Scripts that raise -/

/-- The statements of a function up to its end, or up to the exception that ends it. -/
structure Script where
  acts : List Act
  raises : Bool

/-- A function that returns. -/
def Script.pure (acts : List Act) : Script := ⟨acts, false⟩

/-- A function that raises. -/
def Script.raise (acts : List Act) : Script := ⟨acts, true⟩

/-- What comes after an exception is skipped. -/
def Script.andThen (s t : Script) : Script :=
  if s.raises then s else ⟨s.acts ++ t.acts, t.raises⟩

@[simp] theorem acts_pure (acts : List Act) : (Script.pure acts).acts = acts := rfl

@[simp] theorem acts_raise (acts : List Act) : (Script.raise acts).acts = acts := rfl

@[simp] theorem pure_andThen (acts : List Act) (t : Script) :
    (Script.pure acts).andThen t = ⟨acts ++ t.acts, t.raises⟩ := rfl

@[simp] theorem raise_andThen (acts : List Act) (t : Script) :
    (Script.raise acts).andThen t = .raise acts := rfl

theorem acts_andThen_subset (s t : Script) : (s.andThen t).acts ⊆ s.acts ++ t.acts := by
  rw [Script.andThen]
  split
  · exact List.subset_append_left _ _
  · exact List.Subset.refl _

theorem filterMap_andThen {s t : Script} {β : Type} {f : Act → Option β}
    (h : t.acts.filterMap f = []) : (s.andThen t).acts.filterMap f = s.acts.filterMap f := by
  rw [Script.andThen]
  split
  · rfl
  · rw [List.filterMap_append, h, List.append_nil]

theorem forall_andThen {s t : Script} {P : Act → Prop} (hs : ∀ a ∈ s.acts, P a)
    (ht : ∀ a ∈ t.acts, P a) : ∀ a ∈ (s.andThen t).acts, P a :=
  fun a ha => (List.mem_append.mp (acts_andThen_subset s t ha)).elim (hs a) (ht a)

end Twitch

end SwitchController
