import SwitchController.Twitch.Authority
import SwitchController.Twitch.Ghosts

/-!
# What has no influence

Four remote players, the chat and the timers share one program. Two questions about it are about
pairs of runs: what changes, if a player plays something else or nothing at all, and what changes,
if another user is banned?

The states a player sends are for the controller of one slot. Another slot, the queues, the
votes, the permissions and the chat show nothing of them
(`SwitchController.Twitch.run_isolated`): an observer who looks at slot `n` and at everything
that is not a controller sees the same run, whatever the others send.

The list of banned users is kept, stored, sent to the server and read out on demand, and nothing
else: no message and no state of a banned user is treated differently here, and every answer but
the list itself is the same (`SwitchController.Twitch.run_despite_bans`). There is one way in which
the list gets to a controller. `!unban` raises an exception for a user who is not on the list, and
the words of a message that raises do not get to the queue; as `!unban` is a word of the valid ones,
`!unban a` presses `A` exactly if there was a user `a` to unban.
-/

namespace SwitchController

namespace Twitch

open EventMachine

/-! ### One slot -/

/-- The controller an observation is about. -/
def PadObs.slot : PadObs → Slot
  | .reset n | .pressed n _ _ | .released n _ | .sent n _ => n

/-- The controllers without the others. -/
def Pads.seenFrom (n : Slot) (p : Pads) : Pads := fun m => if m = n then p m else .neutral

/-- The client without the other controllers. -/
def Client.alone (n : Slot) (c : Client) : Client := { c with pads := c.pads.seenFrom n }

/-- What is not about another controller. -/
def Obs.alone? (n : Slot) : Obs → Option Obs
  | .pad o => if o.slot = n then some (.pad o) else none
  | o => some o

/-- **What is seen from a slot**: everything but the other controllers, -/
def Client.seenFrom (n : Slot) (c : Client) : Client := (c.alone n).bare

/-- the events but the states of other slots, -/
def Event.seenFrom? (n : Slot) : Event → Option Event
  | .state m text => if m = n then some (.state m text) else none
  | e => some e

/-- and what is observed of anything but another controller. -/
def Obs.seenFrom? (n : Slot) (o : Obs) : Option Obs := (o.alone? n).map Obs.bare

@[simp] theorem seenFrom_self (n : Slot) (p : Pads) : p.seenFrom n n = p n := if_pos rfl

@[simp] theorem seenFrom_seenFrom (n : Slot) (p : Pads) :
    (p.seenFrom n).seenFrom n = p.seenFrom n := by
  funext m
  by_cases hm : m = n <;> simp [Pads.seenFrom, hm]

theorem seenFrom_eq_iff {n : Slot} {p q : Pads} : p.seenFrom n = q.seenFrom n ↔ p n = q n := by
  constructor
  · intro h
    simpa using congrFun h n
  · intro h
    funext m
    by_cases hm : m = n <;> simp [Pads.seenFrom, hm, h]

/-- What is observed of a controller is about that controller. -/
theorem slot_of_mem_exec {p : Pads} {a : PadAct} {o : PadObs} (h : o ∈ (p.exec a).2) :
    o.slot = a.slot := by
  cases a <;> simp [Pads.exec] at h <;> rw [h] <;> rfl

/-- **Another controller is not seen.** -/
theorem alone_exec_of_ne {n : Slot} {a : PadAct} (h : a.slot ≠ n) (c : Client) :
    (c.exec (.pad a)).1.alone n = c.alone n ∧
      (c.exec (.pad a)).2.filterMap (Obs.alone? n) = [] := by
  constructor
  · refine congrArg (fun pads => ({ c with pads := pads } : Client)) (seenFrom_eq_iff.mpr ?_)
    change (c.pads.exec a).1 n = c.pads n
    rw [fst_exec, Function.update_of_ne h.symm]
  · simp only [Client.exec, List.filterMap_map, List.filterMap_eq_nil_iff]
    intro o ho
    simp only [Function.comp_apply, Obs.alone?, slot_of_mem_exec ho, if_neg h]

/-- What is not about controllers does not read them. -/
theorem exec_with_pads {a : Act} (ha : a.kind ≠ .pad) (c : Client) (p : Pads) :
    ({ c with pads := p } : Client).exec a = ({ (c.exec a).1 with pads := p }, (c.exec a).2) ∧
      (c.exec a).1.pads = c.pads := by
  cases a with
  | pad a => exact absurd rfl ha
  | submit cmds =>
    simp only [Client.exec]
    split <;> exact ⟨rfl, rfl⟩
  | _ => exact ⟨rfl, rfl⟩

/-- **One statement** shows to a slot what it would show if there was no other. -/
theorem alone_exec (n : Slot) (c : Client) (a : Act) :
    (c.exec a).1.alone n = ((c.alone n).exec a).1.alone n ∧
      (c.exec a).2.filterMap (Obs.alone? n) = ((c.alone n).exec a).2.filterMap (Obs.alone? n) := by
  by_cases hkind : a.kind = .pad
  · obtain ⟨a, rfl⟩ : ∃ b, a = .pad b := by
      cases a <;> simp at hkind ⊢
    by_cases ha : a.slot = n
    · -- its controller is the one that is seen
      have hpad : c.pads.seenFrom n a.slot = c.pads a.slot := by rw [ha, seenFrom_self]
      constructor
      · refine congrArg (fun pads => ({ c with pads := pads } : Client)) (seenFrom_eq_iff.mpr ?_)
        change (c.pads.exec a).1 n = ((c.pads.seenFrom n).exec a).1 n
        rw [fst_exec, fst_exec, hpad, ha, Function.update_self, Function.update_self]
      · have hobs : (c.pads.exec a).2 = ((c.pads.seenFrom n).exec a).2 := by
          cases a <;> simp only [Pads.exec]
          exact congrArg (fun k => [PadObs.sent _ (Controller.getOutput k)]) hpad.symm
        exact congrArg (fun l => (l.map Obs.pad).filterMap (Obs.alone? n)) hobs
    · rw [(alone_exec_of_ne ha c).1, (alone_exec_of_ne ha c).2, (alone_exec_of_ne ha (c.alone n)).1,
        (alone_exec_of_ne ha (c.alone n)).2]
      exact ⟨by simp [Client.alone], rfl⟩
  · obtain ⟨hexec, hpads⟩ := exec_with_pads hkind c (c.pads.seenFrom n)
    simp [Client.alone, hexec, hpads]

/-- A script shows to a slot what it would show if there was no other. -/
theorem alone_perform (n : Slot) (c : Client) (acts : List Act) :
    (c.perform acts).1.alone n = ((c.alone n).perform acts).1.alone n ∧
      (c.perform acts).2.filterMap (Obs.alone? n) =
        ((c.alone n).perform acts).2.filterMap (Obs.alone? n) :=
  runFrom_view_all (Client.alone n) (Obs.alone? n) (G := fun _ => True)
    (fun c a _ => alone_exec n c a) (by simp [Client.alone]) (fun _ _ => trivial)

/-- A script about another controller shows nothing. -/
theorem alone_perform_of_ne {n : Slot} {acts : List Act}
    (h : ∀ a ∈ acts, ∃ b : PadAct, a = .pad b ∧ b.slot ≠ n) (c : Client) :
    (c.perform acts).1.alone n = c.alone n ∧ (c.perform acts).2.filterMap (Obs.alone? n) = [] := by
  induction acts generalizing c with
  | nil => exact ⟨rfl, rfl⟩
  | cons a acts ih =>
    obtain ⟨⟨b, rfl, hb⟩, hacts⟩ := List.forall_mem_cons.mp h
    obtain ⟨hstate, hlog⟩ := ih hacts (c.exec (.pad b)).1
    obtain ⟨hone, hobs⟩ := alone_exec_of_ne hb c
    simp only [Client.perform, runFrom_cons, List.filterMap_append] at hstate hlog ⊢
    rw [hstate, hone, hobs, hlog]
    exact ⟨rfl, rfl⟩

variable (U : Unicode)

/-- No handler reads a controller. -/
theorem script_with_pads (c : Client) (p : Pads) (e : Event) :
    script U { c with pads := p } e = script U c e := by
  cases e <;> rfl

/-- **One event** shows to a slot what it would show if there was no other. -/
theorem alone_step (n : Slot) (c : Client) (e : Event) :
    (step U c e).1.alone n = (step U (c.alone n) e).1.alone n ∧
      (step U c e).2.filterMap (Obs.alone? n) =
        (step U (c.alone n) e).2.filterMap (Obs.alone? n) := by
  have hscript : script U (c.alone n) e = script U c e := script_with_pads U c _ e
  obtain ⟨hstate, hlog⟩ := alone_perform n c (script U c e)
  rw [step, step, hscript]
  exact ⟨congrArg (fun c' : Client => { c' with clock := c.clock + 1 }) hstate, hlog⟩

/-- The marks of what is seen are those of what is there. -/
theorem filterMap_seenFrom? (n : Slot) (log : List Obs) :
    log.filterMap (Obs.seenFrom? n) = (log.map Obs.bare).filterMap (Obs.alone? n) := by
  rw [List.filterMap_map]
  refine congrArg (List.filterMap · log) (funext fun o => ?_)
  rcases o with (m | ⟨m, btn, cause⟩ | ⟨m, btn⟩ | ⟨m, msg⟩) | o | o | o
  all_goals simp only [Obs.seenFrom?, Obs.alone?, Function.comp_apply, Obs.bare, PadObs.bare,
    PadObs.slot, Option.map_some]
  all_goals by_cases hm : m = n <;> simp [hm, Obs.bare, PadObs.bare]

/-- **One event that is seen.** -/
theorem seenFrom_step (n : Slot) (c : Client) (e : Event) :
    (step U c e).1.seenFrom n = (step U (c.seenFrom n) e).1.seenFrom n ∧
      (step U c e).2.filterMap (Obs.seenFrom? n) =
        (step U (c.seenFrom n) e).2.filterMap (Obs.seenFrom? n) := by
  obtain ⟨hstate, hlog⟩ := bare_step U c e
  obtain ⟨hstate', hlog'⟩ := bare_step U (c.alone n) e
  obtain ⟨halone, hobs⟩ := alone_step U n c e
  have hbare : ∀ log : List Obs, log.filterMap (Obs.seenFrom? n) =
      (log.filterMap (Obs.alone? n)).map Obs.bare := fun log => List.map_filterMap.symm
  constructor
  · calc ((step U c e).1.alone n).bare = ((step U (c.alone n) e).1.alone n).bare := by rw [halone]
      _ = (step U (c.alone n) e).1.bare.alone n := rfl
      _ = (step U (c.seenFrom n) e).1.bare.alone n := by rw [hstate']; rfl
  · rw [hbare, hobs, ← hbare, filterMap_seenFrom?, hlog', ← filterMap_seenFrom?]
    rfl

/-- **The state of another slot** is not. -/
theorem seenFrom_step_of_ne {n m : Slot} (hm : m ≠ n) (c : Client) (text : Str) :
    (step U c (.state m text)).1.seenFrom n = c.seenFrom n ∧
      (step U c (.state m text)).2.filterMap (Obs.seenFrom? n) = [] := by
  have hother : ∀ a ∈ onControllerState U c m text, ∃ b : PadAct, a = .pad b ∧ b.slot ≠ n := by
    intro a ha
    obtain ⟨b, rfl, hb⟩ := slot_onControllerState U c m text a ha
    exact ⟨b, rfl, hb ▸ hm⟩
  obtain ⟨hstate, hlog⟩ := alone_perform_of_ne hother c
  have hseen : ((c.perform (onControllerState U c m text)).1.alone n).bare = c.seenFrom n :=
    congrArg Client.bare hstate
  have hnone := congrArg (List.map Obs.bare) hlog
  rw [List.map_filterMap] at hnone
  exact ⟨hseen, hnone⟩

/-- The lines to the controller of a slot are seen from it. -/
theorem linesTo_seenFrom (n : Slot) (log : List Obs) :
    linesTo n (log.filterMap (Obs.seenFrom? n)) = linesTo n log := by
  simp only [linesTo, List.filterMap_filterMap]
  congr 1
  funext o
  rcases o with (m | ⟨m, btn, cause⟩ | ⟨m, btn⟩ | ⟨m, msg⟩) | o | o | o
  all_goals simp only [Obs.seenFrom?, Obs.alone?, PadObs.slot, Obs.pad?, Option.bind_some,
    Option.map_some, Obs.bare]
  all_goals by_cases hm : m = n <;> simp [hm, Obs.bare, PadObs.bare]

/-- **Players do not disturb each other.** Take two runs whose events are the same but for the
states of other slots, of which there may be more, fewer or others. They look the same from a slot:
the same lines are transmitted to its controller, and the same happens to the queues, the votes and
everything outside. -/
theorem run_isolated (n : Slot) {c c' : Client} (hc : c.seenFrom n = c'.seenFrom n)
    {es es' : List Event}
    (hes : es.filterMap (Event.seenFrom? n) = es'.filterMap (Event.seenFrom? n)) :
    (run U c es).2.filterMap (Obs.seenFrom? n) = (run U c' es').2.filterMap (Obs.seenFrom? n) ∧
      linesTo n (run U c es).2 = linesTo n (run U c' es').2 ∧
      (run U c es).1.seenFrom n = (run U c' es').1.seenFrom n := by
  have hshown : ∀ c e, True → ∀ e', Event.seenFrom? n e = some e' →
      (step U c e).1.seenFrom n = (step U (c.seenFrom n) e').1.seenFrom n ∧
        (step U c e).2.filterMap (Obs.seenFrom? n) =
          (step U (c.seenFrom n) e').2.filterMap (Obs.seenFrom? n) := by
    intro c e _ e' he'
    obtain rfl : e = e' := by
      cases e with
      | state m text => exact Option.some.inj (Option.ite_none_right_eq_some.mp he').2
      | _ => exact Option.some.inj he'
    exact seenFrom_step U n c e
  have hhidden : ∀ c e, True → Event.seenFrom? n e = none →
      (step U c e).1.seenFrom n = c.seenFrom n ∧
        (step U c e).2.filterMap (Obs.seenFrom? n) = [] := by
    intro c e _ he'
    cases e with
    | state m text =>
      exact seenFrom_step_of_ne U (fun hm => absurd he' (by simp [Event.seenFrom?, hm])) c text
    | _ => exact absurd he' (Option.some_ne_none _)
  obtain ⟨hstate, hlog⟩ := runFrom_view (Client.seenFrom n) (Event.seenFrom? n) (Obs.seenFrom? n)
    hshown hhidden hc (fun _ _ => trivial) (fun _ _ => trivial) hes
  refine ⟨hlog, ?_, hstate⟩
  rw [← linesTo_seenFrom, run, hlog, linesTo_seenFrom, run]

/-- The player of the second slot holds `A`, or `B` somewhat later, and the third one plays in one
of the runs only; the first one does not notice. -/
theorem run_isolated_two :
    linesTo .one (run .ascii (Client.init none none)
        [.state .two "800000100000000 128 128 128 128", .chat "someone" "a",
          .state .three "800000100000000 128 128 128 128", .tick]).2 =
      linesTo .one (run .ascii (Client.init none none)
        [.chat "someone" "a", .state .two "800000010000000 128 128 128 128", .tick]).2 := by
  have hes : [.state .two "800000100000000 128 128 128 128", .chat "someone" "a",
        .state .three "800000100000000 128 128 128 128", .tick].filterMap
          (Event.seenFrom? .one) =
      [.chat "someone" "a", .state .two "800000010000000 128 128 128 128", .tick].filterMap
        (Event.seenFrom? .one) := rfl
  exact (run_isolated .ascii .one (c := Client.init none none) rfl hes).2.1

/-! ### Bans -/

section

variable (keep : Str → Bool)

/-- The permissions without the bans, those of some users apart. -/
def Permissions.unlisted (p : Permissions) : Permissions :=
  { p with banlist := p.banlist.filter keep, banlistPkl := none }

/-- **The client without its bans**, those of some users apart. -/
def Client.unlisted (c : Client) : Client := { c with permissions := c.permissions.unlisted keep }

/-- The answer to `!banlist` without the users. -/
def unlistedText (msg : Str) : Str := if ("ban list: " : Str) <+: msg then "ban list: " else msg

/-- What is sent and called outside, without the bans: the list is not sent to the server, and not
read out. -/
def IoAct.unlisted? : IoAct → Option IoAct
  | .chat msg => some (.chat (unlistedText msg))
  | .emit (.banlist _) => none
  | a => some a

/-- **A statement without its bans.** The end of a message without words for the queue is left out
as well. -/
def Act.unlisted? : Act → Option Act
  | .permission (.ban user) => if keep user then some (.permission (.ban user)) else none
  | .permission (.unban user) => if keep user then some (.permission (.unban user)) else none
  | .permission .dumpBanlist => none
  | .io a => a.unlisted?.map .io
  | .submit [] => none
  | a => some a

/-- **What is observed** of anything but the list. -/
def Obs.unlisted? : Obs → Option Obs
  | .io a => a.unlisted?.map .io
  | o => some o

/-- Without bans nobody's ban is lifted. -/
theorem filter_erase_of_not_keep {user : Str} (h : keep user = false) (users : List Str) :
    (users.erase user).filter keep = users.filter keep := by
  rw [← List.erase_filter, List.erase_of_not_mem]
  exact fun hmem => absurd ((List.mem_filter.mp hmem).2.symm.trans h) (by decide)

/-- A statement on the bans alone changes nothing else, -/
theorem unlisted_exec_of_none {a : Act} (h : a.unlisted? keep = none) (c : Client) :
    (c.exec a).1.unlisted keep = c.unlisted keep ∧ (c.exec a).2.filterMap Obs.unlisted? = [] := by
  cases a with
  | permission a =>
    cases a with
    | ban user =>
      have hkeep : keep user = false := by simpa [Act.unlisted?] using h
      simp [Client.exec, Permissions.exec, Client.unlisted, Permissions.unlisted, hkeep]
    | unban user =>
      have hkeep : keep user = false := by simpa [Act.unlisted?] using h
      simp [Client.exec, Permissions.exec, Client.unlisted, Permissions.unlisted,
        filter_erase_of_not_keep keep hkeep]
    | dumpBanlist => exact ⟨rfl, rfl⟩
    | givePlus | removePlus | dumpPluslist => exact absurd h (Option.some_ne_none _)
  | io a =>
    refine ⟨rfl, ?_⟩
    have hnone : a.unlisted?.map Obs.io = none := by simpa [Act.unlisted?] using h
    exact List.filterMap_eq_nil_iff.mpr (List.forall_mem_singleton.mpr hnone)
  | submit cmds =>
    cases cmds with
    | nil =>
      rw [Client.exec]
      split
      · simp [Client.unlisted]
      · exact ⟨rfl, rfl⟩
    | cons => exact absurd h (Option.some_ne_none _)
  | _ => exact absurd h (Option.some_ne_none _)

/-- and the others do not read the bans. -/
theorem unlisted_exec {a a' : Act} (h : a.unlisted? keep = some a') (c : Client) :
    (c.exec a).1.unlisted keep = ((c.unlisted keep).exec a').1 ∧
      (c.exec a).2.filterMap Obs.unlisted? = ((c.unlisted keep).exec a').2 := by
  cases a with
  | permission a =>
    cases a with
    | ban user =>
      obtain ⟨hkeep, rfl⟩ : keep user = true ∧ Act.permission (.ban user) = a' := by
        simpa [Act.unlisted?] using h
      simp [Client.exec, Permissions.exec, Client.unlisted, Permissions.unlisted, hkeep]
    | unban user =>
      obtain ⟨hkeep, rfl⟩ : keep user = true ∧ Act.permission (.unban user) = a' := by
        simpa [Act.unlisted?] using h
      simp [Client.exec, Permissions.exec, Client.unlisted, Permissions.unlisted,
        List.erase_filter]
    | dumpBanlist => exact absurd h.symm (Option.some_ne_none _)
    | givePlus | removePlus | dumpPluslist =>
      obtain rfl := Option.some.inj h
      exact ⟨rfl, rfl⟩
  | io a =>
    obtain ⟨b, hb, rfl⟩ := Option.map_eq_some_iff.mp h
    refine ⟨rfl, ?_⟩
    simp [Client.exec, Obs.unlisted?, hb]
  | submit cmds =>
    cases cmds with
    | nil => exact absurd h.symm (Option.some_ne_none _)
    | cons cmd cmds =>
      obtain rfl := Option.some.inj h
      have hon : (c.unlisted keep).switches = c.switches := rfl
      rw [Client.exec, Client.exec, hon]
      split
      · exact ⟨rfl, by simp [List.filterMap_map, Function.comp_def, Obs.unlisted?]⟩
      · exact ⟨rfl, rfl⟩
  | _ =>
    obtain rfl := Option.some.inj h
    refine ⟨rfl, ?_⟩
    simp [Client.exec, Client.unlisted, List.filterMap_map, Function.comp_def, Obs.unlisted?]

/-- **A script without its bans.** -/
theorem unlisted_perform (c : Client) (acts : List Act) :
    (c.perform acts).1.unlisted keep =
        ((c.unlisted keep).perform (acts.filterMap (Act.unlisted? keep))).1 ∧
      (c.perform acts).2.filterMap Obs.unlisted? =
        ((c.unlisted keep).perform (acts.filterMap (Act.unlisted? keep))).2 :=
  runFrom_part (Client.unlisted keep) (Act.unlisted? keep) Obs.unlisted?
    (fun c _ _ _ ha => unlisted_exec keep ha c) (fun c _ _ ha => unlisted_exec_of_none keep ha c) c

/-- No handler but that of messages reads the bans. -/
theorem script_unlisted (c : Client) {e : Event}
    (he : ∀ username message, e ≠ .chat username message) :
    script U (c.unlisted keep) e = script U c e := by
  cases e with
  | chat username message => exact absurd rfl (he username message)
  | _ => rfl

/-! ### Messages without the bans -/

/-- `!unban`. -/
theorem unlisted_unban (banlist : List Str) (user : Str) :
    (unban (banlist.filter keep) user).acts.filterMap (Act.unlisted? keep) =
      (unban banlist user).acts.filterMap (Act.unlisted? keep) := by
  cases hkeep : keep user with
  | true =>
    have hmem : user ∈ banlist.filter keep ↔ user ∈ banlist := by simp [hkeep]
    rw [unban, unban]
    simp only [hmem]
    split <;> rfl
  | false =>
    have hnone : ∀ banlist : List Str, (unban banlist user).acts.filterMap (Act.unlisted? keep) =
        [.io (.chat (unlistedText ("Unbanning: " ++ user)))] := by
      intro banlist
      rw [unban]
      split
      · simp [Act.unlisted?, IoAct.unlisted?, hkeep, List.filterMap_cons]
      · rfl
    rw [hnone, hnone]

/-- Commands of two words. -/
theorem unlisted_twoWords (p : Permissions) (username cmd arg : Str) :
    (twoWords (p.unlisted keep) username cmd arg).acts.filterMap (Act.unlisted? keep) =
      (twoWords p username cmd arg).acts.filterMap (Act.unlisted? keep) := by
  by_cases hcmd : cmd = "!unban" ∧ username ∈ modlist
  · obtain ⟨rfl, hmod⟩ := hcmd
    obtain ⟨-, -, -, hunban⟩ := twoWords_listCommands hmod p arg
    obtain ⟨-, -, -, hunban'⟩ := twoWords_listCommands hmod (p.unlisted keep) arg
    rw [hunban, hunban']
    exact unlisted_unban keep p.banlist arg
  · -- the list is sent to the server by `!ban` alone
    have hemit : ∀ users users' : List Str,
        [Act.io (.chat ("Banning: " ++ arg)), .permission (.ban arg), .io (.emit (.banlist users)),
          .permission .dumpBanlist].filterMap (Act.unlisted? keep) =
        [Act.io (.chat ("Banning: " ++ arg)), .permission (.ban arg), .io (.emit (.banlist users')),
          .permission .dumpBanlist].filterMap (Act.unlisted? keep) := by
      intro users users'
      cases hkeep : keep arg <;> simp [Act.unlisted?, IoAct.unlisted?, List.filterMap_cons, hkeep]
    simp only [twoWords, if_neg hcmd, pure_andThen, acts_pure, List.nil_append,
      List.filterMap_append, List.filterMap_flatten, List.map_cons, List.map_nil, filterMap_ifThen]
    rw [hemit _ (p.banlist ++ [arg])]

/-- It raises an exception only if a moderator is to lift a ban. -/
theorem raises_twoWords {p : Permissions} {username cmd arg : Str}
    (h : ¬(cmd = "!unban" ∧ username ∈ modlist)) :
    (twoWords p username cmd arg).raises = false := by
  rw [twoWords, if_neg h]
  rfl

/-- Commands of one word. -/
theorem unlisted_oneWord (p : Permissions) (username cmd : Str) :
    (oneWord (p.unlisted keep) username cmd).filterMap (Act.unlisted? keep) =
      (oneWord p username cmd).filterMap (Act.unlisted? keep) := by
  have htext : ∀ users, unlistedText (userText "ban list: " users) = "ban list: " :=
    fun users => if_pos (List.prefix_append _ _)
  rw [oneWord, oneWord, List.filterMap_flatten, List.filterMap_flatten]
  simp only [List.map_cons, List.map_nil, filterMap_ifThen, List.filterMap_cons, Act.unlisted?,
    IoAct.unlisted?, htext]
  rfl

/-- What a message gives to the queue, if a word of it is none of the commands. -/
theorem submitted_eq_nil (c : Client) (username : Str) {commands : List Str} {cmd : Str}
    (hmem : cmd ∈ commands) (hvalid : cmd ∉ validCommands) (hplus : isIn "+" cmd = false) :
    submitted c username commands = [] := by
  refine if_neg fun h => ?_
  have hcmd := List.all_eq_true.mp h.1 cmd hmem
  simp [rejects, hvalid, hplus, -String.reduceToList] at hcmd

/-- **The bans have no part in a message**, unless it is to lift one. -/
theorem unlisted_handleChat (c : Client) (username message : Str)
    (h : username ∈ modlist → ∀ user, U.commands message = [("!unban" : Str), user] →
      keep user = false → user ∉ validCommands ∧ isIn "+" user = false) :
    (handleChat U (c.unlisted keep) username message).filterMap (Act.unlisted? keep) =
      (handleChat U c username message).filterMap (Act.unlisted? keep) := by
  rw [handleChat_eq, handleChat_eq, chatActs, chatActs]
  have hsub : submitted (c.unlisted keep) username (U.commands message) =
      submitted c username (U.commands message) := rfl
  rw [hsub]
  generalize U.commands message = commands at h ⊢
  rcases commands with _ | ⟨cmd, _ | ⟨arg, _ | ⟨x, rest⟩⟩⟩
  · rfl
  · have hone := unlisted_oneWord keep c.permissions username cmd
    simp only [commandActs, acts_pure, List.filterMap_append]
    exact congrArg (fun l => _ ++ l ++ _) hone
  · have htwo := unlisted_twoWords keep c.permissions username cmd arg
    by_cases hcmd : cmd = "!unban" ∧ username ∈ modlist
    · obtain ⟨rfl, hmod⟩ := hcmd
      have hgoto : ("!unban" : Str) ≠ "!goto" := by decide
      have hacts : ∀ s : Script, (s.andThen (.pure [])).acts = s.acts ∧
          (s.andThen (.pure [])).raises = s.raises := by
        rintro ⟨acts, raises⟩
        cases raises <;> simp [Script.andThen, Script.pure]
      obtain ⟨-, -, -, hunban⟩ := twoWords_listCommands hmod c.permissions arg
      obtain ⟨-, -, -, hunban'⟩ := twoWords_listCommands hmod (c.unlisted keep).permissions arg
      -- the end of the message is reached by both, or its words do not get to the queue
      have hend : (if (twoWords (c.unlisted keep).permissions username "!unban" arg).raises then []
            else [Act.submit (submitted c username [("!unban" : Str), arg])]).filterMap
              (Act.unlisted? keep) =
          (if (twoWords c.permissions username "!unban" arg).raises then []
            else [Act.submit (submitted c username [("!unban" : Str), arg])]).filterMap
              (Act.unlisted? keep) := by
        cases hkeep : keep arg with
        | true =>
          have hmem : arg ∈ (c.unlisted keep).permissions.banlist ↔
              arg ∈ c.permissions.banlist := by
            simp [Client.unlisted, Permissions.unlisted, hkeep]
          simp only [hunban, hunban', unban, hmem]
          split <;> rfl
        | false =>
          obtain ⟨hvalid, hplus⟩ := h hmod arg rfl hkeep
          rw [submitted_eq_nil c username (List.mem_cons_of_mem _ List.mem_cons_self) hvalid hplus]
          split <;> split <;> rfl
      simp only [commandActs, if_neg hgoto, hacts, List.filterMap_append]
      exact congrArg₂ (_ ++ · ++ ·) htwo hend
    · simp only [commandActs, Script.andThen, raises_twoWords hcmd, Bool.false_eq_true, reduceIte,
        List.filterMap_append]
      exact congrArg (fun l => _ ++ (l ++ _) ++ _) htwo
  · rfl

/-- **One event** does the same, whoever is banned. -/
theorem unlisted_step (c : Client) {e : Event}
    (he : ∀ username message user, e = .chat username message → username ∈ modlist →
      U.commands message = [("!unban" : Str), user] → keep user = false →
        user ∉ validCommands ∧ isIn "+" user = false) :
    (step U c e).1.unlisted keep = (step U (c.unlisted keep) e).1.unlisted keep ∧
      (step U c e).2.filterMap Obs.unlisted? =
        (step U (c.unlisted keep) e).2.filterMap Obs.unlisted? := by
  have hscript : (script U (c.unlisted keep) e).filterMap (Act.unlisted? keep) =
      (script U c e).filterMap (Act.unlisted? keep) := by
    cases e with
    | chat username message =>
      exact unlisted_handleChat U keep c username message fun hmod user huser =>
        he username message user rfl hmod huser
    | _ => exact congrArg (List.filterMap _) (script_unlisted U keep c (by simp))
  have hidem : (c.unlisted keep).unlisted keep = c.unlisted keep := by
    simp [Client.unlisted, Permissions.unlisted, List.filter_filter]
  obtain ⟨hstate, hlog⟩ := unlisted_perform keep c (script U c e)
  obtain ⟨hstate', hlog'⟩ := unlisted_perform keep (c.unlisted keep) (script U (c.unlisted keep) e)
  rw [hscript, hidem] at hstate' hlog'
  exact ⟨congrArg (fun c' : Client => { c' with clock := c.clock + 1 })
    (hstate.trans hstate'.symm), hlog.trans hlog'.symm⟩

end

theorem linesTo_unlisted (n : Slot) (log : List Obs) :
    linesTo n (log.filterMap Obs.unlisted?) = linesTo n log := by
  simp only [linesTo, List.filterMap_filterMap]
  congr 1
  funext o
  cases o with
  | io a =>
    rw [Obs.unlisted?]
    cases a.unlisted? <;> rfl
  | _ => rfl

/-- A moderator's message that is to lift the ban of a user whose name is one of the commands. -/
def Event.unbansCommand : Event → Prop
  | .chat username message => username ∈ modlist ∧ ∃ user,
      U.commands message = [("!unban" : Str), user] ∧
        (user ∈ validCommands ∨ isIn "+" user = true)
  | _ => False

/-- **Bans are without effect.** Whoever is banned at the start and in between, all that is observed
is the same – what happens to the controllers, the queues and the votes, every answer, every event
that is emitted and every command that is called – but for the list itself, sent to the server or
read out in the chat; and the program is in the same state in the end, but for the list. Unless
a moderator says `!unban` and the name of a command. -/
theorem run_despite_bans {c c' : Client}
    (hc : c.unlisted (fun _ => false) = c'.unlisted fun _ => false) {es : List Event}
    (hes : ∀ e ∈ es, ¬e.unbansCommand U) :
    (run U c es).2.filterMap Obs.unlisted? = (run U c' es).2.filterMap Obs.unlisted? ∧
      (∀ n, linesTo n (run U c es).2 = linesTo n (run U c' es).2) ∧
      ((run U c es).1.unlisted fun _ => false) = (run U c' es).1.unlisted fun _ => false := by
  have hstep : ∀ c e, ¬Event.unbansCommand U e →
      ((step U c e).1.unlisted fun _ => false) =
          ((step U (c.unlisted fun _ => false) e).1.unlisted fun _ => false) ∧
        (step U c e).2.filterMap Obs.unlisted? =
          (step U (c.unlisted fun _ => false) e).2.filterMap Obs.unlisted? := by
    refine fun c e he => unlisted_step U _ c ?_
    rintro username message user rfl hmod huser -
    have hnot := fun h => he ⟨hmod, user, huser, h⟩
    exact ⟨fun h => hnot (.inl h), Bool.eq_false_iff.mpr fun h => hnot (.inr h)⟩
  obtain ⟨hstate, hlog⟩ :=
    runFrom_view_all (Client.unlisted fun _ => false) Obs.unlisted? hstep hc hes
  refine ⟨hlog, fun n => ?_, hstate⟩
  rw [← linesTo_unlisted, run, hlog, linesTo_unlisted, run]

/-- A banned user presses `A` like anyone else, is banned again, and asks for the list. -/
theorem run_despite_bans_one :
    let es : List Event := [.chat "someone" "a", .chat "alua2020" "!ban someone",
      .chat "someone" "!banlist", .tick]
    let banned := Client.init none (some ["someone"])
    (run .ascii banned es).2 ≠ (run .ascii (Client.init none none) es).2 ∧
      (run .ascii banned es).2.filterMap Obs.unlisted? =
        (run .ascii (Client.init none none) es).2.filterMap Obs.unlisted? := by
  intro es banned
  have hes : ∀ e ∈ es, ¬Event.unbansCommand .ascii e := by
    have hban : Unicode.ascii.commands "!ban someone" = [("!ban" : Str), "someone"] := by
      decide +kernel
    simp only [es, List.forall_mem_cons]
    refine ⟨fun h => absurd h.1 (by decide), ?_, fun h => absurd h.1 (by decide), id,
      List.forall_mem_nil _⟩
    rintro ⟨-, user, huser, -⟩
    exact absurd (List.cons.inj (hban.symm.trans huser)).1 (by decide)
  exact ⟨by decide +kernel, (@run_despite_bans .ascii banned (Client.init none none) rfl es hes).1⟩

end Twitch

end SwitchController
