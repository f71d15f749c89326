import SwitchController.Lib.Interruption
import SwitchController.Twitch.Authority

/-!
# Permissions across a restart

`pluslist` and `banlist` are written to files by the commands that change them, and loaded when the
program starts. Each of these commands also sends a message to the chat, and those for `banlist`
emit the new list to the server, and either may raise an exception. It is swallowed in `loop`, and
what was left to do of the message is not done.

`!giveplus` and `!removeplus` change the list and write it with nothing in between. `!ban` and
`!unban` emit it in between. So `pluslist` survives a restart whatever fails, and `banlist` does
just when no change of it was followed by an emit that raises
(`SwitchController.Twitch.kept_iff`).

The statements of a message are those of `SwitchController.Twitch.handleChat`, cut off at the call
that raises. The counters of votes, which `goto_game_vote` clears before it answers, are cleared
together with what comes after the answer there; nothing here depends on them.
-/

namespace SwitchController

namespace Twitch

open EventMachine Interruption

/-! ### Calls that raise -/

/-- The calls that may raise: `twitchBot.chat` and `socketio.emit`. -/
def Act.mayRaise : Act → Bool
  | .io (.chat _) => true
  | .io (.emit _) => true
  | _ => false

/-- **An event, and which of its calls raise** if it is a message. -/
structure Attempt where
  event : Event
  raises : ℕ → Bool

/-- What is done of it. -/
def Attempt.script (U : Unicode) (c : Client) (e : Attempt) : List Act :=
  match e.event with
  | .chat username message => upTo Act.mayRaise e.raises (handleChat U c username message)
  | event => Twitch.script U c event

/-- **One event**, where calls may raise. -/
def attempt (U : Unicode) (c : Client) (e : Attempt) : Client × List Obs :=
  ({ (c.perform (e.script U c)).1 with clock := c.clock + 1 }, (c.perform (e.script U c)).2)

theorem Attempt.script_isPrefix (U : Unicode) (c : Client) (e : Attempt) :
    e.script U c <+: Twitch.script U c e.event := by
  rw [Attempt.script]
  split
  · rename_i username message hevent
    rw [hevent]
    exact upTo_isPrefix
  · exact List.prefix_rfl

/-- Where none raises, it is what it was before. -/
theorem attempt_eq_step (U : Unicode) (c : Client) {e : Attempt} (h : ∀ k, e.raises k = false) :
    attempt U c e = step U c e.event := by
  have hscript : e.script U c = script U c e.event := by
    rw [Attempt.script]
    split
    · rename_i username message hevent
      rw [upTo_of_forall h, hevent]
      rfl
    · rfl
  rw [attempt, hscript]
  rfl

/-- **What a restart finds**: the lists as they are loaded from the files. -/
def Permissions.reload (p : Permissions) : Permissions :=
  (Client.init p.pluslistPkl p.banlistPkl).permissions

/-- **A change of `banlist` that is not written**: a moderator bans a user, or unbans a user who is
banned, and the emit raises. -/
def loses (U : Unicode) (c : Client) (e : Attempt) : Bool :=
  match e.event with
  | .chat username message => username ∈ modlist && !e.raises 0 && e.raises 1 &&
      match U.commands message with
      | [cmd, user] => cmd = "!ban" || (cmd = "!unban" && user ∈ c.permissions.banlist)
      | _ => false
  | _ => false

/-! ### The commands that change the lists -/

section

variable {U : Unicode} {c : Client} {username message cmd user : Str} {raises : ℕ → Bool}

/-- The statements of such a command, after those of the loop. -/
theorem handleChat_listCommand (h : U.commands message = [cmd, user]) (hcmd : cmd ∈ listCommands) :
    handleChat U c username message = [cmd, user].flatMap (loopActs username) ++
      ((twoWords c.permissions username cmd user).andThen
        (.pure [.submit (submitted c username [cmd, user])])).acts := by
  have hno : ∀ cmd ∈ listCommands, cmd ≠ "!goto" ∧ cmd ≠ "!controls" ∧ cmd ≠ "!help" := by decide
  obtain ⟨hgoto, hcontrols, hhelp⟩ := hno cmd hcmd
  have hnone : helpActs [cmd, user] = [] := by
    simp [helpActs, ifThen, hcontrols, hhelp, -String.reduceToList]
  rw [handleChat, h, pure_andThen, hnone, List.nil_append, commandActs, if_neg hgoto]
  cases hraises : (twoWords c.permissions username cmd user).raises <;>
    simp [Script.andThen, Script.pure, hraises]

/-- The loop neither raises nor changes a list. -/
theorem permission_upTo (h : U.commands message = [cmd, user]) (hcmd : cmd ∈ listCommands) :
    (upTo Act.mayRaise raises (handleChat U c username message)).filterMap Act.permission? =
      (upTo Act.mayRaise raises ((twoWords c.permissions username cmd user).andThen
        (.pure [.submit (submitted c username [cmd, user])])).acts).filterMap Act.permission? := by
  have hloop := kind_flatMap_loopActs username [cmd, user]
  have hquiet : ∀ a ∈ [cmd, user].flatMap (loopActs username), a.mayRaise = false := by
    intro a ha
    cases a with
    | io b => simpa using hloop _ ha
    | _ => rfl
  have hnone := filterMap_permission?_eq_nil fun a ha => by
    rcases hloop a ha with hkind | hkind <;> rw [hkind] <;> decide
  rw [handleChat_listCommand h hcmd, upTo_append hquiet, List.filterMap_append, hnone,
    List.nil_append]

/-- A change that is written at once: both are done, or nothing is. -/
theorem permission_write (msg : Str) (a b : PermAct) (cmds : List Queued) :
    (upTo Act.mayRaise raises [.io (.chat msg), .permission a, .permission b,
      .submit cmds]).filterMap Act.permission? = if raises 0 then [] else [a, b] := by
  cases h0 : raises 0 <;> simp [upTo, Act.mayRaise, h0, List.filterMap_cons]

/-- A change that is emitted first: it may be done and not written. -/
theorem permission_emit_write (msg : Str) (a b : PermAct) (e : Emit) (cmds : List Queued) :
    (upTo Act.mayRaise raises [.io (.chat msg), .permission a, .io (.emit e), .permission b,
      .submit cmds]).filterMap Act.permission? =
        if raises 0 then [] else if raises 1 then [a] else [a, b] := by
  cases h0 : raises 0 <;> cases h1 : raises 1 <;>
    simp [upTo, Act.mayRaise, h0, h1, List.filterMap_cons]

end

/-! ### One event -/

/-- **What an event does to the lists**, as statements, and whether a change of `banlist` is not
written. -/
inductive Recorded (p : Permissions) : List PermAct → Bool → Prop
  | dumps {acts : List PermAct} (h : ∀ a ∈ acts, a = .dumpPluslist) : Recorded p acts false
  | givePlus (user : Str) : Recorded p [.givePlus user, .dumpPluslist] false
  | removePlus (user : Str) : Recorded p [.removePlus user, .dumpPluslist] false
  | ban (user : Str) : Recorded p [.ban user, .dumpBanlist] false
  | unban (user : Str) : Recorded p [.unban user, .dumpBanlist] false
  | lostBan (user : Str) : Recorded p [.ban user] true
  | lostUnban {user : Str} (h : user ∈ p.banlist) : Recorded p [.unban user] true

/-- The commands that change the lists. -/
theorem recorded_twoWords {username cmd : Str} (hmod : username ∈ modlist)
    (hcmd : cmd ∈ listCommands) (p : Permissions) (user : Str) (cmds : List Queued)
    (raises : ℕ → Bool) :
    Recorded p ((upTo Act.mayRaise raises ((twoWords p username cmd user).andThen
        (.pure [.submit cmds])).acts).filterMap Act.permission?)
      (!raises 0 && raises 1 && (cmd = "!ban" || (cmd = "!unban" && user ∈ p.banlist))) := by
  have hnone : Recorded p [] false := .dumps (List.forall_mem_nil _)
  obtain ⟨hgive, hremove, hban, hunban⟩ := twoWords_listCommands hmod p user
  simp only [listCommands, List.mem_cons, List.not_mem_nil, or_false] at hcmd
  rcases hcmd with rfl | rfl | rfl | rfl
  · rw [hgive]
    refine (permission_write _ _ _ _).symm ▸ ?_
    cases h0 : raises 0 with
    | true => simpa using hnone
    | false => simpa using Recorded.givePlus user
  · rw [hremove]
    refine (permission_write _ _ _ _).symm ▸ ?_
    cases h0 : raises 0 with
    | true => simpa using hnone
    | false => simpa using Recorded.removePlus user
  · rw [hban]
    refine (permission_emit_write _ _ _ _ _).symm ▸ ?_
    cases h0 : raises 0 with
    | true => simpa using hnone
    | false =>
      cases h1 : raises 1 with
      | true => simpa using Recorded.lostBan user
      | false => simpa using Recorded.ban user
  · by_cases huser : user ∈ p.banlist
    · rw [hunban, unban, if_pos huser]
      refine (permission_emit_write _ _ _ _ _).symm ▸ ?_
      cases h0 : raises 0 with
      | true => simpa using hnone
      | false =>
        cases h1 : raises 1 with
        | true => simpa [huser] using Recorded.lostUnban huser
        | false => simpa using Recorded.unban user
    · -- `banlist.remove` raises, and nothing was changed
      have hquiet : ∀ a ∈ upTo Act.mayRaise raises [.io (.chat ("Unbanning: " ++ user))],
          a.kind ≠ .permission := fun a ha => by
        rw [List.mem_singleton.mp (upTo_isPrefix.subset ha)]
        simp
      rw [hunban, unban, if_neg huser, raise_andThen]
      refine (filterMap_permission?_eq_nil hquiet).symm ▸ ?_
      simpa [huser] using hnone

theorem exists_of_loses {U : Unicode} {c : Client} {e : Attempt} (h : loses U c e = true) :
    ∃ username message cmd user, e.event = .chat username message ∧ username ∈ modlist ∧
      U.commands message = [cmd, user] ∧ cmd ∈ listCommands := by
  rw [loses] at h
  split at h
  · rename_i username message hevent
    simp only [Bool.and_eq_true, decide_eq_true_eq] at h
    obtain ⟨⟨⟨hmod, -⟩, -⟩, h⟩ := h
    split at h
    · rename_i cmd user hcmd
      refine ⟨username, message, cmd, user, hevent, hmod, hcmd, ?_⟩
      simp only [Bool.or_eq_true, Bool.and_eq_true, decide_eq_true_eq] at h
      rcases h with rfl | ⟨rfl, -⟩ <;> decide
    · exact absurd h (by decide)
  · exact absurd h (by decide)

theorem loses_listCommand {U : Unicode} {c : Client} {e : Attempt} {username message cmd user : Str}
    (hevent : e.event = .chat username message) (hmod : username ∈ modlist)
    (hcmd : U.commands message = [cmd, user]) :
    loses U c e = (!e.raises 0 && e.raises 1 &&
      (cmd = "!ban" || (cmd = "!unban" && user ∈ c.permissions.banlist))) := by
  simp [loses, hevent, hmod, hcmd, -String.reduceToList]

/-- An event that is none of these commands. -/
theorem dump_attempt {U : Unicode} {c : Client} {e : Attempt}
    (h : ¬∃ username message cmd user, e.event = .chat username message ∧ username ∈ modlist ∧
      U.commands message = [cmd, user] ∧ cmd ∈ listCommands) :
    loses U c e = false ∧ ∀ b ∈ (e.script U c).filterMap Act.permission?, b = .dumpPluslist := by
  constructor
  · by_contra hloses
    exact h (exists_of_loses (Bool.not_eq_false _ ▸ hloses))
  · intro b hb
    have hmem := (mem_filterMap_of_isPartialInv isPartialInv_permission).mp hb
    refine dump_script ?_ _ ((e.script_isPrefix U c).subset hmem) b rfl
    exact fun username message cmd user hchat hmod hcmd hlist =>
      h ⟨username, message, cmd, user, hchat, hmod, hcmd, hlist⟩

theorem recorded_attempt (U : Unicode) (c : Client) (e : Attempt) :
    Recorded c.permissions ((e.script U c).filterMap Act.permission?) (loses U c e) := by
  by_cases hlist : ∃ username message cmd user, e.event = .chat username message ∧
      username ∈ modlist ∧ U.commands message = [cmd, user] ∧ cmd ∈ listCommands
  · obtain ⟨username, message, cmd, user, hevent, hmod, hcmd, hmem⟩ := hlist
    simp only [Attempt.script, hevent, permission_upTo hcmd hmem,
      loses_listCommand hevent hmod hcmd]
    exact recorded_twoWords hmod hmem c.permissions user _ e.raises
  · obtain ⟨hlost, hdump⟩ := dump_attempt (c := c) hlist
    rw [hlost]
    exact .dumps hdump

variable {p : Permissions} {acts : List PermAct} {lost : Bool}

/-- `pluslist` is never changed without being written, -/
theorem Recorded.pluslist (h : Recorded p acts lost) (hp : p.reload.pluslist = p.pluslist) :
    (acts.foldl Permissions.exec p).reload.pluslist = (acts.foldl Permissions.exec p).pluslist := by
  cases h with
  | dumps h =>
    refine List.foldlRecOn (motive := fun p : Permissions => p.reload.pluslist = p.pluslist)
      acts _ hp fun p _ a ha => ?_
    rw [h a ha]
    rfl
  | ban user => exact hp
  | unban user => exact hp
  | lostBan user => exact hp
  | lostUnban _ => exact hp
  | _ => rfl

/-- and `banlist` is unless the change is lost. -/
theorem Recorded.banlist_iff (h : Recorded p acts lost) (hp : p.reload.banlist = p.banlist) :
    (acts.foldl Permissions.exec p).reload.banlist = (acts.foldl Permissions.exec p).banlist ↔
      lost = false := by
  cases h with
  | dumps h =>
    refine iff_of_true ?_ rfl
    refine List.foldlRecOn (motive := fun p : Permissions => p.reload.banlist = p.banlist)
      acts _ hp fun p hp a ha => ?_
    rw [h a ha]
    exact hp
  | lostBan user =>
    refine iff_of_false (fun heq => ?_) (by decide)
    exact absurd (congrArg List.length (hp.symm.trans heq)) (by simp [Permissions.exec])
  | lostUnban h =>
    refine iff_of_false (fun heq => ?_) (by decide)
    exact List.erase_eq_self_iff.mp (heq.symm.trans hp) h
  | givePlus user => exact iff_of_true hp rfl
  | removePlus user => exact iff_of_true hp rfl
  | _ => exact iff_of_true rfl rfl

theorem permissions_attempt (U : Unicode) (c : Client) (e : Attempt) :
    (attempt U c e).1.permissions =
      ((e.script U c).filterMap Act.permission?).foldl Permissions.exec c.permissions :=
  permissions_perform c _

theorem reload_eq_iff : p.reload = p ↔
    p.reload.pluslist = p.pluslist ∧ p.reload.banlist = p.banlist := by
  constructor
  · exact fun h => ⟨congrArg Permissions.pluslist h, congrArg Permissions.banlist h⟩
  · rintro ⟨hplus, hban⟩
    obtain ⟨pluslist, banlist, pluslistPkl, banlistPkl⟩ := p
    exact congrArg₂ (fun pluslist banlist =>
      (⟨pluslist, banlist, pluslistPkl, banlistPkl⟩ : Permissions)) hplus hban

/-- **What a restart finds.** Calls to the chat and to the server may raise in the messages of a
run. After each of its events a restart would find `pluslist` as it is. It would find `banlist` as
it is, too, just when no moderator bans a user, or unbans a banned one, with an emit that
raises. -/
theorem kept_iff (U : Unicode) (pluslistPkl banlistPkl : Option (List Str)) (es : List Attempt) :
    let c (pre : List Attempt) := (runFrom (attempt U) (Client.init pluslistPkl banlistPkl) pre).1
    (∀ pre, pre <+: es → (c pre).permissions.reload.pluslist = (c pre).permissions.pluslist) ∧
      ((∀ pre, pre <+: es → (c pre).permissions.reload = (c pre).permissions) ↔
        Guarded (attempt U) (fun c _ e => loses U c e = false)
          (Client.init pluslistPkl banlistPkl) es) := by
  intro c
  have hplus : ∀ pre, (c pre).permissions.reload.pluslist = (c pre).permissions.pluslist := by
    refine runFrom_invariant
      (P := fun (c : Client) _ => c.permissions.reload.pluslist = c.permissions.pluslist) rfl ?_
    intro c _ e hc
    rw [permissions_attempt]
    exact (recorded_attempt U c e).pluslist hc
  refine ⟨fun pre _ => hplus pre, ?_⟩
  refine forall_isPrefix_iff_guarded
    (P := fun (c : Client) _ => c.permissions.reload = c.permissions) rfl fun c _ e hc => ?_
  have hrecorded := recorded_attempt U c e
  obtain ⟨hplus, hban⟩ := reload_eq_iff.mp hc
  rw [reload_eq_iff, permissions_attempt, hrecorded.banlist_iff hban]
  exact and_iff_right (hrecorded.pluslist hplus)

/-- **A ban that a restart undoes**: its emit raises, and it is not written. -/
theorem reload_of_ban :
    let c := (runFrom (attempt .ascii) (Client.init none none)
      [⟨.chat "alua2020" "!ban troll", fun k => k = 1⟩]).1
    c.permissions.banlist = [("troll" : Str)] ∧ c.permissions.reload.banlist = [] := by
  decide +kernel

end Twitch

end SwitchController
