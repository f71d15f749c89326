import Mathlib.Data.List.Nodup
import SwitchController.Twitch.Run

/-!
# Who may do what

The help text of the program lists commands as *mods only* and *plus only*. What a message
can do is decided in some twenty places of `handleChat`, each with a test of its own or with
none. `SwitchController.Twitch.privileged_handleChat` goes through them once and says what is
left to a user who is not a moderator: there are two commands that are not tested at all,
`!restartserver` and `!restartscript`, and `!fixcontrollers`, which enables the chat at its end,
whoever disabled it.

What a moderator takes away with `!removeplus` and `!unban` is taken out of a list once. A user
who is on the list twice is still there.
-/

namespace SwitchController

namespace Twitch

open EventMachine

/-! ### Effects for moderators -/

/-- The events for moderators. -/
def Emit.modsOnly : Emit → Bool
  | .restartServer | .forceRefresh | .setTurnLength _ | .setForfeitLength _ | .banlist _ => true
  | _ => false

/-- **The statements a message makes for moderators only**, the switch of the chat left aside. -/
def Act.privileged : Act → Bool
  | .permission a => a ≠ .dumpPluslist
  | .poll (.ballot _ _) => false
  | .poll (.gotoGameVote _) => false
  | .poll _ => true
  | .io (.emit e) => e.modsOnly
  | .io (.system command) => command = killPython
  | _ => false

/-- **None of the effects listed as mods only** has taken place. A vote may have been started. -/
structure NoModEffect (c : Client) (r : Client × List Obs) : Prop where
  pluslist : r.1.permissions.pluslist = c.permissions.pluslist
  banlist : r.1.permissions.banlist = c.permissions.banlist
  chatEnabled : r.1.switches.chatEnabled = c.switches.chatEnabled
  disabled : .poll .disabled ∉ r.2
  enabled : .poll .enabled ∉ r.2
  voting : r.1.poll.voting = c.poll.voting ∨ ∃ g, .poll (.voteStarted g) ∈ r.2
  emits : ∀ e, .io (.emit e) ∈ r.2 → e.modsOnly = false
  alive : .io (.system killPython) ∉ r.2

section

variable {U : Unicode} {c : Client} {username message : Str}

/-! ### What a message does for everyone -/

theorem twoWords_of_not_mem (hu : username ∉ modlist) (p : Permissions) (cmd arg : Str) :
    (twoWords p username cmd arg).acts = [] := by
  simp [twoWords, ifThen, hu]

/-- Two of the commands of one word are not tested. -/
theorem privileged_oneWord (hu : username ∉ modlist) (p : Permissions) (cmd : Str) :
    ∀ a ∈ oneWord p username cmd, a.privileged →
      (cmd = "!restartserver" ∧ a = .io (.emit .restartServer)) ∨
        (cmd = "!restartscript" ∧ a = .io (.system killPython)) := by
  have hfix : ∀ a ∈ fixControllers, ¬a.privileged := by decide
  have hstreamr : ("taskkill /f /im streamr.exe" : Str) ≠ killPython := by decide
  simp only [oneWord, forall_flatten, List.forall_mem_cons, forall_ifThen]
  simp [Act.privileged, Emit.modsOnly, hu, hstreamr, -String.reduceToList]
  -- what is left is `!fixcontrollers`, which has its own statements
  intro _ _ a ha hpriv
  exact absurd hpriv (by simpa [Act.privileged, Emit.modsOnly] using hfix a ha)

/-- **What a message can do for a user who is not a moderator**, of all that is for
moderators. -/
theorem privileged_handleChat (hu : username ∉ modlist) :
    ∀ a ∈ handleChat U c username message, a.privileged →
      (U.commands message = [("!restartserver" : Str)] ∧ a = .io (.emit .restartServer)) ∨
        (U.commands message = [("!restartscript" : Str)] ∧ a = .io (.system killPython)) := by
  refine forall_handleChat (by simp [Act.privileged]) ?_ ?_ ?_ (by simp [Act.privileged])
    (by simp [Act.privileged])
  · intro cmd _
    simp only [loopActs, forall_flatten, List.forall_mem_cons, forall_ifThen]
    simp [Act.privileged]
  · intro cmd hcmd a ha hpriv
    rw [hcmd]
    rcases privileged_oneWord hu _ cmd a ha hpriv with ⟨rfl, rfl⟩ | ⟨rfl, rfl⟩
    · exact Or.inl ⟨rfl, rfl⟩
    · exact Or.inr ⟨rfl, rfl⟩
  · intro cmd arg _
    rw [twoWords_of_not_mem hu]
    exact List.forall_mem_nil _

theorem mem_handleChat_of_oneWord {cmd : Str} {a : Act} (h : U.commands message = [cmd])
    (ha : a ∈ oneWord c.permissions username cmd) : a ∈ handleChat U c username message := by
  rw [handleChat_of_commands_eq h]
  simp [ha]

theorem exists_flatten_eq_append {L : List (List Act)} {last : List Act}
    (h : L.getLast? = some last) : ∃ acts, L.flatten = acts ++ last := by
  obtain ⟨L', rfl⟩ := List.getLast?_eq_some_iff.mp h
  exact ⟨L'.flatten, by simp⟩

/-- `!fixcontrollers` is the last of the commands of one word. -/
theorem oneWord_fixcontrollers {p : Permissions} (hu : username ∈ p.pluslist) :
    ∃ acts, oneWord p username "!fixcontrollers" = acts ++ fixControllers := by
  obtain ⟨acts, hacts⟩ : ∃ acts, oneWord p username "!fixcontrollers" = acts ++
      ifThen (("!fixcontrollers" : Str) = "!fixcontrollers" ∧ username ∈ p.pluslist)
        fixControllers :=
    exists_flatten_eq_append rfl
  exact ⟨acts, by rw [hacts, ifThen_pos ⟨rfl, hu⟩]⟩

theorem chatEnabled_oneWord (hu : username ∉ modlist) (p : Permissions) (cmd : Str) (on : Bool) :
    ∀ a ∈ oneWord p username cmd, a = .switch (.chatEnabled on) →
      cmd = "!fixcontrollers" ∧ username ∈ p.pluslist := by
  simp only [oneWord, forall_flatten, List.forall_mem_cons, forall_ifThen]
  simp [hu, -String.reduceToList]
  exact fun hcmd hplus _ _ _ => ⟨hcmd, hplus⟩

/-- Only `!fixcontrollers` switches the chat for a user who is not a moderator. -/
theorem mem_chatEnabled_handleChat (hu : username ∉ modlist) (on : Bool) :
    ∀ a ∈ handleChat U c username message, a = .switch (.chatEnabled on) →
      U.commands message = [("!fixcontrollers" : Str)] ∧ username ∈ c.permissions.pluslist := by
  refine forall_handleChat (by simp) ?_ ?_ ?_ (by simp) (by simp)
  · intro cmd _
    simp only [loopActs, forall_flatten, List.forall_mem_cons, forall_ifThen]
    simp
  · intro cmd hcmd a ha hon
    obtain ⟨rfl, hplus⟩ := chatEnabled_oneWord hu _ cmd on a ha hon
    exact ⟨hcmd, hplus⟩
  · intro cmd arg _
    rw [twoWords_of_not_mem hu]
    exact List.forall_mem_nil _

theorem chatEnabled_foldl {acts : List SwitchAct} (h : ∀ on, .chatEnabled on ∉ acts)
    (s : Switches) : (acts.foldl Switches.exec s).chatEnabled = s.chatEnabled := by
  refine foldl_frame Switches.chatEnabled (fun a ha s => ?_) s
  cases a with
  | chatEnabled on => exact absurd ha (h on)
  | _ => rfl

/-- `!fixcontrollers` enables the chat at its end, whatever came before. -/
theorem chatEnabled_fixcontrollers (h : U.commands message = [("!fixcontrollers" : Str)])
    (hplus : username ∈ c.permissions.pluslist) :
    (c.perform (handleChat U c username message)).1.switches.chatEnabled = true := by
  obtain ⟨acts, hacts⟩ := oneWord_fixcontrollers hplus
  rw [switches_perform, handleChat_of_commands_eq h, hacts, ← List.append_assoc,
    List.filterMap_append, List.filterMap_append, List.foldl_append, List.foldl_append]
  rfl

/-- **The chat switch**, as a message of a user who is not a moderator leaves it. -/
theorem chatEnabled_handleChat (hu : username ∉ modlist) :
    (c.perform (handleChat U c username message)).1.switches.chatEnabled =
      if U.commands message = [("!fixcontrollers" : Str)] ∧ username ∈ c.permissions.pluslist then
        true
      else c.switches.chatEnabled := by
  split_ifs with hfix
  · exact chatEnabled_fixcontrollers hfix.1 hfix.2
  · rw [switches_perform]
    refine chatEnabled_foldl (fun on hmem => hfix ?_) _
    have hacts := (mem_filterMap_of_isPartialInv isPartialInv_switch).mp hmem
    exact mem_chatEnabled_handleChat hu on _ hacts rfl

/-- `!restartserver` and `!restartscript` do what they say, for everyone. -/
theorem mem_oneWord_restart (p : Permissions) (username : Str) :
    .io (.emit .restartServer) ∈ oneWord p username "!restartserver" ∧
      .io (.system killPython) ∈ oneWord p username "!restartscript" := by
  simp only [oneWord, List.mem_flatten, List.mem_cons, List.not_mem_nil, or_false]
  -- the sixth and the seventh of the commands of one word
  refine ⟨⟨_, .inr (.inr (.inr (.inr (.inr (.inl rfl))))), ?_⟩,
    ⟨_, .inr (.inr (.inr (.inr (.inr (.inr (.inl rfl)))))), ?_⟩⟩
  · rw [ifThen_pos trivial]
    simp
  · rw [ifThen_pos trivial]
    simp

/-! ### What is left -/

/-- The lists stay as they are when they are only written to their files. -/
theorem foldl_dumpPluslist {acts : List PermAct} (h : ∀ a ∈ acts, a = .dumpPluslist)
    (p : Permissions) :
    (acts.foldl Permissions.exec p).pluslist = p.pluslist ∧
      (acts.foldl Permissions.exec p).banlist = p.banlist := by
  induction acts generalizing p with
  | nil => exact ⟨rfl, rfl⟩
  | cons a acts ih =>
    obtain ⟨rfl, hacts⟩ := List.forall_mem_cons.mp h
    exact ih hacts _

/-- The lock stays as it is under ballots and votes. -/
theorem voting_runFrom {acts : List PollAct}
    (h : ∀ a ∈ acts, (∃ username yea, a = .ballot username yea) ∨ ∃ g, a = .gotoGameVote g)
    (p : Poll) :
    let r := runFrom Poll.exec p acts
    .disabled ∉ r.2 ∧ .enabled ∉ r.2 ∧ (r.1.voting = p.voting ∨ ∃ g, .voteStarted g ∈ r.2) := by
  induction acts generalizing p with
  | nil => simp
  | cons a acts ih =>
    obtain ⟨ha, h⟩ := List.forall_mem_cons.mp h
    obtain ⟨hdis, hen, hvoting⟩ := ih h (p.exec a).1
    -- a ballot leaves the flag alone; `goto_game_vote` sets it if it starts a vote
    have hstep : .disabled ∉ (p.exec a).2 ∧ .enabled ∉ (p.exec a).2 ∧
        ((p.exec a).1.voting = p.voting ∨ ∃ g, .voteStarted g ∈ (p.exec a).2) := by
      rcases ha with ⟨username, yea, rfl⟩ | ⟨g, rfl⟩
      · rw [Poll.exec]
        split_ifs <;> simp
      · rw [Poll.exec]
        split_ifs <;> simp
    simp only [runFrom_cons, List.mem_append, not_or]
    refine ⟨⟨hstep.1, hdis⟩, ⟨hstep.2.1, hen⟩, ?_⟩
    rcases hvoting with hvoting | ⟨g, hg⟩
    · exact hstep.2.2.imp hvoting.trans (Exists.imp fun _ => Or.inl)
    · exact Or.inr ⟨g, Or.inr hg⟩

/-- **A script without privileged statements has no effect for moderators**, if it leaves the
switch of the chat as it is. -/
theorem noModEffect_perform {acts : List Act} (h : ∀ a ∈ acts, a.privileged = false)
    (hchat : (c.perform acts).1.switches.chatEnabled = c.switches.chatEnabled) :
    NoModEffect c (c.perform acts) := by
  have hperm : ∀ a ∈ acts.filterMap Act.permission?, a = .dumpPluslist := by
    intro a ha
    have hpriv := h _ ((mem_filterMap_of_isPartialInv isPartialInv_permission).mp ha)
    exact not_not.mp (of_decide_eq_false hpriv)
  have hpoll : ∀ a ∈ acts.filterMap Act.poll?,
      (∃ username yea, a = .ballot username yea) ∨ ∃ g, a = .gotoGameVote g := by
    intro a ha
    have hpriv := h _ ((mem_filterMap_of_isPartialInv isPartialInv_poll).mp ha)
    cases a with
    | ballot username yea => exact Or.inl ⟨username, yea, rfl⟩
    | gotoGameVote g => exact Or.inr ⟨g, rfl⟩
    | _ => simp [Act.privileged] at hpriv
  obtain ⟨hplus, hban⟩ := foldl_dumpPluslist hperm c.permissions
  obtain ⟨hdis, hen, hvoting⟩ := voting_runFrom hpoll c.poll
  simp only [← (poll_perform c acts).2, mem_filterMap_poll?] at hdis hen hvoting
  rw [← (poll_perform c acts).1] at hvoting
  rw [← permissions_perform] at hplus hban
  exact
    { pluslist := hplus
      banlist := hban
      chatEnabled := hchat
      disabled := hdis
      enabled := hen
      voting := hvoting
      emits := fun e he => h _ (io_mem_perform.mp he)
      alive := fun ho => by simpa [Act.privileged] using h _ (io_mem_perform.mp ho) }

theorem NoModEffect.step {e : Event} (h : NoModEffect c (c.perform (script U c e))) :
    NoModEffect c (step U c e) :=
  ⟨h.1, h.2, h.3, h.4, h.5, h.6, h.7, h.8⟩

/-- A user without plus permission neither touches the controllers nor the internet access. -/
theorem plusOnly_handleChat (hu : username ∉ c.permissions.pluslist) :
    ∀ a ∈ handleChat U c username message, a.kind ≠ .pad ∧
      a ≠ .io (.emit .disableInternet) ∧ a ≠ .io (.emit .enableInternet) := by
  refine forall_handleChat (by simp) ?_ ?_ ?_ (by simp) (by simp)
  · intro cmd _ a ha
    have hkind := kind_loopActs username cmd a ha
    refine ⟨?_, ?_, ?_⟩
    · rcases hkind with h | h <;> rw [h] <;> decide
    · rintro rfl
      simp at hkind
    · rintro rfl
      simp at hkind
  · intro cmd _
    simp only [oneWord, forall_flatten, List.forall_mem_cons, forall_ifThen]
    simp [hu, -String.reduceToList]
  · exact fun cmd arg _ => forall_twoWords (by simp) (by simp) (by simp) (by simp) (by simp)

end

/-- **Who may do what.** A message of a user who is not a moderator has none of the effects listed
as mods only, unless it is `!restartserver` or `!restartscript`, or `!fixcontrollers` by a user with
plus permission while the chat is disabled, and in these cases it has. A message of a user
without plus permission neither changes the internet access nor moves a controller. -/
theorem mods_only_iff (U : Unicode) (c : Client) (username message : Str) :
    (username ∉ modlist →
      (NoModEffect c (step U c (.chat username message)) ↔
        ¬(U.commands message = [("!restartserver" : Str)] ∨
          U.commands message = [("!restartscript" : Str)] ∨
          (U.commands message = [("!fixcontrollers" : Str)] ∧ username ∈ c.permissions.pluslist ∧
            c.switches.chatEnabled = false)))) ∧
    (username ∉ c.permissions.pluslist →
      .io (.emit .disableInternet) ∉ (step U c (.chat username message)).2 ∧
        .io (.emit .enableInternet) ∉ (step U c (.chat username message)).2 ∧
        (step U c (.chat username message)).1.pads = c.pads ∧
        ∀ o, .pad o ∉ (step U c (.chat username message)).2) := by
  refine ⟨fun hu => ⟨?_, fun hcond => ?_⟩, fun hu => ?_⟩
  · -- each of the three exceptions has one of the effects
    rintro heff (hcmd | hcmd | ⟨hcmd, hplus, hoff⟩)
    · have hmem := mem_handleChat_of_oneWord (c := c) hcmd
        (mem_oneWord_restart c.permissions username).1
      exact absurd (heff.emits _ (io_mem_perform.mpr hmem)) (by decide)
    · have hmem := mem_handleChat_of_oneWord (c := c) hcmd
        (mem_oneWord_restart c.permissions username).2
      exact heff.alive (io_mem_perform.mpr hmem)
    · have hon := heff.chatEnabled.symm.trans (chatEnabled_handleChat hu)
      rw [if_pos ⟨hcmd, hplus⟩, hoff] at hon
      exact absurd hon (by decide)
  · simp only [not_or, not_and] at hcond
    have hpriv : ∀ a ∈ handleChat U c username message, a.privileged = false := by
      intro a ha
      by_contra hp
      rcases privileged_handleChat hu a ha (by simpa using hp) with h | h
      · exact hcond.1 h.1
      · exact hcond.2.1 h.1
    have hchat := @chatEnabled_handleChat U c username message hu
    refine (noModEffect_perform hpriv (hchat.trans ?_)).step
    split_ifs with hfix
    · exact ((Bool.not_eq_false _).mp (hcond.2.2 hfix.1 hfix.2)).symm
    · rfl
  · have hacts := @plusOnly_handleChat U c username message hu
    obtain ⟨hpads, hlog⟩ := pads_perform_quiet c fun a ha => (hacts a ha).1
    exact ⟨fun ho => (hacts _ (io_mem_perform.mp ho)).2.1 rfl,
      fun ho => (hacts _ (io_mem_perform.mp ho)).2.2 rfl, hpads, hlog⟩

/-- A viewer cannot enable `!goto`, nor fix the controllers. -/
theorem mods_only_viewer :
    let c := Client.init none none
    let r := step Unicode.ascii c (.chat "viewer" "!enablegoto")
    ("viewer" : Str) ∉ modlist ∧ ("viewer" : Str) ∉ c.permissions.pluslist ∧
      NoModEffect c r ∧ .io (.emit .enableInternet) ∉ r.2 := by
  intro c r
  have hmods := mods_only_iff Unicode.ascii c "viewer" "!enablegoto"
  refine ⟨by decide, by decide, (hmods.1 (by decide)).mpr (by decide +kernel),
    (hmods.2 (by decide)).2.1⟩

/-- **A viewer ends the program.** -/
theorem restartscript_viewer :
    ("viewer" : Str) ∉ modlist ∧
      .io (.system killPython) ∈
        (step Unicode.ascii (Client.init none none) (.chat "viewer" "!restartscript")).2 := by
  decide +kernel

/-! ### Revocation -/

section

variable {U : Unicode} {c : Client} {username message : Str}

theorem filterMap_permission?_eq_nil {acts : List Act} (h : ∀ a ∈ acts, a.kind ≠ .permission) :
    acts.filterMap Act.permission? = [] :=
  filterMap_eq_nil_of_isPartialInv isPartialInv_permission fun _ hb => h _ hb rfl

/-- Only a message of two words changes the permissions, -/
theorem permission_handleChat {cmd arg : Str} (h : U.commands message = [cmd, arg]) :
    (handleChat U c username message).filterMap Act.permission? =
      (twoWords c.permissions username cmd arg).acts.filterMap Act.permission? := by
  have hbefore : ∀ a ∈ helpActs [cmd, arg] ++ [cmd, arg].flatMap (loopActs username),
      a.kind ≠ .permission := by
    refine List.forall_mem_append.mpr ⟨?_, ?_⟩
    · intro a ha
      rw [kind_helpActs _ a ha]
      decide
    · intro a ha
      rcases kind_flatMap_loopActs username _ a ha with h | h <;> rw [h] <;> decide
  have hgoto : ∀ a ∈ (if cmd = "!goto" then gotoActs c.poll arg else []), a.kind ≠ .permission := by
    split
    · intro a ha
      obtain ⟨entry, -, ha⟩ := List.mem_flatMap.mp ha
      simp only [gotoGameVote, List.mem_cons, List.not_mem_nil, or_false] at ha
      rcases ha with rfl | rfl <;> simp
    · exact List.forall_mem_nil _
  -- the help texts and the loop come before, `!goto` and the queue after
  rw [handleChat, h, pure_andThen, List.filterMap_append, filterMap_permission?_eq_nil hbefore,
    List.nil_append, filterMap_andThen (by simp [List.filterMap_cons]), commandActs,
    filterMap_andThen (filterMap_permission?_eq_nil hgoto)]

/-- The commands that change the lists, statement by statement. -/
theorem twoWords_listCommands (hmod : username ∈ modlist) (p : Permissions) (user : Str) :
    twoWords p username "!giveplus" user =
        .pure [.io (.chat ("Giving plus permission to: " ++ user)), .permission (.givePlus user),
          .permission .dumpPluslist] ∧
      twoWords p username "!removeplus" user =
        .pure [.io (.chat ("Removing plus permissions from: " ++ user)),
          .permission (.removePlus user), .permission .dumpPluslist] ∧
      twoWords p username "!ban" user =
        .pure [.io (.chat ("Banning: " ++ user)), .permission (.ban user),
          .io (.emit (.banlist (p.banlist ++ [user]))), .permission .dumpBanlist] ∧
      twoWords p username "!unban" user = unban p.banlist user := by
  have hunban : ∀ s : Script, s.andThen (.pure []) = s := by
    rintro ⟨acts, - | -⟩ <;> simp [Script.andThen, Script.pure]
  refine ⟨?_, ?_, ?_, ?_⟩
  · simp [twoWords, ifThen, hmod, Script.pure, Script.andThen]
  · simp [twoWords, ifThen, hmod, Script.pure, Script.andThen]
  · simp [twoWords, ifThen, hmod, Script.pure, Script.andThen]
  · simp [twoWords, ifThen, hmod, hunban]

theorem permission_twoWords (hmod : username ∈ modlist) (p : Permissions) (user : Str) :
    (twoWords p username "!giveplus" user).acts.filterMap Act.permission? =
        [.givePlus user, .dumpPluslist] ∧
      (twoWords p username "!removeplus" user).acts.filterMap Act.permission? =
        [.removePlus user, .dumpPluslist] ∧
      (twoWords p username "!ban" user).acts.filterMap Act.permission? = [.ban user, .dumpBanlist] ∧
      (twoWords p username "!unban" user).acts.filterMap Act.permission? =
        if user ∈ p.banlist then [.unban user, .dumpBanlist] else [] := by
  obtain ⟨hgive, hremove, hban, hunban⟩ := twoWords_listCommands hmod p user
  rw [hgive, hremove, hban, hunban, unban]
  refine ⟨rfl, rfl, rfl, ?_⟩
  split <;> rfl

/-- **The commands that change the lists**, for a moderator. -/
theorem lists_twoWords (hmod : username ∈ modlist) (user : Str) :
    let p := c.permissions
    let p' := (step U c (.chat username message)).1.permissions
    (U.commands message = [("!giveplus" : Str), user] →
        p'.pluslist = p.pluslist ++ [user] ∧ p'.banlist = p.banlist) ∧
      (U.commands message = [("!removeplus" : Str), user] →
        p'.pluslist = p.pluslist.erase user ∧ p'.banlist = p.banlist) ∧
      (U.commands message = [("!ban" : Str), user] →
        p'.pluslist = p.pluslist ∧ p'.banlist = p.banlist ++ [user]) ∧
      (U.commands message = [("!unban" : Str), user] →
        p'.pluslist = p.pluslist ∧ p'.banlist = p.banlist.erase user) := by
  intro p p'
  have hp' : p' = ((handleChat U c username message).filterMap Act.permission?).foldl
      Permissions.exec p := permissions_perform c _
  obtain ⟨hgive, hremove, hban, hunban⟩ := permission_twoWords hmod p user
  refine ⟨fun h => ?_, fun h => ?_, fun h => ?_, fun h => ?_⟩ <;>
    rw [hp', permission_handleChat h]
  · rw [hgive]
    exact ⟨rfl, rfl⟩
  · rw [hremove]
    exact ⟨rfl, rfl⟩
  · rw [hban]
    exact ⟨rfl, rfl⟩
  · rw [hunban]
    split_ifs with huser
    · exact ⟨rfl, rfl⟩
    · exact ⟨rfl, (List.erase_of_not_mem huser).symm⟩

/-- The commands that change the lists. -/
def listCommands : List Str := ["!giveplus", "!removeplus", "!ban", "!unban"]

theorem permission_twoWords_of_not_mem {cmd : Str} (p : Permissions) (user : Str)
    (h : cmd ∈ listCommands → username ∉ modlist) :
    ∀ a ∈ (twoWords p username cmd user).acts, ∀ b, a = .permission b → b = .dumpPluslist := by
  have hnot : ∀ s ∈ listCommands, ¬(cmd = s ∧ username ∈ modlist) := by
    rintro s hs ⟨rfl, hmod⟩
    exact h hs hmod
  simp only [listCommands, List.forall_mem_cons] at hnot
  obtain ⟨hgive, hremove, hban, hunban, -⟩ := hnot
  rw [twoWords, ifThen_neg hgive, ifThen_neg hremove, ifThen_neg hban, if_neg hunban]
  simp only [pure_andThen, List.flatten_cons, List.flatten_nil, List.nil_append, acts_pure,
    List.append_nil, List.forall_mem_append, forall_ifThen]
  simp

/-- A message that changes no list may still write one to its file. -/
theorem dump_handleChat
    (h : ∀ cmd user, username ∈ modlist → U.commands message = [cmd, user] → cmd ∉ listCommands) :
    ∀ a ∈ handleChat U c username message, ∀ b, a = .permission b → b = .dumpPluslist := by
  refine forall_handleChat (by simp) ?_ ?_ ?_ (by simp) (by simp)
  · intro cmd _
    simp only [loopActs, forall_flatten, List.forall_mem_cons, forall_ifThen]
    simp
  · intro cmd _
    have hfix : ∀ a ∈ fixControllers, a.kind ≠ .permission := by decide
    simp only [oneWord, forall_flatten, List.forall_mem_cons, forall_ifThen]
    simp [-String.reduceToList]
    exact fun _ _ a ha b hb => absurd (hb ▸ rfl) (hfix a ha)
  · intro cmd user hcmd
    exact permission_twoWords_of_not_mem _ _ fun hlist hmod => h cmd user hmod hcmd hlist

/-- Neither does any other event. -/
theorem dump_script {e : Event}
    (he : ∀ username message cmd user, e = .chat username message → username ∈ modlist →
      U.commands message = [cmd, user] → cmd ∉ listCommands) :
    ∀ a ∈ script U c e, ∀ b, a = .permission b → b = .dumpPluslist := by
  by_cases hchat : ∃ username message, e = .chat username message
  · obtain ⟨username, message, rfl⟩ := hchat
    exact dump_handleChat fun cmd user hmod hcmd => he username message cmd user rfl hmod hcmd
  · intro a ha b hb
    have hkind := (kind_script_of_not_chat U c (fun u m h => hchat ⟨u, m, h⟩) a ha).1
    exact absurd (hb ▸ rfl) hkind

/-- **Any other event leaves the lists as they are.** -/
theorem lists_step {e : Event}
    (he : ∀ username message cmd user, e = .chat username message → username ∈ modlist →
      U.commands message = [cmd, user] → cmd ∉ listCommands) :
    (step U c e).1.permissions.pluslist = c.permissions.pluslist ∧
      (step U c e).1.permissions.banlist = c.permissions.banlist := by
  have hp : (step U c e).1.permissions =
      ((script U c e).filterMap Act.permission?).foldl Permissions.exec c.permissions :=
    permissions_perform c _
  rw [hp]
  refine foldl_dumpPluslist (fun b hb => ?_) _
  exact dump_script he _ ((mem_filterMap_of_isPartialInv isPartialInv_permission).mp hb) b rfl

/-- A moderator gives plus permission to a user who has it, or bans a user who is banned. -/
def repeats (U : Unicode) (c : Client) : Event → Bool
  | .chat username message => username ∈ modlist && match U.commands message with
      | [cmd, user] =>
          (cmd = "!giveplus" && user ∈ c.permissions.pluslist) ||
            (cmd = "!ban" && user ∈ c.permissions.banlist)
      | _ => false
  | _ => false

/-- Nobody is on a list twice. -/
def Permissions.Simple (p : Permissions) : Prop := p.pluslist.Nodup ∧ p.banlist.Nodup

theorem nodup_append_singleton {users : List Str} {user : Str} (h : users.Nodup)
    (hu : user ∉ users) : (users ++ [user]).Nodup := by
  rw [← List.concat_eq_append]
  exact h.concat hu

theorem simple_step (h : c.permissions.Simple) {e : Event} (he : repeats U c e = false) :
    (step U c e).1.permissions.Simple := by
  by_cases hlist : ∃ username message cmd user, e = .chat username message ∧
      username ∈ modlist ∧ U.commands message = [cmd, user] ∧ cmd ∈ listCommands
  · obtain ⟨username, message, cmd, user, rfl, hmod, hcmd, hmem⟩ := hlist
    obtain ⟨hgive, hremove, hban, hunban⟩ := lists_twoWords (U := U) (c := c) hmod user
    simp only [repeats, hmod, hcmd, decide_true, Bool.true_and, Bool.or_eq_false_iff,
      Bool.and_eq_false_iff, decide_eq_false_iff_not] at he
    simp only [listCommands, List.mem_cons, List.not_mem_nil, or_false] at hmem
    rw [Permissions.Simple]
    rcases hmem with rfl | rfl | rfl | rfl
    · rw [(hgive hcmd).1, (hgive hcmd).2]
      exact ⟨nodup_append_singleton h.1 (he.1.resolve_left (not_not.mpr rfl)), h.2⟩
    · rw [(hremove hcmd).1, (hremove hcmd).2]
      exact ⟨h.1.erase user, h.2⟩
    · rw [(hban hcmd).1, (hban hcmd).2]
      exact ⟨h.1, nodup_append_singleton h.2 (he.2.resolve_left (not_not.mpr rfl))⟩
    · rw [(hunban hcmd).1, (hunban hcmd).2]
      exact ⟨h.1, h.2.erase user⟩
  · obtain ⟨hplus, hban⟩ := lists_step (U := U) (c := c) (e := e)
      fun username message cmd user hchat hmod hcmd hmem =>
        hlist ⟨username, message, cmd, user, hchat, hmod, hcmd, hmem⟩
    rw [Permissions.Simple, hplus, hban]
    exact h

theorem not_mem_erase_iff {users : List Str} {user : Str} :
    user ∉ users.erase user ↔ users.count user ≤ 1 := by
  rw [← List.count_eq_zero, List.count_erase_self, Nat.sub_eq_zero_iff_le]

end

/-- **What a revocation does.** After any run, a moderator's `!removeplus` takes a user off
`pluslist`, and `!unban` off `banlist`, just when the user was on it once or not at all. That is so
when the lists are loaded without repetitions and no moderator gives plus permission to a user
who has it or bans a user who is banned. A user who is not on `pluslist` is refused `plus`. -/
theorem revokes_iff (U : Unicode) (pluslistPkl banlistPkl : Option (List Str)) (es : List Event)
    {username : Str} (hmod : username ∈ modlist) (message user : Str) :
    let c := (run U (Client.init pluslistPkl banlistPkl) es).1
    let c' := (run U (Client.init pluslistPkl banlistPkl) (es ++ [.chat username message])).1
    (U.commands message = [("!removeplus" : Str), user] →
      (user ∉ c'.permissions.pluslist ↔ c.permissions.pluslist.count user ≤ 1)) ∧
    (U.commands message = [("!unban" : Str), user] →
      (user ∉ c'.permissions.banlist ↔ c.permissions.banlist.count user ≤ 1)) ∧
    ((pluslistPkl.getD []).Nodup → (banlistPkl.getD []).Nodup →
      Guarded (step U) (fun c _ e => repeats U c e = false)
        (Client.init pluslistPkl banlistPkl) es →
      c.permissions.pluslist.count user ≤ 1 ∧ c.permissions.banlist.count user ≤ 1) ∧
    (user ∉ c'.permissions.pluslist → submitted c' user ["plus"] = [] ∧
      ∀ n player, c'.switches.cPlayer n = some player → U.lower player = user →
        allows U c' n .plus = false) := by
  intro c c'
  have hc' : c' = (step U c (.chat username message)).1 := by
    simp only [c', c, run_concat]
  obtain ⟨-, hremove, -, hunban⟩ := @lists_twoWords U c username message hmod user
  refine ⟨fun hcmd => ?_, fun hcmd => ?_, fun hplus hban hguard => ?_, fun hnot => ⟨?_, ?_⟩⟩
  · rw [hc', (hremove hcmd).1, not_mem_erase_iff]
  · rw [hc', (hunban hcmd).2, not_mem_erase_iff]
  · have hsimple : c.permissions.Simple :=
      runFrom_invariant_of_guard (P := fun (c : Client) _ => c.permissions.Simple) ⟨hplus, hban⟩
        (fun _ _ _ h he => simple_step h he) hguard
    exact ⟨List.nodup_iff_count_le_one.mp hsimple.1 user,
      List.nodup_iff_count_le_one.mp hsimple.2 user⟩
  · have hrej : rejects c'.permissions.pluslist user "plus" = true := by
      have hin : isIn "plus" ("plus" : Str) = true := by decide
      simp [rejects, hin, hnot, -String.reduceToList]
    rw [submitted, if_neg]
    simp [hrej, -String.reduceToList]
  · intro n player hplayer hlower
    simp [allows, Switches.playerIn, hplayer, hlower, hnot]

/-- A moderator gives plus permission and takes it away again. -/
theorem revokes_viewer :
    let es : List Event := [.chat "alua2020" "!giveplus viewer"]
    let c := (run Unicode.ascii (Client.init none none) es).1
    let c' := (run Unicode.ascii (Client.init none none)
      (es ++ [.chat "alua2020" "!removeplus viewer"])).1
    ("viewer" : Str) ∈ c.permissions.pluslist ∧ ("viewer" : Str) ∉ c'.permissions.pluslist := by
  intro es c c'
  have hmod : ("alua2020" : Str) ∈ modlist := by decide
  have hrevokes := revokes_iff Unicode.ascii none none es hmod "!removeplus viewer" "viewer"
  have hguard : GuardedFrom (step Unicode.ascii) (fun c e => repeats Unicode.ascii c e = false)
      (Client.init none none) es := by
    decide +kernel
  refine ⟨by decide +kernel, (hrevokes.1 (by decide +kernel)).mpr ?_⟩
  exact (hrevokes.2.2.1 List.nodup_nil List.nodup_nil (guarded_of_guardedFrom hguard)).1

/-- **Permission that survives its revocation**: two moderators gave it. -/
theorem viewer_mem_pluslist_of_two_grants :
    ("viewer" : Str) ∈ (run Unicode.ascii (Client.init none none)
      [.chat "alua2020" "!giveplus viewer", .chat "stravos96" "!giveplus viewer",
        .chat "alua2020" "!removeplus viewer"]).1.permissions.pluslist := by
  decide +kernel

end Twitch

end SwitchController
