import SwitchController.Twitch.Acceptance
import SwitchController.Twitch.Isolation
import SwitchController.Twitch.Votes

/-!
# Messages that are not accepted

Whether a message goes to the queue is decided at the end of `handleChat`, after the loop that looks
for invalid words and after the commands of the moderators. So a message that is refused in the end
leaves the queues and the controllers alone, but may have done other things before. Each of its
words with `lockon` in it has toggled lock-on; its words may be ballots; `!goto` and the name of a
game, which is never accepted, starts a vote; and a moderator's `!giveplus viewer`, which is not
accepted either, since `viewer` is no command, has given the permission.

What later lines are computed from is the state but for some things that nothing reads
(`SwitchController.Twitch.Client.acting`). A message that is refused leaves that as it is just when
it toggles lock-on an even number of times and does none of the other things
(`SwitchController.Twitch.Idle`), and then no line depends on it, whatever happens afterwards
(`SwitchController.Twitch.rejected_iff`).
-/

namespace SwitchController

namespace Twitch

open EventMachine

/-! ### What is read later -/

/-- A name that might be a word for the queue. -/
def commandLike (user : Str) : Bool := user ∈ validCommands || isIn "+" user

/-- The client without the file of `pluslist`, which is read when the program starts. -/
def Client.unfiled (c : Client) : Client :=
  { c with permissions := { c.permissions with pluslistPkl := none } }

/-- **What later lines are computed from**: the client without the marks of the log, without its
files, and without the bans of users who cannot be taken for a command. -/
def Client.acting (c : Client) : Client := (c.bare.unlisted commandLike).unfiled

theorem unfiled_exec (c : Client) (a : Act) :
    (c.exec a).1.unfiled = (c.unfiled.exec a).1.unfiled ∧ (c.exec a).2 = (c.unfiled.exec a).2 := by
  cases a with
  | permission a => cases a <;> exact ⟨rfl, rfl⟩
  | submit cmds =>
    have hon : c.unfiled.switches = c.switches := rfl
    rw [Client.exec, Client.exec, hon]
    split <;> exact ⟨rfl, rfl⟩
  | _ => exact ⟨rfl, rfl⟩

section

variable (U : Unicode)

theorem script_unfiled (c : Client) (e : Event) : script U c.unfiled e = script U c e := by
  cases e with
  | chat username message =>
    rw [script, script, handleChat, handleChat]
    rcases U.commands message with _ | ⟨cmd, _ | ⟨arg, _ | ⟨x, rest⟩⟩⟩ <;> rfl
  | _ => rfl

theorem unfiled_step (c : Client) (e : Event) :
    (step U c e).1.unfiled = (step U c.unfiled e).1.unfiled ∧
      (step U c e).2 = (step U c.unfiled e).2 := by
  have hidem : c.unfiled = c.unfiled.unfiled := rfl
  obtain ⟨hstate, hlog⟩ := runFrom_view_all Client.unfiled some (G := fun _ => True)
    (fun c a _ => by simpa only [List.filterMap_some] using unfiled_exec c a) hidem
    (fun a (_ : a ∈ script U c e) => trivial)
  rw [List.filterMap_some, List.filterMap_some] at hlog
  rw [step, step, script_unfiled]
  exact ⟨congrArg (fun c' : Client => { c' with clock := c.clock + 1 }) hstate, hlog⟩

/-- **The lines of a run depend on nothing else.** -/
theorem linesTo_acting (n : Slot) (c : Client) (es : List Event) :
    linesTo n (run U c.acting es).2 = linesTo n (run U c es).2 := by
  have hunlisted : ∀ c : Client, linesTo n (run U (c.unlisted commandLike) es).2 =
      linesTo n (run U c es).2 := by
    intro c
    have hidem : (c.unlisted commandLike).unlisted commandLike = c.unlisted commandLike := by
      simp [Client.unlisted, Permissions.unlisted, List.filter_filter]
    -- whoever is not kept on the list is no command, so `!unban` gives nothing to the queue
    have hstep : ∀ c e, True → (step U c e).1.unlisted commandLike =
          (step U (c.unlisted commandLike) e).1.unlisted commandLike ∧
        (step U c e).2.filterMap Obs.unlisted? =
          (step U (c.unlisted commandLike) e).2.filterMap Obs.unlisted? := by
      intro c e _
      refine unlisted_step U commandLike c fun _ _ user _ _ _ huser => ?_
      simpa [commandLike, -String.reduceToList] using huser
    have hlog := (runFrom_view_all (Client.unlisted commandLike) Obs.unlisted? hstep hidem
      fun e (_ : e ∈ es) => trivial).2
    rw [← linesTo_unlisted, run, hlog, linesTo_unlisted, run]
  have hunfiled : ∀ c : Client, linesTo n (run U c.unfiled es).2 = linesTo n (run U c es).2 := by
    intro c
    have hidem : c.unfiled.unfiled = c.unfiled := rfl
    have hlog := (runFrom_view_all Client.unfiled some (G := fun _ => True)
      (fun c e _ => by simpa only [List.filterMap_some] using unfiled_step U c e) hidem
      (fun e (_ : e ∈ es) => trivial)).2
    rw [List.filterMap_some, List.filterMap_some] at hlog
    rw [run, hlog, run]
  rw [Client.acting, hunfiled, hunlisted, linesTo_bare]

end

section

variable {U : Unicode} {c : Client} {username message : Str}

/-! ### The queues and the controllers -/

/-- **A message is refused**: one of its words is unknown or not permitted, there are more than
twenty, or the chat is disabled when its end is reached. -/
def Rejected (U : Unicode) (c : Client) (username message : Str) : Prop :=
  (∃ cmd ∈ U.commands message, rejects c.permissions.pluslist username cmd = true) ∨
    20 < (U.commands message).length ∨
    (step U c (.chat username message)).1.switches.chatEnabled = false

theorem Rejected.queue (h : Rejected U c username message) :
    (step U c (.chat username message)).1.queue = c.queue := by
  rw [queue_chat]
  split_ifs with hend
  · have hnone : submitted c username (U.commands message) = [] := by
      refine if_neg fun hvalid => ?_
      rcases h with ⟨cmd, hcmd, hrejects⟩ | hlong | hoff
      · simpa [hrejects] using List.all_eq_true.mp hvalid.1 cmd hcmd
      · omega
      · exact absurd (hend.2.symm.trans hoff) (by decide)
    rw [hnone, List.append_nil]
  · rw [List.append_nil]

/-- Commands that enable the chat are not refused. -/
theorem not_rejected_of_chatEnabled {cmd : Str}
    (hcmd : cmd ∈ [("!fixcontrollers" : Str), "!enablechat"]) (h : U.commands message = [cmd])
    (hon : (step U c (.chat username message)).1.switches.chatEnabled = true) :
    ¬Rejected U c username message := by
  have hpass : ∀ cmd ∈ [("!fixcontrollers" : Str), "!enablechat"], cmd ∈ validCommands ∧
      ∀ pattern ∈ [("plus" : Str), "home", "!restartserver", "!restartscript", "!enablegoto",
        "!disablegoto"], isIn pattern cmd = false := by decide
  have hrejects : rejects c.permissions.pluslist username cmd = false := by
    obtain ⟨hvalid, hin⟩ := hpass cmd hcmd
    simp only [List.forall_mem_cons] at hin
    obtain ⟨hin1, hin2, hin3, hin4, hin5, hin6, -⟩ := hin
    simp [rejects, hvalid, hin1, hin2, hin3, hin4, hin5, hin6, -String.reduceToList]
  rintro (⟨cmd', hcmd', hrej⟩ | hlong | hoff)
  · rw [h, List.mem_singleton] at hcmd'
    rw [hcmd', hrejects] at hrej
    exact absurd hrej (by decide)
  · rw [h] at hlong
    exact absurd hlong (by simp)
  · exact absurd (hon.symm.trans hoff) (by decide)

theorem not_rejected_fixcontrollers (h : U.commands message = [("!fixcontrollers" : Str)])
    (hplus : username ∈ c.permissions.pluslist) : ¬Rejected U c username message :=
  not_rejected_of_chatEnabled (by decide) h (chatEnabled_fixcontrollers h hplus)

/-- So a message that is refused does not touch the controllers. -/
theorem Rejected.pads (h : Rejected U c username message) :
    (step U c (.chat username message)).1.pads = c.pads := by
  refine (pads_perform_quiet c fun a ha hkind => ?_).1
  have hcontrols : a.controls = true := by
    cases a with
    | pad a => rfl
    | _ => exact absurd hkind (by simp)
  obtain ⟨hfix, hplus⟩ := controls_handleChat a ha hcontrols
  exact not_rejected_fixcontrollers hfix hplus h

/-! ### The switches -/

/-- Lock-on in the end, by how often it is toggled. -/
theorem lockon_foldl_count (acts : List SwitchAct) (s : Switches) :
    (acts.foldl Switches.exec s).lockon =
      (s.lockon != decide (acts.count .toggleLockon % 2 = 1)) := by
  induction acts generalizing s with
  | nil => simp
  | cons a acts ih =>
    rw [List.foldl_cons, ih]
    cases a with
    | toggleLockon =>
      rw [List.count_cons_self, Switches.exec]
      rcases Nat.mod_two_eq_zero_or_one (acts.count .toggleLockon) with hmod | hmod <;>
        simp [Nat.add_mod, hmod]
    | _ => simp [Switches.exec]

theorem lockon_foldl_iff (acts : List SwitchAct) (s : Switches) :
    (acts.foldl Switches.exec s).lockon = s.lockon ↔ acts.count .toggleLockon % 2 = 0 := by
  rw [lockon_foldl_count]
  cases s.lockon <;> simp

theorem lockon_chat_iff (U : Unicode) (c : Client) (username message : Str) :
    (step U c (.chat username message)).1.switches.lockon = c.switches.lockon ↔
      (U.commands message).countP (isIn "lockon") % 2 = 0 := by
  rw [← @toggles_handleChat U c username message, ← lockon_foldl_iff _ c.switches,
    ← switches_perform]
  rfl

/-- A moderator's `!enablechat` is not refused. -/
theorem not_rejected_enablechat (hmod : username ∈ modlist)
    (h : U.commands message = [("!enablechat" : Str)]) : ¬Rejected U c username message := by
  refine not_rejected_of_chatEnabled (by decide) h ?_
  have hword : (oneWord c.permissions username "!enablechat").filterMap Act.switch? =
      [.chatEnabled true] := by
    simp [oneWord, ifThen, hmod, List.filterMap_cons]
  refine (congrArg Switches.chatEnabled (switches_perform c _)).trans ?_
  rw [script, handleChat_of_commands_eq h, List.filterMap_append, List.filterMap_append, hword,
    List.foldl_append, List.foldl_append]
  rfl

/-- **The switches a message that is refused can change**: lock-on, and that of the chat by
a moderator's `!disablechat`. -/
theorem Rejected.switch (h : Rejected U c username message) {b : SwitchAct}
    (hb : .switch b ∈ handleChat U c username message) : b = .toggleLockon ∨
      (b = .chatEnabled false ∧ username ∈ modlist ∧
        U.commands message = [("!disablechat" : Str)]) := by
  suffices hall : ∀ a ∈ handleChat U c username message, ∀ b, a = .switch b → b = .toggleLockon ∨
      (b = .chatEnabled false ∧ username ∈ modlist ∧ U.commands message = [("!disablechat" : Str)])
    from hall _ hb b rfl
  refine forall_handleChat (by simp) ?_ ?_ ?_ (by simp) (by simp)
  · intro cmd _
    simp only [loopActs, forall_flatten, List.forall_mem_cons, forall_ifThen]
    simp
  · intro cmd hcmd
    simp only [oneWord, forall_flatten, List.forall_mem_cons, forall_ifThen]
    simp [-String.reduceToList]
    refine ⟨?_, ?_, ?_⟩
    · rintro rfl hmod
      exact ⟨hmod, hcmd⟩
    · rintro rfl hmod
      exact not_rejected_enablechat hmod hcmd h
    · rintro rfl hplus
      exact absurd h (not_rejected_fixcontrollers hcmd hplus)
  · exact fun cmd arg _ => forall_twoWords (by simp) (by simp) (by simp) (by simp) (by simp)

/-- A moderator's `!disablechat` disables the chat. -/
theorem Rejected.chatEnabled (h : Rejected U c username message)
    (hcmd : U.commands message = [("!disablechat" : Str)]) :
    (step U c (.chat username message)).1.switches.chatEnabled = false := by
  have hpass : rejects c.permissions.pluslist username "!disablechat" = false := by
    have hvalid : ("!disablechat" : Str) ∈ validCommands := by decide
    have hin : ∀ pattern ∈ [("plus" : Str), "home", "!restartserver", "!restartscript",
        "!enablegoto", "!disablegoto"], isIn pattern "!disablechat" = false := by decide
    simp only [List.forall_mem_cons] at hin
    obtain ⟨hin1, hin2, hin3, hin4, hin5, hin6, -⟩ := hin
    simp [rejects, hvalid, hin1, hin2, hin3, hin4, hin5, hin6, -String.reduceToList]
  -- the word is one of the valid ones, so it can only be refused because the chat is off
  rcases h with ⟨cmd, hmem, hrejects⟩ | hlong | hoff
  · rw [hcmd, List.mem_singleton] at hmem
    rw [hmem, hpass] at hrejects
    exact absurd hrejects (by decide)
  · rw [hcmd] at hlong
    exact absurd hlong (by decide)
  · exact hoff

/-- **The switches stay as they are** if lock-on does and the chat is not disabled. -/
theorem Rejected.switches_iff (h : Rejected U c username message) :
    (step U c (.chat username message)).1.switches = c.switches ↔
      (U.commands message).countP (isIn "lockon") % 2 = 0 ∧
        (username ∈ modlist → U.commands message = [("!disablechat" : Str)] →
          c.switches.chatEnabled = false) := by
  have hfold : (step U c (.chat username message)).1.switches =
      ((handleChat U c username message).filterMap Act.switch?).foldl Switches.exec c.switches :=
    switches_perform c _
  have hacts : ∀ b ∈ (handleChat U c username message).filterMap Act.switch?,
      b = .toggleLockon ∨ (b = .chatEnabled false ∧ username ∈ modlist ∧
        U.commands message = [("!disablechat" : Str)]) :=
    fun b hb => h.switch ((mem_filterMap_of_isPartialInv isPartialInv_switch).mp hb)
  have hframe : (step U c (.chat username message)).1.switches = { c.switches with
      lockon := (step U c (.chat username message)).1.switches.lockon
      chatEnabled := (step U c (.chat username message)).1.switches.chatEnabled } := by
    rw [hfold]
    refine List.foldlRecOn (motive := fun s : Switches =>
      s = { c.switches with lockon := s.lockon, chatEnabled := s.chatEnabled }) _ _ rfl ?_
    intro s hs b hb
    rcases hacts b hb with rfl | ⟨rfl, -⟩ <;> rw [hs] <;> rfl
  constructor
  · intro heq
    refine ⟨(lockon_chat_iff U c username message).mp (by rw [heq]), fun _ hcmd => ?_⟩
    rw [← heq]
    exact h.chatEnabled hcmd
  · rintro ⟨heven, hdisable⟩
    have hlock := (lockon_chat_iff U c username message).mpr heven
    have hchat : (step U c (.chat username message)).1.switches.chatEnabled =
        c.switches.chatEnabled := by
      by_cases hoff : username ∈ modlist ∧ U.commands message = [("!disablechat" : Str)]
      · rw [h.chatEnabled hoff.2, hdisable hoff.1 hoff.2]
      · rw [hfold]
        refine chatEnabled_foldl (fun on hmem => ?_) _
        rcases hacts _ hmem with heq | ⟨-, hmod, hcmd⟩
        · exact absurd heq (by simp)
        · exact hoff ⟨hmod, hcmd⟩
    exact hframe.trans (by rw [hlock, hchat])

/-! ### The votes -/

/-- Ballots of a user who cannot vote are not counted. -/
theorem fst_runFrom_ballots {acts : List PollAct} (h : ∀ a ∈ acts, ∃ yea, a = .ballot username yea)
    {p : Poll} (hp : ¬(p.voting = true ∧ username ∉ p.voted)) :
    (runFrom Poll.exec p acts).1 = p := by
  induction acts with
  | nil => rfl
  | cons a acts ih =>
    obtain ⟨⟨yea, rfl⟩, hacts⟩ := List.forall_mem_cons.mp h
    have hnone : p.exec (.ballot username yea) = (p, []) := by
      rw [exec_ballot, if_neg (by simpa using hp)]
    rw [runFrom_cons, hnone]
    exact ih hacts

/-- **Ballots of one user** are counted if the user can vote and casts any. -/
theorem ballots_eq_iff {acts : List PollAct} (h : ∀ a ∈ acts, ∃ yea, a = .ballot username yea)
    (p : Poll) : (runFrom Poll.exec p acts).1 = p ↔
      (p.voting = true → username ∉ p.voted → acts = []) := by
  by_cases hp : p.voting = true ∧ username ∉ p.voted
  · cases acts with
    | nil => exact iff_of_true rfl fun _ _ => rfl
    | cons a acts =>
      obtain ⟨⟨yea, rfl⟩, hacts⟩ := List.forall_mem_cons.mp h
      have hcount : p.exec (.ballot username yea) =
          (p.count username yea, [.counted username yea]) := by
        rw [exec_ballot, if_pos (by simpa using hp)]
      -- the first is counted, and the user has voted then
      have hrest := fst_runFrom_ballots hacts (p := p.count username yea) (by simp)
      refine iff_of_false (fun heq => ?_) fun hnil => absurd (hnil hp.1 hp.2) (List.cons_ne_nil _ _)
      rw [runFrom_cons, hcount] at heq
      have hlength := congrArg (fun q : Poll => q.voted.length) (hrest.symm.trans heq)
      simp at hlength
  · refine iff_of_true (fst_runFrom_ballots h hp) fun hvoting hvoted => absurd ⟨hvoting, hvoted⟩ hp

theorem poll_loopActs_eq_nil_iff {cmd : Str} :
    (loopActs username cmd).filterMap Act.poll? = [] ↔ cmd ∉ ballotWords := by
  refine ⟨fun hnil hmem => ?_, poll_loopActs_of_not_mem username⟩
  rw [poll_loopActs] at hnil
  simp only [ballotWords, List.mem_cons, List.not_mem_nil, or_false] at hmem
  rcases hmem with rfl | rfl | rfl | rfl <;> simp at hnil

/-- **The votes stay as they are** unless a ballot is counted, a vote started or the lock moved. -/
theorem poll_chat_iff (U : Unicode) (c : Client) (username message : Str) :
    (step U c (.chat username message)).1.poll = c.poll ↔
      (c.poll.voting = true → username ∉ c.poll.voted →
          ∀ cmd ∈ U.commands message, cmd ∉ ballotWords) ∧
        (∀ name g, U.commands message = [("!goto" : Str), name] → (name, g) ∈ gotoTable →
          c.poll.voting = true ∨ c.poll.gotoUsed = true) ∧
        (username ∈ modlist → U.commands message = [("!disablegoto" : Str)] →
          c.poll.voting = true) ∧
        (username ∈ modlist → U.commands message = [("!enablegoto" : Str)] →
          c.poll.voting = false) := by
  have hlock : ∀ (p : Poll) (b : Bool), ({ p with voting := b } : Poll) = p ↔ p.voting = b := by
    rintro ⟨_, _, voting, _, _, _, _⟩ b
    simp [eq_comm]
  by_cases hdis : username ∈ modlist ∧ U.commands message = [("!disablegoto" : Str)]
  · obtain ⟨hmod, hcmd⟩ := hdis
    have hpoll : (step U c (.chat username message)).1.poll = { c.poll with voting := true } :=
      congrArg Prod.fst (poll_step_disable (by simp [byMod, hmod, hcmd]))
    rw [hpoll, hlock]
    simp [hcmd, hmod, ballotWords]
  by_cases hen : username ∈ modlist ∧ U.commands message = [("!enablegoto" : Str)]
  · obtain ⟨hmod, hcmd⟩ := hen
    have hpoll : (step U c (.chat username message)).1.poll = { c.poll with voting := false } :=
      congrArg Prod.fst (poll_step_enable (by simp [byMod, hmod, hcmd]))
    rw [hpoll, hlock]
    simp [hcmd, hmod, ballotWords]
  have hmoves : (username ∈ modlist → U.commands message = [("!disablegoto" : Str)] →
        c.poll.voting = true) ∧
      (username ∈ modlist → U.commands message = [("!enablegoto" : Str)] →
        c.poll.voting = false) :=
    ⟨fun hmod hcmd => absurd ⟨hmod, hcmd⟩ hdis, fun hmod hcmd => absurd ⟨hmod, hcmd⟩ hen⟩
  by_cases hgoto : ∃ name g, U.commands message = [("!goto" : Str), name] ∧ (name, g) ∈ gotoTable
  · obtain ⟨name, g, hcmd, hmem⟩ := hgoto
    have hballots : ∀ cmd ∈ U.commands message, cmd ∉ ballotWords := by
      rw [hcmd]
      refine List.forall_mem_cons.mpr ⟨by decide, List.forall_mem_singleton.mpr ?_⟩
      exact gotoTable_names.2 name (List.mem_map_of_mem hmem)
    have hstart : (step U c (.chat username message)).1.poll = c.poll ↔
        c.poll.voting = true ∨ c.poll.gotoUsed = true := by
      have hpoll := congrArg Prod.fst (poll_step_goto (c := c) username hcmd hmem)
      refine (Eq.congr_left hpoll).trans ?_
      cases hvoting : c.poll.voting with
      | true => simp
      | false =>
        cases hused : c.poll.gotoUsed with
        | true => simp
        | false =>
          refine iff_of_false (fun heq => ?_) (by simp)
          exact absurd (congrArg (fun p : Poll => p.voteTimers.length) heq) (by simp)
    rw [hstart]
    constructor
    · exact fun h => ⟨fun _ _ => hballots, fun _ _ _ _ => h, hmoves⟩
    · exact fun h => h.2.1 name g hcmd hmem
  · -- anything else casts ballots at most
    have hlocks : ¬(username ∈ modlist ∧ (U.commands message = [("!disablegoto" : Str)] ∨
        U.commands message = [("!enablegoto" : Str)])) :=
      fun h => h.2.elim (fun hcmd => hdis ⟨h.1, hcmd⟩) fun hcmd => hen ⟨h.1, hcmd⟩
    have hgoto' : ∀ name g, U.commands message = [("!goto" : Str), name] → (name, g) ∉ gotoTable :=
      fun name g hcmd hmem => hgoto ⟨name, g, hcmd, hmem⟩
    have hacts := @poll_handleChat_ballots U c username message hlocks hgoto'
    have hnil : (handleChat U c username message).filterMap Act.poll? = [] ↔
        ∀ cmd ∈ U.commands message, cmd ∉ ballotWords := by
      rw [poll_handleChat_loop hlocks hgoto', List.filterMap_flatMap, List.flatMap_eq_nil_iff]
      exact forall₂_congr fun cmd _ => poll_loopActs_eq_nil_iff
    have hpoll : (step U c (.chat username message)).1.poll = c.poll ↔ _ :=
      (Eq.congr_left (poll_perform c (handleChat U c username message)).1).trans
        (ballots_eq_iff hacts c.poll)
    rw [hpoll, hnil]
    exact ⟨fun h => ⟨h, fun name g hcmd hmem => absurd ⟨name, g, hcmd, hmem⟩ hgoto, hmoves⟩,
      fun h => h.1⟩

/-! ### The permissions -/

/-- **The lists stay as they are**, as far as they are read, unless a moderator changes them. -/
theorem lists_chat_iff (U : Unicode) (c : Client) (username message : Str) :
    ((step U c (.chat username message)).1.permissions.pluslist = c.permissions.pluslist ∧
        (step U c (.chat username message)).1.permissions.banlist.filter commandLike =
          c.permissions.banlist.filter commandLike) ↔
      (username ∈ modlist → ∀ user, U.commands message ≠ [("!giveplus" : Str), user]) ∧
        (username ∈ modlist → ∀ user, U.commands message = [("!removeplus" : Str), user] →
          user ∉ c.permissions.pluslist) ∧
        (username ∈ modlist → ∀ user, U.commands message = [("!ban" : Str), user] →
          commandLike user = false) ∧
        (username ∈ modlist → ∀ user, U.commands message = [("!unban" : Str), user] →
          commandLike user = true → user ∉ c.permissions.banlist) := by
  by_cases hlist : ∃ cmd user, username ∈ modlist ∧ U.commands message = [cmd, user] ∧
      cmd ∈ listCommands
  · obtain ⟨cmd, user, hmod, hcmds, hmem⟩ := hlist
    obtain ⟨hgive, hremove, hban, hunban⟩ := @lists_twoWords U c username message hmod user
    simp only [listCommands, List.mem_cons, List.not_mem_nil, or_false] at hmem
    rcases hmem with rfl | rfl | rfl | rfl
    · rw [(hgive hcmds).1, (hgive hcmds).2]
      simp [hmod, hcmds]
    · rw [(hremove hcmds).1, (hremove hcmds).2]
      simp [hmod, hcmds, List.erase_eq_self_iff]
    · rw [(hban hcmds).1, (hban hcmds).2]
      simp [hmod, hcmds, List.filter_append]
    · rw [(hunban hcmds).1, (hunban hcmds).2, ← List.erase_filter]
      simp [hmod, hcmds, List.erase_eq_self_iff]
      rw [imp_not_comm, Bool.not_eq_true]
  · have hsame := @lists_step U c (.chat username message) fun username' message' cmd user heq
      hmod hcmds hmem => by
        obtain ⟨rfl, rfl⟩ := Event.chat.inj heq
        exact hlist ⟨cmd, user, hmod, hcmds, hmem⟩
    have hnot : ∀ cmd ∈ listCommands, username ∈ modlist → ∀ user,
        U.commands message ≠ [cmd, user] :=
      fun cmd hmem hmod user hcmds => hlist ⟨cmd, user, hmod, hcmds, hmem⟩
    simp only [listCommands, List.forall_mem_cons] at hnot
    obtain ⟨hgive, hremove, hban, hunban, -⟩ := hnot
    refine iff_of_true ⟨hsame.1, by rw [hsame.2]⟩ ⟨hgive, ?_, ?_, ?_⟩
    · exact fun hmod user hcmds => absurd hcmds (hremove hmod user)
    · exact fun hmod user hcmds => absurd hcmds (hban hmod user)
    · exact fun hmod user hcmds => absurd hcmds (hunban hmod user)

/-- **Who ends the program**: anyone who says `!restartscript`. -/
theorem killPython_mem_iff (U : Unicode) (c : Client) (username message : Str) :
    .io (.system killPython) ∈ (step U c (.chat username message)).2 ↔
      U.commands message = [("!restartscript" : Str)] := by
  refine io_mem_perform.trans ⟨fun h => ?_, fun h => ?_⟩
  · suffices hall : ∀ a ∈ handleChat U c username message, a = .io (.system killPython) →
        U.commands message = [("!restartscript" : Str)] from hall _ h rfl
    refine forall_handleChat (by simp) ?_ ?_ ?_ (by simp) (by simp)
    · intro cmd _
      simp only [loopActs, forall_flatten, List.forall_mem_cons, forall_ifThen]
      simp
    · intro cmd hcmd
      have hfix : ∀ a ∈ fixControllers, ¬a.privileged := by decide
      have hstreamr : ("taskkill /f /im streamr.exe" : Str) ≠ killPython := by decide
      simp only [oneWord, forall_flatten, List.forall_mem_cons, forall_ifThen]
      simp [hstreamr, -String.reduceToList]
      refine ⟨fun heq => heq ▸ hcmd, ?_⟩
      rintro - - a ha rfl
      exact absurd rfl (hfix _ ha)
    · exact fun cmd arg _ => forall_twoWords (by simp) (by simp) (by simp) (by simp) (by simp)
  · exact mem_handleChat_of_oneWord h (mem_oneWord_restart c.permissions username).2

/-! ### Later ticks -/

/-- Two clients that `decreaseQueue` cannot tell apart. -/
structure SameToTicks (c c' : Client) : Prop where
  pads : c.pads = c'.pads
  queue : c.queue = c'.queue
  lockon : c.switches.lockon = c'.switches.lockon

theorem SameToTicks.tick {c c' : Client} (h : SameToTicks c c') :
    SameToTicks (step U c .tick).1 (step U c' .tick).1 ∧
      ∀ m, linesTo m (step U c .tick).2 = linesTo m (step U c' .tick).2 := by
  have hscript : script U c .tick = script U c' .tick := by
    rw [script, script, decreaseQueue, decreaseQueue, h.queue, h.lockon]
  have hsubmit : ∀ a ∈ script U c' .tick, a.kind ≠ .submit :=
    kind_decreaseQueue_ne U c' (by decide) (by decide)
  refine ⟨⟨?_, ?_, ?_⟩, fun m => ?_⟩
  · refine (pads_perform c _).1.trans ((pads_perform c' _).1.trans ?_).symm
    rw [hscript, h.pads]
  · refine (queue_perform c (hscript ▸ hsubmit)).1.trans
      ((queue_perform c' hsubmit).1.trans ?_).symm
    rw [hscript, h.queue]
  · rw [switches_tick, switches_tick, h.lockon]
  · refine (linesTo_perform c _ m).trans ((linesTo_perform c' _ m).trans ?_).symm
    rw [hscript, h.pads]

/-- **Ticks send the same lines** for two such clients. -/
theorem SameToTicks.ticks {c c' : Client} (h : SameToTicks c c') (k : ℕ) (m : Slot) :
    linesTo m (run U c (List.replicate k .tick)).2 =
      linesTo m (run U c' (List.replicate k .tick)).2 := by
  induction k generalizing c c' with
  | zero => rfl
  | succ k ih =>
    obtain ⟨hnext, hlines⟩ := h.tick (U := U)
    have hrest := ih hnext
    rw [run, run] at hrest ⊢
    rw [List.replicate_succ, runFrom_cons, runFrom_cons, linesTo_append, linesTo_append, hlines,
      hrest]

/-! ### The whole message -/

/-- **A message that does nothing that counts**, but to toggle lock-on: by its words, by who says
it, and by the state it finds. -/
structure Idle (U : Unicode) (c : Client) (username message : Str) : Prop where
  /-- It casts no ballot that is counted, -/
  ballots : c.poll.voting = true → username ∉ c.poll.voted →
    ∀ cmd ∈ U.commands message, cmd ∉ ballotWords
  /-- starts no vote, -/
  goto : ∀ name g, U.commands message = [("!goto" : Str), name] → (name, g) ∈ gotoTable →
    c.poll.voting = true ∨ c.poll.gotoUsed = true
  /-- and is not the one that ends the program. -/
  restart : U.commands message ≠ [("!restartscript" : Str)]
  /-- If a moderator says it, it does not disable the chat, -/
  disableChat : username ∈ modlist → U.commands message = [("!disablechat" : Str)] →
    c.switches.chatEnabled = false
  /-- does not set the lock of the votes -/
  disableGoto : username ∈ modlist → U.commands message = [("!disablegoto" : Str)] →
    c.poll.voting = true
  /-- or lift it, -/
  enableGoto : username ∈ modlist → U.commands message = [("!enablegoto" : Str)] →
    c.poll.voting = false
  /-- gives nobody plus permission, -/
  givePlus : username ∈ modlist → ∀ user, U.commands message ≠ [("!giveplus" : Str), user]
  /-- takes it from nobody, -/
  removePlus : username ∈ modlist → ∀ user, U.commands message = [("!removeplus" : Str), user] →
    user ∉ c.permissions.pluslist
  /-- and neither bans nor unbans a user who might be taken for a command. -/
  ban : username ∈ modlist → ∀ user, U.commands message = [("!ban" : Str), user] →
    commandLike user = false
  unban : username ∈ modlist → ∀ user, U.commands message = [("!unban" : Str), user] →
    commandLike user = true → user ∉ c.permissions.banlist

/-- **What later lines are computed from stays as it is**, and the program goes on. -/
theorem Rejected.acting_iff (h : Rejected U c username message) :
    ((step U c (.chat username message)).1.acting = c.acting ∧
        .io (.system killPython) ∉ (step U c (.chat username message)).2) ↔
      (U.commands message).countP (isIn "lockon") % 2 = 0 ∧ Idle U c username message := by
  have hcalls : (step U c (.chat username message)).1.calls = c.calls :=
    calls_perform_quiet c fun a ha => (kind_handleChat a ha).2
  have hparts : (step U c (.chat username message)).1.acting = c.acting ↔
      (step U c (.chat username message)).1.poll = c.poll ∧
        ((step U c (.chat username message)).1.permissions.pluslist = c.permissions.pluslist ∧
          (step U c (.chat username message)).1.permissions.banlist.filter commandLike =
            c.permissions.banlist.filter commandLike) ∧
        (step U c (.chat username message)).1.switches = c.switches := by
    simp only [Client.acting, Client.unfiled, Client.unlisted, Permissions.unlisted, Client.bare,
      h.queue, h.pads, hcalls, Client.mk.injEq, Permissions.mk.injEq, true_and, and_true]
  rw [hparts, poll_chat_iff, lists_chat_iff, h.switches_iff, killPython_mem_iff]
  constructor
  · rintro ⟨⟨⟨hballots, hgoto, hdis, hen⟩, ⟨hgive, hremove, hban, hunban⟩, heven, hchat⟩, hrestart⟩
    exact ⟨heven, hballots, hgoto, hrestart, hchat, hdis, hen, hgive, hremove, hban, hunban⟩
  · rintro ⟨heven, hidle⟩
    exact ⟨⟨⟨hidle.ballots, hidle.goto, hidle.disableGoto, hidle.enableGoto⟩,
      ⟨hidle.givePlus, hidle.removePlus, hidle.ban, hidle.unban⟩, heven, hidle.disableChat⟩,
      hidle.restart⟩

end

/-- **What a message that is refused does.** It leaves the queues and the controllers as they are.
It leaves lock-on as it is just when an even number of its words have `lockon` in them, and then
ticks transmit the same lines as without it. It leaves everything as it is that later lines are
computed from, and the program running, just when it does nothing else that counts, besides; and
then no line that is transmitted later depends on it, whatever happens. -/
theorem rejected_iff (U : Unicode) (c : Client) {username message : Str}
    (h : Rejected U c username message) :
    let c' := (step U c (.chat username message)).1
    c'.queue = c.queue ∧ c'.pads = c.pads ∧
      (c'.switches.lockon = c.switches.lockon ↔
        (U.commands message).countP (isIn "lockon") % 2 = 0) ∧
      (c'.switches.lockon = c.switches.lockon → ∀ k m,
        linesTo m (run U c' (List.replicate k .tick)).2 =
          linesTo m (run U c (List.replicate k .tick)).2) ∧
      ((c'.acting = c.acting ∧ .io (.system killPython) ∉ (step U c (.chat username message)).2) ↔
        (U.commands message).countP (isIn "lockon") % 2 = 0 ∧ Idle U c username message) ∧
      ((U.commands message).countP (isIn "lockon") % 2 = 0 → Idle U c username message →
        ∀ es m, linesTo m (run U c' es).2 = linesTo m (run U c es).2) := by
  intro c'
  refine ⟨h.queue, h.pads, lockon_chat_iff U c username message, fun hlock k m => ?_,
    h.acting_iff, fun heven hidle es m => ?_⟩
  · exact SameToTicks.ticks ⟨h.pads, h.queue, hlock⟩ k m
  · rw [← linesTo_acting U m c', (h.acting_iff.mpr ⟨heven, hidle⟩).1, linesTo_acting]

/-- A message that is not valid, and says `lockon` twice. -/
theorem rejected_lockon_twice :
    let c' := (step .ascii (Client.init none none) (.chat "viewer" "lockon fly lockon")).1
    c'.switches.lockon = false ∧ ∀ es m,
      linesTo m (run .ascii c' es).2 = linesTo m (run .ascii (Client.init none none) es).2 := by
  intro c'
  have hcommands : Unicode.ascii.commands "lockon fly lockon" =
      [("lockon" : Str), "fly", "lockon"] := by decide +kernel
  have hrejected : Rejected .ascii (Client.init none none) "viewer" "lockon fly lockon" :=
    Or.inl ⟨"fly", by decide +kernel, by decide +kernel⟩
  have hmod : ("viewer" : Str) ∉ modlist := by decide
  have hidle : Idle .ascii (Client.init none none) "viewer" "lockon fly lockon" := by
    constructor <;> simp [hmod, hcommands, Client.init, Poll.init, -String.reduceToList]
  have heven : (Unicode.ascii.commands "lockon fly lockon").countP (isIn "lockon") % 2 = 0 := by
    decide +kernel
  obtain ⟨-, -, hiff, -, -, hlines⟩ := rejected_iff .ascii (Client.init none none) hrejected
  exact ⟨hiff.mpr heven, hlines heven hidle⟩

/-- **Messages that are not valid and have an effect.** After `lockon fly` the next command is sent
with `zl` pressed, and the controller is not reset after it. After a moderator's `!giveplus viewer`,
which is never accepted, the viewer presses `plus`, and could not before. -/
theorem rejected_lockon :
    let c := Client.init none none
    submitted c "viewer" (Unicode.ascii.commands "lockon fly") = [] ∧
      (step .ascii c (.chat "viewer" "lockon fly")).1.switches.lockon = true ∧
      linesTo .one (run .ascii c [.chat "viewer" "lockon fly", .chat "viewer" "swim", .tick]).2 =
        ["800100000000000 128 128 128 128"] ∧
      submitted c "alua2020" (Unicode.ascii.commands "!giveplus viewer") = [] ∧
      linesTo .one (run .ascii c [.chat "alua2020" "!giveplus viewer", .chat "viewer" "plus",
        .tick]).2 = ["800000000000010 128 128 128 128", "800000000000000 128 128 128 128"] ∧
      linesTo .one (run .ascii c [.chat "viewer" "plus", .tick]).2 = [] := by
  decide +kernel

end Twitch

end SwitchController
