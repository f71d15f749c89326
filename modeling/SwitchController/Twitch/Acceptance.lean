import SwitchController.Twitch.Release

/-!
# Messages that are accepted

Whether a message goes to the queue is decided at the end of `handleChat`, after the loop that looks
for invalid words (`SwitchController.Twitch.queue_chat`).

A message is split at its commas, and at its blanks if it has no comma. Some of the commands have a
blank in them, and such a command by itself is taken for two
(`SwitchController.Twitch.accepted_iff`).
-/

namespace SwitchController

namespace Twitch

open EventMachine

section

variable {U : Unicode} {c : Client} {username message : Str}

/-! ### The queues -/

/-- **The queues after a message**: its words are appended if the end is reached with the chat
enabled. -/
theorem queue_chat (U : Unicode) (c : Client) (username message : Str) :
    (step U c (.chat username message)).1.queue = { c.queue with
      commandQueue := c.queue.commandQueue ++
        if (commandActs c username (U.commands message)).raises = false ∧
            (step U c (.chat username message)).1.switches.chatEnabled = true then
          submitted c username (U.commands message)
        else [] } := by
  have hkind := @kind_chatActs U c username message
  have hquiet : (c.perform (chatActs U c username message)).1.queue = c.queue := by
    rw [(queue_perform c fun a ha => (hkind a ha).2.2).1,
      filterMap_eq_nil_of_isPartialInv isPartialInv_queue fun b hb => (hkind _ hb).1 rfl,
      runFrom_nil]
  simp only [step, script, handleChat_eq, Client.perform, runFrom_append] at hquiet ⊢
  cases hraises : (commandActs c username (U.commands message)).raises with
  | true => simp [hquiet]
  | false =>
    cases hon : (runFrom Client.exec c (chatActs U c username message)).1.switches.chatEnabled with
    | true => simp [hquiet, runFrom_cons, Client.exec, hon]
    | false => simp [hquiet, runFrom_cons, Client.exec, hon]

end

/-! ### Messages that are accepted -/

/-- `", ".join(cmds)`. -/
def commaJoined (cmds : List Str) : Str := (", " : Str).intercalate cmds

/-- **The commands as texts.** A blank before one is stripped, and a blank within splits it. Those
without an exclamation mark at their start have none, and two of them are tested for
permission. -/
theorem validCommands_text : ∀ cmd ∈ validCommands,
    (cmd.all (·.toNat < 128) = true ∧ ',' ∉ cmd ∧ Unicode.ascii.strip cmd = cmd ∧
      Unicode.ascii.strip (' ' :: cmd) = cmd ∧ (' ' ∈ cmd → (cmd.splitOn ' ').length ≠ 1)) ∧
    (cmd.head? ≠ some '!' → '!' ∉ cmd ∧ (isIn "plus" cmd = true → cmd = "plus") ∧
      (isIn "home" cmd = true → cmd = "home")) := by
  decide +kernel

theorem isIn_of_not_mem {pattern s : Str} {ch : Char} (h : ch ∈ pattern) (hs : ch ∉ s) :
    isIn pattern s = false :=
  decide_eq_false fun hin => hs (hin.subset h)

section

variable {U : Unicode} {c : Client} {username message cmd : Str} {cmds : List Str}

theorem strip_of_valid (U : Unicode) (h : cmd ∈ validCommands) :
    U.strip cmd = cmd ∧ U.strip (' ' :: cmd) = cmd := by
  obtain ⟨hall, -, hstrip, hblank, -⟩ := (validCommands_text cmd h).1
  have hascii : ∀ ch ∈ cmd, ch.toNat < 128 := by simpa using hall
  refine ⟨(U.strip_ascii hascii).trans hstrip, (U.strip_ascii ?_).trans hblank⟩
  exact List.forall_mem_cons.mpr ⟨by decide, hascii⟩

theorem intercalate_cons_head (sep : Str) (ch : Char) (s : Str) (rest : List Str) :
    sep.intercalate ((ch :: s) :: rest) = ch :: sep.intercalate (s :: rest) := by
  cases rest <;> simp

/-- The blank after a comma is the first character of the next piece. -/
theorem commaJoined_cons (cmd : Str) (cmds : List Str) :
    commaJoined (cmd :: cmds) = [','].intercalate (cmd :: cmds.map (' ' :: ·)) := by
  induction cmds generalizing cmd with
  | nil => rfl
  | cons next cmds ih =>
    have hnext : (", " : Str).intercalate (next :: cmds) = _ := ih next
    rw [commaJoined, List.map_cons, List.intercalate_cons_cons, List.intercalate_cons_cons, hnext,
      intercalate_cons_head]
    simp

/-- **Two commands or more** are taken apart at the commas. -/
theorem commands_commaJoined (U : Unicode) {first next : Str}
    (hvalid : ∀ cmd ∈ first :: next :: cmds, cmd ∈ validCommands) :
    U.commands (commaJoined (first :: next :: cmds)) = first :: next :: cmds := by
  have hpieces : ∀ piece ∈ first :: (next :: cmds).map (' ' :: ·), ',' ∉ piece := by
    refine List.forall_mem_cons.mpr ⟨(validCommands_text _ (hvalid _ List.mem_cons_self)).1.2.1, ?_⟩
    refine List.forall_mem_map.mpr fun cmd hcmd => ?_
    exact List.not_mem_cons_of_ne_of_not_mem (by decide)
      (validCommands_text cmd (hvalid cmd (List.mem_cons_of_mem _ hcmd))).1.2.1
  have hcomma : ',' ∈ commaJoined (first :: next :: cmds) := by
    rw [commaJoined, List.intercalate_cons_cons]
    simp
  have hstrip : ∀ cmd ∈ next :: cmds, U.strip (' ' :: cmd) = cmd := fun cmd hcmd =>
    (strip_of_valid U (hvalid cmd (List.mem_cons_of_mem _ hcmd))).2
  rw [Unicode.commands, if_pos hcomma, Unicode.splitStrip, commaJoined_cons,
    List.splitOn_intercalate ',' hpieces (List.cons_ne_nil _ _), List.map_cons, List.map_map,
    (strip_of_valid U (hvalid first List.mem_cons_self)).1]
  exact congrArg (first :: ·) ((List.map_congr_left hstrip).trans (List.map_id _))

/-- **A command without a blank** stays in one piece. -/
theorem commands_single (U : Unicode) (hvalid : cmd ∈ validCommands) (hblank : ' ' ∉ cmd) :
    U.commands (commaJoined [cmd]) = [cmd] := by
  obtain ⟨-, hcomma, -⟩ := (validCommands_text cmd hvalid).1
  have hjoined : commaJoined [cmd] = cmd := List.intercalate_singleton
  rw [hjoined, Unicode.commands, if_neg hcomma, Unicode.splitStrip, List.splitOn,
    List.splitOnP_eq_singleton fun ch hch => ?_]
  · rw [List.map_singleton, (strip_of_valid U hvalid).1]
  · exact beq_false_of_ne fun heq => hblank (heq ▸ hch)

/-- A command with a blank does not. -/
theorem length_commands_single (U : Unicode) (hvalid : cmd ∈ validCommands) (hblank : ' ' ∈ cmd) :
    (U.commands (commaJoined [cmd])).length ≠ 1 := by
  obtain ⟨-, hcomma, -, -, hsplit⟩ := (validCommands_text cmd hvalid).1
  have hjoined : commaJoined [cmd] = cmd := List.intercalate_singleton
  rw [hjoined, Unicode.commands, if_neg hcomma, Unicode.splitStrip, List.length_map]
  exact hsplit hblank

/-- **Words without an exclamation mark** do nothing but go to the queue. -/
theorem commandActs_of_head (c : Client) (username : Str)
    (hmark : ∀ cmd ∈ cmds, cmd.head? ≠ some '!') : commandActs c username cmds = .pure [] := by
  have hne : ∀ cmd ∈ cmds, ∀ word : Str, word.head? = some '!' → (cmd = word) = False :=
    fun cmd hcmd word hword => eq_false fun heq => hmark cmd hcmd (heq ▸ hword)
  match cmds with
  | [] => rfl
  | [cmd] =>
    have hcmd := hne cmd List.mem_cons_self
    simp (disch := decide) [commandActs, oneWord, ifThen, hcmd, -String.reduceToList]
  | [cmd, arg] =>
    have hcmd := hne cmd List.mem_cons_self
    simp (disch := decide) [commandActs, twoWords, ifThen, hcmd, Script.andThen, Script.pure,
      -String.reduceToList]
  | _ :: _ :: _ :: _ => rfl

/-- So they leave the chat switch alone. -/
theorem chatEnabled_of_head (hmark : ∀ cmd ∈ U.commands message, cmd.head? ≠ some '!') :
    (step U c (.chat username message)).1.switches.chatEnabled = c.switches.chatEnabled := by
  refine (congrArg Switches.chatEnabled (switches_perform c _)).trans ?_
  refine chatEnabled_foldl (fun on hmem => ?_) _
  have hacts := (mem_filterMap_of_isPartialInv isPartialInv_switch).mp hmem
  have hcommand := commandActs_of_head c username hmark
  refine forall_handleChat (P := (· ≠ .switch (.chatEnabled on))) (by simp) ?_ ?_ ?_ (by simp)
    (by simp) _ hacts rfl
  · intro cmd _
    simp only [loopActs, forall_flatten, List.forall_mem_cons, forall_ifThen]
    simp
  · intro cmd hcmd
    rw [hcmd] at hcommand
    have hnil : oneWord c.permissions username cmd = [] := congrArg Script.acts hcommand
    rw [hnil]
    exact List.forall_mem_nil _
  · exact fun cmd arg _ => forall_twoWords (by simp) (by simp) (by simp) (by simp) (by simp)

/-- **A command that the user may give** passes the tests of the loop. -/
theorem rejects_of_valid {pluslist : List Str} (hvalid : cmd ∈ validCommands)
    (hmark : cmd.head? ≠ some '!') (hplus : cmd = "plus" → username ∈ pluslist)
    (hhome : cmd = "home" → username ∈ modlist) : rejects pluslist username cmd = false := by
  obtain ⟨hnone, hplus', hhome'⟩ := (validCommands_text cmd hvalid).2 hmark
  have hpass : isIn "plus" cmd = true → username ∈ pluslist := fun h => hplus (hplus' h)
  have hpass' : isIn "home" cmd = true → username ∈ modlist := fun h => hhome (hhome' h)
  have hserver : isIn "!restartserver" cmd = false := isIn_of_not_mem (by decide) hnone
  have hscript : isIn "!restartscript" cmd = false := isIn_of_not_mem (by decide) hnone
  have henable : isIn "!enablegoto" cmd = false := isIn_of_not_mem (by decide) hnone
  have hdisable : isIn "!disablegoto" cmd = false := isIn_of_not_mem (by decide) hnone
  simpa [rejects, hvalid, hserver, hscript, henable, hdisable, -String.reduceToList] using
    ⟨hpass, hpass'⟩

end

/-- **Lists of commands.** A list of commands that the user may give goes to the queue just as it
is, unless it is a single command with a blank in it. -/
theorem accepted_iff (U : Unicode) (c : Client) {username : Str} {cmds : List Str}
    (hne : cmds ≠ []) (hlen : cmds.length ≤ 20) (hvalid : ∀ cmd ∈ cmds, cmd ∈ validCommands)
    (hmark : ∀ cmd ∈ cmds, cmd.head? ≠ some '!')
    (hplus : ("plus" : Str) ∈ cmds → username ∈ c.permissions.pluslist)
    (hhome : ("home" : Str) ∈ cmds → username ∈ modlist) (hon : c.switches.chatEnabled = true) :
    (step U c (.chat username (commaJoined cmds))).1.queue.commandQueue =
        c.queue.commandQueue ++ cmds.map (⟨·, c.clock⟩) ↔
      ∀ cmd, cmds = [cmd] → ' ' ∉ cmd := by
  rw [queue_chat]
  constructor
  · rintro hstep cmd rfl hblank
    have happend := List.append_cancel_left hstep
    have hpieces := length_commands_single U (hvalid cmd List.mem_cons_self) hblank
    -- what goes to the queue is empty, or as long as the list of the pieces
    rw [submitted] at happend
    split_ifs at happend
    · exact hpieces (by simpa using congrArg List.length happend)
    · exact absurd happend (by simp)
    · exact absurd happend (by simp)
  · intro hblank
    have hcommands : U.commands (commaJoined cmds) = cmds := by
      rcases cmds with - | ⟨cmd, - | ⟨next, cmds⟩⟩
      · exact absurd rfl hne
      · exact commands_single U (hvalid cmd List.mem_cons_self) (hblank cmd rfl)
      · exact commands_commaJoined U hvalid
    have hraises : (commandActs c username cmds).raises = false :=
      congrArg Script.raises (commandActs_of_head c username hmark)
    have hsame := @chatEnabled_of_head U c username (commaJoined cmds) (hcommands.symm ▸ hmark)
    have hpass : ∀ cmd ∈ cmds, rejects c.permissions.pluslist username cmd = false := by
      intro cmd hcmd
      exact rejects_of_valid (hvalid cmd hcmd) (hmark cmd hcmd) (fun h => hplus (h ▸ hcmd))
        (fun h => hhome (h ▸ hcmd))
    have hsubmitted : submitted c username cmds = cmds.map (⟨·, c.clock⟩) :=
      if_pos ⟨List.all_eq_true.mpr fun cmd hcmd => by rw [hpass cmd hcmd]; rfl, hlen⟩
    rw [hcommands, if_pos ⟨hraises, hsame.trans hon⟩, hsubmitted]

/-- A long jump and a button, in one message. -/
theorem accepted_longJump_a :
    (step .ascii (Client.init none none) (.chat "viewer" "long jump, a")).1.queue.commandQueue =
      [⟨"long jump", 0⟩, ⟨"a", 0⟩] := by
  have haccepted := @accepted_iff .ascii (Client.init none none) "viewer" ["long jump", "a"]
    (by decide) (by decide) (by decide +kernel) (by decide) (by decide) (by decide) rfl
  exact haccepted.mpr fun cmd hcmd => absurd (congrArg List.length hcmd) (by simp)

/-- **A long jump alone** is a valid command, and is not accepted. -/
theorem accepted_longJump :
    let c := Client.init none none
    ("long jump" : Str) ∈ validCommands ∧ c.switches.chatEnabled = true ∧
      commaJoined [("long jump" : Str)] = "long jump" ∧
      (step .ascii c (.chat "viewer" "long jump")).1.queue = c.queue := by
  decide +kernel

end Twitch

end SwitchController
