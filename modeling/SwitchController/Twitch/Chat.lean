import SwitchController.Twitch.Client

/-!
# Chat messages

`handleChat` takes a message apart and does what it says. There are commands for everyone, for
the moderators and for the users with plus permission, each with its own test, and whatever
the message was, its words go to the queue in the end if all of them are valid.

The script of a message is computed from the state the message finds. That is what the
statements would read in their turn: a message of two words can change the lists, but only
one of a single word reads them again, and a message that starts a vote casts no ballot.
What is read after a statement of the same message may have changed it – `chatEnabled`, at the
end – is left to the statement (`SwitchController.Twitch.Act.submit`).
-/

namespace SwitchController

namespace Twitch

/-! ### The tables -/

/-- `validCommands`. -/
def validCommands : List Str :=
  ["!setforfeitlength", "!setturnlength", "!banlist", "!disableinternet", "!enableinternet",
    "!forcerefresh", "nay", "yea", "!enablechat", "!disablechat", "!enablegoto", "!disablegoto",
    "!unmod", "!mod", "!fixcontrollers", "!goto snipperclips", "!pluslist", "!unban", "!ban",
    "!removeplus", "!giveplus", "!goto human", "!goto shovel", "!goto octopath",
    "!goto explosion", "!goto jackbox4", "!goto jackbox3", "!commands", "!goto fallout",
    "!goto fortnite", "!goto torquel", "!goto pokemonquest", "!restart", "!restart1",
    "!restart2", "!restart3", "!restartscript", "!restartserver", "!help", "votenay", "voteyea",
    "!goto wizard", "!goto cave", "!goto sonic", "!goto skyrim", "!goto rocketleague",
    "!goto arms", "!goto celeste", "!goto mk8", "!goto splatoon2", "!goto isaac", "!goto mario",
    "!goto botw", "!goto kirby", "!goto smo", "!goto", "lockon", "hhsprint", "hsprint", "sprint",
    "!controls", "!goto", "home", "lstick", "rstick", "spin", "swim", "back flip",
    "ground pound", "groundpound", "gp", "bf", "cap bounce", "sdive", "sdive2", "hdive",
    "hdive2", "hdive3", "dive", "dive2", "dive3", "roll", "roll2", "backflip", "backflip2",
    "sssu", "sssd", "sssl", "sssr", "sb", "suu", "", "up", "down", "left", "right", "u", "d",
    "l", "r", "hup", "hdown", "hleft", "hright", "hhup", "hhdown", "hhleft", "hhright", "hu",
    "hd", "hl", "hr", "su", "sd", "sl", "sr", "sup", "sdown", "sleft", "sright", "ssu", "ssd",
    "ssl", "ssr", "ssup", "ssdown", "ssleft", "ssright", "look up", "look down", "look left",
    "look right", "lu", "ld", "ll", "lr", "hlu", "hld", "hll", "hlr", "slu", "sld", "sll", "slr",
    "dup", "ddown", "dleft", "dright", "du", "dd", "dl", "dr", "a", "b", "x", "y", "ha", "hb",
    "hx", "hy", "hhb", "hhhb", "l", "zl", "r", "zr", "plus", "minus", "long jump", "long jump2",
    "long jump3", "jump forward", "jump forward2", "jump back", "jump back2", "dive", "dive2"]

/-- The games of `!goto`, with the arguments of `goto_game_vote`. -/
def gotoTable : List (Str × Game) :=
  [("smo", ⟨"icons/smo.png", 30, "Super Mario Odyssey"⟩),
    ("botw", ⟨"icons/botw.png", 20, "The Legend of Zelda: Breath of the Wild"⟩),
    ("celeste", ⟨"icons/celeste.png", 10, "Celeste"⟩),
    ("kirby", ⟨"icons/kirby.png", 10, "Twitch Plays"⟩),
    ("splatoon2", ⟨"icons/splatoon2.png", 10, "Splatoon 2"⟩),
    ("sonic", ⟨"icons/sonic.png", 10, "Sonic Mania"⟩),
    ("mk8", ⟨"icons/mk8.png", 10, "Mario Kart 8"⟩),
    ("arms", ⟨"icons/arms.png", 10, "Twitch Plays"⟩),
    ("skyrim", ⟨"icons/skyrim.png", 40, "The Elder Scrolls V: Skyrim"⟩),
    ("rocketleague", ⟨"icons/rocketleague.png", 10, "Rocket League"⟩),
    ("wizard", ⟨"icons/wizard.png", 10, "Wizard of Legend"⟩),
    ("pokemonquest", ⟨"icons/pokemonquest.png", 10, "Pokemon Quest"⟩),
    ("torquel", ⟨"icons/torquel.png", 10, "Twitch Plays"⟩),
    ("fallout", ⟨"icons/fallout.png", 10, "Twitch Plays"⟩),
    ("fortnite", ⟨"icons/fortnite2.png", 10, "Fortnite"⟩),
    ("jackbox3", ⟨"icons/jackbox3.png", 10, "Twitch Plays"⟩),
    ("jackbox4", ⟨"icons/jackbox4.png", 10, "Twitch Plays"⟩),
    ("shovel", ⟨"icons/shovel.png", 10, "Twitch Plays"⟩),
    ("octopath", ⟨"icons/octopathprologuedemo.png", 10, "Twitch Plays"⟩),
    ("explosion", ⟨"icons/explosion.png", 10, "Twitch Plays"⟩),
    ("human", ⟨"icons/human.png", 10, "Twitch Plays"⟩),
    ("snipperclips", ⟨"icons/snipperclips.png", 10, "Twitch Plays"⟩)]

/-! ### The help texts -/

/-- The answer to `!controls` and `!help`. -/
def controlsText : Str :=
  "goto https://twitchplaysnintendoswitch.com or look at the description for the chat " ++
    "controls,\t\t\t you can also type \"!goto [game]\" (without brackets) to switch games. " ++
    "use !goto for a list of games! use !commands for a list of commands!"

/-- The answer to `!goto` alone. -/
def gotoText : Str :=
  "use \"!goto [game]\" (without brackets) to switch games! list: smo, botw, fortnite, " ++
    "fallout, kirby, wizard, splatoon2, skyrim, sonic, celeste, torquel, pokemonquest, " ++
    "shovel, human, octopath, jackbox3, jackbox4, mk8, explosion, rocketleague, arms"

/-- The answer to `!commands`. -/
def commandsText : Str :=
  "(mods only): \"!restartscript\", \"!restartserver\" \"!giveplus [user]\", \"!ban " ++
    "[user]\", \"!unban [user]\", \"!removeplus [user]\", \"!disablechat\", \"!enablechat\", " ++
    "\"!disablegoto\", \"!enablegoto\", \"!setturnlength [lengthInMS]\", \"!setforfeitlength " ++
    "[lengthInMS]\" (plus only): \"!disableinternet\", \"!enableinternet\", " ++
    "\"!fixcontrollers\" (anyone): \"!restart1\", \"!restart2\", \"!restart3\", " ++
    "\"!pluslist\", \"!banlist\", \"!goto [game]\""

/-! ### `!fixcontrollers` -/

/-- A button is pressed on a controller, which is sent and reset. -/
def tap (n : Slot) (btn : Btn) (cause : Cause) : List PadAct :=
  .press n btn cause :: sendAndReset true n

/-- A stick of the first controller is pushed, and the controller sent and reset. -/
def push (s : Stick) (v : ℤ) : List PadAct := .stick .one s v :: sendAndReset true .one

/-- **The sequence of `!fixcontrollers`**: to the section where controllers are paired, `a` on
each controller in turn, and back to the game. -/
def fixControllers : List Act :=
  [.io (.chat "Fixing controller order!"), .switch (.controllerEnabled false),
      .switch (.chatEnabled false)] ++
    (.reset .one :: (tap .one .home .fixControllers ++ push .ly stickMax ++ push .lx stickMax ++
      push .lx stickMax ++ push .lx stickMax ++ tap .one .a .fixControllers ++
      tap .one .a .fixControllers ++ tap .one .a .fixControllers ++
      tap .two .a .fixControllers ++ tap .three .a .fixControllers ++
      tap .four .a .fixControllers ++ tap .one .a .fixControllers ++
      tap .one .a .fixControllers ++ tap .one .b .fixControllers ++ push .ly stickMin ++
      push .lx stickMin ++ tap .one .a .fixControllers)).map .pad ++
    [.switch (.controllerEnabled true), .switch (.chatEnabled true)]

/-! ### The parts of `handleChat` -/

/-- The words of a message. -/
def Unicode.commands (U : Unicode) (message : Str) : List Str :=
  if ',' ∈ message then U.splitStrip ',' message else U.splitStrip ' ' message

theorem isInfix_of_mem_commands {U : Unicode} {message cmd : Str} (h : cmd ∈ U.commands message) :
    cmd <:+: message := by
  rw [Unicode.commands] at h
  split at h
  · exact isInfix_of_mem_splitStrip h
  · exact isInfix_of_mem_splitStrip h

/-- The words of a message in ASCII, without commas. -/
theorem commands_ascii (U : Unicode) {message : Str} (pieces : List Str) (hcomma : ',' ∉ message)
    (hsplit : message.splitOn ' ' = pieces) (hascii : pieces.flatten.all (·.toNat < 128)) :
    U.commands message = pieces.map Unicode.ascii.strip := by
  have hlt : ∀ s ∈ pieces, ∀ ch ∈ s, ch.toNat < 128 := by
    intro s hs ch hch
    simpa using List.all_eq_true.mp hascii ch (List.mem_flatten_of_mem hs hch)
  rw [Unicode.commands, if_neg hcomma, Unicode.splitStrip, hsplit]
  exact List.map_congr_left fun s hs => U.strip_ascii (hlt s hs)

/-- `if p: acts`, with nothing else. -/
def ifThen (p : Prop) [Decidable p] (acts : List Act) : List Act := if p then acts else []

theorem ifThen_pos {p : Prop} [Decidable p] (hp : p) (acts : List Act) : ifThen p acts = acts :=
  if_pos hp

theorem ifThen_neg {p : Prop} [Decidable p] (hp : ¬p) (acts : List Act) : ifThen p acts = [] :=
  if_neg hp

theorem forall_ifThen {p : Prop} [Decidable p] {acts : List Act} {P : Act → Prop} :
    (∀ a ∈ ifThen p acts, P a) ↔ (p → ∀ a ∈ acts, P a) := by
  by_cases hp : p
  · rw [ifThen_pos hp]
    exact ⟨fun h _ => h, fun h => h hp⟩
  · rw [ifThen_neg hp]
    exact ⟨fun _ hp' => absurd hp' hp, fun _ => List.forall_mem_nil _⟩

theorem filterMap_ifThen {β : Type} (f : Act → Option β) (p : Prop) [Decidable p]
    (acts : List Act) : (ifThen p acts).filterMap f = if p then acts.filterMap f else [] := by
  by_cases hp : p
  · rw [ifThen_pos hp, if_pos hp]
  · rw [ifThen_neg hp, if_neg hp]
    rfl

/-- The help texts. -/
def helpActs (commands : List Str) : List Act :=
  [ifThen (commands.head? = some ("!controls" : Str) ∨ commands.head? = some ("!help" : Str))
      [.io (.chat controlsText)],
    ifThen (commands = [("!goto" : Str)]) [.io (.chat gotoText)],
    ifThen (commands = [("!commands" : Str)]) [.io (.chat commandsText)]].flatten

/-- **The tests of the loop** over the words: one of them clears `valid`. -/
def rejects (pluslist : List Str) (username cmd : Str) : Bool :=
  (cmd ∉ validCommands && !isIn "+" cmd) ||
    (isIn "plus" cmd && username ∉ pluslist) ||
    (isIn "home" cmd && username ∉ modlist) ||
    (isIn "!restartserver" cmd && username ∉ modlist) ||
    (isIn "!restartscript" cmd && username ∉ modlist) ||
    (isIn "!enablegoto" cmd && username ∉ modlist) ||
    (isIn "!disablegoto" cmd && username ∉ modlist)

/-- What the loop does besides. -/
def loopActs (username cmd : Str) : List Act :=
  [ifThen (isIn "lockon" cmd) [.switch .toggleLockon],
    ifThen (cmd = "voteyea" ∨ cmd = "yea") [.poll (.ballot username true)],
    ifThen (cmd = "votenay" ∨ cmd = "nay") [.poll (.ballot username false)]].flatten

/-- `!unban`. For a user who is not banned `banlist.remove` raises `ValueError`. -/
def unban (banlist : List Str) (user : Str) : Script :=
  if user ∈ banlist then
    .pure [.io (.chat ("Unbanning: " ++ user)), .permission (.unban user),
      .io (.emit (.banlist (banlist.erase user))), .permission .dumpBanlist]
  else .raise [.io (.chat ("Unbanning: " ++ user))]

/-- **Commands of two words.** -/
def twoWords (p : Permissions) (username cmd arg : Str) : Script :=
  .andThen (.pure
    [ifThen (cmd = "!giveplus" ∧ username ∈ modlist)
        [.io (.chat ("Giving plus permission to: " ++ arg)), .permission (.givePlus arg),
          .permission .dumpPluslist],
      ifThen (cmd = "!removeplus" ∧ username ∈ modlist)
        [.io (.chat ("Removing plus permissions from: " ++ arg)), .permission (.removePlus arg),
          .permission .dumpPluslist],
      ifThen (cmd = "!ban" ∧ username ∈ modlist)
        [.io (.chat ("Banning: " ++ arg)), .permission (.ban arg),
          .io (.emit (.banlist (p.banlist ++ [arg]))), .permission .dumpBanlist]].flatten) <|
  .andThen (if cmd = "!unban" ∧ username ∈ modlist then unban p.banlist arg else .pure []) <|
  .pure
    [ifThen (cmd = "!setturnlength" ∧ username ∈ modlist)
        [.io (.chat ("Setting turn length to: " ++ arg)), .io (.emit (.setTurnLength arg))],
      ifThen (cmd = "!setforfeitlength" ∧ username ∈ modlist)
        [.io (.chat ("Setting forfeit length to: " ++ arg)),
          .io (.emit (.setForfeitLength arg))]].flatten

/-- The answer to `!pluslist` and `!banlist`. -/
def userText (msg : Str) (users : List Str) : Str := msg ++ users.flatMap (· ++ [','])

/-- **Commands of one word.** -/
def oneWord (p : Permissions) (username cmd : Str) : List Act :=
  [ifThen (cmd = "!pluslist") [.io (.chat (userText "plus list: " p.pluslist))],
    ifThen (cmd = "!banlist") [.io (.chat (userText "ban list: " p.banlist))],
    ifThen (cmd = "!restart1" ∨ cmd = "!restart")
      [.io (.chat "Restarting lagless1!"), .io (.system "taskkill /f /im streamr.exe")],
    ifThen (cmd = "!restart2") [.io (.chat "Restarting lagless2!"), .io (.emit .restart2)],
    ifThen (cmd = "!restart3") [.io (.chat "Restarting lagless3!"), .io (.emit .restart3)],
    ifThen (cmd = "!restartserver")
      [.io (.chat "Restarting the server! maybe @fosse if you're using this!"),
        .io (.emit .restartServer)],
    ifThen (cmd = "!restartscript")
      [.io (.chat "Restarting the python script!"), .permission .dumpPluslist,
        .io (.system killPython)],
    ifThen (cmd = "!disablegoto" ∧ username ∈ modlist)
      [.io (.chat "Disabling !goto"), .poll .disableGoto],
    ifThen (cmd = "!enablegoto" ∧ username ∈ modlist)
      [.io (.chat "Enabling !goto"), .poll .enableGoto],
    ifThen (cmd = "!disablechat" ∧ username ∈ modlist)
      [.io (.chat "Disabling chat commands!"), .switch (.chatEnabled false)],
    ifThen (cmd = "!enablechat" ∧ username ∈ modlist)
      [.io (.chat "Enabling chat commands!"), .switch (.chatEnabled true)],
    ifThen (cmd = "!forcerefresh" ∧ username ∈ modlist) [.io (.emit .forceRefresh)],
    ifThen (cmd = "!disableinternet" ∧ username ∈ p.pluslist)
      [.io (.chat "Disabling internet accesss!"), .io (.emit .disableInternet)],
    ifThen (cmd = "!enableinternet" ∧ username ∈ p.pluslist)
      [.io (.chat "Enabling internet access!"), .io (.emit .enableInternet)],
    ifThen (cmd = "!fixcontrollers" ∧ username ∈ p.pluslist) fixControllers].flatten

/-- **`goto_game_vote`**, with the answer it gives. The counters are cleared before the answer is
sent, and the timer is started after it. -/
def gotoGameVote (p : Poll) (g : Game) : List Act :=
  [.io (.chat
      (if p.voting then "The !goto command is disabled right now"
      else if p.gotoUsed then
        "The !goto command was used in the last 8 minutes, please wait before trying to " ++
          "change the game again"
      else
        "A vote has been started to goto " ++ g.nameofgame ++ "! Vote now with VoteYea to " ++
          "LEAVE and VoteNay to STAY! Voting ends in 20 seconds!")),
    .poll (.gotoGameVote g)]

/-- The vote commands: `!goto` and the name of a game. -/
def gotoActs (p : Poll) (name : Str) : List Act :=
  (gotoTable.filter (·.1 = name)).flatMap fun entry => gotoGameVote p entry.2

/-- What a message does, by the number of its words. -/
def commandActs (c : Client) (username : Str) : List Str → Script
  | [cmd] => .pure (oneWord c.permissions username cmd)
  | [cmd, arg] =>
      .andThen (twoWords c.permissions username cmd arg) <|
        .pure (if cmd = "!goto" then gotoActs c.poll arg else [])
  | _ => .pure []

/-- The words go to the queue if there are at most twenty and all are valid, -/
def submitted (c : Client) (username : Str) (commands : List Str) : List Queued :=
  if commands.all (fun cmd => !rejects c.permissions.pluslist username cmd) ∧
      commands.length ≤ 20 then
    commands.map fun cmd => ⟨cmd, c.clock⟩
  else []

/-- **`handleChat`**. -/
def handleChat (U : Unicode) (c : Client) (username message : Str) : List Act :=
  let commands := U.commands message
  (Script.andThen (.pure (helpActs commands ++ commands.flatMap (loopActs username))) <|
    .andThen (commandActs c username commands) <|
      .pure [.submit (submitted c username commands)]).acts

/-! ### What a message can do -/

theorem forall_flatten {L : List (List Act)} {P : Act → Prop} :
    (∀ a ∈ L.flatten, P a) ↔ ∀ acts ∈ L, ∀ a ∈ acts, P a := by
  simp only [List.mem_flatten]
  constructor
  · exact fun h acts hacts a ha => h a ⟨acts, hacts, ha⟩
  · rintro h a ⟨acts, hacts, ha⟩
    exact h acts hacts a ha

variable {U : Unicode} {c : Client} {username message : Str} {P : Act → Prop}

/-- What a message does by the number of its words. -/
theorem forall_commandActs {commands : List Str} (hchat : ∀ msg, P (.io (.chat msg)))
    (hone : ∀ cmd, commands = [cmd] → ∀ a ∈ oneWord c.permissions username cmd, P a)
    (htwo : ∀ cmd arg, commands = [cmd, arg] →
      ∀ a ∈ (twoWords c.permissions username cmd arg).acts, P a)
    (hgoto : ∀ name g, commands = [("!goto" : Str), name] → (name, g) ∈ gotoTable →
      P (.poll (.gotoGameVote g))) :
    ∀ a ∈ (commandActs c username commands).acts, P a := by
  rw [commandActs.eq_def]
  split
  · rename_i cmd
    exact hone cmd rfl
  · rename_i cmd arg
    refine forall_andThen (htwo cmd arg rfl) ?_
    simp only [acts_pure]
    split
    · rename_i hcmd
      intro a ha
      obtain ⟨⟨name, g⟩, hentry, hmem⟩ := List.mem_flatMap.mp ha
      obtain ⟨htable, hname⟩ := List.mem_filter.mp hentry
      obtain rfl : name = arg := of_decide_eq_true hname
      simp only [gotoGameVote, List.mem_cons, List.not_mem_nil, or_false] at hmem
      rcases hmem with rfl | rfl
      · exact hchat _
      · exact hgoto name g (by rw [hcmd]) htable
    · exact List.forall_mem_nil _
  · exact List.forall_mem_nil _

/-- **The parts of a message, one by one.** -/
theorem forall_handleChat (hhelp : ∀ msg, P (.io (.chat msg)))
    (hloop : ∀ cmd ∈ U.commands message, ∀ a ∈ loopActs username cmd, P a)
    (hone : ∀ cmd, U.commands message = [cmd] → ∀ a ∈ oneWord c.permissions username cmd, P a)
    (htwo : ∀ cmd arg, U.commands message = [cmd, arg] →
      ∀ a ∈ (twoWords c.permissions username cmd arg).acts, P a)
    (hgoto : ∀ name g, U.commands message = [("!goto" : Str), name] → (name, g) ∈ gotoTable →
      P (.poll (.gotoGameVote g)))
    (hsubmit : P (.submit (submitted c username (U.commands message)))) :
    ∀ a ∈ handleChat U c username message, P a := by
  rw [handleChat]
  refine forall_andThen ?_ (forall_andThen ?_ ?_)
  · refine List.forall_mem_append.mpr ⟨?_, ?_⟩
    · simp only [helpActs, forall_flatten, List.forall_mem_cons, forall_ifThen]
      simp [hhelp]
    · intro a ha
      obtain ⟨cmd, hcmd, ha⟩ := List.mem_flatMap.mp ha
      exact hloop cmd hcmd a ha
  · exact forall_commandActs hhelp hone htwo hgoto
  · exact List.forall_mem_singleton.mpr hsubmit

/-- A message of one word. -/
theorem handleChat_of_commands_eq {cmd : Str} (h : U.commands message = [cmd]) :
    handleChat U c username message =
      helpActs [cmd] ++ loopActs username cmd ++ oneWord c.permissions username cmd ++
        [.submit (submitted c username [cmd])] := by
  simp [handleChat, h, commandActs]

theorem kind_helpActs (commands : List Str) : ∀ a ∈ helpActs commands, a.kind = .io := by
  simp only [helpActs, forall_flatten, List.forall_mem_cons, forall_ifThen]
  simp

theorem kind_oneWord (p : Permissions) (username cmd : Str) :
    ∀ a ∈ oneWord p username cmd, a.kind ≠ .queue ∧ a.kind ≠ .call ∧ a.kind ≠ .submit := by
  have hfix : ∀ a ∈ fixControllers, a.kind ≠ .queue ∧ a.kind ≠ .call ∧ a.kind ≠ .submit := by
    decide
  simp only [oneWord, forall_flatten, List.forall_mem_cons, forall_ifThen]
  simpa using fun _ _ => hfix

/-- **What a command of two words can do.** -/
theorem forall_twoWords {p : Permissions} {cmd arg : Str} (hchat : ∀ msg, P (.io (.chat msg)))
    (hperm : ∀ a, P (.permission a)) (hban : ∀ users, P (.io (.emit (.banlist users))))
    (hturn : P (.io (.emit (.setTurnLength arg))))
    (hforfeit : P (.io (.emit (.setForfeitLength arg)))) :
    ∀ a ∈ (twoWords p username cmd arg).acts, P a := by
  refine forall_andThen ?_ (forall_andThen ?_ ?_)
  · simp only [acts_pure, forall_flatten, List.forall_mem_cons, forall_ifThen]
    simp [hchat, hperm, hban]
  · by_cases hcmd : cmd = "!unban" ∧ username ∈ modlist
    · rw [if_pos hcmd, unban]
      -- up to the exception, if the user is not banned
      split
      · simp [hchat, hperm, hban]
      · simp [hchat]
    · rw [if_neg hcmd]
      exact List.forall_mem_nil _
  · simp only [acts_pure, forall_flatten, List.forall_mem_cons, forall_ifThen]
    simp [hchat, hturn, hforfeit]

theorem kind_twoWords (p : Permissions) (username cmd arg : Str) :
    ∀ a ∈ (twoWords p username cmd arg).acts, a.kind = .io ∨ a.kind = .permission :=
  forall_twoWords (by simp) (by simp) (by simp) (by simp) (by simp)

theorem kind_loopActs (username cmd : Str) :
    ∀ a ∈ loopActs username cmd, a.kind = .switch ∨ a.kind = .poll := by
  simp only [loopActs, forall_flatten, List.forall_mem_cons, forall_ifThen]
  simp

theorem kind_flatMap_loopActs (username : Str) (commands : List Str) :
    ∀ a ∈ commands.flatMap (loopActs username), a.kind = .switch ∨ a.kind = .poll := by
  intro a ha
  obtain ⟨cmd, -, ha⟩ := List.mem_flatMap.mp ha
  exact kind_loopActs username cmd a ha

/-! ### The end of a message -/

/-- A message up to its end. -/
def chatActs (U : Unicode) (c : Client) (username message : Str) : List Act :=
  helpActs (U.commands message) ++ (U.commands message).flatMap (loopActs username) ++
    (commandActs c username (U.commands message)).acts

theorem handleChat_eq (U : Unicode) (c : Client) (username message : Str) :
    handleChat U c username message = chatActs U c username message ++
      if (commandActs c username (U.commands message)).raises then []
      else [.submit (submitted c username (U.commands message))] := by
  rw [handleChat, chatActs, pure_andThen, Script.andThen]
  split <;> simp

theorem kind_chatActs : ∀ a ∈ chatActs U c username message,
    a.kind ≠ .queue ∧ a.kind ≠ .call ∧ a.kind ≠ .submit := by
  rw [chatActs, List.forall_mem_append, List.forall_mem_append]
  refine ⟨⟨fun a ha => ?_, fun a ha => ?_⟩, forall_commandActs (by simp) ?_ ?_ (by simp)⟩
  · rw [kind_helpActs _ a ha]
    decide
  · rcases kind_flatMap_loopActs username _ a ha with h | h <;> rw [h] <;> decide
  · exact fun cmd _ => kind_oneWord _ username cmd
  · intro cmd arg _ a ha
    rcases kind_twoWords _ username cmd arg a ha with h | h <;> rw [h] <;> decide

/-- A message neither executes a command nor calls `goto_game`. -/
theorem kind_handleChat :
    ∀ a ∈ handleChat U c username message, a.kind ≠ .queue ∧ a.kind ≠ .call := by
  rw [handleChat_eq, List.forall_mem_append]
  refine ⟨fun a ha => ⟨(kind_chatActs a ha).1, (kind_chatActs a ha).2.1⟩, ?_⟩
  split <;> simp

/-- What it gives to the queue are its words. -/
theorem eq_submitted_of_mem {cmds : List Queued}
    (h : .submit cmds ∈ handleChat U c username message) :
    cmds = submitted c username (U.commands message) := by
  rw [handleChat_eq, List.mem_append] at h
  rcases h with h | h
  · exact absurd rfl (kind_chatActs _ h).2.2
  · split at h
    · exact absurd h List.not_mem_nil
    · exact Act.submit.inj (List.mem_singleton.mp h)

end Twitch

end SwitchController
