import SwitchController.Twitch.Chat

/-!
# The queue of commands

Every few milliseconds `decreaseQueue` executes one command: the first of `commandQueue`, which
is moved to the end of `nextCommands` and taken from there at once, or, when there is none,
the last of `nextCommands`. Some commands are compound: they put what comes next at the front
of `nextCommands`.

The function is a row of some hundred tests of the same command, all of them made, and they
are a table here (`SwitchController.Twitch.moves`), in the order of the source. Two of the tests
may hold of one command: `l` is to go left, and the button of that name.
-/

namespace SwitchController

namespace Twitch

/-! ### The table -/

/-- What a command sets on the first controller. -/
inductive Setting where
  | stick (s : Stick) (v : ℤ)
  | dpad (d : Fin 10)
  | press (btn : Btn)
  | release (btn : Btn)
  deriving DecidableEq

/-- **One test of `decreaseQueue`** and what is done when it holds. -/
structure Branch where
  /-- The commands it is for. -/
  names : List Str
  sets : List Setting
  /-- What is put at the front of `nextCommands`, one after the other. -/
  inserts : List Str
  /-- The value given to `reset`, if one is. -/
  reset : Option Bool
  deriving DecidableEq

/-- A command that is let go of. -/
def move (names : List Str) (sets : List Setting) : Branch := ⟨names, sets, [], some true⟩

/-- A command that is held while the next is begun. -/
def chain (names : List Str) (sets : List Setting) (next : Str) : Branch :=
  ⟨names, sets, [next], some false⟩

/-- A command that stands for others. -/
def expand (names inserts : List Str) : Branch := ⟨names, [], inserts, none⟩

/-- **The tests**, in the order of the source. -/
def moves : List Branch :=
  [move ["sssleft", "sssl"] [.stick .lx stickMin],
    move ["sssright", "sssr"] [.stick .lx stickMax],
    move ["sssup", "sssu"] [.stick .ly stickMin],
    move ["sssdown", "sssd"] [.stick .ly stickMax],
    move ["ssleft", "ssl"] [.stick .lx stickMin],
    move ["ssright", "ssr"] [.stick .lx stickMax],
    move ["ssup", "ssu"] [.stick .ly stickMin],
    move ["ssdown", "ssd"] [.stick .ly stickMax],
    move ["sleft", "sl"] [.stick .lx stickMin],
    move ["sright", "sr"] [.stick .lx stickMax],
    move ["sup", "su"] [.stick .ly stickMin],
    move ["sdown", "sd"] [.stick .ly stickMax],
    move ["left", "l"] [.stick .lx stickMin],
    move ["right", "r"] [.stick .lx stickMax],
    move ["up", "u"] [.stick .ly stickMin],
    move ["down", "d"] [.stick .ly stickMax],
    move ["hleft", "hl"] [.stick .lx stickMin],
    move ["hright", "hr"] [.stick .lx stickMax],
    move ["hup", "hu"] [.stick .ly stickMin],
    move ["hdown", "hd"] [.stick .ly stickMax],
    move ["hhleft"] [.stick .lx stickMin],
    move ["hhright"] [.stick .lx stickMax],
    move ["hhup"] [.stick .ly stickMin],
    move ["hhdown"] [.stick .ly stickMax],
    move ["dleft", "dl"] [.dpad dpadLeft],
    move ["dright", "dr"] [.dpad dpadRight],
    move ["dup", "du"] [.dpad dpadUp],
    move ["ddown", "dd"] [.dpad dpadDown],
    move ["slook left", "sll"] [.stick .rx stickMin],
    move ["slook right", "slr"] [.stick .rx stickMax],
    move ["slook up", "slu"] [.stick .ry stickMin],
    move ["slook down", "sld"] [.stick .ry stickMax],
    move ["look left", "ll"] [.stick .rx stickMin],
    move ["look right", "lr"] [.stick .rx stickMax],
    move ["look up", "lu"] [.stick .ry stickMin],
    move ["look down", "ld"] [.stick .ry stickMax],
    move ["hlook left", "hll"] [.stick .rx stickMin],
    move ["hlook right", "hlr"] [.stick .rx stickMax],
    move ["hlook up", "hlu"] [.stick .ry stickMin],
    move ["hlook down", "hld"] [.stick .ry stickMax],
    move ["a"] [.press .a],
    move ["ha"] [.press .a],
    move ["sb"] [.press .b],
    move ["b"] [.press .b],
    move ["hb"] [.press .b],
    move ["hhb"] [.press .b],
    move ["hhhb"] [.press .b],
    move ["x"] [.press .x],
    move ["hx"] [.press .x],
    move ["y"] [.press .y],
    move ["hy"] [.press .y],
    move ["lstick"] [.press .lstick],
    move ["rstick"] [.press .rstick],
    move ["l"] [.press .l],
    move ["r"] [.press .r],
    move ["hr"] [.press .r],
    move ["zl"] [.press .zl],
    move ["zr"] [.press .zr],
    move ["minus"] [.press .minus],
    move ["plus"] [.press .plus],
    move ["home"] [.press .home],
    chain ["long jump"] [.stick .ly stickMin] "long jump2",
    chain ["long jump2"] [.stick .ly stickMin, .press .zl] "long jump3",
    chain ["long jump3"] [.stick .ly stickMin, .press .b] "long jump4",
    move ["long jump4"] [.stick .ly stickMin, .press .b, .release .zl],
    chain ["jump forward"] [.stick .ly stickMin] "jump forward2",
    move ["jump forward2"] [.stick .ly stickMin, .press .b],
    chain ["jump back"] [.stick .ly stickMax] "jump forward2",
    move ["jump back2"] [.stick .ly stickMax, .press .b],
    expand ["cap bounce"] ["b", "y", "sdive", "hy", "y", "sdive"],
    expand ["swim"] ["b", "b", "b", "b"],
    chain ["sdive"] [.press .zl] "sdive2",
    move ["sdive2"] [.press .y],
    chain ["dive"] [.press .b] "dive2",
    chain ["dive2"] [.press .zl] "dive3",
    move ["dive3"] [.press .y],
    chain ["hdive"] [.press .b] "hdive2",
    chain ["hdive2"] [.press .zl] "hdive3",
    move ["hdive3"] [.press .y],
    chain ["roll"] [.press .zl] "roll2",
    move ["roll2"] [.press .y],
    chain ["backflip", "bf", "back flip"] [.press .zl] "backflip2",
    move ["backflip2"] [.press .b],
    chain ["ground pound", "gp", "groundpound"] [.press .b] "ground pound2",
    move ["ground pound2"] [.press .zl],
    move ["sprint"] [.stick .ly stickMin, .press .b],
    move ["hsprint"] [.stick .ly stickMin, .press .b],
    move ["hhsprint"] [.stick .ly stickMin, .press .b],
    chain ["spin"] [.stick .lx stickCenter, .stick .ly stickMin] "spin2",
    chain ["spin2"] [.stick .lx stickMax, .stick .ly stickMin] "spin3",
    chain ["spin3"] [.stick .lx stickMax, .stick .ly stickCenter] "spin4",
    chain ["spin4"] [.stick .lx stickCenter, .stick .ly stickMax] "spin5",
    chain ["spin5"] [.stick .lx stickMin, .stick .ly stickMax] "spin6",
    chain ["spin6"] [.stick .lx stickMin, .stick .ly stickCenter] "spin7",
    chain ["spin7"] [.stick .lx stickMin, .stick .ly stickMin] "spin8",
    chain ["spin8"] [.stick .lx stickCenter, .stick .ly stickMin] "spin9",
    chain ["spin9"] [.stick .lx stickCenter, .stick .ly stickMin] "spin10",
    chain ["spin10"] [.stick .lx stickMax, .stick .ly stickMin] "spin11",
    chain ["spin11"] [.stick .lx stickMax, .stick .ly stickCenter] "spin12",
    chain ["spin12"] [.stick .lx stickCenter, .stick .ly stickMax] "spin13",
    chain ["spin13"] [.stick .lx stickMin, .stick .ly stickMax] "spin14",
    chain ["spin14"] [.stick .lx stickMin, .stick .ly stickCenter] "spin15",
    chain ["spin15"] [.stick .lx stickMin, .stick .ly stickMin] "spin16",
    move ["spin16"] [.stick .lx stickCenter, .stick .ly stickMin]]

/-- The names a part of a combination may have, with `s` and `h` taken out of them. -/
def combos : List (Str × Setting) :=
  [("left", .stick .lx stickMin), ("rigt", .stick .lx stickMax), ("up", .stick .ly stickMin),
    ("down", .stick .ly stickMax), ("dleft", .dpad dpadLeft), ("drigt", .dpad dpadRight),
    ("dup", .dpad dpadUp), ("ddown", .dpad dpadDown), ("look left", .stick .rx stickMin),
    ("look rigt", .stick .rx stickMax), ("look up", .stick .ry stickMin),
    ("look down", .stick .ry stickMax), ("a", .press .a), ("b", .press .b), ("x", .press .x),
    ("y", .press .y), ("l", .press .l), ("r", .press .r), ("zl", .press .zl),
    ("zr", .press .zr), ("minus", .press .minus)]

/-! ### One command -/

/-- What is done to the first controller. -/
def Setting.act (cause : Cause) : Setting → PadAct
  | .stick s v => .stick .one s v
  | .dpad d => .dpad .one d
  | .press btn => .press .one btn cause
  | .release btn => .release .one btn

/-- The tests that hold of a command. -/
def branches (cmd : Str) : List Branch := moves.filter (cmd ∈ ·.names)

/-- **What a command inserts** into `nextCommands`. -/
def inserts (cmd : Str) : List Str := (branches cmd).flatMap Branch.inserts

/-- What the parts of a combination set. -/
def comboSettings (U : Unicode) (cmd : Str) : List Setting :=
  if isIn "+" cmd then
    (U.splitStrip '+' cmd).flatMap fun btn =>
      (combos.filter (·.1 = remove 'h' (remove 's' btn))).map Prod.snd
  else []

/-- What a command does to `reset`, which was `0` if lock-on is on. -/
def resetAfter (lockon : Bool) (cmd : Str) : Bool :=
  if isIn "+" cmd then true
  else (branches cmd).foldl (fun reset br => br.reset.getD reset) !lockon

/-- **A command is executed.** -/
def executeActs (U : Unicode) (lockon : Bool) (q : Queued) : List Act :=
  ((branches q.cmd).flatMap fun br =>
      br.sets.map (fun s => .pad (s.act (.chat q.stamp))) ++
        br.inserts.map fun cmd => .queue (.insert ⟨cmd, q.stamp⟩)) ++
    (comboSettings U q.cmd).map (fun s => .pad (s.act (.chat q.stamp))) ++
    (sendAndReset (resetAfter lockon q.cmd) .one).map .pad

/-- The command whose turn it is, and whether it is one of `commandQueue`. -/
def Queue.next? (q : Queue) : Option (Queued × Bool) :=
  match q.commandQueue with
  | x :: _ => some (x, true)
  | [] => q.nextCommands.getLast?.map fun x => (x, false)

/-- **`decreaseQueue`**, once the time has come. -/
def decreaseQueue (U : Unicode) (c : Client) : List Act :=
  [ifThen (c.queue.commandQueue ≠ []) [.queue .advance],
    ifThen (c.switches.lockon = true) [.pad (.press .one .zl .lockon)],
    match c.queue.next? with
    | none => []
    | some (q, fresh) => .queue (.take fresh) :: executeActs U c.switches.lockon q].flatten

theorem kind_executeActs (U : Unicode) (lockon : Bool) (q : Queued) :
    ∀ a ∈ executeActs U lockon q, a.kind = .pad ∨ a.kind = .queue := by
  intro a ha
  simp only [executeActs, List.mem_append, List.mem_flatMap, List.mem_map] at ha
  rcases ha with (⟨br, -, ⟨s, -, rfl⟩ | ⟨cmd, -, rfl⟩⟩ | ⟨s, -, rfl⟩) | ⟨x, -, rfl⟩ <;> simp

/-- A tick does nothing but to the first controller and the queues. -/
theorem kind_decreaseQueue (U : Unicode) (c : Client) :
    ∀ a ∈ decreaseQueue U c, a.kind = .pad ∨ a.kind = .queue := by
  simp only [decreaseQueue, forall_flatten, List.forall_mem_cons, forall_ifThen]
  refine ⟨by simp, by simp, ?_, List.forall_mem_nil _⟩
  split
  · exact List.forall_mem_nil _
  · exact List.forall_mem_cons.mpr ⟨by simp, kind_executeActs U _ _⟩

theorem kind_decreaseQueue_ne (U : Unicode) (c : Client) {k : Kind} (hpad : k ≠ .pad)
    (hqueue : k ≠ .queue) : ∀ a ∈ decreaseQueue U c, a.kind ≠ k := by
  rintro a ha rfl
  exact (kind_decreaseQueue U c a ha).elim hpad hqueue

end Twitch

end SwitchController
