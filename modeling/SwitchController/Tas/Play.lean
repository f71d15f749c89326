import SwitchController.Lib.Lines
import SwitchController.Tas.Record

/-!
# Playback

`TAS-play.py` reads a recording entry by entry and writes the commands to the serial port, each
when its time has come. It does so in two places. The loop writes the command it has read
before, without a line end – the first command apart, which still has the one of the file –
and right after it `send`s the one it has just read. So every command but the first goes out twice,
the second time in front of the next one and on the same line.

Nor does the loop look for the end of the file. There `readline` gives the empty text, which is no
time, and the program ends with `ValueError`. That is the only way it ends
(`SwitchController.Tas.playback_lines`).
-/

namespace SwitchController

namespace Tas

open EventMachine

open LineSplit

open Twitch (Str natStr)

variable {T : Type}

/-! ### Reading -/

/-- **`file.readline()`**, and what is left of the file. -/
def readline : Str → Str × Str
  | [] => ([], [])
  | c :: file => if c = '\n' then ([c], file) else (c :: (readline file).1, (readline file).2)

/-- `s.rstrip()`. -/
def rstrip (s : Str) : Str := s.rdropWhile isBlank

theorem readline_append {s : Str} (h : '\n' ∉ s) (file : Str) :
    readline (s ++ '\n' :: file) = (s ++ ['\n'], file) := by
  induction s with
  | nil => rfl
  | cons c s ih =>
    rw [List.mem_cons, not_or] at h
    obtain ⟨hc, hs⟩ := h
    rw [List.cons_append, readline, if_neg (Ne.symm hc), ih hs]
    rfl

theorem IsCommand.newline_not_mem {s : Str} (h : IsCommand s) : '\n' ∉ s := fun hmem =>
  absurd (h.inLine _ hmem) (by decide)

theorem IsCommand.rstrip {s : Str} (h : IsCommand s) : rstrip (s ++ ['\n']) = s := by
  obtain ⟨front, c, rfl, hc⟩ := h.last
  rw [Tas.rstrip, List.rdropWhile_concat_pos _ _ _ (by decide),
    List.rdropWhile_concat_neg _ _ _ (by simp [hc])]

/-! ### The player -/

/-- **The state of the player**: its file and its variables. -/
structure Player (T : Type) where
  file : Str
  lineRead : Str
  lineTime : T
  startPlay : T
  deriving DecidableEq

/-- The program is in its loop, or it has ended with an exception. The loop has no other end. -/
inductive Playing (T : Type) where
  | running (p : Player T)
  | valueError
  deriving DecidableEq

/-- The program up to its loop, started at this time. -/
def start (K : Clock T) (startPlay : T) (file : Str) : Playing T :=
  let (lineRead, file) := readline file
  let (time, file) := readline file
  match K.float time with
  | none => .valueError
  | some lineTime => .running ⟨file, lineRead, lineTime, startPlay⟩

/-- **One turn of the loop**, at this time, with what it writes to the serial port. -/
def Playing.exec (K : Clock T) : Playing T → T → Playing T × List Str
  | .valueError, _ => (.valueError, [])
  | .running p, nowPlay =>
      if K.gt (K.sub nowPlay p.startPlay) p.lineTime then
        let (line, file) := readline p.file
        let (time, file) := readline file
        match K.float time with
        | none => (.valueError, [p.lineRead])
        | some lineTime =>
            (.running ⟨file, rstrip line, lineTime, nowPlay⟩,
              [p.lineRead, rstrip line ++ "\r\n".toList])
      else (.running p, [])

/-- **The program**, with the times its loop sees. -/
def play (K : Clock T) (file : Str) (startPlay : T) (nows : List T) : Playing T × List Str :=
  runFrom (Playing.exec K) (start K startPlay file) nows

/-- What is on the serial port, split at line ends. -/
def serialLines (s : Str) : List Str := (allLines isLineEnd s).filter (· ≠ [])

/-! ### What is played -/

variable {K : Clock T} {entry : Entry T} {entries : List (Entry T)}

theorem readline_commandsTxt (h : IsCommand entry.command) (entries : List (Entry T)) :
    readline (commandsTxt K (entry :: entries)) =
        (entry.command ++ ['\n'], K.str entry.time ++ '\n' :: commandsTxt K entries) ∧
      readline (K.str entry.time ++ '\n' :: commandsTxt K entries) =
        (K.str entry.time ++ ['\n'], commandsTxt K entries) := by
  refine ⟨?_, readline_append (K.str_inLine entry.time) _⟩
  rw [← readline_append h.newline_not_mem]
  simp [commandsTxt, Entry.text]

theorem start_commandsTxt (h : IsCommand entry.command) (entries : List (Entry T)) (startPlay : T) :
    ∃ lineTime, start K startPlay (commandsTxt K (entry :: entries)) =
      .running ⟨commandsTxt K entries, entry.command ++ ['\n'], lineTime, startPlay⟩ := by
  obtain ⟨hcommand, htime⟩ := readline_commandsTxt (K := K) h entries
  obtain ⟨lineTime, hfloat⟩ := K.float_str entry.time
  refine ⟨lineTime, ?_⟩
  simp only [start, hcommand, htime, hfloat]

section

variable {p : Player T} {nowPlay : T}

/-- **A turn with an entry left**: the line read before, and the command of the entry. -/
theorem exec_cons (h : IsCommand entry.command) (hfile : p.file = commandsTxt K (entry :: entries))
    (hdue : K.gt (K.sub nowPlay p.startPlay) p.lineTime = true) :
    ∃ lineTime, Playing.exec K (.running p) nowPlay =
      (.running ⟨commandsTxt K entries, entry.command, lineTime, nowPlay⟩,
        [p.lineRead, entry.command ++ "\r\n".toList]) := by
  obtain ⟨hcommand, htime⟩ := readline_commandsTxt (K := K) h entries
  obtain ⟨lineTime, hfloat⟩ := K.float_str entry.time
  refine ⟨lineTime, ?_⟩
  simp only [Playing.exec, hdue, if_true, hfile, hcommand, htime, hfloat, h.rstrip]

/-- **A turn at the end of the file.** -/
theorem exec_nil (hfile : p.file = [])
    (hdue : K.gt (K.sub nowPlay p.startPlay) p.lineTime = true) :
    Playing.exec K (.running p) nowPlay = (.valueError, [p.lineRead]) := by
  simp only [Playing.exec, hdue, if_true, hfile, readline, K.float_nil]

theorem exec_early (hdue : K.gt (K.sub nowPlay p.startPlay) p.lineTime = false) :
    Playing.exec K (.running p) nowPlay = (.running p, []) := by
  simp [Playing.exec, hdue]

end

theorem runFrom_valueError (K : Clock T) (nows : List T) :
    runFrom (Playing.exec K) .valueError nows = (.valueError, []) := by
  induction nows with
  | nil => rfl
  | cons now nows ih =>
    rw [runFrom_cons]
    exact ih

/-- What is written from a line that has been read, with these commands to come. -/
def echo (lineRead : Str) : List Str → Str
  | [] => lineRead
  | command :: commands => lineRead ++ (command ++ "\r\n".toList) ++ echo command commands

/-- **The loop, to its end.** -/
theorem written_of_valueError {p : Player T} (hentries : ∀ entry ∈ entries, IsCommand entry.command)
    (hfile : p.file = commandsTxt K entries) {nows : List T}
    (hend : (runFrom (Playing.exec K) (.running p) nows).1 = .valueError) :
    (runFrom (Playing.exec K) (.running p) nows).2.flatten =
      echo p.lineRead (entries.map Entry.command) := by
  induction nows generalizing p entries with
  | nil => exact absurd hend (by simp)
  | cons now nows ih =>
    rw [runFrom_cons] at hend ⊢
    cases hdue : K.gt (K.sub now p.startPlay) p.lineTime with
    | false =>
      rw [exec_early hdue] at hend ⊢
      exact ih hentries hfile hend
    | true =>
      cases entries with
      | nil =>
        rw [exec_nil hfile hdue, runFrom_valueError]
        simp [echo]
      | cons entry entries =>
        obtain ⟨hentry, hentries⟩ := List.forall_mem_cons.mp hentries
        obtain ⟨lineTime, hexec⟩ := exec_cons hentry hfile hdue
        rw [hexec] at hend ⊢
        rw [List.flatten_append, ih hentries rfl hend]
        simp [echo]

/-- **The loop comes to its end**, as time goes on. -/
theorem exists_valueError {p : Player T} (hentries : ∀ entry ∈ entries, IsCommand entry.command)
    (hfile : p.file = commandsTxt K entries) :
    ∃ nows, (runFrom (Playing.exec K) (.running p) nows).1 = .valueError := by
  induction entries generalizing p with
  | nil =>
    obtain ⟨now, hdue⟩ := K.advances p.startPlay p.lineTime
    exact ⟨[now], by rw [runFrom_cons, exec_nil hfile hdue]; rfl⟩
  | cons entry entries ih =>
    obtain ⟨hentry, hentries⟩ := List.forall_mem_cons.mp hentries
    obtain ⟨now, hdue⟩ := K.advances p.startPlay p.lineTime
    obtain ⟨lineTime, hexec⟩ := exec_cons hentry hfile hdue
    obtain ⟨nows, hend⟩ := ih (p := ⟨commandsTxt K entries, entry.command, lineTime, now⟩)
      hentries rfl
    refine ⟨now :: nows, ?_⟩
    rw [runFrom_cons, hexec]
    exact hend

/-! ### The lines on the serial port -/

theorem serialLines_append {line : Str} (h : ∀ c ∈ line, isLineEnd c = false) (hne : line ≠ [])
    {c : Char} (hc : isLineEnd c = true) (s : Str) :
    serialLines (line ++ c :: s) = line :: serialLines s := by
  have hall : allLines isLineEnd (line ++ c :: s) = line :: allLines isLineEnd s := by
    rw [allLines, allLinesFrom, linesFrom_append_eol h hc]
    rfl
  rw [serialLines, hall, List.filter_cons_of_pos (by simpa using hne)]
  rfl

theorem serialLines_cons {c : Char} (hc : isLineEnd c = true) (s : Str) :
    serialLines (c :: s) = serialLines s := by
  rw [serialLines, allLines, allLinesFrom_eol hc, List.filter_cons_of_neg (by simp)]
  rfl

theorem serialLines_line {line : Str} (h : ∀ c ∈ line, isLineEnd c = false) (hne : line ≠ []) :
    serialLines line = [line] := by
  rw [serialLines, allLines, allLinesFrom, linesFrom_of_forall h]
  simp [hne]

theorem IsCommand.ne_nil {s : Str} (h : IsCommand s) : s ≠ [] := by
  obtain ⟨front, c, rfl, -⟩ := h.last
  simp

/-- The lines from a command that has been read on: each one shares its line with the next. -/
def overlaps (before : Str) : List Str → List Str
  | [] => [before]
  | command :: commands => (before ++ command) :: overlaps command commands

/-- **The lines of all commands but the first**, which is still in the line of the file. -/
def echoed : List Str → List Str
  | [] => []
  | command :: commands => command :: overlaps command commands

theorem length_overlaps (before : Str) (commands : List Str) :
    (overlaps before commands).length = commands.length + 1 := by
  induction commands generalizing before with
  | nil => rfl
  | cons command commands ih => rw [overlaps, List.length_cons, ih, List.length_cons]

theorem serialLines_echo {before : Str} {commands : List Str} (hbefore : IsCommand before)
    (h : ∀ command ∈ commands, IsCommand command) :
    serialLines (echo before commands) = overlaps before commands := by
  induction commands generalizing before with
  | nil => exact serialLines_line hbefore.inLine hbefore.ne_nil
  | cons command commands ih =>
    obtain ⟨hcommand, h⟩ := List.forall_mem_cons.mp h
    have hecho : echo before (command :: commands) =
        (before ++ command) ++ '\r' :: '\n' :: echo command commands := by
      simp [echo]
    rw [hecho, serialLines_append (List.forall_mem_append.mpr ⟨hbefore.inLine, hcommand.inLine⟩)
      (by simp [hbefore.ne_nil]) rfl, serialLines_cons rfl, ih hcommand h, overlaps]

/-- **The lines of a recording played back.** -/
theorem serialLines_echo_newline {first : Str} {commands : List Str} (hfirst : IsCommand first)
    (h : ∀ command ∈ commands, IsCommand command) :
    serialLines (echo (first ++ ['\n']) commands) = first :: echoed commands := by
  cases commands with
  | nil =>
    rw [echo, serialLines_append hfirst.inLine hfirst.ne_nil rfl]
    rfl
  | cons command commands =>
    obtain ⟨hcommand, h⟩ := List.forall_mem_cons.mp h
    have hecho : echo (first ++ ['\n']) (command :: commands) =
        first ++ '\n' :: (command ++ '\r' :: '\n' :: echo command commands) := by
      simp [echo]
    rw [hecho, serialLines_append hfirst.inLine hfirst.ne_nil rfl,
      serialLines_append hcommand.inLine hcommand.ne_nil rfl, serialLines_cons rfl,
      serialLines_echo hcommand h, echoed]

/-- **What becomes of a recording.** Whatever was recorded, in any number of sessions, if it is
anything at all: the playback comes to an end as time goes on, and it ends with an exception. The
first command has been written once by then, as a line. Every other one has been written twice, and
but for the second time of the last and the first time of the second it shares its line with
another. So the lines are the commands recorded exactly when there is only one. -/
theorem playback_lines (K : Clock T) (sessions : List (List (InputEvent × T))) (startPlay : T)
    {first : Str} {commands : List Str}
    (hrec : (sessions.flatMap (recorded K)).map Entry.command = first :: commands) :
    let file := commandsTxt K (sessions.flatMap (recorded K))
    (∃ nows, (play K file startPlay nows).1 = .valueError) ∧
    ∀ nows, (play K file startPlay nows).1 = .valueError →
      serialLines (play K file startPlay nows).2.flatten = first :: echoed commands ∧
      (serialLines (play K file startPlay nows).2.flatten = first :: commands ↔ commands = []) := by
  intro file
  obtain ⟨entry, entries, hentries, rfl, rfl⟩ := List.map_eq_cons_iff.mp hrec
  have hall : ∀ entry' ∈ entry :: entries, IsCommand entry'.command := by
    rw [← hentries]
    intro entry' hmem
    obtain ⟨session, -, hmem⟩ := List.mem_flatMap.mp hmem
    exact isCommand_of_mem_recorded entry' hmem
  obtain ⟨hentry, hrest⟩ := List.forall_mem_cons.mp hall
  obtain ⟨lineTime, hstart⟩ := start_commandsTxt (K := K) hentry entries startPlay
  have hplay : ∀ nows, play K file startPlay nows = runFrom (Playing.exec K)
      (.running ⟨commandsTxt K entries, entry.command ++ ['\n'], lineTime, startPlay⟩) nows := by
    intro nows
    rw [play, ← hstart, ← hentries]
  refine ⟨?_, fun nows hend => ?_⟩
  · obtain ⟨nows, hend⟩ := exists_valueError (K := K)
      (p := ⟨commandsTxt K entries, entry.command ++ ['\n'], lineTime, startPlay⟩) hrest rfl
    exact ⟨nows, by rw [hplay]; exact hend⟩
  · rw [hplay] at hend ⊢
    have hlines := serialLines_echo_newline hentry (List.forall_mem_map.mpr hrest)
    rw [written_of_valueError hrest rfl hend, hlines]
    refine ⟨rfl, ⟨fun heq => ?_, fun hnil => by rw [hnil]; rfl⟩⟩
    -- there is one line too many, unless no command is left
    cases hcommands : entries.map Entry.command with
    | nil => rfl
    | cons command commands =>
      rw [hcommands] at heq
      have hlength := congrArg List.length heq
      simp [echoed, length_overlaps] at hlength

/-- Time in whole seconds. -/
def seconds : Clock ℕ where
  sub := fun s t => s - t
  gt := fun s t => t < s
  str := natStr
  float := fun s =>
    if rstrip s ≠ [] ∧ (rstrip s).all Char.isDigit then
      some ((rstrip s).foldl (fun v c => 10 * v + (c.toNat - 48)) 0)
    else none
  str_inLine := fun t => (isCommand_natStr t).newline_not_mem
  float_str := by
    intro t
    refine ⟨_, if_pos ?_⟩
    rw [(isCommand_natStr t).rstrip, List.all_eq_true]
    exact ⟨Nat.toDigits_ne_nil, fun c => Nat.isDigit_of_mem_toDigits (by decide) (by decide)⟩
  float_nil := rfl
  advances := fun start t => ⟨start + t + 1, decide_eq_true (by omega)⟩

/-- `L` and the d-pad up start a recording, and `b` is the second event of it. -/
def upThenB : List (InputEvent × ℕ) :=
  [(.key .tl 1, 0), (.key .dpadUp 1, 1), (.key .south 1, 3)]

/-- A recording of one event is played back as it was recorded, up to the exception. -/
theorem playback_lines_up :
    let file := commandsTxt seconds (recorded seconds (upThenB.take 2))
    ∃ nows, (play seconds file 0 nows).1 = .valueError ∧
      serialLines (play seconds file 0 nows).2.flatten = ["001000000000000 128 128 128 128"] := by
  intro file
  have hrec : ([upThenB.take 2].flatMap (recorded seconds)).map Entry.command =
      ["001000000000000 128 128 128 128"] := by decide +kernel
  obtain ⟨⟨nows, hend⟩, hlines⟩ := playback_lines seconds [upThenB.take 2] 0 hrec
  rw [List.flatMap_singleton] at hend hlines
  exact ⟨nows, hend, (hlines nows hend).2.mpr rfl⟩

/-- **A recording of two events is not**: the second command is written twice. -/
theorem playback_upThenB :
    let file := commandsTxt seconds (recorded seconds upThenB)
    (recorded seconds upThenB).map Entry.command =
        ["001000000000000 128 128 128 128", "001000010000000 128 128 128 128"] ∧
      (play seconds file 0 [1, 4]).1 = .valueError ∧
      serialLines (play seconds file 0 [1, 4]).2.flatten =
        ["001000000000000 128 128 128 128", "001000010000000 128 128 128 128",
          "001000010000000 128 128 128 128"] := by
  decide +kernel

end Tas

end SwitchController
