import Mathlib.Data.List.OfFn
import SwitchController.Lib.Trace
import SwitchController.Twitch.Text

/-!
# Recordings

`gamepad-control-relay-TAS-record.py` relays a gamepad to the serial port and can record what
it relays. The recording starts with `L` and the d-pad up, stops with `L` and the d-pad down,
and has two lines for each event handled in between: the command, and the time since the
last one.

The times are Python's, and nothing is known of them but what the two scripts rely on
(`SwitchController.Tas.Clock`). Every event of the gamepad may come with any value, and the
commands recorded are lines all the same (`SwitchController.Tas.isCommand_of_mem_recorded`).
-/

namespace SwitchController

namespace Tas

open EventMachine

open Twitch (Str natStr intStr)

/-! ### Text -/

/-- The characters `rstrip` takes away. -/
def isBlank (c : Char) : Bool := (9 ≤ c.toNat && c.toNat ≤ 13) || c = ' '

/-- The ends of lines, on the serial port. -/
def isLineEnd (c : Char) : Bool := c = '\n' || c = '\r'

theorem isLineEnd_of_isBlank {c : Char} (h : isBlank c = false) : isLineEnd c = false := by
  rw [isLineEnd, Bool.or_eq_false_iff, decide_eq_false_iff_not, decide_eq_false_iff_not]
  constructor
  · rintro rfl
    exact absurd h (by decide)
  · rintro rfl
    exact absurd h (by decide)

/-- **A command** as it is recorded: within a line, and with no blank at its end. -/
structure IsCommand (s : Str) : Prop where
  inLine : ∀ c ∈ s, isLineEnd c = false
  last : ∃ front c, s = front ++ [c] ∧ isBlank c = false

theorem exists_last_of_isBlank {s : Str} (h : ∀ c ∈ s, isBlank c = false) (hne : s ≠ []) :
    ∃ front c, s = front ++ [c] ∧ isBlank c = false := by
  rcases List.eq_nil_or_concat s with hnil | ⟨front, c, rfl⟩
  · exact absurd hnil hne
  · exact ⟨front, c, List.concat_eq_append, h c (by simp)⟩

theorem isBlank_of_mem_natStr {v : ℕ} {c : Char} (h : c ∈ natStr v) : isBlank c = false := by
  have hdigit : 48 ≤ c.toNat := by
    have hd := Nat.isDigit_of_mem_toDigits (by decide) (by decide) h
    simp only [Char.isDigit, Bool.and_eq_true, decide_eq_true_eq] at hd
    exact UInt32.le_iff_toNat_le.mp hd.1
  have hne : c ≠ ' ' := by
    rintro rfl
    exact absurd hdigit (by decide)
  simp only [isBlank, hne, decide_false, Bool.or_false, Bool.and_eq_false_iff,
    decide_eq_false_iff_not]
  omega

theorem isCommand_natStr (v : ℕ) : IsCommand (natStr v) where
  inLine := fun _ hc => isLineEnd_of_isBlank (isBlank_of_mem_natStr hc)
  last := exists_last_of_isBlank (fun _ => isBlank_of_mem_natStr) Nat.toDigits_ne_nil

/-- A number is written without blanks. -/
theorem isBlank_of_mem_intStr {v : ℤ} {c : Char} (h : c ∈ intStr v) : isBlank c = false := by
  rw [intStr] at h
  split_ifs at h
  · rcases List.mem_cons.mp h with rfl | h
    · decide
    · exact isBlank_of_mem_natStr h
  · exact isBlank_of_mem_natStr h

theorem intStr_ne_nil (v : ℤ) : intStr v ≠ [] := by
  rw [intStr]
  split_ifs
  · exact List.cons_ne_nil _ _
  · exact Nat.toDigits_ne_nil

/-! ### Time -/

/-- **The times of Python**, as far as the scripts use them. -/
structure Clock (T : Type) where
  /-- `s - t`. -/
  sub : T → T → T
  /-- `s > t`. -/
  gt : T → T → Bool
  /-- `str(t)`. -/
  str : T → Str
  /-- `float(s)`, where it does not raise `ValueError`. -/
  float : Str → Option T
  str_inLine : ∀ t, '\n' ∉ str t
  /-- What `str` writes on a line, `float` reads, with or without a loss. -/
  float_str : ∀ t, ∃ t', float (str t ++ ['\n']) = some t'
  float_nil : float [] = none
  /-- Time goes on. -/
  advances : ∀ start t, ∃ now, gt (sub now start) t = true

/-! ### The gamepad -/

/-- The keys of the gamepad. -/
inductive Key where
  | dpadUp | dpadRight | dpadDown | dpadLeft
  | thumbl | tl | tl2 | select | east | south | north | west | tr | tr2 | start | mode
  | other
  deriving DecidableEq

/-- The axes of the gamepad. -/
inductive Axis where
  | x | y | rx | ry
  | other
  deriving DecidableEq

/-- **What a gamepad sends.** -/
inductive InputEvent where
  /-- `EV_KEY`. -/
  | key (code : Key) (value : ℤ)
  /-- `EV_ABS`. -/
  | abs (code : Axis) (value : ℤ)
  | other

/-- The place of a key in `command`. `BTN_THUMBL` is asked for twice, and the second time, which
would be the right stick at place `10`, is never reached. -/
def Key.place : Key → Option (Fin 15)
  | .thumbl => some 1
  | .tl => some 2
  | .tl2 => some 3
  | .select => some 4
  | .east => some 6
  | .south => some 7
  | .north => some 8
  | .west => some 9
  | .tr => some 11
  | .tr2 => some 12
  | .start => some 13
  | .mode => some 14
  | _ => none

/-- The place of a key in `dpad`. -/
def Key.arrow : Key → Option (Fin 4)
  | .dpadUp => some 0
  | .dpadRight => some 1
  | .dpadDown => some 2
  | .dpadLeft => some 3
  | _ => none

/-- `command[0]` of the four arrows; other values than these leave it as it was. -/
def hat (dpad : List ℤ) (before : ℤ) : ℤ :=
  if dpad = [1, 0, 0, 0] then 0
  else if dpad = [1, 1, 0, 0] then 1
  else if dpad = [0, 1, 0, 0] then 2
  else if dpad = [0, 1, 1, 0] then 3
  else if dpad = [0, 0, 1, 0] then 4
  else if dpad = [0, 0, 1, 1] then 5
  else if dpad = [0, 0, 0, 1] then 6
  else if dpad = [1, 0, 0, 1] then 7
  else if dpad = [0, 0, 0, 0] then 8
  else before

/-! ### The recorder -/

variable {T : Type}

/-- **The state of the recorder.** The time `start` is only there, and only read, while
`recordFlag` is set. -/
structure Recorder (T : Type) where
  command : Fin 15 → ℤ
  dpad : Fin 4 → ℤ
  lx : ℤ
  ly : ℤ
  rx : ℤ
  ry : ℤ
  previousCommand : Str
  recordFlag : Option T

/-- The recorder when it is started. -/
def Recorder.init : Recorder T where
  command := fun i => if i = 0 then 8 else 0
  dpad := fun _ => 0
  lx := 128
  ly := 128
  rx := 128
  ry := 128
  previousCommand := "800000000000000 126 126 126 126"
  recordFlag := none

/-- **`stringCommand`.** -/
def Recorder.stringCommand (r : Recorder T) : Str :=
  (List.ofFn r.command).flatMap intStr ++ [r.lx, r.ly, r.rx, r.ry].flatMap fun v => ' ' :: intStr v

/-- A key is pressed or released, and the d-pad is read. -/
def Recorder.key (r : Recorder T) (code : Key) (value : ℤ) : Recorder T :=
  let dpad := match code.arrow with
    | some i => Function.update r.dpad i value
    | none => r.dpad
  let command := match code.place with
    | some i => Function.update r.command i value
    | none => r.command
  { r with
    dpad := dpad
    command := Function.update command 0 (hat (List.ofFn dpad) (command 0)) }

/-- **What an event does to the state of the gamepad.** -/
def Recorder.handle (r : Recorder T) : InputEvent → Recorder T
  | .key code value => r.key code value
  | .abs .x value => { r with lx := value }
  | .abs .y value => { r with ly := value }
  | .abs .rx value => { r with rx := value }
  | .abs .ry value => { r with ry := value }
  | .abs .other _ => r
  | .other => r

/-- An entry of a recording. -/
structure Entry (T : Type) where
  command : Str
  time : T
  deriving DecidableEq

/-- What the recorder writes. -/
inductive Obs (T : Type) where
  /-- To `commands.txt`. -/
  | recorded (entry : Entry T)
  /-- To the serial port. -/
  | sent (msg : Str)

/-- The recording goes on or stops, or starts. -/
def Recorder.record (K : Clock T) (r : Recorder T) (now : T) : Option T × List (Entry T) :=
  let stop := r.command 2 = 1 ∧ r.command 0 = 4
  match if stop then none else r.recordFlag with
  | some start => (some now, [⟨r.stringCommand, K.sub now start⟩])
  | none =>
      if r.command 2 = 1 ∧ r.command 0 = 0 then (some now, [⟨r.stringCommand, K.sub now now⟩])
      else (none, [])

/-- **One event**, handled at this time. Only updates are sent. -/
def Recorder.exec (K : Clock T) (r : Recorder T) (e : InputEvent × T) : Recorder T × List (Obs T) :=
  let r := r.handle e.1
  ({ r with recordFlag := (r.record K e.2).1, previousCommand := r.stringCommand },
    (r.record K e.2).2.map .recorded ++
      if r.previousCommand ≠ r.stringCommand then [.sent (r.stringCommand ++ "\r\n".toList)]
      else [])

/-- What is recorded. -/
def Obs.entry? : Obs T → Option (Entry T)
  | .recorded entry => some entry
  | .sent _ => none

/-- **The recording of a session.** -/
def recorded (K : Clock T) (events : List (InputEvent × T)) : List (Entry T) :=
  (runFrom (Recorder.exec K) Recorder.init events).2.filterMap Obs.entry?

/-- The two lines of an entry. -/
def Entry.text (K : Clock T) (entry : Entry T) : Str :=
  entry.command ++ '\n' :: (K.str entry.time ++ ['\n'])

/-- **What `commands.txt` holds.** The file is opened for appending, so it has the recordings of
all sessions. -/
def commandsTxt (K : Clock T) (entries : List (Entry T)) : Str := entries.flatMap (Entry.text K)

/-! ### The commands recorded -/

theorem isCommand_stringCommand (r : Recorder T) : IsCommand r.stringCommand := by
  constructor
  · -- it is made of numbers, and of blanks that end no line
    have hnum : ∀ v : ℤ, ∀ c ∈ intStr v, isLineEnd c = false := fun _ _ hc =>
      isLineEnd_of_isBlank (isBlank_of_mem_intStr hc)
    intro c hc
    rcases List.mem_append.mp hc with hc | hc
    · obtain ⟨v, -, hc⟩ := List.mem_flatMap.mp hc
      exact hnum v c hc
    · obtain ⟨v, -, hc⟩ := List.mem_flatMap.mp hc
      rcases List.mem_cons.mp hc with rfl | hc
      · decide
      · exact hnum v c hc
  · obtain ⟨front, c, hry, hc⟩ :=
      exists_last_of_isBlank (fun _ => isBlank_of_mem_intStr) (intStr_ne_nil r.ry)
    refine ⟨(List.ofFn r.command).flatMap intStr ++
      ([r.lx, r.ly, r.rx].flatMap (fun v => ' ' :: intStr v) ++ ' ' :: front), c, ?_, hc⟩
    simp [Recorder.stringCommand, hry]

theorem command_of_mem_record {K : Clock T} {r : Recorder T} {now : T} :
    ∀ entry ∈ (r.record K now).2, entry.command = r.stringCommand := by
  rw [Recorder.record]
  split
  · simp
  · split_ifs <;> simp

/-- **What is recorded are commands**, whatever the gamepad sends. -/
theorem isCommand_of_mem_recorded {K : Clock T} {events : List (InputEvent × T)} :
    ∀ entry ∈ recorded K events, IsCommand entry.command := by
  intro entry hentry
  obtain ⟨o, ho, heq⟩ := List.mem_filterMap.mp hentry
  obtain ⟨r, e, -, hmem⟩ := exists_step_of_mem_runFrom ho
  rcases List.mem_append.mp hmem with hmem | hmem
  · obtain ⟨entry', hrecord, rfl⟩ := List.mem_map.mp hmem
    obtain rfl : entry' = entry := by simpa [Obs.entry?] using heq
    rw [command_of_mem_record entry' hrecord]
    exact isCommand_stringCommand _
  · split_ifs at hmem
    · obtain rfl := List.mem_singleton.mp hmem
      exact absurd heq (by simp [Obs.entry?])
    · exact absurd hmem List.not_mem_nil

end Tas

end SwitchController
