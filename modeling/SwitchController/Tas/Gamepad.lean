import Mathlib.Data.List.Chain
import SwitchController.Tas.Record

/-!
# The relay of a gamepad

`gamepad-control-relay.py` is the recorder without its recording: it keeps the same variables,
handles the events of the gamepad in the same way, and sends the command when it is another than
the one before. Like the scripts that record and play it is written for a Python in which a text
is a row of bytes.

The command says what is pressed, with one exception. Its first digit is set for nine values of
the four arrows only, the directions a d-pad has, and is left as it was for all others: two
opposite arrows, three of them, or an arrow that repeats. What is sent then depends on the order
in which they were pressed (`SwitchController.Tas.command_of_held_iff`).

The command before the first is one that was never sent. It is no harm: all its axes are off the
centre, and an event moves one (`SwitchController.Tas.sent_current`).
-/

namespace SwitchController

namespace Tas

open EventMachine

open Twitch (Str natStr intStr)

/-! ### The script -/

/-- **The state of the relay**: that of a recorder that has no times, and so records nothing. -/
abbrev Relay := Recorder Empty

/-- **One event.** Only updates are sent. -/
def Relay.exec (r : Relay) (e : InputEvent) : Relay × List Str :=
  let r := r.handle e
  if r.previousCommand ≠ r.stringCommand then
    ({ r with previousCommand := r.stringCommand }, [r.stringCommand ++ "\r\n".toList])
  else (r, [])

/-- **The relay**, from its start. -/
def relay (es : List InputEvent) : Relay × List Str := runFrom Relay.exec Recorder.init es

/-- The command before the next is the one just computed, whether it is sent or not. -/
theorem Relay.fst_exec (r : Relay) (e : InputEvent) :
    (Relay.exec r e).1 = { r.handle e with previousCommand := (r.handle e).stringCommand } := by
  rw [Relay.exec]
  split_ifs with h
  · rfl
  · simp only [ne_eq, not_not] at h
    rw [← h]

theorem relay_concat (es : List InputEvent) (e : InputEvent) :
    relay (es ++ [e]) =
      ((Relay.exec (relay es).1 e).1, (relay es).2 ++ (Relay.exec (relay es).1 e).2) :=
  runFrom_concat Relay.exec Recorder.init es e

/-! ### Only updates are sent -/

/-- The command up to its last axis. -/
def Recorder.front {T : Type} (r : Recorder T) : Str :=
  (List.ofFn r.command).flatMap intStr ++
    ([r.lx, r.ly, r.rx].flatMap (fun v => ' ' :: intStr v) ++ [' '])

theorem stringCommand_eq_front {T : Type} (r : Recorder T) :
    r.stringCommand = r.front ++ intStr r.ry := by
  simp [Recorder.stringCommand, Recorder.front]

theorem front_init : (Recorder.init : Relay).front = "800000000000000 128 128 128 ".toList := by
  decide

/-- **The first command is sent**: it differs from the initial `previousCommand`. -/
theorem stringCommand_first (e : InputEvent) :
    ((Recorder.init : Relay).handle e).stringCommand ≠ (Recorder.init : Relay).previousCommand := by
  rw [stringCommand_eq_front]
  intro heq
  by_cases hry : ∃ v, e = .abs .ry v
  · -- the last axis is moved, and the first is at the centre
    obtain ⟨v, rfl⟩ := hry
    have hfront : ((Recorder.init : Relay).handle (.abs .ry v)).front =
        "800000000000000 128 128 128 ".toList := front_init
    have htake := congrArg (List.take 28) heq
    rw [hfront, List.take_left' (by decide)] at htake
    exact absurd htake (by decide)
  · -- the last axis is at the centre
    have hcentre : ((Recorder.init : Relay).handle e).ry = 128 := by
      cases e with
      | abs code value =>
        cases code with
        | ry => exact absurd ⟨value, rfl⟩ hry
        | _ => rfl
      | _ => rfl
    have hlast := congrArg List.getLast? heq
    rw [hcentre, List.getLast?_append_of_ne_nil _ (by decide)] at hlast
    exact absurd hlast (by decide)

theorem previousCommand_handle {T : Type} (r : Recorder T) (e : InputEvent) :
    (r.handle e).previousCommand = r.previousCommand := by
  cases e with
  | abs code value => cases code <;> rfl
  | _ => rfl

/-- The invariant, from the first event on. -/
structure Current (r : Relay) (log : List Str) : Prop where
  previous : r.previousCommand = r.stringCommand
  last : log.getLast? = some (r.stringCommand ++ "\r\n".toList)
  changes : log.IsChain (· ≠ ·)

theorem Current.exec {r : Relay} {log : List Str} (h : Current r log) (e : InputEvent) :
    Current (Relay.exec r e).1 (log ++ (Relay.exec r e).2) := by
  have hprevious : (r.handle e).previousCommand = r.stringCommand :=
    (previousCommand_handle r e).trans h.previous
  rw [Relay.exec]
  split_ifs with hchange
  · refine ⟨rfl, List.getLast?_concat, List.isChain_append.mpr ⟨h.changes, by simp, ?_⟩⟩
    intro msg hmsg msg' hmsg'
    obtain rfl : _ = msg' := by simpa using hmsg'
    obtain rfl := Option.some_inj.mp (h.last.symm.trans hmsg)
    rw [hprevious] at hchange
    exact fun heq => hchange (List.append_cancel_right heq)
  · have hsame : r.stringCommand = (r.handle e).stringCommand :=
      hprevious.symm.trans (not_not.mp hchange)
    rw [List.append_nil]
    exact ⟨not_not.mp hchange, hsame ▸ h.last, h.changes⟩

/-- **The first event** has the command sent. -/
theorem current_first (e : InputEvent) :
    Current (Relay.exec Recorder.init e).1 (Relay.exec Recorder.init e).2 := by
  have hchange : ((Recorder.init : Relay).handle e).previousCommand ≠
      ((Recorder.init : Relay).handle e).stringCommand := by
    rw [previousCommand_handle]
    exact (stringCommand_first e).symm
  rw [Relay.exec, if_pos hchange]
  exact ⟨rfl, rfl, List.isChain_singleton _⟩

theorem current_relay {es : List InputEvent} (hes : es ≠ []) :
    Current (relay es).1 (relay es).2 := by
  induction es using List.reverseRecOn with
  | nil => exact absurd rfl hes
  | append_singleton es e ih =>
    rw [relay_concat]
    rcases eq_or_ne es [] with rfl | hne
    · exact current_first e
    · exact (ih hne).exec e

/-- **Only updates are sent, and nothing is left out.** After any events the last line sent is the
current command, and no line is sent twice in a row. -/
theorem sent_current {es : List InputEvent} (hes : es ≠ []) :
    (relay es).2.getLast? = some ((relay es).1.stringCommand ++ "\r\n".toList) ∧
      (relay es).2.IsChain (· ≠ ·) :=
  ⟨(current_relay hes).last, (current_relay hes).changes⟩

/-- The command that was never sent is sent when its time comes. -/
theorem sent_current_126 :
    let es : List InputEvent := [.abs .x 126, .abs .y 126, .abs .rx 126, .abs .ry 126]
    (relay es).1.stringCommand = (Recorder.init : Relay).previousCommand ∧
      (relay es).2.getLast? = some ((relay es).1.stringCommand ++ "\r\n".toList) := by
  intro es
  exact ⟨by decide, (sent_current (List.cons_ne_nil _ _)).1⟩

/-! ### What is held -/

/-- The last value of a key; `0` if it was never pressed. -/
def lastKey (es : List InputEvent) (code : Key) : ℤ :=
  es.foldl (fun last e => match e with
    | .key code' value => if code' = code then value else last
    | _ => last) 0

/-- The last value of an axis; the centre if it was never moved. -/
def lastAxis (es : List InputEvent) (code : Axis) : ℤ :=
  es.foldl (fun last e => match e with
    | .abs code' value => if code' = code then value else last
    | _ => last) 128

/-- **The values of the arrows**, in the order of `dpad`. -/
def arrows (es : List InputEvent) : List ℤ :=
  [lastKey es .dpadUp, lastKey es .dpadRight, lastKey es .dpadDown, lastKey es .dpadLeft]

/-- **The values of the arrows `command[0]` is set for.** -/
def directions : List (List ℤ) :=
  [[1, 0, 0, 0], [1, 1, 0, 0], [0, 1, 0, 0], [0, 1, 1, 0], [0, 0, 1, 0], [0, 0, 1, 1], [0, 0, 0, 1],
    [1, 0, 0, 1], [0, 0, 0, 0]]

theorem hat_of_mem {dpad : List ℤ} (h : dpad ∈ directions) (b b' : ℤ) :
    hat dpad b = hat dpad b' := by
  simp only [directions, List.mem_cons, List.not_mem_nil, or_false] at h
  rcases h with rfl | rfl | rfl | rfl | rfl | rfl | rfl | rfl | rfl <;> rfl

theorem hat_of_not_mem {dpad : List ℤ} (h : dpad ∉ directions) (b : ℤ) : hat dpad b = b := by
  simp only [directions, List.mem_cons, List.not_mem_nil, or_false, not_or] at h
  simp [hat, h]

theorem hat_hat (dpad : List ℤ) (b : ℤ) : hat dpad (hat dpad b) = hat dpad b := by
  by_cases h : dpad ∈ directions
  · exact hat_of_mem h _ _
  · exact hat_of_not_mem h _

/-- The axes of a recorder. -/
def Recorder.axis {T : Type} (r : Recorder T) : Axis → ℤ
  | .x => r.lx
  | .y => r.ly
  | .rx => r.rx
  | .ry => r.ry
  | .other => 0

/-- **The state of the relay**, as far as the events tell it: all but the first digit. -/
structure Follows (r : Relay) (es : List InputEvent) : Prop where
  dpad : ∀ code i, code.arrow = some i → r.dpad i = lastKey es code
  command : ∀ code i, code.place = some i → r.command i = lastKey es code
  unused : r.command 5 = 0 ∧ r.command 10 = 0
  axis : ∀ code ≠ .other, r.axis code = lastAxis es code
  hat : hat (List.ofFn r.dpad) (r.command 0) = r.command 0

/-- The keys of `dpad`, -/
def arrowKeys : List Key := [.dpadUp, .dpadRight, .dpadDown, .dpadLeft]

/-- and those of `command`. Places `0`, `5` and `10` have none. -/
def placeKeys : List Key :=
  [.other, .thumbl, .tl, .tl2, .select, .other, .east, .south, .north, .west, .other, .tr, .tr2,
    .start, .mode]

theorem arrowKeys_of_arrow {code : Key} {i : Fin 4} (h : code.arrow = some i) :
    arrowKeys[i.val]? = some code := by
  cases code <;> cases h <;> rfl

theorem placeKeys_of_place {code : Key} {i : Fin 15} (h : code.place = some i) :
    placeKeys[i.val]? = some code := by
  cases code <;> cases h <;> rfl

/-- Two keys do not share a place. -/
theorem arrow_injective {code code' : Key} {i : Fin 4} (h : code.arrow = some i)
    (h' : code'.arrow = some i) : code = code' :=
  Option.some_inj.mp ((arrowKeys_of_arrow h).symm.trans (arrowKeys_of_arrow h'))

theorem place_injective {code code' : Key} {i : Fin 15} (h : code.place = some i)
    (h' : code'.place = some i) : code = code' :=
  Option.some_inj.mp ((placeKeys_of_place h).symm.trans (placeKeys_of_place h'))

/-- The places that are set are none of these. -/
theorem place_ne (code : Key) :
    code.place ≠ some 0 ∧ code.place ≠ some 5 ∧ code.place ≠ some 10 := by
  cases code <;> decide

theorem lastKey_concat (es : List InputEvent) (code' : Key) (value : ℤ) (code : Key) :
    lastKey (es ++ [.key code' value]) code = if code' = code then value else lastKey es code := by
  rw [lastKey, List.foldl_append]
  rfl

theorem follows_init : Follows Recorder.init [] where
  dpad := fun _ _ _ => rfl
  command := by
    rintro code i hi
    have hne : i ≠ 0 := by
      rintro rfl
      exact (place_ne code).1 hi
    exact if_neg hne
  unused := ⟨rfl, rfl⟩
  axis := by
    rintro (- | - | - | - | -) hcode <;> first | rfl | exact absurd rfl hcode
  hat := rfl

theorem dpad_key (r : Relay) (code' : Key) (value : ℤ) {code : Key} {i : Fin 4}
    (hi : code.arrow = some i) :
    (r.key code' value).dpad i = if code' = code then value else r.dpad i := by
  split_ifs with hcode
  · simp [Recorder.key, hcode, hi]
  · cases hj : code'.arrow with
    | none => simp [Recorder.key, hj]
    | some j =>
      have hij : i ≠ j := by
        rintro rfl
        exact hcode (arrow_injective hj hi)
      simp [Recorder.key, hj, hij]

theorem command_key (r : Relay) (code' : Key) (value : ℤ) {i : Fin 15} (hi : i ≠ 0) :
    (r.key code' value).command i = if code'.place = some i then value else r.command i := by
  split_ifs with hplace
  · simp [Recorder.key, hi, hplace]
  · cases hj : code'.place with
    | none => simp [Recorder.key, hi, hj]
    | some j =>
      have hij : i ≠ j := by
        rintro rfl
        exact hplace hj
      simp [Recorder.key, hi, hj, hij]

theorem command_key_zero (r : Relay) {code : Key} (h : code.place = none) (value : ℤ) :
    (r.key code value).command 0 = hat (List.ofFn (r.key code value).dpad) (r.command 0) := by
  simp [Recorder.key, h]

theorem Follows.key {r : Relay} {es : List InputEvent} (h : Follows r es) (code' : Key)
    (value : ℤ) : Follows (r.key code' value) (es ++ [.key code' value]) where
  dpad := by
    intro code i hi
    rw [dpad_key r code' value hi, lastKey_concat, h.dpad code i hi]
  command := by
    intro code i hi
    have hne : i ≠ 0 := by
      rintro rfl
      exact (place_ne code).1 hi
    have hiff : code'.place = some i ↔ code' = code :=
      ⟨fun hj => place_injective hj hi, fun hcode => hcode ▸ hi⟩
    rw [command_key r code' value hne, lastKey_concat, h.command code i hi]
    simp only [hiff]
  unused := by
    obtain ⟨-, h5, h10⟩ := place_ne code'
    rw [command_key r code' value (by decide), command_key r code' value (by decide), if_neg h5,
      if_neg h10]
    exact h.unused
  axis := by
    intro code hcode
    have hlast : lastAxis (es ++ [.key code' value]) code = lastAxis es code := by simp [lastAxis]
    rw [hlast, ← h.axis code hcode]
    cases code <;> rfl
  hat := hat_hat _ _

theorem axis_handle (r : Relay) (code' : Axis) (value : ℤ) {code : Axis} (hcode : code ≠ .other) :
    (r.handle (.abs code' value)).axis code = if code' = code then value else r.axis code := by
  cases code' <;> cases code <;> first | rfl | exact absurd rfl hcode

/-- An axis moves nothing else. -/
theorem frame_handle (r : Relay) (code' : Axis) (value : ℤ) :
    (r.handle (.abs code' value)).dpad = r.dpad ∧
      (r.handle (.abs code' value)).command = r.command := by
  cases code' <;> exact ⟨rfl, rfl⟩

theorem Follows.abs {r : Relay} {es : List InputEvent} (h : Follows r es) (code' : Axis)
    (value : ℤ) : Follows (r.handle (.abs code' value)) (es ++ [.abs code' value]) := by
  obtain ⟨hdpad, hcommand⟩ := frame_handle r code' value
  have hlast : ∀ code, lastKey (es ++ [.abs code' value]) code = lastKey es code := by
    simp [lastKey]
  constructor
  · simpa only [hdpad, hlast] using h.dpad
  · simpa only [hcommand, hlast] using h.command
  · simpa only [hcommand] using h.unused
  · intro code hcode
    rw [axis_handle r code' value hcode, h.axis code hcode, lastAxis, lastAxis, List.foldl_append]
    rfl
  · simpa only [hdpad, hcommand] using h.hat

theorem Follows.handle {r : Relay} {es : List InputEvent} (h : Follows r es) (e : InputEvent) :
    Follows (r.handle e) (es ++ [e]) := by
  cases e with
  | key code' value => exact h.key code' value
  | abs code' value => exact h.abs code' value
  | other =>
    have hkey : ∀ code, lastKey (es ++ [.other]) code = lastKey es code := by simp [lastKey]
    have haxis : ∀ code, lastAxis (es ++ [.other]) code = lastAxis es code := by simp [lastAxis]
    change Follows r _
    exact ⟨by simpa only [hkey] using h.dpad, by simpa only [hkey] using h.command, h.unused,
      by simpa only [haxis] using h.axis, h.hat⟩

/-- **The relay follows the events.** -/
theorem follows_relay (es : List InputEvent) : Follows (relay es).1 es := by
  induction es using List.reverseRecOn with
  | nil => exact follows_init
  | append_singleton es e ih =>
    rw [relay_concat, Relay.fst_exec]
    have h := ih.handle e
    exact ⟨h.dpad, h.command, h.unused, fun code hcode => h.axis code hcode ▸ by cases code <;> rfl,
      h.hat⟩

/-! ### The first digit -/

/-- Every place of the command but the first is that of a key, or unused. -/
theorem exists_place : ∀ i : Fin 15, i = 0 ∨ i = 5 ∨ i = 10 ∨ ∃ code ∈ placeKeys,
    code.place = some i ∧ code.arrow = none := by decide

theorem ofFn_dpad {r : Relay} {es : List InputEvent} (h : Follows r es) :
    List.ofFn r.dpad = arrows es := by
  have hup := h.dpad .dpadUp 0 rfl
  have hright := h.dpad .dpadRight 1 rfl
  have hdown := h.dpad .dpadDown 2 rfl
  have hleft := h.dpad .dpadLeft 3 rfl
  simp [arrows, List.ofFn_succ, hup, hright, hdown, hleft]

/-- The events end alike: but for the arrows, every key and every axis that is handled has the same
last value. -/
structure EndAlike (es es' : List InputEvent) : Prop where
  key : ∀ code, code.arrow = none → code ≠ .other → lastKey es code = lastKey es' code
  axis : ∀ code, code ≠ .other → lastAxis es code = lastAxis es' code

/-- **The command is told by its first digit**, then. -/
theorem stringCommand_eq_of_endAlike {es es' : List InputEvent} (h : EndAlike es es')
    (hfirst : (relay es).1.command 0 = (relay es').1.command 0) :
    (relay es).1.stringCommand = (relay es').1.stringCommand := by
  have hes := follows_relay es
  have hes' := follows_relay es'
  have hcommand : (relay es).1.command = (relay es').1.command := by
    funext i
    rcases exists_place i with rfl | rfl | rfl | ⟨code, -, hplace, harrow⟩
    · exact hfirst
    · rw [hes.unused.1, hes'.unused.1]
    · rw [hes.unused.2, hes'.unused.2]
    · have hother : code ≠ .other := by
        rintro rfl
        exact absurd hplace (by simp [Key.place])
      rw [hes.command code i hplace, hes'.command code i hplace, h.key code harrow hother]
  have haxis : ∀ code ≠ .other, (relay es).1.axis code = (relay es').1.axis code := by
    intro code hcode
    rw [hes.axis code hcode, hes'.axis code hcode, h.axis code hcode]
  have hlx : (relay es).1.lx = (relay es').1.lx := haxis .x (by decide)
  have hly : (relay es).1.ly = (relay es').1.ly := haxis .y (by decide)
  have hrx : (relay es).1.rx = (relay es').1.rx := haxis .rx (by decide)
  have hry : (relay es).1.ry = (relay es').1.ry := haxis .ry (by decide)
  rw [Recorder.stringCommand, Recorder.stringCommand, hcommand, hlx, hly, hrx, hry]

/-- For a direction, the first digit is told by the arrows. -/
theorem command_zero_of_mem {es : List InputEvent} (h : arrows es ∈ directions) (b : ℤ) :
    (relay es).1.command 0 = hat (arrows es) b := by
  have hes := follows_relay es
  rw [← hes.hat, ofFn_dpad hes]
  exact hat_of_mem h _ _

/-- Two directions with the same arrows held are the same. -/
theorem eq_of_held : ∀ d ∈ directions, ∀ d' ∈ directions,
    d.map (fun v => decide (v = 0)) = d'.map (fun v => decide (v = 0)) → d = d' := by decide

/-- An arrow that leads to no direction leaves the first digit as it was. -/
theorem command_zero_concat {es : List InputEvent} {code : Key} {value : ℤ}
    (hcode : code.place = none) (h : arrows (es ++ [.key code value]) ∉ directions) :
    (relay (es ++ [.key code value])).1.command 0 = (relay es).1.command 0 := by
  rw [← ofFn_dpad (follows_relay _), relay_concat, Relay.fst_exec] at h
  rw [relay_concat, Relay.fst_exec]
  exact (command_key_zero _ hcode value).trans (hat_of_not_mem h _)

/-- The arrow up repeats: that is no direction. -/
theorem arrows_not_mem {es : List InputEvent} (h : lastKey es .dpadUp = 2) :
    arrows es ∉ directions := by
  have hhead : ∀ d ∈ directions, d.head? ≠ some 2 := by decide
  exact fun hmem => hhead _ hmem (congrArg some h)

/-- **The way to any values of the arrows**, through no direction. -/
def pressAll (held : Fin 4 → ℤ) : List InputEvent :=
  .key .dpadUp 2 :: [Key.dpadRight, .dpadDown, .dpadLeft, .dpadUp].filterMap fun code =>
    code.arrow.map fun i => .key code (held i)

theorem pressAll_eq (held : Fin 4 → ℤ) :
    pressAll held = [.key .dpadUp 2, .key .dpadRight (held 1), .key .dpadDown (held 2),
      .key .dpadLeft (held 3), .key .dpadUp (held 0)] := rfl

theorem arrows_pressAll (es : List InputEvent) (held : Fin 4 → ℤ) :
    arrows (es ++ pressAll held) = List.ofFn held := by
  simp [arrows, pressAll_eq, lastKey, List.ofFn_succ]

theorem command_zero_pressAll (es : List InputEvent) {held : Fin 4 → ℤ}
    (h : List.ofFn held ∉ directions) :
    (relay (es ++ pressAll held)).1.command 0 = (relay es).1.command 0 := by
  have hlast : arrows (es ++ [.key .dpadUp 2] ++ [.key .dpadRight (held 1)] ++
      [.key .dpadDown (held 2)] ++ [.key .dpadLeft (held 3)] ++ [.key .dpadUp (held 0)]) ∉
        directions := by
    simpa [pressAll_eq] using (arrows_pressAll es held).symm ▸ h
  have hall : es ++ pressAll held = es ++ [.key .dpadUp 2] ++ [.key .dpadRight (held 1)] ++
      [.key .dpadDown (held 2)] ++ [.key .dpadLeft (held 3)] ++ [.key .dpadUp (held 0)] := by
    simp [pressAll_eq]
  rw [hall, command_zero_concat rfl hlast, command_zero_concat rfl (arrows_not_mem ?_),
    command_zero_concat rfl (arrows_not_mem ?_), command_zero_concat rfl (arrows_not_mem ?_),
    command_zero_concat rfl (arrows_not_mem ?_)]
  all_goals simp [lastKey]

theorem EndAlike.symm {es es' : List InputEvent} (h : EndAlike es es') : EndAlike es' es :=
  ⟨fun code harrow hcode => (h.key code harrow hcode).symm, fun code h' => (h.axis code h').symm⟩

theorem EndAlike.trans {es es' es'' : List InputEvent} (h : EndAlike es es')
    (h' : EndAlike es' es'') : EndAlike es es'' :=
  ⟨fun code harrow hcode => (h.key code harrow hcode).trans (h'.key code harrow hcode),
    fun code hcode => (h.axis code hcode).trans (h'.axis code hcode)⟩

/-- Both ways press nothing but arrows. -/
theorem endAlike_pressAll (held : Fin 4 → ℤ) :
    EndAlike (pressAll held) [] ∧ EndAlike (.key .dpadUp 1 :: pressAll held) [] := by
  refine ⟨⟨?_, fun _ _ => rfl⟩, ⟨?_, fun _ _ => rfl⟩⟩ <;>
  · intro code hcode _
    cases code <;> first | rfl | exact absurd hcode (by simp [Key.arrow])

/-- **Two ways to the same values**, of which one starts with the arrow up: the commands differ. -/
theorem stringCommand_pressAll_ne {held : Fin 4 → ℤ} (h : List.ofFn held ∉ directions) :
    (relay (pressAll held)).1.stringCommand ≠
      (relay (.key .dpadUp 1 :: pressAll held)).1.stringCommand := by
  have h8 : (relay (pressAll held)).1.command 0 = 8 := command_zero_pressAll [] h
  have h0 : (relay (.key .dpadUp 1 :: pressAll held)).1.command 0 = 0 :=
    command_zero_pressAll [.key .dpadUp 1] h
  have hhead : ∀ r : Relay, r.stringCommand.head? = (intStr (r.command 0)).head? := by
    intro r
    rw [Recorder.stringCommand, List.ofFn_succ, List.flatMap_cons, List.append_assoc,
      List.head?_append_of_ne_nil _ (intStr_ne_nil _)]
  intro heq
  have hdigit := congrArg List.head? heq
  rw [hhead, hhead, h8, h0] at hdigit
  exact absurd hdigit (by decide)

/-- **What the first digit depends on.** Whatever the arrows are in the end, two sequences of events
that hold the same arrows and end alike otherwise give the same command in any case just when both
end with the values of a direction. -/
theorem command_of_held_iff {held held' : Fin 4 → ℤ} (hheld : ∀ i, held i = 0 ↔ held' i = 0) :
    (∀ es es', arrows es = List.ofFn held → arrows es' = List.ofFn held' → EndAlike es es' →
        (relay es).1.stringCommand = (relay es').1.stringCommand) ↔
      List.ofFn held ∈ directions ∧ List.ofFn held' ∈ directions := by
  obtain ⟨hway, hup⟩ := endAlike_pressAll held
  obtain ⟨hway', hup'⟩ := endAlike_pressAll held'
  constructor
  · -- with other values, the two ways there give different commands
    intro hall
    constructor
    · by_contra hnot
      have h₁ := hall _ _ (arrows_pressAll [] held) (arrows_pressAll [] held')
        (hway.trans hway'.symm)
      have h₂ := hall _ _ (arrows_pressAll [.key .dpadUp 1] held) (arrows_pressAll [] held')
        (hup.trans hway'.symm)
      exact stringCommand_pressAll_ne hnot (h₁.trans h₂.symm)
    · by_contra hnot
      have h₁ := hall _ _ (arrows_pressAll [] held) (arrows_pressAll [] held')
        (hway.trans hway'.symm)
      have h₂ := hall _ _ (arrows_pressAll [] held) (arrows_pressAll [.key .dpadUp 1] held')
        (hway.trans hup'.symm)
      exact stringCommand_pressAll_ne hnot (h₁.symm.trans h₂)
  · rintro ⟨hdir, hdir'⟩ es es' hes hes' halike
    have hsame : List.ofFn held = List.ofFn held' := by
      refine eq_of_held _ hdir _ hdir' ?_
      simp [hheld]
    refine stringCommand_eq_of_endAlike halike ?_
    rw [command_zero_of_mem (hes ▸ hdir) 0, command_zero_of_mem (hes' ▸ hdir') 0, hes, hes', hsame]

/-- The arrow up, with or without the arrow left before it. -/
theorem command_of_held_up :
    (relay [.key .dpadUp 1]).1.stringCommand =
      (relay [.key .dpadLeft 1, .key .dpadUp 1, .key .dpadLeft 0]).1.stringCommand := by
  have halike : EndAlike [.key .dpadUp 1] [.key .dpadLeft 1, .key .dpadUp 1, .key .dpadLeft 0] := by
    refine ⟨fun code _ _ => ?_, fun _ _ => rfl⟩
    cases code <;> rfl
  have hiff := @command_of_held_iff (fun i => if i = 0 then 1 else 0)
    (fun i => if i = 0 then 1 else 0) fun _ => Iff.rfl
  exact hiff.mpr (by decide) _ _ (by decide) (by decide) halike

/-- **Up and down, in both orders.** -/
theorem command_of_held_upDown :
    (relay [.key .dpadUp 1, .key .dpadDown 1]).1.stringCommand =
        ("000000000000000 128 128 128 128" : Str) ∧
      (relay [.key .dpadDown 1, .key .dpadUp 1]).1.stringCommand =
        ("400000000000000 128 128 128 128" : Str) := by
  decide

end Tas

end SwitchController
