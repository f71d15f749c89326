import SwitchController.Bridge.Sources

/-!
# What a playback leaves behind

With `--playback` and `--dontexit` the stack has the controller at its bottom and the file
on top of it: the lines of the file go out first, and then the messages of the controller.
The file goes out as it is. If it breaks off inside a line, the first message of the
controller continues that line, for the firmware starts a frame at a line end and nowhere
else.

`SwitchController.Bridge.received_playback` says what the stack gives, and
`SwitchController.Bridge.playback_latched_iff` what the firmware makes of it: every message of
the controller is latched exactly when the file leaves no digit on an open line.
-/

namespace SwitchController

namespace Bridge

open EventMachine Firmware LineSplit

/-! ### What the stack gives -/

/-- The messages `__next__` returned. -/
def received {ι μ : Type} (log : List (StackObs ι μ)) : List μ :=
  log.filterMap fun
    | .returned _ message => some message
    | _ => none

/-- **`--playback` with `--dontexit`**: the controller is pushed, then the file, and `__next__` is
called `k` times. -/
def playback (readings : ℕ → Reading) (file : List UInt8) (k : ℕ) :
    InputStack Source (List UInt8) × List (StackObs Source (List UInt8)) :=
  runFrom (InputStack.step Source.next) (InputStack.empty false)
    (.push (.live readings) :: .push (.given (readlines file)) :: List.replicate k .next)

/-- Calls of `__next__`, as far as the sources go. -/
def nexts : ℕ → List Source → List (List UInt8)
  | 0, _ => []
  | k + 1, l => match read Source.next l with
      | (.ok (_, message), l') => message :: nexts k l'
      | (.error _, l') => nexts k l'

theorem received_replicate (k : ℕ) (s : InputStack Source (List UInt8)) :
    received (runFrom (InputStack.step Source.next) s (List.replicate k .next)).2 =
      nexts k s.l := by
  induction k generalizing s with
  | zero => rfl
  | succ k ih =>
    rw [List.replicate_succ, runFrom_cons, received, List.filterMap_append, ← received, ← received,
      ih, nexts, InputStack.step]
    generalize read Source.next s.l = result
    obtain ⟨e | ⟨src, m⟩, l⟩ := result <;> rfl

/-- The controller alone. -/
theorem nexts_live {ms : List (List UInt8)} {readings : ℕ → Reading}
    (h : ∀ i m, ms[i]? = some m → (readings i).message = .ok m) :
    nexts ms.length [.live readings] = ms := by
  induction ms generalizing readings with
  | nil => rfl
  | cons m ms ih =>
    have hm : (readings 0).message = .ok m := h 0 m rfl
    have hrest : nexts ms.length [.live fun n => readings (n + 1)] = ms :=
      ih fun i m' hi => h (i + 1) m' hi
    rw [List.length_cons, nexts, read, Source.next, hm]
    exact congrArg (m :: ·) hrest

/-- The controller under a file: the file first. -/
theorem nexts_given (lines : List (List UInt8)) {ms : List (List UInt8)} {readings : ℕ → Reading}
    (h : ∀ i m, ms[i]? = some m → (readings i).message = .ok m) :
    nexts (lines.length + ms.length) [.given lines, .live readings] = lines ++ ms := by
  induction lines with
  | nil =>
    -- the exhausted file is dropped in the call that asks the controller
    have hlive := nexts_live h
    rw [List.length_nil, Nat.zero_add, List.nil_append]
    rcases ms with - | ⟨m, ms⟩
    · rfl
    · rw [List.length_cons] at hlive ⊢
      exact hlive
  | cons line lines ih =>
    rw [List.length_cons, Nat.add_right_comm, nexts, read]
    exact congrArg (line :: ·) ih

/-- **The file, line by line, and then the controller.** -/
theorem received_playback (file : List UInt8) {ms : List (List UInt8)} {readings : ℕ → Reading}
    (h : ∀ i m, ms[i]? = some m → (readings i).message = .ok m) :
    received (playback readings file ((readlines file).length + ms.length)).2 =
      readlines file ++ ms := by
  rw [playback, runFrom_cons, runFrom_cons]
  exact (received_replicate _ _).trans (nexts_given (readlines file) h)

/-! ### What the firmware makes of it -/

/-- **The digits a file leaves on an open line**, as the firmware sees lines. -/
def openDigits (file : List UInt8) : List UInt8 := digits (linesFrom isEol [] file).2

/-- With no digit on the open line, the messages are latched. -/
theorem latched_of_openDigits_nil {p : Parser} (hp : OnLine p []) {file : List UInt8}
    (hfile : ∀ line ∈ allLines isEol file, (digits line).length ≤ 14) (h : openDigits file = [])
    (ms : List Message) :
    (serialTask p (file ++ stream ms)).2.filterMap Effect.latched? =
      updates file ++ ms.map Message.state := by
  obtain ⟨hend, hupd⟩ := serialTask_lines hp file hfile
  have hboundary : OnLine (serialTask p file).1 [] := hend.of_digits_eq h
  obtain ⟨-, hlive⟩ := serialTask_stream hboundary ms (List.forall_mem_nil _) (Nat.zero_le 14)
  rw [List.append_nil] at hlive
  rw [serialTask_append, List.filterMap_append, hupd, hlive]

/-- The lines the firmware sees: the first message stands on the open line of the file. -/
theorem closedLines_append_stream (file : List UInt8) (m : Message) (ms : List Message) :
    closedLines isEol (file ++ stream (m :: ms)) =
      closedLines isEol file ++ ((linesFrom isEol [] file).2 ++ m.text) :: ms.map Message.text := by
  have hm : ∀ c ∈ m.text, isEol c = false := fun c hc => isEol_of_digit (m.hex c hc)
  have hsplit : stream (m :: ms) = m.text ++ lf :: (stream ms ++ []) := by
    simp [stream, Message.bytes]
  rw [closedLines, linesFrom_append, hsplit, linesFrom_append_eol hm rfl,
    linesFrom_stream ms (List.forall_mem_nil _)]
  rfl

/-- **With digits on the open line, one message is lost**: there are fewer latches than
messages, whatever they are. -/
theorem length_latched_of_openDigits {p : Parser} (hp : OnLine p []) {file : List UInt8}
    (hfile : ∀ line ∈ allLines isEol file, (digits line).length ≤ 14) (h : openDigits file ≠ [])
    (m : Message) (ms : List Message) :
    ((serialTask p (file ++ stream (m :: ms))).2.filterMap Effect.latched?).length =
      (updates file).length + ms.length := by
  have hfirst : (digits ((linesFrom isEol [] file).2 ++ m.text)).length % 256 ≠ 14 := by
    have htail : (openDigits file).length ≤ 14 :=
      hfile _ (List.mem_append_right _ (List.mem_singleton.mpr rfl))
    have hpos := List.length_pos_iff.mpr h
    rw [digits_append, List.length_append, m.length_digits_text]
    change ((openDigits file).length + 14) % 256 ≠ 14
    omega
  have hrest : (ms.map Message.text).filter (fun line => (digits line).length % 256 = 14) =
      ms.map Message.text := by
    refine List.filter_eq_self.mpr fun line hline => ?_
    obtain ⟨m', -, rfl⟩ := List.mem_map.mp hline
    simp [m'.length_digits_text]
  have hupd := length_latched_serialTask hp file
  rw [(serialTask_lines hp file hfile).2] at hupd
  rw [length_latched_serialTask hp, closedLines_append_stream, List.filter_append,
    List.length_append, hupd, List.filter_cons_of_neg (by simpa using hfirst), hrest,
    List.length_map]

/-- **Playback spoils what follows it exactly when the file leaves digits on an open line.** For
every file whose lines hold at most fourteen digits each, and all messages `ms` the
controller yields after it, the firmware fed with what the stack gives, from a line
boundary, latches the states of the lines of the file and then the state of every message,
if and only if there is no message or the file ends with no digit on an open line. -/
theorem playback_latched_iff {p : Parser} (hl : p.l = 0) (hb : p.b = fun _ => 0)
    {file : List UInt8} (hfile : ∀ line ∈ allLines isEol file, (digits line).length ≤ 14)
    {readings : ℕ → Reading} {ms : List Message}
    (hms : ∀ i m, ms[i]? = some m → (readings i).message = .ok m.bytes) :
    (serialTasks p (received
        (playback readings file ((readlines file).length + ms.length)).2)).2.filterMap
          Effect.latched? = updates file ++ ms.map Message.state ↔
      ms = [] ∨ openDigits file = [] := by
  have hp : OnLine p [] := onLine_nil_iff.mpr ⟨hl, hb⟩
  have hlive : ∀ i m, (ms.map Message.bytes)[i]? = some m → (readings i).message = .ok m := by
    intro i m hm
    rw [List.getElem?_map, Option.map_eq_some_iff] at hm
    obtain ⟨m', hm', rfl⟩ := hm
    exact hms i m' hm'
  have hgot := received_playback file hlive
  rw [List.length_map] at hgot
  have hflat : (readlines file ++ ms.map Message.bytes).flatten = file ++ stream ms := by
    rw [List.flatten_append, flatten_readlines, stream, List.flatMap_def]
  rw [serialTasks_eq, hgot, hflat]
  constructor
  · intro hlatched
    by_contra hcon
    obtain ⟨hne, hopen⟩ := not_or.mp hcon
    obtain ⟨m, ms', rfl⟩ := List.exists_cons_of_ne_nil hne
    have hlen := length_latched_of_openDigits hp hfile hopen m ms'
    rw [hlatched, List.length_append, List.length_map, List.length_cons] at hlen
    omega
  · rintro (rfl | hopen)
    · rw [stream, List.flatMap_nil, List.append_nil, (serialTask_lines hp file hfile).2,
        List.map_nil, List.append_nil]
    · exact latched_of_openDigits_nil hp hfile hopen ms

/-- The message of the controller let go. -/
def Message.idle : Message where
  text := hexlify [8, 0, 0, 128, 128, 128, 128]
  length_text := rfl
  hex := hexlify_hex _

theorem message_idle : Reading.idle.message = .ok Message.idle.bytes := by decide +kernel

theorem message_idle_of_getElem? {n i : ℕ} {m : Message}
    (h : (List.replicate n Message.idle)[i]? = some m) : Reading.idle.message = .ok m.bytes := by
  rw [List.eq_of_mem_replicate (List.mem_of_getElem? h)]
  exact message_idle

/-- A file whose only line is ended, and two messages after it: three latches. -/
theorem playback_latched_ended :
    (serialTasks Parser.powerUp (received (playback (fun _ => Reading.idle) Message.idle.bytes
        ((readlines Message.idle.bytes).length + 2)).2)).2.filterMap Effect.latched? =
      List.replicate 3 ⟨8, 0, 128, 128, 128, 128⟩ := by
  have hlines : ∀ line ∈ allLines isEol Message.idle.bytes, (digits line).length ≤ 14 := by
    decide +kernel
  have hlive : ∀ i (m : Message), (List.replicate 2 Message.idle)[i]? = some m →
      ((fun _ => Reading.idle) i).message = .ok m.bytes := fun i m => message_idle_of_getElem?
  have hlatched := playback_latched_iff (p := Parser.powerUp) rfl rfl hlines hlive
  refine (hlatched.mpr (Or.inr ?_)).trans ?_
  · decide +kernel
  · decide +kernel

/-- **A file of a single digit** and a message after it: nothing is latched. -/
theorem playback_spoils :
    ∃ (file : List UInt8) (readings : ℕ → Reading) (ms : List Message),
      (∀ line ∈ allLines isEol file, (digits line).length ≤ 14) ∧
      (∀ i m, ms[i]? = some m → (readings i).message = .ok m.bytes) ∧
      (serialTasks Parser.powerUp (received
        (playback readings file ((readlines file).length + ms.length)).2)).2.filterMap
          Effect.latched? = [] ∧ updates file ++ ms.map Message.state ≠ [] := by
  refine ⟨[56], fun _ => Reading.idle, [Message.idle], by decide, ?_, by decide +kernel, by simp⟩
  exact fun i m => message_idle_of_getElem? (n := 1)

end Bridge

end SwitchController
