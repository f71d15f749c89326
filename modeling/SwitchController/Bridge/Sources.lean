import SwitchController.Bridge.Controller
import SwitchController.Bridge.InputStack

/-!
# The sources of `bridge.py`

Three generators give the messages: `controller_states` reads the controller,
`example_macro` plays a built-in sequence, and `replay_states` reads a file back, line by
line. `SwitchController.Bridge.Source` is what is left of one of them.

A file is cut where its newlines are, so what was written comes back as it was only if each
message is one line (`SwitchController.Bridge.readlines_flatten`). The messages of the
controller and of the macro are; those of a file need not be, if the file breaks off inside
a line.
-/

namespace SwitchController

namespace Bridge

open Firmware LineSplit

/-! ### Lines of a file -/

/-- `b'\n'` ends a line of a file. -/
def isNewline (c : UInt8) : Bool := c == lf

/-- **`readlines()`**: each line with its newline, and what is left behind the last one. -/
def readlines (content : List UInt8) : List (List UInt8) :=
  (linesFrom isNewline [] content).1.map (· ++ [lf]) ++
    if (linesFrom isNewline [] content).2 = [] then [] else [(linesFrom isNewline [] content).2]

/-- A message that is one line of a file. -/
def IsLine (message : List UInt8) : Prop :=
  ∃ text, (∀ c ∈ text, isNewline c = false) ∧ message = text ++ [lf]

theorem linesFrom_flatten (cur s : List UInt8) :
    ((linesFrom isNewline cur s).1.map (· ++ [lf])).flatten ++ (linesFrom isNewline cur s).2 =
      cur ++ s := by
  induction s generalizing cur with
  | nil => simp
  | cons c s ih =>
    cases hc : isNewline c with
    | true =>
      obtain rfl : c = lf := by simpa [isNewline] using hc
      rw [linesFrom_eol hc]
      simpa using ih []
    | false =>
      rw [linesFrom_other hc, ih]
      simp

/-- Nothing is lost between two lines. -/
theorem flatten_readlines (content : List UInt8) : (readlines content).flatten = content := by
  have h := linesFrom_flatten [] content
  rw [List.nil_append] at h
  rw [readlines]
  split
  · rename_i hnil
    rw [hnil, List.append_nil] at h
    rw [List.append_nil]
    exact h
  · rwa [List.flatten_append, List.flatten_singleton]

theorem linesFrom_lines {ms : List (List UInt8)} (h : ∀ m ∈ ms, IsLine m) :
    ((linesFrom isNewline [] ms.flatten).1.map (· ++ [lf]), (linesFrom isNewline [] ms.flatten).2) =
      (ms, []) := by
  induction ms with
  | nil => rfl
  | cons m ms ih =>
    obtain ⟨text, htext, rfl⟩ := h m List.mem_cons_self
    have hrest := ih fun m' hm' => h m' (List.mem_cons_of_mem _ hm')
    rw [Prod.mk.injEq] at hrest
    rw [List.flatten_cons, List.append_assoc, List.singleton_append,
      linesFrom_append_eol htext rfl, List.map_cons, hrest.1, hrest.2]
    rfl

/-- **Lines written one after the other are read back one by one.** -/
theorem readlines_flatten {ms : List (List UInt8)} (h : ∀ m ∈ ms, IsLine m) :
    readlines ms.flatten = ms := by
  have hlines := linesFrom_lines h
  rw [Prod.mk.injEq] at hlines
  rw [readlines, hlines.1, hlines.2, if_pos rfl, List.append_nil]

/-- A message of the firmware is a line. -/
theorem isLine_bytes (m : Message) : IsLine m.bytes := by
  refine ⟨m.text, fun c hc => ?_, rfl⟩
  rw [isNewline, beq_eq_false_iff_ne]
  rintro rfl
  exact m.hex lf hc rfl

/-! ### The example macro -/

/-- An entry of `switch_controller_input_sequence`: the keys it has. -/
structure MacroInput where
  buttons : Option ℤ := none
  pressDuration : Option ℕ := none
  hat : Option ℤ := none

/-- `hats_dict`. -/
inductive Hat where
  | dpadUp | dpadRight | notPressed | dpadLeft | dpadDown

/-- The code of a hat position. -/
def Hat.code : Hat → ℤ
  | .dpadUp => 0
  | .dpadRight => 2
  | .notPressed => 8
  | .dpadLeft => 6
  | .dpadDown => 4

/-- A direction pressed and let go, ten updates each. -/
def tap (hat : Hat) : List MacroInput :=
  [{ hat := some hat.code, pressDuration := some 10 },
    { hat := some Hat.notPressed.code, pressDuration := some 10 }]

/-- **`switch_controller_input_sequence`**: through all hues, and for each through all
vividities, the cursor brought back after each. -/
def switchControllerInputSequence : List MacroInput :=
  (List.replicate 30 ((List.replicate 15 ((List.replicate 15 (tap .dpadLeft)).flatten ++
      tap .dpadUp ++ tap .dpadRight ++ tap .dpadDown)).flatten ++
    tap .dpadUp ++ (List.replicate 15 (tap .dpadLeft)).flatten ++
    tap .dpadUp ++ tap .dpadRight ++ tap .dpadDown ++ tap .dpadDown)).flatten

/-- **The message loop of `example_macro`**, from the values the keys had last: the messages,
and the exception it ends with if it does. -/
def macroMessages (buttons : ℤ) (pressDuration : ℕ) (hat : ℤ) :
    List MacroInput → List (List UInt8) × Option Exn
  | [] => ([], none)
  | input :: inputs =>
      let buttons := input.buttons.getD buttons
      let pressDuration := input.pressDuration.getD pressDuration
      let hat := input.hat.getD hat
      match frame hat buttons [128, 128, 128, 128] with
      | .error e => ([], some e)
      | .ok message =>
          let rest := macroMessages buttons pressDuration hat inputs
          (List.replicate pressDuration message ++ rest.1, rest.2)

/-- **`example_macro`**: the messages it yields. -/
def exampleMacro : List (List UInt8) :=
  (macroMessages 0 50 Hat.notPressed.code switchControllerInputSequence).1

theorem isLine_frame {hat buttons : ℤ} {axis : List ℤ} {m : List UInt8}
    (h : frame hat buttons axis = .ok m) : IsLine m := by
  obtain ⟨m', rfl, -⟩ := frame_ok h
  exact isLine_bytes m'

theorem isLine_macroMessages (inputs : List MacroInput) (buttons : ℤ) (pressDuration : ℕ)
    (hat : ℤ) : ∀ m ∈ (macroMessages buttons pressDuration hat inputs).1, IsLine m := by
  induction inputs generalizing buttons pressDuration hat with
  | nil => simp [macroMessages]
  | cons input inputs ih =>
    intro m hm
    rw [macroMessages] at hm
    cases hf : frame (input.hat.getD hat) (input.buttons.getD buttons) [128, 128, 128, 128] with
    | error e => simp [hf] at hm
    | ok message =>
      simp only [hf] at hm
      rcases List.mem_append.mp hm with hm | hm
      · rw [List.eq_of_mem_replicate hm]
        exact isLine_frame hf
      · exact ih _ _ _ m hm

/-! ### Sources -/

/-- A reading with nothing pressed. -/
def Reading.idle : Reading where
  button := fun _ => 0
  axis := fun _ => 0
  button_le := fun _ => Nat.zero_le 1
  button_invalid := rfl
  axis_mem := fun _ => by decide

/-- **The iterators of `bridge.py`**, as far as they have been read. -/
inductive Source where
  /-- `controller_states`: the readings to come. -/
  | live (readings : ℕ → Reading)
  /-- `example_macro`, or `replay_states` with its file read: the messages to come. -/
  | given (messages : List (List UInt8))

/-- **`next` of a source.** A generator that has raised is at its end. -/
def Source.next : Source → Except Exn (List UInt8) × Source
  | .live readings => match (readings 0).message with
      | .ok message => (.ok message, .live fun n => readings (n + 1))
      | .error e => (.error e, .given [])
  | .given [] => (.error .stopIteration, .given [])
  | .given (message :: messages) => (.ok message, .given messages)

/-- A source that gives lines. -/
def Source.Lines : Source → Prop
  | .live _ => True
  | .given messages => ∀ m ∈ messages, IsLine m

theorem isLine_message {r : Reading} {m : List UInt8} (h : r.message = .ok m) : IsLine m := by
  obtain ⟨hat, -, hframe⟩ := bind_eq_ok.mp h
  exact isLine_frame hframe

/-- What it gives is a line, and it goes on giving lines. -/
theorem Source.Lines.next {src : Source} (h : src.Lines) :
    src.next.2.Lines ∧ ∀ m, src.next.1 = .ok m → IsLine m := by
  rcases src with readings | (- | ⟨message, messages⟩)
  · rw [Source.next]
    cases hm : (readings 0).message with
    | ok message =>
      refine ⟨trivial, fun m he => ?_⟩
      obtain rfl : message = m := Except.ok.inj he
      exact isLine_message hm
    | error e => exact ⟨List.forall_mem_nil _, fun m he => absurd he (by simp)⟩
  · exact ⟨List.forall_mem_nil _, fun m he => absurd he (by simp [Source.next])⟩
  · refine ⟨fun m hm => h m (List.mem_cons_of_mem _ hm), fun m he => ?_⟩
    obtain rfl : message = m := Except.ok.inj he
    exact h message List.mem_cons_self

/-- The loop of `__next__` over sources that give lines. -/
theorem read_lines {l : List Source} (h : ∀ src ∈ l, src.Lines) :
    (∀ src ∈ (read Source.next l).2, src.Lines) ∧
      ∀ src m, (read Source.next l).1 = .ok (src, m) → IsLine m := by
  induction l with
  | nil => exact ⟨List.forall_mem_nil _, fun src m he => absurd he (by simp [read])⟩
  | cons src l ih =>
    obtain ⟨hsrc, hrest⟩ := List.forall_mem_cons.mp h
    obtain ⟨hnext, hline⟩ := hsrc.next
    rw [read]
    generalize src.next = r at hnext hline
    obtain ⟨e | m, src'⟩ := r
    · have hstay : ∀ src'' ∈ src' :: l, src''.Lines := List.forall_mem_cons.mpr ⟨hnext, hrest⟩
      cases e with
      | stopIteration => exact ih hrest
      | indexError | structError | unicodeDecodeError | other n =>
        exact ⟨hstay, fun _ _ he => absurd he (by simp)⟩
    · refine ⟨List.forall_mem_cons.mpr ⟨hnext, hrest⟩, fun src'' m' he => ?_⟩
      obtain ⟨-, rfl⟩ : src' = src'' ∧ m = m' := by simpa using he
      exact hline m rfl

/-! ### The speed meter -/

/-- The speed meter shows `message[:-1].decode('utf8')`, which raises `UnicodeDecodeError` unless
the bytes are UTF-8. -/
def decodes (message : List UInt8) : Bool := message.dropLast.toByteArray.utf8Decode?.isSome

/-- An ASCII character takes one byte. -/
theorem utf8EncodeChar_ofNat {c : UInt8} (h : c < 128) :
    String.utf8EncodeChar (Char.ofNat c.toNat) = [c] := by
  have hlt : c.toNat < 128 := UInt8.lt_iff_toNat_lt.mp h
  have hvalid : c.toNat.isValidChar := Or.inl (by omega)
  have hval : (Char.ofNat c.toNat).val.toNat = c.toNat := by
    rw [Char.ofNat, dif_pos hvalid]
    rfl
  rw [String.utf8EncodeChar]
  simp only [hval]
  rw [if_pos (by omega), UInt8.ofNat_toNat]

/-- ASCII is UTF-8. -/
theorem decodes_of_ascii {text : List UInt8} (h : ∀ c ∈ text, c < 128) (c : UInt8) :
    decodes (text ++ [c]) = true := by
  have hencode : (text.map fun c => Char.ofNat c.toNat).utf8Encode = text.toByteArray := by
    rw [List.utf8Encode, List.flatMap_map]
    refine congrArg List.toByteArray ?_
    refine (List.flatMap_congr fun c hc => utf8EncodeChar_ofNat (h c hc)).trans ?_
    simp
  rw [decodes, List.dropLast_concat, ← hencode, List.utf8Decode?_utf8Encode]
  rfl

/-- A hex digit is ASCII. -/
theorem lt_of_hexVal {c : UInt8} (h : hexVal c ≠ 0xff) : c < 128 := by
  by_contra hc
  have hle : 128 ≤ c.toNat := by simpa [UInt8.lt_iff_toNat_lt] using hc
  have hnot : ∀ d : UInt8, d < 128 → ¬c ≤ d := by
    intro d hd hcd
    have hlt : d.toNat < 128 := UInt8.lt_iff_toNat_lt.mp hd
    have hcd' := UInt8.le_iff_toNat_le.mp hcd
    omega
  refine h ?_
  rw [hexVal, if_neg fun hd => hnot 57 (by decide) hd.2, if_neg fun hd => hnot 102 (by decide) hd.2,
    if_neg fun hd => hnot 70 (by decide) hd.2]

/-- **The messages of the controller decode.** -/
theorem decodes_message {r : Reading} {m : List UInt8} (h : r.message = .ok m) :
    decodes m = true := by
  obtain ⟨hat, -, hframe⟩ := bind_eq_ok.mp h
  obtain ⟨m', rfl, -⟩ := frame_ok hframe
  exact decodes_of_ascii (fun c hc => lt_of_hexVal (m'.hex c hc)) lf

/-! ### The main loop -/

/-- How far the main loop has come. -/
inductive LoopEnd where
  | running
  /-- `break`, at `StopIteration`. -/
  | finished
  /-- Another exception ended it. -/
  | raised (e : Exn)
  deriving DecidableEq

/-- **The main loop**, as far as the input goes: in each turn sources may be pushed, and then the
next message is written to the serial port and shown. What was written, and how far it came. -/
def mainLoop : List (List Source) → List Source → List (List UInt8) × LoopEnd
  | [], _ => ([], .running)
  | pushes :: turns, l => match read Source.next (pushes.reverse ++ l) with
      | (.ok (_, message), l') =>
          if decodes message then (message :: (mainLoop turns l').1, (mainLoop turns l').2)
          else ([message], .raised .unicodeDecodeError)
      | (.error .stopIteration, _) => ([], .finished)
      | (.error e, _) => ([], .raised e)

variable {readings : ℕ → Reading}

/-- The controller is asked, -/
theorem read_live_ok {m : List UInt8} (h : (readings 0).message = .ok m) (below : List Source) :
    read Source.next (.live readings :: below) =
      (.ok (.live fun n => readings (n + 1), m), .live (fun n => readings (n + 1)) :: below) := by
  have hnext : (Source.live readings).next = (.ok m, .live fun n => readings (n + 1)) := by
    rw [Source.next, h]
  rw [read, hnext]

/-- and with all four buttons of the d-pad pressed, the input seems to end. -/
theorem read_live_all (h : ∀ i ∈ hatmapping, (readings 0).button i = 1) (below : List Source) :
    (read Source.next (.live readings :: below)).1 = .error .stopIteration := by
  have hnext : (Source.live readings).next.1 = .error .indexError := by
    rw [Source.next, message_error _ h]
  rw [read_of_error hnext (by simp)]
  rfl

/-- **A turn with the controller on the stack**, below any macros and recordings: a message comes
from one of these, or from the controller, unless all four buttons of the d-pad are
pressed. -/
theorem read_above_live (h : ∃ i ∈ hatmapping, (readings 0).button i = 0)
    (above : List (List (List UInt8))) (below : List Source) :
    ∃ src m, ∃ (above' : List (List (List UInt8))) (readings' : ℕ → Reading),
      read Source.next (above.map .given ++ .live readings :: below) =
        (.ok (src, m), above'.map .given ++ .live readings' :: below) ∧
      (readings' = readings ∨ readings' = fun n => readings (n + 1)) := by
  induction above with
  | nil =>
    obtain ⟨message, hm, -⟩ := message_ok (readings 0) h
    exact ⟨_, _, [], _, read_live_ok hm below, Or.inr rfl⟩
  | cons src above ih =>
    rcases src with - | ⟨m, ms⟩
    · have hstopped : Stopped Source.next (.given []) := rfl
      rw [List.map_cons, List.cons_append, read_of_stopped hstopped]
      exact ih
    · exact ⟨.given ms, m, ms :: above, readings, rfl, Or.inl rfl⟩

/-- A turn that gives a message is not the end of the input. -/
theorem mainLoop_ne_finished {pushes l l' : List Source} {turns : List (List Source)} {src : Source}
    {m : List UInt8} (hread : read Source.next (pushes.reverse ++ l) = (.ok (src, m), l'))
    (hrest : decodes m = true → (mainLoop turns l').2 ≠ .finished) :
    (mainLoop (pushes :: turns) l).2 ≠ .finished := by
  rw [mainLoop, hread]
  change (if decodes m then (m :: (mainLoop turns l').1, (mainLoop turns l').2)
    else ([m], .raised .unicodeDecodeError)).2 ≠ .finished
  split
  · exact hrest ‹_›
  · simp

/-- As long as some button of the d-pad is up, the input does not seem to end. -/
theorem mainLoop_of_up (h : ∀ n, ∃ i ∈ hatmapping, (readings n).button i = 0)
    (turns : List (List (List (List UInt8)))) (above : List (List (List UInt8)))
    (below : List Source) :
    (mainLoop (turns.map (·.map .given)) (above.map .given ++ .live readings :: below)).2 ≠
      .finished := by
  induction turns generalizing above readings with
  | nil => simp [mainLoop]
  | cons pushes turns ih =>
    obtain ⟨src, m, above', readings', hread, hreadings⟩ :=
      read_above_live (h 0) (pushes.reverse ++ above) below
    rw [List.map_append, List.append_assoc, List.map_reverse] at hread
    refine mainLoop_ne_finished hread fun _ => ih (fun n => ?_) above'
    rcases hreadings with rfl | rfl
    · exact h n
    · exact h (n + 1)

/-- **A turn with a message that does not decode on the stack**: it is read, or another one above
it. -/
theorem read_above_undecoded {above : List (List (List UInt8))}
    (h : ∃ ms ∈ above, ∃ m ∈ ms, decodes m = false) (below : List Source) :
    ∃ src m, ∃ above' : List (List (List UInt8)),
      read Source.next (above.map .given ++ below) =
        (.ok (src, m), above'.map .given ++ below) ∧
      (decodes m = true → ∃ ms ∈ above', ∃ m ∈ ms, decodes m = false) := by
  induction above with
  | nil => simp at h
  | cons ms above ih =>
    rcases ms with - | ⟨m, ms⟩
    · have hstopped : Stopped Source.next (.given []) := rfl
      rw [List.map_cons, List.cons_append, read_of_stopped hstopped]
      exact ih (by simpa using h)
    · refine ⟨.given ms, m, ms :: above, rfl, fun hm => ?_⟩
      obtain ⟨ms', hms', m', hm', hdec⟩ := h
      rcases List.mem_cons.mp hms' with rfl | hms'
      · rcases List.mem_cons.mp hm' with rfl | hm'
        · exact absurd (hm.symm.trans hdec) (by decide)
        · exact ⟨ms, List.mem_cons_self, m', hm', hdec⟩
      · exact ⟨ms', List.mem_cons_of_mem _ hms', m', hm', hdec⟩

/-- Such a message ends the loop before the controller is asked. -/
theorem mainLoop_of_undecoded {above : List (List (List UInt8))}
    (h : ∃ ms ∈ above, ∃ m ∈ ms, decodes m = false) (turns : List (List (List (List UInt8))))
    (below : List Source) :
    (mainLoop (turns.map (·.map .given)) (above.map .given ++ below)).2 ≠ .finished := by
  induction turns generalizing above with
  | nil => simp [mainLoop]
  | cons pushes turns ih =>
    have hpushed : ∃ ms ∈ pushes.reverse ++ above, ∃ m ∈ ms, decodes m = false := by
      obtain ⟨ms, hms, hm⟩ := h
      exact ⟨ms, List.mem_append_right _ hms, hm⟩
    obtain ⟨src, m, above', hread, hrest⟩ := read_above_undecoded hpushed below
    rw [List.map_append, List.append_assoc, List.map_reverse] at hread
    exact mainLoop_ne_finished hread fun hdec => ih (hrest hdec)

/-- A turn at which the input seems to end is the last. -/
theorem mainLoop_break {l : List Source} (h : (read Source.next l).1 = .error .stopIteration)
    (turns : List (List Source)) : (mainLoop ([] :: turns) l).2 = .finished := by
  rw [mainLoop, List.reverse_nil, List.nil_append]
  generalize read Source.next l = r at h
  obtain ⟨e, l'⟩ := r
  obtain rfl : e = .error .stopIteration := h
  rfl

/-- A turn that gives a message that decodes is followed by the next. -/
theorem mainLoop_cons {l l' : List Source} {turns : List (List Source)} {src : Source}
    {m : List UInt8} (hread : read Source.next l = (.ok (src, m), l')) (hm : decodes m = true) :
    (mainLoop ([] :: turns) l).2 = (mainLoop turns l').2 := by
  rw [mainLoop, List.reverse_nil, List.nil_append, hread]
  change (if decodes m then (m :: (mainLoop turns l').1, (mainLoop turns l').2)
    else ([m], .raised .unicodeDecodeError)).2 = (mainLoop turns l').2
  rw [if_pos hm]

/-- A reading with all four pressed ends it, once the messages before it are read, if these decode.
By induction on the sources above, the messages of each, and the readings before. -/
theorem mainLoop_finished {n : ℕ} (h : ∀ i ∈ hatmapping, (readings n).button i = 1)
    {above : List (List (List UInt8))} (habove : ∀ ms ∈ above, ∀ m ∈ ms, decodes m = true)
    (below : List Source) :
    ∃ k, (mainLoop (List.replicate (k + 1) []) (above.map .given ++ .live readings :: below)).2 =
      .finished := by
  induction above with
  | nil =>
    change ∃ k, (mainLoop (List.replicate (k + 1) []) (.live readings :: below)).2 = .finished
    induction n generalizing readings with
    | zero => exact ⟨0, mainLoop_break (read_live_all h below) []⟩
    | succ n ih =>
      by_cases hall : ∀ i ∈ hatmapping, (readings 0).button i = 1
      · exact ⟨0, mainLoop_break (read_live_all hall below) []⟩
      · push Not at hall
        obtain ⟨i, hi, hne⟩ := hall
        have hle := (readings 0).button_le i
        obtain ⟨message, hm, -⟩ := message_ok (readings 0) ⟨i, hi, by omega⟩
        obtain ⟨k, hk⟩ := @ih (fun n => readings (n + 1)) h
        refine ⟨k + 1, ?_⟩
        rw [List.replicate_succ, mainLoop_cons (read_live_ok hm below) (decodes_message hm)]
        exact hk
  | cons src above ih =>
    obtain ⟨hsrc, hrest⟩ := List.forall_mem_cons.mp habove
    clear habove
    induction src with
    | nil =>
      obtain ⟨k, hk⟩ := ih hrest
      exact ⟨k, hk⟩
    | cons m ms ihm =>
      obtain ⟨hm, hms⟩ := List.forall_mem_cons.mp hsrc
      obtain ⟨k, hk⟩ := ihm hms
      have hread : read Source.next (((m :: ms) :: above).map .given ++ .live readings :: below) =
          (.ok (.given ms, m), (ms :: above).map .given ++ .live readings :: below) := rfl
      refine ⟨k + 1, ?_⟩
      rw [List.replicate_succ, mainLoop_cons hread hm]
      exact hk

/-- **When the end of input is reported truly.** For any sources, `__next__` raises `StopIteration`
only if all of them have stopped, and passes on any other exception of the top one, exactly when
the first that has not stopped does not raise `IndexError`. With `controller_states` on the
stack, and any macros and recordings played above it, the main loop never finishes exactly when
no reading has all four buttons of the d-pad pressed, or one of the messages above does not decode,
for then the loop ends with `UnicodeDecodeError` before it gets to the controller. -/
theorem end_of_input_iff {ι μ : Type} (next : ι → Except Exn μ × ι) (l : List ι)
    (readings : ℕ → Reading) (above : List (List (List UInt8))) (below : List Source) :
    (HonestEnd next l ↔ ¬Swallows next l) ∧
    ((∀ turns : List (List (List (List UInt8))),
        (mainLoop (turns.map (·.map .given)) (above.map .given ++ .live readings :: below)).2 ≠
          .finished) ↔
      (∀ n, ∃ i ∈ hatmapping, (readings n).button i = 0) ∨
        ∃ ms ∈ above, ∃ m ∈ ms, decodes m = false) := by
  refine ⟨honestEnd_iff next l, ?_⟩
  constructor
  · intro hnever
    by_contra hnone
    push Not at hnone
    obtain ⟨⟨n, hn⟩, habove⟩ := hnone
    have hall : ∀ i ∈ hatmapping, (readings n).button i = 1 := fun i hi => by
      have hle := (readings n).button_le i
      have hne := hn i hi
      omega
    obtain ⟨k, hk⟩ := mainLoop_finished hall
      (fun ms hms m hm => (Bool.not_eq_false _).mp (habove ms hms m hm)) below
    refine hnever (List.replicate (k + 1) []) ?_
    rw [List.map_replicate]
    exact hk
  · rintro (h | h) turns
    · exact mainLoop_of_up h turns above below
    · exact mainLoop_of_undecoded h turns _

/-- The reading with nothing pressed but the d-pad, all four of its buttons. -/
def Reading.allFour : Reading where
  button := fun i => if i ∈ hatmapping then 1 else 0
  axis := fun _ => 0
  button_le := fun i => by cases i <;> decide
  button_invalid := rfl
  axis_mem := fun _ => by decide

/-- **A reading ends the bridge** as if the input had ended: the controller has not stopped, and
raised `IndexError`. -/
theorem end_of_input_allFour :
    (Source.live fun _ => Reading.allFour).next.1 = .error .indexError ∧
      (read Source.next [.live fun _ => Reading.allFour]).1 = .error .stopIteration ∧
      (mainLoop [[]] [.live fun _ => Reading.allFour]).2 = .finished ∧
      ¬HonestEnd Source.next [.live fun _ => Reading.allFour] := by
  have hraise : (Source.live fun _ => Reading.allFour).next.1 = .error .indexError := by decide
  have hread : (read Source.next [.live fun _ => Reading.allFour]).1 = .error .stopIteration :=
    read_live_all (by decide) []
  refine ⟨hraise, hread, mainLoop_break hread [], fun h => ?_⟩
  exact absurd (hraise.symm.trans (h.1 hread _ (List.mem_singleton_self _))) (by simp)

end Bridge

end SwitchController
