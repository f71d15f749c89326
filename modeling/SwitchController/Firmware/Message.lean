import SwitchController.Lib.Blocks
import SwitchController.Firmware.Lines

/-!
# Messages

What the bridge puts on the line, as far as the firmware is concerned: fourteen hex
digits and a newline, `15` bytes in all. `SwitchController.Firmware.Message` carries the
shape with it, so a list of messages is a well-formed stream by construction, and a
position of the stream is a message and an offset into it.
-/

namespace SwitchController

namespace Firmware

open LineSplit EqualBlocks

/-- **A message**: fourteen hex digits, to be followed by a newline. -/
structure Message where
  /-- The digits, as characters. -/
  text : List UInt8
  /-- There are fourteen. -/
  length_text : text.length = 14
  /-- They are hex digits. -/
  hex : ∀ c ∈ text, hexVal c ≠ 0xff

/-- The bytes of a message on the line. -/
def Message.bytes (m : Message) : List UInt8 := m.text ++ [lf]

/-- The state a message stands for. -/
def Message.state (m : Message) : Latched := Latched.ofDigits (digits m.text)

/-- The bytes of a list of messages, one after the other. -/
def stream (ms : List Message) : List UInt8 := ms.flatMap Message.bytes

/-- One digit fourteen times. -/
def Message.repeated (c : UInt8) (hc : hexVal c ≠ 0xff) : Message where
  text := List.replicate 14 c
  length_text := List.length_replicate
  hex := fun _ hx => List.eq_of_mem_replicate hx ▸ hc

theorem Message.length_bytes (m : Message) : m.bytes.length = 15 := by
  rw [Message.bytes, List.length_append, m.length_text]
  rfl

theorem isEol_of_digit {c : UInt8} (hv : hexVal c ≠ 0xff) : isEol c = false :=
  Bool.eq_false_iff.mpr fun hc => hv (hexVal_of_isEol hc)

/-- Where there is no noise, every byte is a digit. -/
theorem digits_eq_map {line : List UInt8} (hline : ∀ c ∈ line, hexVal c ≠ 0xff) :
    digits line = line.map hexVal := by
  rw [digits, ← List.filterMap_eq_map]
  refine List.filterMap_congr fun c hc => ?_
  rw [digit?_eq, if_neg (hline c hc)]
  rfl

/-- A message is a line of fourteen digits. -/
theorem Message.length_digits_text (m : Message) : (digits m.text).length = 14 := by
  rw [digits_eq_map m.hex, List.length_map, m.length_text]

/-- A message read as a line. -/
theorem Message.readLine_text (m : Message) : readLine m.text = some m.state :=
  if_pos m.length_digits_text

/-- Its state is what its bytes set the globals to. -/
theorem Message.state_eq (m : Message) :
    m.state = Latched.ofFrame (spell (m.text.map hexVal)) := by
  rw [← digits_eq_map m.hex, ofFrame_spell m.length_digits_text fun d hd => digits_lt hd]
  rfl

/-! ### Offsets -/

/-- The digits of a message are its first fourteen bytes. -/
theorem Message.bytes_digit (m : Message) {j : ℕ} (hj : j < 14) :
    ∃ c, m.bytes[j]? = some c ∧ hexVal c ≠ 0xff := by
  have hlt : j < m.text.length := by rw [m.length_text]; exact hj
  refine ⟨m.text[j], ?_, m.hex _ (List.getElem_mem hlt)⟩
  rw [Message.bytes, List.getElem?_append_left hlt, List.getElem?_eq_getElem hlt]

theorem Message.bytes_newline (m : Message) : m.bytes[14]? = some lf := by
  have h14 : m.text.length = 14 := m.length_text
  rw [Message.bytes, List.getElem?_append_right (by omega), h14]
  rfl

/-- A position of a stream of messages is an offset into one of them. -/
theorem getElem?_stream (ms : List Message) (q : ℕ) :
    (stream ms)[q]? = ms[q / 15]?.bind fun m => m.bytes[q % 15]? := by
  conv_lhs => rw [← Nat.div_add_mod q 15]
  exact getElem?_flatMap Message.length_bytes ms (q / 15) (Nat.mod_lt q (by decide))

/-- **A byte of the stream is a line end exactly at the end of a message**, and a digit
everywhere else. -/
theorem stream_byte {ms : List Message} {q : ℕ} {c : UInt8} (h : (stream ms)[q]? = some c) :
    (q % 15 = 14 ∧ isEol c = true) ∨ (q % 15 < 14 ∧ hexVal c ≠ 0xff) := by
  rw [getElem?_stream] at h
  obtain ⟨m, -, hm⟩ := Option.bind_eq_some_iff.mp h
  rcases Nat.lt_or_ge (q % 15) 14 with hlt | hge
  · obtain ⟨c', hc', hv⟩ := m.bytes_digit hlt
    obtain rfl : c' = c := Option.some_inj.mp (hc'.symm.trans hm)
    exact Or.inr ⟨hlt, hv⟩
  · have h14 : q % 15 = 14 := by omega
    rw [h14] at hm
    obtain rfl : lf = c := Option.some_inj.mp (m.bytes_newline.symm.trans hm)
    exact Or.inl ⟨h14, rfl⟩

/-- The fourteen bytes from the start of a message are its digits. -/
theorem take_drop_stream {ms : List Message} {s : ℕ} (hs : s % 15 = 0)
    (hlen : s + 14 < (stream ms).length) :
    ∃ m ∈ ms, ((stream ms).drop s).take 14 = m.text := by
  obtain ⟨k, rfl⟩ : ∃ k, s = 15 * k := ⟨s / 15, by omega⟩
  have hdrop : (stream ms).drop (15 * k) = stream (ms.drop k) :=
    drop_flatMap Message.length_bytes ms k
  have hne : (stream ms).drop (15 * k) ≠ [] := by
    rw [Ne, List.drop_eq_nil_iff]
    omega
  rcases hk : ms.drop k with - | ⟨m, rest⟩
  · rw [hk] at hdrop
    exact absurd hdrop hne
  · refine ⟨m, List.mem_of_mem_drop (hk ▸ List.mem_cons_self), ?_⟩
    rw [hdrop, hk, stream, List.flatMap_cons, Message.bytes, List.append_assoc,
      List.take_append_of_le_length (by rw [m.length_text]), ← m.length_text, List.take_length]

/-! ### Reading a stream of messages -/

/-- The lines of a stream of messages that breaks off inside one. -/
theorem linesFrom_stream (ms : List Message) {rest : List UInt8}
    (hrest : ∀ c ∈ rest, isEol c = false) :
    linesFrom isEol [] (stream ms ++ rest) = (ms.map Message.text, rest) := by
  induction ms with
  | nil => exact linesFrom_of_forall hrest []
  | cons m ms ih =>
    have hm : ∀ c ∈ m.text, isEol c = false := fun c hc => isEol_of_digit (m.hex c hc)
    have hsplit : stream (m :: ms) ++ rest = m.text ++ lf :: (stream ms ++ rest) := by
      simp [stream, Message.bytes]
    rw [hsplit, linesFrom_append_eol hm rfl, ih]
    simp

/-- **A stream of messages, from a line boundary**: the firmware latches the messages in
order, and is left inside the one that breaks off. -/
theorem serialTask_stream {p : Parser} (hp : OnLine p []) (ms : List Message) {rest : List UInt8}
    (hrest : ∀ c ∈ rest, isEol c = false) (hlen : rest.length ≤ 14) :
    OnLine (serialTask p (stream ms ++ rest)).1 rest ∧
      (serialTask p (stream ms ++ rest)).2.filterMap Effect.latched? = ms.map Message.state := by
  have hlines := linesFrom_stream ms hrest
  have hshort : ∀ line ∈ allLines isEol (stream ms ++ rest), (digits line).length ≤ 14 := by
    intro line hl
    have hle := length_digits_le line
    rw [allLines, allLinesFrom, hlines] at hl
    rcases List.mem_append.mp hl with hl | hl
    · obtain ⟨m, -, rfl⟩ := List.mem_map.mp hl
      rwa [m.length_text] at hle
    · obtain rfl : line = rest := by simpa using hl
      exact hle.trans hlen
  obtain ⟨hend, hupd⟩ := serialTask_lines hp _ hshort
  rw [hlines] at hend
  refine ⟨hend, ?_⟩
  rw [hupd, updates, closedLines, hlines, List.filterMap_map, ← List.filterMap_eq_map]
  exact List.filterMap_congr fun m _ => m.readLine_text

/-- Of a stream read in part, the firmware has latched the messages read whole. -/
theorem latched_serialTask_of_isPrefix {ms : List Message} {s : List UInt8} (h : s <+: stream ms) :
    (serialTask Parser.powerUp s).2.filterMap Effect.latched? <+: ms.map Message.state := by
  obtain ⟨q, rest, rfl, hlen, hrest⟩ := exists_of_isPrefix Message.length_bytes (by decide) h
  have hdig : ∀ c ∈ rest, isEol c = false := by
    rcases hrest with rfl | ⟨m, -, hpre⟩
    · simp
    · intro c hc
      have htext : rest <+: m.text :=
        List.prefix_of_prefix_length_le hpre (List.prefix_append _ _)
          (by rw [m.length_text]; omega)
      exact isEol_of_digit (m.hex c (htext.subset hc))
  have hrun := serialTask_stream (p := Parser.powerUp) (onLine_newLine Parser.powerUp)
    (ms.take q) hdig (by omega)
  rw [stream] at hrun
  rw [hrun.2]
  exact (List.take_prefix q ms).map Message.state

end Firmware

end SwitchController
