import SwitchController.Firmware.Message
import SwitchController.Firmware.Overrun

/-!
# Spliced lines

A reader that is overrun skips whole rounds of the ring, possibly in the middle of a line,
and goes on with the digits of another message as if nothing had happened. Whether the
splice is accepted is a matter of arithmetic. A round is `256 = 17 * 15 + 1` bytes, so each
one moves the reader by one place within a message, and after fewer than fifteen of them
the line ends at the wrong place: it does not have fourteen digits, and is dropped. This is
`SwitchController.Firmware.run_latches_of_laps`. After fifteen rounds within one line the
places agree again, and a state that nobody sent is latched.

The rounds are counted per line by `SwitchController.Firmware.Device.lapsAfter`, beside the
firmware and without changing it. The invariant is
`SwitchController.Firmware.LineAt`: where the line began, how many rounds have been
skipped since, and how many digits that can have brought.
-/

namespace SwitchController

namespace Firmware

open EventMachine RingSlots

/-! ### Counting rounds -/

/-- **The rounds by which the line being read has been overrun**, one event later: a byte
that arrives in a full ring completes one more, and reading a line end starts again
from none. -/
def Device.lapsAfter (d : Device) (n : ℕ) : Event → ℕ
  | .rx _ => if d.full then n + 1 else n
  | .main _ => if d.pc = .serialRead ∧ isEol (d.buffer d.bufferTail) = true then 0 else n

/-- The firmware, with the rounds counted beside it. -/
def lapStep (x : Device × ℕ) (e : Event) : (Device × ℕ) × List Obs :=
  (((x.1.step e).1, x.1.lapsAfter x.2 e), (x.1.step e).2)

/-- Counting changes nothing. -/
theorem run_eq_runFrom_lapStep (es : List Event) :
    run es = ((runFrom lapStep (Device.powerUp, 0) es).1.1,
      (runFrom lapStep (Device.powerUp, 0) es).2) :=
  runFrom_map lapStep Prod.fst (fun _ _ => rfl) (Device.powerUp, 0) es

/-! ### The line being read -/

/-- **Where the line being read comes from**, the stream received being `w`: it began at
position `s`, with a message, and `k` rounds have been skipped since. -/
structure LineAt (d : Device) (w : List UInt8) (n : ℕ) (line : List UInt8) (s k : ℕ) :
    Prop where
  /-- The position of the next read. -/
  ring : RingAt d w (s + line.length + 256 * k)
  /-- What the parser makes of the line. -/
  onLine : OnLine d.settle.1 line
  /-- Only digits are read off messages. -/
  hex : ∀ c ∈ line, hexVal c ≠ 0xff
  /-- The line began with a message. -/
  start : s % 15 = 0
  /-- Each of the `k + 1` stretches read without a skip lies inside a message. -/
  length_le : line.length ≤ 14 * k + (s + line.length + 256 * k) % 15
  /-- The rounds skipped, and those the next read will skip, have been counted. -/
  laps_le : k + (w.length - (s + line.length + 256 * k)) / 256 ≤ n
  /-- Without a skip the line is a piece of the stream. -/
  whole : k = 0 → line = (w.drop s).take line.length

variable {d : Device} {log : List Obs} {w line : List UInt8} {n s k : ℕ} {ms : List Message}

theorem lineAt_powerUp : LineAt Device.powerUp [] 0 [] 0 0 where
  ring := ringAt_powerUp
  onLine := onLine_newLine Parser.powerUp
  hex := by simp
  start := rfl
  length_le := Nat.zero_le _
  laps_le := le_rfl
  whole := fun _ => rfl

theorem LineAt.receive (h : LineAt d w n line s k) (c : UInt8) :
    LineAt (d.receive c).1 (w ++ [c]) (d.lapsAfter n (.rx c)) line s k where
  ring := h.ring.receive c
  onLine := h.onLine
  hex := h.hex
  start := h.start
  length_le := h.length_le
  laps_le := by
    have hle := h.ring.le
    have hlaps := h.laps_le
    have hfull := h.ring.full_iff
    rw [Device.lapsAfter, List.length_append, List.length_singleton]
    split
    · omega
    · -- the ring is not full, so no round is completed
      rename_i hnot
      rw [hfull] at hnot
      omega
  whole := by
    intro hk
    have hle := h.ring.le
    rw [List.drop_append_of_le_length (by omega),
      List.take_append_of_le_length (by rw [List.length_drop]; omega)]
    exact h.whole hk

theorem LineAt.exec (h : LineAt d w n line s k) (u : Usb) (hr : d.pc ≠ .serialRead) :
    LineAt (d.exec u).1 w (d.lapsAfter n (.main u)) line s k where
  ring := h.ring.exec u hr
  onLine := by
    rw [(settle_exec u hr).1]
    exact h.onLine
  hex := h.hex
  start := h.start
  length_le := h.length_le
  laps_le := by
    rw [Device.lapsAfter, if_neg fun hcon => hr hcon.1]
    exact h.laps_le
  whole := h.whole

/-- **Reading a digit**: the rounds the read skips are added to those skipped before. -/
theorem LineAt.readDigit (h : LineAt d w n line s k) (u : Usb) (hr : d.pc = .serialRead)
    {q : ℕ} (hq : q = latest 256 w.length (s + line.length + 256 * k)) (hmod : q % 15 < 14)
    (hv : hexVal (d.buffer d.bufferTail) ≠ 0xff) :
    ∃ k', LineAt (d.exec u).1 w (d.lapsAfter n (.main u))
      (line ++ [d.buffer d.bufferTail]) s k' := by
  obtain ⟨hget, hring⟩ := h.ring.serialRead u hr
  have hready := h.ring.ready hr
  have hback : w.length ≤ q + 256 := hq ▸ le_latest_add (by decide)
  rw [← hq] at hget hring
  rw [latest] at hq
  -- `j` rounds are skipped by this read
  generalize hj : (w.length - (s + line.length + 256 * k) - 1) / 256 = j at hq
  have hlen : (line ++ [d.buffer d.bufferTail]).length = line.length + 1 := by simp
  have hpos : s + (line.length + 1) + 256 * (k + j) = q + 1 := by omega
  have hle := h.length_le
  have hlaps := h.laps_le
  refine ⟨k + j, ?_, ?_, ?_, h.start, ?_, ?_, ?_⟩
  · rw [hlen, hpos]
    exact hring
  · rw [(settle_serialRead u hr).1]
    exact h.onLine.concat_digit hv
  · intro c hc
    rcases List.mem_append.mp hc with hc | hc
    · exact h.hex c hc
    · rw [List.mem_singleton.mp hc]
      exact hv
  · rw [hlen, hpos]
    omega
  · have heol : ¬isEol (d.buffer d.bufferTail) = true := by simp [isEol_of_digit hv]
    rw [hlen, hpos, Device.lapsAfter, if_neg fun hcon => heol hcon.2]
    omega
  · intro hk
    obtain ⟨rfl, rfl⟩ : k = 0 ∧ j = 0 := by omega
    have hat : (w.drop s)[line.length]? = some (d.buffer d.bufferTail) := by
      rw [List.getElem?_drop, ← hget]
      congr 1
      omega
    rw [hlen, List.take_add_one, ← h.whole rfl, hat]
    rfl

/-- **Reading a line end** begins a line behind it, with nothing skipped. -/
theorem LineAt.readEol (h : LineAt d w n line s k) (u : Usb) (hr : d.pc = .serialRead)
    {q : ℕ} (hq : q = latest 256 w.length (s + line.length + 256 * k)) (hmod : q % 15 = 14)
    (hc : isEol (d.buffer d.bufferTail) = true) :
    LineAt (d.exec u).1 w (d.lapsAfter n (.main u)) [] (q + 1) 0 := by
  obtain ⟨-, hring⟩ := h.ring.serialRead u hr
  have hback : w.length ≤ q + 256 := hq ▸ le_latest_add (by decide)
  rw [← hq] at hring
  refine ⟨hring, ?_, by simp, by omega, Nat.zero_le _, ?_, fun _ => rfl⟩
  · rw [(settle_serialRead u hr).1]
    exact onLine_of_isEol _ hc
  · rw [List.length_nil]
    omega

theorem LineAt.length_digits (h : LineAt d w n line s k) : (digits line).length = line.length := by
  rw [digits_eq_map h.hex, List.length_map]

/-- **What a line end latches is a message**, as long as fewer than fifteen rounds have been
lost: a line that counts fourteen digits then has fourteen, and skipped nothing. -/
theorem LineAt.latched_mem (h : LineAt d w n line s k) (hw : w <+: stream ms) (hn : n < 15)
    (hr : d.pc = .serialRead) {q : ℕ}
    (hq : q = latest 256 w.length (s + line.length + 256 * k)) (hmod : q % 15 = 14)
    (hc : isEol (d.buffer d.bufferTail) = true) :
    ∀ g ∈ (serialByte d.settle.1 (d.buffer d.bufferTail)).2.filterMap Effect.latched?,
      ∃ m ∈ ms, g = m.state := by
  intro g hg
  have hready := h.ring.ready hr
  have hle := h.length_le
  have hlaps := h.laps_le
  have hstart := h.start
  by_cases hl : d.settle.1.l = 14
  · have hcount := h.onLine.l_eq_iff.mp hl
    rw [h.length_digits] at hcount
    -- at most `14 * 14 + 14` digits, so the counter has not wrapped around
    have h14 : line.length = 14 := by omega
    have hq' := hq
    rw [latest, h14] at hq'
    rw [h14] at hlaps hready
    -- `256` is `1` modulo `15`
    obtain rfl : k = 0 := by omega
    have hlt : s + 14 < w.length := by omega
    obtain ⟨m, hm, htext⟩ := take_drop_stream hstart (hlt.trans_le hw.length_le)
    obtain ⟨rest, hrest⟩ := hw
    have hline : line = m.text := by
      rw [h.whole rfl, h14, ← htext, ← hrest, List.drop_append_of_le_length (by omega),
        List.take_append_of_le_length (by rw [List.length_drop]; omega)]
    have hshort : (digits line).length ≤ 14 := by rw [h.length_digits, h14]
    rw [h.onLine.filterMap_latched_of_isEol hshort hc, hline, m.readLine_text] at hg
    exact ⟨m, hm, by simpa using hg⟩
  · rw [serialByte_reject hc hl] at hg
    exact absurd hg (by simp)

/-! ### Whole runs -/

/-- **Only messages are latched**, of a stream of messages, and the line being read is
accounted for. -/
structure Unspliced (ms : List Message) (x : Device × ℕ) (log : List Obs) : Prop where
  /-- The line being read. -/
  line : ∃ line s k, LineAt x.1 (received log) x.2 line s k
  /-- The frames latched, or about to be. -/
  latched : ∀ g ∈ foretold x.1 log, ∃ m ∈ ms, g = m.state

theorem Unspliced.receive {x : Device × ℕ} (h : Unspliced ms x log) (c : UInt8) :
    Unspliced ms (lapStep x (.rx c)).1 (log ++ (lapStep x (.rx c)).2) := by
  obtain ⟨line, s, k, hline⟩ := h.line
  refine ⟨⟨line, s, k, ?_⟩, ?_⟩
  · change LineAt (x.1.receive c).1 (received (log ++ (x.1.receive c).2)) _ line s k
    rw [received_receive]
    exact hline.receive c
  · change ∀ g ∈ foretold (x.1.receive c).1 (log ++ (x.1.receive c).2), _
    rw [foretold_receive]
    exact h.latched

theorem Unspliced.main {x : Device × ℕ} (h : Unspliced ms x log)
    (hw : received log <+: stream ms) (hn : x.2 < 15) (u : Usb) :
    Unspliced ms (lapStep x (.main u)).1 (log ++ (lapStep x (.main u)).2) := by
  obtain ⟨line, s, k, hline⟩ := h.line
  obtain ⟨d, n⟩ := x
  suffices hsuff : (∃ line s k,
      LineAt (d.exec u).1 (received log) (d.lapsAfter n (.main u)) line s k) ∧
      ∀ g ∈ foretold (d.exec u).1 (log ++ (d.exec u).2), ∃ m ∈ ms, g = m.state by
    refine ⟨?_, hsuff.2⟩
    change ∃ line s k, LineAt (d.exec u).1 (received (log ++ (d.exec u).2)) _ line s k
    rw [received_exec]
    exact hsuff.1
  by_cases hr : d.pc = .serialRead
  · -- a byte of the stream is read: a digit, or the end of a message
    rw [foretold_serialRead u hr]
    have hget := (hline.ring.serialRead u hr).1
    obtain ⟨hlt, heq⟩ := List.getElem?_eq_some_iff.mp hget
    have hbyte := List.prefix_iff_getElem?.mp hw _ hlt
    rw [heq] at hbyte
    rcases stream_byte hbyte with ⟨hmod, hc⟩ | ⟨hmod, hv⟩
    · refine ⟨⟨[], _, 0, hline.readEol u hr rfl hmod hc⟩, fun g hg => ?_⟩
      rcases List.mem_append.mp hg with hg | hg
      · exact h.latched g hg
      · exact hline.latched_mem hw hn hr rfl hmod hc g hg
    · obtain ⟨k', hline'⟩ := hline.readDigit u hr rfl hmod hv
      rw [filterMap_latched_of_not_isEol _ (isEol_of_digit hv), List.append_nil]
      exact ⟨⟨_, s, k', hline'⟩, h.latched⟩
  · rw [foretold_exec u hr]
    exact ⟨⟨line, s, k, hline.exec u hr⟩, h.latched⟩

/-- **An overrun produces no phantom state, short of fifteen rounds within one line.** Over
any messages and any interleaving, the ring overflowing as often as it likes: as long as
no single line is overrun by fifteen rounds of the ring before its end is read, every
state ever latched is the state of one of the messages. -/
theorem run_latches_of_laps {es : List Event} (hin : received (run es).2 <+: stream ms)
    (hlaps : Guarded lapStep (fun x _ _ => x.2 < 15) (Device.powerUp, 0) es) :
    ∀ g ∈ latches (run es).2, ∃ m ∈ ms, g = m.state := by
  have hinv : received (runFrom lapStep (Device.powerUp, 0) es).2 <+: stream ms →
      Unspliced ms (runFrom lapStep (Device.powerUp, 0) es).1
        (runFrom lapStep (Device.powerUp, 0) es).2 := by
    refine runFrom_invariant_of_guard
      (P := fun x log => received log <+: stream ms → Unspliced ms x log) ?_ ?_ hlaps
    · intro _
      exact ⟨⟨[], 0, 0, lineAt_powerUp⟩, fun g hg => absurd hg List.not_mem_nil⟩
    · intro x log e ih hn hpre
      rw [received_append] at hpre
      have hw := (List.prefix_append _ _).trans hpre
      rcases e with c | u
      · exact (ih hw).receive c
      · exact (ih hw).main hw hn u
  have hrun := run_eq_runFrom_lapStep es
  rw [hrun] at hin ⊢
  exact fun g hg => (hinv hin).latched g (List.mem_append_left _ hg)

/-- Zeros, and then nothing but `f`s. -/
def onesAfterZeros (n : ℕ) : List Message :=
  Message.repeated 0x30 (by decide) :: List.replicate n (Message.repeated 0x66 (by decide))

/-- A line overrun by one round is dropped, and the message after it is latched. -/
theorem run_latches_of_laps_one :
    ∃ es : List Event, latches (run es).2 = [⟨0xff, 0xffff, 0xff, 0xff, 0xff, 0xff⟩] ∧
      ∀ g ∈ latches (run es).2, ∃ m ∈ onesAfterZeros 18, g = m.state := by
  let w := stream (onesAfterZeros 18)
  let es := (w.take 7).map Event.rx ++ List.replicate 60 (Event.main Usb.quiet) ++
    ((w.drop 7).take 263).map Event.rx ++ List.replicate 55 (Event.main Usb.quiet) ++
    (w.drop 270).map Event.rx ++ List.replicate 122 (Event.main Usb.quiet)
  have hin : received (run es).2 <+: stream (onesAfterZeros 18) := by
    rw [received_run]
    decide +kernel
  have hlaps : Guarded lapStep (fun x _ _ => x.2 < 15) (Device.powerUp, 0) es :=
    guarded_of_guardedFrom (G := fun (x : Device × ℕ) _ => x.2 < 15) (by decide +kernel)
  exact ⟨es, by decide +kernel, run_latches_of_laps hin hlaps⟩

/-- Overrun by fifteen rounds after its seventh digit, the first line goes on with the last
seven digits of the last message, and the splice is accepted. -/
theorem run_latches_spliced :
    ∃ es : List Event, received (run es).2 = stream (onesAfterZeros 256) ∧
      latches (run es).2 = [⟨0, 0, 0x0f, 0xff, 0xff, 0xff⟩] ∧
      ∀ m ∈ onesAfterZeros 256, m.state ≠ ⟨0, 0, 0x0f, 0xff, 0xff, 0xff⟩ := by
  let w := stream (onesAfterZeros 256)
  let es := (w.take 7).map Event.rx ++ List.replicate 60 (Event.main Usb.quiet) ++
    (w.drop 7).map Event.rx ++ List.replicate 66 (Event.main Usb.quiet)
  have hin : received (run es).2 = stream (onesAfterZeros 256) := by
    rw [received_run]
    decide +kernel
  refine ⟨es, hin, by decide +kernel, fun m hm => ?_⟩
  rcases List.mem_cons.mp hm with rfl | hm
  · decide
  · rw [List.eq_of_mem_replicate hm]
    decide

end Firmware

end SwitchController
