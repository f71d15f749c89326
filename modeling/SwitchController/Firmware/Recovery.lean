import SwitchController.Firmware.Response
import SwitchController.Firmware.Overlong
import SwitchController.Firmware.Message

/-!
# After an overrun

An overrun loses bytes, repeats bytes and splices lines, and nothing in the firmware notices that it
is over. What heals the device is the line protocol itself: the firmware has no memory across a line
end but the frame it latched. So whatever has happened – any bytes, any overruns, the ring in any
position – from the moment the sender leaves room in the ring, the bytes read are the bytes in the
ring and those that follow, in order, and behind the first line end among them the frames latched
are again exactly the messages sent (`SwitchController.Firmware.run_recovers`).

What is in the ring is a matter of the two indices and of the statement about to be executed:
`SwitchController.Firmware.Device.pending` reads it off the device, with no record of what was
lost before. A ring that has been lapped while a read was pending holds a whole round,
`256` bytes, and there one byte more would overwrite the next to be read: the room asked for
is that of `SwitchController.Firmware.Device.left`, not that of the overrun test.
-/

namespace SwitchController

namespace Firmware

open EventMachine RingSlots

variable {d : Device} {u : Usb} {log : List Obs} {w skipped held : List UInt8} {t : ℕ}

/-! ### What the ring holds -/

/-- **The bytes left to read**, counting the one that has been decided on. -/
def Device.left (d : Device) : ℕ := if d.pc = .serialRead then d.behind + 1 else d.behind

/-- **The bytes the ring holds**, in the order they will be read in. -/
def Device.pending (d : Device) : List UInt8 :=
  (List.range d.left).map fun i => d.buffer (d.readIndex + UInt8.ofNat i)

/-- A byte arrives only where the ring has room for it. -/
def Device.Room (d : Device) : Event → Prop
  | .rx _ => d.left < 255
  | .main _ => True

instance (d : Device) (e : Event) : Decidable (d.Room e) :=
  match e with
  | .rx _ => inferInstanceAs (Decidable (d.left < 255))
  | .main _ => inferInstanceAs (Decidable True)

theorem left_of_ne (h : d.pc ≠ .serialRead) : d.left = d.behind := if_neg h

theorem left_of_eq (h : d.pc = .serialRead) : d.left = d.behind + 1 := if_pos h

theorem left_receive (h : d.left < 255) (c : UInt8) : (d.receive c).1.left = d.left + 1 := by
  have hadd : ∀ a b : UInt8, (a - b).toNat < 255 → (a + 1 - b).toNat = (a - b).toNat + 1 := by
    intro a b hlt
    have hb := b.toNat_lt
    rw [toNat_sub_eq] at hlt ⊢
    rw [toNat_sub_eq, toNat_succ]
    omega
  have hbehind : d.behind < 255 → (d.receive c).1.behind = d.behind + 1 := hadd _ _
  by_cases hr : d.pc = .serialRead
  · rw [left_of_eq hr] at h ⊢
    rw [left_of_eq (d := (d.receive c).1) hr, hbehind (by omega)]
  · rw [left_of_ne hr] at h ⊢
    rw [left_of_ne (d := (d.receive c).1) hr, hbehind h]

/-- No statement changes what is left to read, but the one that reads. -/
theorem left_exec (hr : d.pc ≠ .serialRead) (u : Usb) : (d.exec u).1.left = d.left := by
  rw [left_of_ne hr]
  by_cases hw : d.pc = .serialWhile ∧ d.bufferTail ≠ d.bufferHead
  · obtain ⟨hnext, hbehind⟩ := behind_serialWhile (u := u) hw.1 hw.2
    rw [left_of_eq hnext, hbehind]
  · have hnext : (d.exec u).1.pc ≠ .serialRead := fun hpc => hw (pc_exec_eq_serialRead hpc)
    rw [left_of_ne hnext]
    exact behind_exec fun hpc => not_not.mp fun hne => hw ⟨hpc, hne⟩

theorem left_serialRead (hr : d.pc = .serialRead) (u : Usb) : (d.exec u).1.left + 1 = d.left := by
  have hnext : (d.exec u).1.pc ≠ .serialRead := by simp [Device.exec, hr]
  rw [left_of_ne hnext, left_of_eq hr, behind_exec (by simp [hr])]

/-- The two indices say how much there is to read, up to rounds. -/
theorem RingAt.left_mod (h : RingAt d w t) : (t + d.left) % 256 = w.length % 256 := by
  have hhead := h.head_eq
  have hread := h.read_eq
  have hnat : ∀ k, (UInt8.ofNat k).toNat = k % 256 := fun k => UInt8.toNat_ofNat' (n := k)
  by_cases hr : d.pc = .serialRead
  · rw [Device.readIndex, hr, if_neg (by decide)] at hread
    rw [left_of_eq hr, Device.behind, hr, if_pos (by decide), hhead, hread, toNat_sub_eq,
      toNat_succ, hnat, hnat]
    omega
  · have hindex : (if d.pc.atByte then d.bufferTail + 1 else d.bufferTail) = d.readIndex := by
      have hpc : (d.pc == .serialRead) = false := by simpa using hr
      rw [Device.readIndex, Pc.atByte, hpc, Bool.or_false]
    rw [left_of_ne hr, Device.behind, hindex, hhead, hread, toNat_sub_eq, hnat, hnat]
    omega

/-- **Whatever was lost, what is left is the end of what was received.** -/
theorem RingAt.rebase (h : RingAt d w t) :
    d.left ≤ w.length ∧ RingAt d w (w.length - d.left) := by
  have hmod := h.left_mod
  have hle := h.le
  have hbehind : d.behind < 256 := UInt8.toNat_lt _
  have hleft : d.left ≤ w.length ∧ (d.pc = .serialRead → 0 < d.left) := by
    by_cases hr : d.pc = .serialRead
    · have hready := h.ready hr
      rw [left_of_eq hr] at hmod ⊢
      exact ⟨by omega, fun _ => by omega⟩
    · rw [left_of_ne hr] at hmod ⊢
      exact ⟨by omega, fun hpc => absurd hpc hr⟩
  refine ⟨hleft.1, h.head_eq, ?_, Nat.sub_le _ _, h.slots, fun hr => ?_⟩
  · rw [h.read_eq, wraps_ofNat.eq_iff]
    omega
  · have hpos := hleft.2 hr
    omega

/-- The ring holds the bytes at the end of the stream. -/
theorem RingAt.drop_eq_pending (h : RingAt d w t) (hlen : w.length = t + d.left) :
    w.drop t = d.pending := by
  refine List.ext_getElem (by simp [Device.pending, hlen]) fun i hi _ => ?_
  rw [List.length_drop] at hi
  have hleft : d.left ≤ 256 := by
    have hbehind : d.behind < 256 := UInt8.toNat_lt _
    rw [Device.left]
    split <;> omega
  have hslot := h.slots (t + i) (by omega) (by omega)
  rw [List.getElem?_eq_getElem (by omega), Option.some_inj] at hslot
  simp only [Device.pending, List.getElem_drop, List.getElem_map, List.getElem_range]
  rw [hslot, h.read_eq, UInt8.ofNat_add]

/-! ### In order again -/

/-- **In order from a moment on**: `skipped` will never be read, `held` was in the ring at that
moment, and since then the reader has been going through it and through what followed. -/
structure Resumed (skipped held : List UInt8) (d : Device) (log : List Obs) : Prop where
  /-- The ring, with the reader where it is by now. -/
  ring : RingAt d (skipped ++ held ++ received log) (skipped.length + (consumed log).length)
  /-- Nothing skipped, repeated or invented since. -/
  isPrefix : consumed log <+: held ++ received log
  /-- What is left is what has not been read. -/
  left_eq : (consumed log).length + d.left = held.length + (received log).length

/-- Every device a run leads to is in order from there on. -/
theorem resumed_run (es : List Event) :
    ∃ skipped, Resumed skipped (run es).1.pending (run es).1 [] := by
  obtain ⟨t, ht⟩ : ∃ t, RingAt (run es).1 (received (run es).2) t := by
    refine runFrom_invariant (P := fun d log => ∃ t, RingAt d (received log) t)
      ⟨0, ringAt_powerUp⟩ ?_ es
    rintro d log (c | u) ⟨t, ht⟩
    · exact ⟨t, received_receive log d c ▸ ht.receive c⟩
    · rw [Device.step, received_exec]
      by_cases hr : d.pc = .serialRead
      · exact ⟨_, (ht.serialRead u hr).2⟩
      · exact ⟨t, ht.exec u hr⟩
  obtain ⟨hle, hring⟩ := ht.rebase
  have hpending := hring.drop_eq_pending (by omega)
  have hlen : (run es).1.pending.length = (run es).1.left := by simp [Device.pending]
  refine ⟨(received (run es).2).take ((received (run es).2).length - (run es).1.left), ?_, ?_, ?_⟩
  · rw [← hpending, List.take_append_drop, List.length_take_of_le (Nat.sub_le _ _)]
    simpa [received, consumed] using hring
  · exact List.nil_prefix
  · rw [hlen]
    simp [received, consumed]

/-- **A step that leaves room keeps the order.** -/
theorem Resumed.step (h : Resumed skipped held d log) (e : Event) (hroom : d.Room e) :
    Resumed skipped held (d.step e).1 (log ++ (d.step e).2) := by
  have hleft := h.left_eq
  rcases e with c | u
  · change Resumed skipped held (d.receive c).1 (log ++ (d.receive c).2)
    refine ⟨?_, ?_, ?_⟩
    · rw [received_receive, consumed_receive, ← List.append_assoc]
      exact h.ring.receive c
    · rw [received_receive, consumed_receive, ← List.append_assoc]
      exact h.isPrefix.trans (List.prefix_append _ _)
    · rw [received_receive, consumed_receive, left_receive hroom, List.length_append,
        List.length_singleton]
      omega
  · change Resumed skipped held (d.exec u).1 (log ++ (d.exec u).2)
    by_cases hr : d.pc = .serialRead
    · -- the byte asked for has not been overwritten: at most a round is left to read
      have hbehind : d.behind < 256 := UInt8.toNat_lt _
      have hone := left_serialRead hr u
      have hround : (skipped ++ held ++ received log).length ≤
          skipped.length + (consumed log).length + 256 := by
        rw [left_of_eq hr] at hleft
        simp only [List.length_append]
        omega
      obtain ⟨hget, hring⟩ := h.ring.serialRead u hr
      rw [latest_eq_self (by decide) hround] at hget hring
      refine ⟨?_, ?_, ?_⟩
      · rw [received_exec, consumed_serialRead log u hr, List.length_append,
          List.length_singleton, ← Nat.add_assoc]
        exact hring
      · rw [received_exec, consumed_serialRead log u hr]
        refine concat_isPrefix h.isPrefix ?_
        rwa [List.append_assoc, List.getElem?_append_right (by omega),
          Nat.add_sub_cancel_left] at hget
      · rw [received_exec, consumed_serialRead log u hr, List.length_append,
          List.length_singleton]
        omega
    · refine ⟨?_, ?_, ?_⟩
      · rw [received_exec, consumed_exec log u hr]
        exact h.ring.exec u hr
      · rw [received_exec, consumed_exec log u hr]
        exact h.isPrefix
      · rw [received_exec, consumed_exec log u hr, left_exec hr]
        exact hleft

/-! ### In step again -/

/-- The frames the firmware latches as it reads some bytes from power-up. -/
def framesOf (s : List UInt8) : List Latched :=
  (serialTask Parser.powerUp s).2.filterMap Effect.latched?

theorem framesOf_append (s s' : List UInt8) :
    framesOf (s ++ s') =
      framesOf s ++
        (serialTask (serialTask Parser.powerUp s).1 s').2.filterMap Effect.latched? := by
  rw [framesOf, serialTask_append, List.filterMap_append]
  rfl

theorem framesOf_isPrefix {s s' : List UInt8} (h : s <+: s') : framesOf s <+: framesOf s' := by
  obtain ⟨rest, rfl⟩ := h
  rw [framesOf_append]
  exact List.prefix_append _ _

/-- Behind a line end, the frames are those of a stream read from power-up. -/
theorem framesOf_eol (s s' : List UInt8) {eol : UInt8} (heol : isEol eol = true) :
    framesOf (s ++ [eol] ++ s') = framesOf (s ++ [eol]) ++ framesOf s' := by
  have hon : OnLine (serialTask Parser.powerUp (s ++ [eol])).1 [] :=
    onLine_of_getLast? (onLine_newLine Parser.powerUp) (by simpa using heol)
  obtain ⟨hl, hb⟩ := onLine_nil_iff.mp hon
  rw [framesOf_append, serialTask_congr (q := Parser.powerUp) hl hb s', framesOf, framesOf]

/-- **The frames of what has been read so far**, where it goes on with the rest of some line and
with messages: those up to the line end, and then messages. -/
theorem framesOf_resumed {s s' noise : List UInt8} {eol : UInt8} (heol : isEol eol = true)
    {ms : List Message} (h : s' <+: noise ++ eol :: stream ms) :
    framesOf (s ++ s') <+: framesOf (s ++ noise ++ [eol]) ++ ms.map Message.state := by
  have hsplit : noise ++ eol :: stream ms = noise ++ [eol] ++ stream ms := by simp
  rw [hsplit] at h
  rcases List.prefix_or_prefix_of_prefix h (List.prefix_append _ _) with hbefore | hbehind
  · -- the line end has not been read, or nothing behind it has
    have hframes : framesOf (s ++ s') <+: framesOf (s ++ (noise ++ [eol])) :=
      framesOf_isPrefix ((List.prefix_append_right_inj s).mpr hbefore)
    rw [← List.append_assoc] at hframes
    exact hframes.trans (List.prefix_append _ _)
  · obtain ⟨rest, rfl⟩ := hbehind
    have hrest : rest <+: stream ms := (List.prefix_append_right_inj _).mp h
    have hread : s ++ (noise ++ [eol] ++ rest) = s ++ noise ++ [eol] ++ rest := by simp
    rw [hread, framesOf_eol (s ++ noise) rest heol]
    exact (List.prefix_append_right_inj _).mpr (latched_serialTask_of_isPrefix hrest)

/-- A stream of messages, read whole. -/
theorem framesOf_stream (ms : List Message) : framesOf (stream ms) = ms.map Message.state := by
  have hnone : ∀ c ∈ ([] : List UInt8), isEol c = false := by simp
  have hall := (serialTask_stream (onLine_newLine Parser.powerUp) ms hnone (by simp)).2
  rw [List.append_nil] at hall
  exact hall

/-- The same, once it has all been read. -/
theorem framesOf_resumed_all (s noise : List UInt8) {eol : UInt8} (heol : isEol eol = true)
    (ms : List Message) :
    framesOf (s ++ (noise ++ eol :: stream ms)) =
      framesOf (s ++ noise ++ [eol]) ++ ms.map Message.state := by
  have hsplit : s ++ (noise ++ eol :: stream ms) = s ++ noise ++ [eol] ++ stream ms := by simp
  rw [hsplit, framesOf_eol (s ++ noise) (stream ms) heol, framesOf_stream]

/-- **The device recovers.** Let anything at all have happened, and let bytes from now on come only
where the ring has room for them. If what is in the ring and what comes then is the rest of some
line and, behind its end, messages, then the frames latched are those of what was read before and
of that line, and from there on the messages, in order, none lost or altered; all of
them once the ring is empty. -/
theorem run_recovers {es es' : List Event} {noise : List UInt8} {eol : UInt8} {ms : List Message}
    (heol : isEol eol = true)
    (hroom : Guarded Device.step (fun d _ e => d.Room e) (run es).1 es')
    (hin : (run es).1.pending ++ es'.filterMap Event.byte? <+: noise ++ eol :: stream ms) :
    let before := framesOf (consumed (run es).2 ++ noise ++ [eol])
    latches (run (es ++ es')).2 <+: before ++ ms.map Message.state ∧
      ((run es).1.pending ++ es'.filterMap Event.byte? = noise ++ eol :: stream ms →
        (run (es ++ es')).1.pc = .serialWhile →
        (run (es ++ es')).1.bufferTail = (run (es ++ es')).1.bufferHead →
        latches (run (es ++ es')).2 = before ++ ms.map Message.state) := by
  intro before
  have hrun : run (es ++ es') = ((runFrom Device.step (run es).1 es').1,
      (run es).2 ++ (runFrom Device.step (run es).1 es').2) := runFrom_append _ _ es es'
  have hframes : foretold (run (es ++ es')).1 (run (es ++ es')).2 =
      framesOf (consumed (run es).2 ++ consumed (runFrom Device.step (run es).1 es').2) := by
    rw [(run_faithful (es ++ es')).settled.foretold_eq, hrun, consumed_append]
    rfl
  have hbytes : received (runFrom Device.step (run es).1 es').2 = es'.filterMap Event.byte? := by
    have hall := received_run (es ++ es')
    rw [hrun, received_append, received_run, List.filterMap_append] at hall
    exact List.append_cancel_left hall
  obtain ⟨skipped, hnow⟩ := resumed_run es
  have hthen := runFrom_invariant_of_guard (P := Resumed skipped (run es).1.pending) hnow
    (fun d log e h he => h.step e he) hroom
  have hread := hthen.isPrefix
  rw [hbytes] at hread
  refine ⟨?_, fun hexact hpc hempty => ?_⟩
  · have hlogged : latches (run (es ++ es')).2 <+:
        foretold (run (es ++ es')).1 (run (es ++ es')).2 := List.prefix_append _ _
    rw [hframes] at hlogged
    exact hlogged.trans (framesOf_resumed heol (hread.trans hin))
  · -- nothing is left in the ring, so everything has been read
    have hstop : (run (es ++ es')).1.left = 0 := by
      rw [left_of_ne (by simp [hpc]), Device.behind, hpc, if_neg (by decide), hempty,
        UInt8.sub_self]
      rfl
    have hlen := hthen.left_eq
    rw [hrun] at hstop
    rw [hstop, Nat.add_zero, hbytes, ← List.length_append] at hlen
    have hlatches : latches (run (es ++ es')).2 =
        foretold (run (es ++ es')).1 (run (es ++ es')).2 := by
      rw [foretold, settle_of_not_inBody (by rw [hpc]; rfl), List.filterMap_nil, List.append_nil]
    rw [hlatches, hframes, hread.eq_of_length hlen, hexact]
    exact framesOf_resumed_all _ _ heol ms

/-- Lapped after the seventh digit of a line: `263` bytes are unread, and the ring holds the last
seven of them. The line goes on with the end of another one and is dropped; the message
after it is latched. -/
theorem run_recovers_lapped :
    ∃ es es' : List Event, unread (run es).2 = 263 ∧
      (run es).1.pending = List.replicate 6 0x66 ++ [lf] ∧
      latches (run (es ++ es')).2 =
        framesOf (consumed (run es).2 ++ List.replicate 6 0x66 ++ [lf]) ++
          [Message.repeated 0x66 (by decide)].map Message.state := by
  let w := List.replicate 7 0x30 ++ List.replicate 256 0x30 ++ List.replicate 6 0x66 ++ [lf]
  let m := Message.repeated 0x66 (by decide)
  let es := (w.take 7).map Event.rx ++ List.replicate 60 (Event.main Usb.quiet) ++
    (w.drop 7).map Event.rx
  let es' := List.replicate 55 (Event.main Usb.quiet) ++ m.bytes.map Event.rx ++
    List.replicate 125 (Event.main Usb.quiet)
  have hroom : Guarded Device.step (fun d _ e => d.Room e) (run es).1 es' :=
    guarded_of_guardedFrom (by decide +kernel)
  have hin : (run es).1.pending ++ es'.filterMap Event.byte? =
      List.replicate 6 0x66 ++ lf :: stream [m] := by decide +kernel
  have hrec := run_recovers rfl hroom ⟨[], (List.append_nil _).trans hin⟩
  exact ⟨es, es', by decide +kernel, by decide +kernel,
    hrec.2 hin (by decide +kernel) (by decide +kernel)⟩

end Firmware

end SwitchController
