import SwitchController.Firmware.Message
import SwitchController.Firmware.Overrun

/-!
# The two ends of the line

The main loop of `bridge.py` sends one message, reads the serial line until it gets a `U`,
and sends the next one; the firmware prints a `U` after each report `HID_Task` sends. Both
directions of the line keep the order of their bytes and nothing else is known of them: a
byte may be under way for as long as it likes. `SwitchController.Link.step` is the whole
system, with the firmware statement by statement.

Is a state that was sent always reported before the next one replaces it? The `U` is meant
as a request for another state, but it is printed per report, not per message. One that
was printed before the message in question was latched – while the message was under way,
or before the bridge had even started – lets the bridge send the next message at once, and
both may be latched by one call of `Serial_Task` (`SwitchController.link_skips`). Where no
such `U` is accepted the answer is yes: `SwitchController.link_carried`.

To say which `U` is stale each byte the firmware prints carries a *stamp*, the number of
frames latched when it was printed. Nothing in the system reads it.
-/

namespace SwitchController

open EventMachine Firmware

/-! ### The system -/

/-- **The bridge, the line and the firmware.** -/
structure Link where
  /-- The firmware. -/
  device : Device
  /-- The messages the bridge has sent. -/
  sent : ℕ
  /-- The bridge is waiting for a `U`. -/
  waiting : Bool
  /-- The bytes under way to the firmware. -/
  up : List UInt8
  /-- The bytes under way to the bridge, stamped. -/
  down : List (UInt8 × ℕ)
  /-- The frames latched, for the stamps. -/
  frames : ℕ

/-- The firmware at power-up, and the bridge about to send its first message. -/
def Link.start : Link := ⟨Device.powerUp, 0, false, [], [], 0⟩

/-- What can happen next. -/
inductive LinkEvent where
  /-- The bridge sends its next message. -/
  | send
  /-- A byte reaches the firmware. -/
  | deliver
  /-- The bridge reads a byte. -/
  | hear
  /-- The main loop of the firmware executes a statement. -/
  | main (u : Usb)

/-- The firmware takes a step: what it prints goes on the line. -/
def Link.deviceStep (x : Link) (e : Event) : Link × List Obs :=
  ({ x with
      device := (x.device.step e).1
      down := x.down ++ (printed (x.device.step e).2).map (·, x.frames)
      frames := x.frames + (latches (x.device.step e).2).length }, (x.device.step e).2)

/-- **One step of the system**, for the messages `ms`. An event that is not possible leaves
everything as it is. -/
def Link.step (ms : List Message) (x : Link) : LinkEvent → Link × List Obs
  | .send => match x.waiting, ms[x.sent]? with
      | false, some m =>
          ({ x with sent := x.sent + 1, waiting := true, up := x.up ++ m.bytes }, [])
      | _, _ => (x, [])
  | .deliver => match x.up with
      | [] => (x, [])
      | c :: up => { x with up := up }.deviceStep (.rx c)
  | .hear => match x.waiting, x.down with
      | true, (c, _) :: down => ({ x with down := down, waiting := c != chU }, [])
      | _, _ => (x, [])
  | .main u => x.deviceStep (.main u)

/-- The ring is not overrun: no byte reaches the firmware while the ring is full. -/
def Link.Room (x : Link) : LinkEvent → Prop
  | .deliver => ¬x.device.full
  | _ => True

/-- **No stale `U` is accepted**: the one the bridge goes on with was printed when the message
sent last had been latched. -/
def Link.Fresh (x : Link) : LinkEvent → Prop
  | .hear => x.waiting = true → ∀ p ∈ x.down.head?, p.1 = chU → x.sent ≤ p.2
  | _ => True

instance (x : Link) : ∀ e, Decidable (x.Room e)
  | .deliver => inferInstanceAs (Decidable (¬_))
  | .send | .hear | .main _ => inferInstanceAs (Decidable True)

instance (x : Link) : ∀ e, Decidable (x.Fresh e)
  | .hear => inferInstanceAs (Decidable (_ → ∀ p ∈ x.down.head?, _))
  | .send | .deliver | .main _ => inferInstanceAs (Decidable True)

/-! ### What it is for -/

/-- **Frame `k` was reported**: `HID_Task` sent a report when `k` frames had been latched, and
it holds the last of them. -/
def Shown (k : ℕ) (log : List Obs) : Prop :=
  ∃ pre r post, log = pre ++ .transmitted .hidTask r :: post ∧ (latches pre).length = k ∧
    r.state = lastLatched pre

/-- **A frame is replaced only once it has been reported.** -/
def Carried (pre : List Obs) (o : Obs) : Prop :=
  ∀ g, o = .effect (.latch g) → latches pre ≠ [] → Shown (latches pre).length pre

variable {k : ℕ} {log : List Obs}

theorem Shown.append (h : Shown k log) (log' : List Obs) : Shown k (log ++ log') := by
  obtain ⟨pre, r, post, rfl, hk, hr⟩ := h
  exact ⟨pre, r, post ++ log', by simp, hk, hr⟩

theorem Shown.le (h : Shown k log) : k ≤ (latches log).length := by
  obtain ⟨pre, r, post, rfl, rfl, -⟩ := h
  rw [latches_append, List.length_append]
  exact Nat.le_add_right _ _

/-! ### What the firmware shows -/

section Device

variable {d : Device} {u : Usb}

/-- The interrupt prints nothing but `X`. -/
theorem printed_receive (c : UInt8) : ∀ ch ∈ printed (d.receive c).2, ch = chX := by
  intro ch hch
  rw [Device.receive] at hch
  rcases hover : d.overrun with - | -
  · simp [printed, hover] at hch
  · simpa [printed, hover] using hch

/-- The main loop prints nothing but the `U` of `HID_Task`. -/
theorem printed_exec : ∀ ch ∈ printed (d.exec u).2, d.pc = .printU := by
  intro ch hch
  obtain ⟨o, ho, hprinted⟩ := List.mem_filterMap.mp hch
  cases emits_of_mem_exec ho with
  | printed hpc => exact hpc
  | _ => exact absurd hprinted (by simp)

/-- That `U` comes right after the report. -/
theorem pc_exec_eq_printU (h : (d.exec u).1.pc = .printU) : d.pc = .write .hidTask := by
  obtain ⟨buf, hd, tl, p, pc, c, v, r⟩ := d
  cases pc with
  | write via =>
    cases via with
    | hidTask => rfl
    | controlRequest => exact absurd h (by simp [Device.exec])
  | fill via f => cases f <;> exact absurd h (by simp [Device.exec, Pc.afterFill])
  | latch f => cases f <;> exact absurd h (by simp [Device.exec, Pc.afterLatch])
  | hidIn | usbTask =>
    simp only [Device.exec] at h
    split at h <;> exact absurd h (by simp)
  | hidTask | serialWhile | serialTest | serialIf | testVal =>
    simp only [Device.exec] at h
    split at h <;> exact absurd h (by simp)
  | _ => exact absurd h (by simp [Device.exec])

/-- A frame is latched by the last of the six assignments, and nothing else is seen then. -/
theorem latch_mem_exec {g : Latched} (h : .effect (.latch g) ∈ (d.exec u).2) :
    d.pc = .latch .ry ∧ (d.exec u).2 = [.effect (.latch g)] := by
  rcases exec_obs d u with hnil | ⟨o, hone, hemits⟩
  · exact absurd (hnil ▸ h) List.not_mem_nil
  · rw [hone] at h
    obtain rfl := List.mem_singleton.mp h
    cases hemits with
    | latch hpc => exact ⟨hpc, hone⟩

theorem latches_receive (c : UInt8) : latches (d.receive c).2 = [] := by
  rw [latches, effects_receive, List.filterMap_nil]

end Device

/-! ### The invariant -/

variable {ms : List Message} {x : Link}

/-- **The invariant of the system**, as long as nothing is overrun and no stale `U` is
accepted. -/
structure Paced (ms : List Message) (x : Link) (log : List Obs) : Prop where
  /-- The firmware does what it does. -/
  faithful : Faithful x.device log
  /-- It reads in order, -/
  ord : InOrder x.device log
  /-- and keeps up. -/
  room : unread log ≤ 255
  /-- What was received and what is under way is what was sent. -/
  wire : received log ++ x.up = stream (ms.take x.sent)
  /-- The stamps count frames. -/
  frames : x.frames = (latches log).length
  /-- `HID_Task` is about to print the `U` of a report. -/
  printing : x.device.pc = .printU → Shown (latches log).length log
  /-- A `U` under way was printed for a report of the frame it is stamped with. -/
  stamps : ∀ p ∈ x.down, p.1 = chU → Shown p.2 log
  /-- All messages but the last one sent have been reported, -/
  answered : ∀ k, 1 ≤ k → k < x.sent → Shown k log
  /-- and the last one, once the bridge no longer waits. -/
  ready : x.waiting = false → 1 ≤ x.sent → Shown x.sent log
  /-- No frame was replaced unreported. -/
  carried : Everywhere Carried log

theorem paced_start (ms : List Message) : Paced ms Link.start [] where
  faithful := faithful_powerUp
  ord := inOrder_powerUp
  room := by decide
  wire := rfl
  frames := rfl
  printing := fun h => absurd h (by simp [Link.start, Device.powerUp])
  stamps := by simp [Link.start]
  answered := fun k _ hk => absurd hk (Nat.not_lt_zero k)
  ready := fun _ h => absurd h (by simp [Link.start])
  carried := everywhere_nil _

/-- The frames latched are the messages in order, and the firmware is not ahead of the
bridge. -/
theorem Paced.foretold_isPrefix (h : Paced ms x log) :
    foretold x.device log <+: (ms.take x.sent).map Message.state := by
  rw [h.faithful.settled.foretold_eq]
  refine latched_serialTask_of_isPrefix (h.ord.isPrefix.trans ?_)
  exact ⟨x.up, h.wire⟩

theorem Paced.length_foretold_le (h : Paced ms x log) :
    (foretold x.device log).length ≤ x.sent := by
  have hle := h.foretold_isPrefix.length_le
  rw [List.length_map, List.length_take] at hle
  omega

theorem Paced.length_latches_le (h : Paced ms x log) : (latches log).length ≤ x.sent :=
  (List.prefix_append _ _).length_le.trans h.length_foretold_le

/-- **The firmware takes a step**: what is new in the log is a report, the `U` after it, or a
frame whose predecessor has been reported. -/
theorem Paced.deviceStep (h : Paced ms x log) (e : Event) (up : List UInt8)
    (hwire : received (log ++ (x.device.step e).2) ++ up = stream (ms.take x.sent))
    (hroom : unread (log ++ (x.device.step e).2) ≤ 255)
    (hprint : (x.device.step e).1.pc = .printU →
      Shown (latches (log ++ (x.device.step e).2)).length (log ++ (x.device.step e).2))
    (hdown : ∀ ch ∈ printed (x.device.step e).2, ch = chU → Shown x.frames log)
    (hlatch : ∀ g, .effect (.latch g) ∈ (x.device.step e).2 →
      (x.device.step e).2 = [.effect (.latch g)] ∧
        (latches log ≠ [] → Shown (latches log).length log)) :
    Paced ms ({ x with up := up }.deviceStep e).1
      (log ++ ({ x with up := up }.deviceStep e).2) := by
  have hunread := h.room
  rw [unread] at hunread
  refine ⟨h.faithful.step e, h.ord.step (fun _ => by omega) e, hroom, hwire, ?_, hprint, ?_, ?_,
    ?_, everywhere_append.mpr ⟨h.carried, ?_⟩⟩
  · rw [latches_append, List.length_append, ← h.frames]
    rfl
  · intro p hp hU
    rcases List.mem_append.mp hp with hp | hp
    · exact (h.stamps p hp hU).append _
    · obtain ⟨ch, hch, rfl⟩ := List.mem_map.mp hp
      exact (hdown ch hch hU).append _
  · exact fun k h1 hk => (h.answered k h1 hk).append _
  · exact fun hw h1 => (h.ready hw h1).append _
  · intro pre o post heq g hg hne
    subst hg
    obtain ⟨hone, hshown⟩ := hlatch g (by
      change (x.device.step e).2 = _ at heq
      rw [heq]
      exact List.mem_append_right _ List.mem_cons_self)
    -- the frame is all there is to see, so nothing of this step stands before it
    have hpre : pre = [] := by
      change (x.device.step e).2 = _ at heq
      rw [hone] at heq
      rcases pre with - | ⟨a, pre⟩
      · rfl
      · exact absurd (congrArg List.length heq) (by simp)
    subst hpre
    rw [List.append_nil] at hne ⊢
    exact hshown hne

theorem Paced.deliver (h : Paced ms x log) {c : UInt8} {up : List UInt8} (hup : x.up = c :: up)
    (hfull : ¬x.device.full) :
    Paced ms ({ x with up := up }.deviceStep (.rx c)).1
      (log ++ ({ x with up := up }.deviceStep (.rx c)).2) := by
  have hle := h.ord.ring.le
  have hlatches : latches (log ++ (x.device.receive c).2) = latches log := by
    rw [latches_append, latches_receive, List.append_nil]
  refine h.deviceStep (.rx c) up ?_ ?_ ?_ ?_ ?_
  · change received (log ++ (x.device.receive c).2) ++ up = _
    rw [received_receive, List.append_assoc, List.singleton_append, ← hup]
    exact h.wire
  · -- a ring that is not full has room for one byte more
    have hroom := h.room
    rw [h.ord.ring.full_iff] at hfull
    change unread (log ++ (x.device.receive c).2) ≤ 255
    rw [unread_receive hle, unread]
    rw [unread] at hroom
    omega
  · intro hpc
    change Shown (latches (log ++ (x.device.receive c).2)).length (log ++ (x.device.receive c).2)
    rw [hlatches]
    exact (h.printing hpc).append _
  · intro ch hch hU
    have hX := printed_receive c ch hch
    exact absurd (hU.symm.trans hX) (by decide)
  · intro g hg
    have hnone : .latch g ∈ effects (x.device.receive c).2 :=
      List.mem_filterMap.mpr ⟨_, hg, rfl⟩
    rw [effects_receive] at hnone
    exact absurd hnone List.not_mem_nil

theorem Paced.main (h : Paced ms x log) (u : Usb) :
    Paced ms (x.deviceStep (.main u)).1 (log ++ (x.deviceStep (.main u)).2) := by
  refine h.deviceStep (.main u) x.up ?_ ?_ ?_ ?_ ?_
  · change received (log ++ (x.device.exec u).2) ++ x.up = _
    rw [received_exec]
    exact h.wire
  · have hroom := h.room
    change unread (log ++ (x.device.exec u).2) ≤ 255
    by_cases hr : x.device.pc = .serialRead
    · rw [unread_serialRead log u hr]
      omega
    · rw [unread_exec log u hr]
      exact hroom
  · intro hpc
    have hwrite := pc_exec_eq_printU (d := x.device) (u := u) hpc
    have hobs : (x.device.exec u).2 = [.transmitted .hidTask x.device.report] := by
      rw [Device.exec, hwrite]
    have hstate : x.device.report.state = lastLatched log := by
      rw [h.faithful.filling.write .hidTask hwrite]
      exact h.faithful.settled.latched_eq (by rw [hwrite]; rfl)
    change Shown (latches (log ++ (x.device.exec u).2)).length (log ++ (x.device.exec u).2)
    rw [hobs]
    exact ⟨log, x.device.report, [], rfl, by simp [latches, effects], hstate⟩
  · intro ch hch _
    rw [h.frames]
    exact h.printing (printed_exec ch hch)
  · intro g hg
    obtain ⟨hpc, hone⟩ := latch_mem_exec hg
    refine ⟨hone, fun hne => h.answered _ ?_ ?_⟩
    · exact List.length_pos_of_ne_nil hne
    · -- the frame being latched is a message that was sent
      have hle := h.length_foretold_le
      rw [length_foretold_of_latch hpc] at hle
      omega

/-- The bridge sends a message: it no longer waited, so the one before has been reported. -/
theorem Paced.send (h : Paced ms x log) (hw : x.waiting = false) {m : Message}
    (hm : ms[x.sent]? = some m) :
    Paced ms { x with sent := x.sent + 1, waiting := true, up := x.up ++ m.bytes } log := by
  refine ⟨h.faithful, h.ord, h.room, ?_, h.frames, h.printing, h.stamps, ?_, ?_, h.carried⟩
  · have hstream : stream (ms.take (x.sent + 1)) = stream (ms.take x.sent) ++ m.bytes := by
      rw [List.take_add_one, hm, stream, List.flatMap_append, stream]
      simp
    rw [hstream, ← h.wire, List.append_assoc]
  · intro k h1 hk
    rcases Nat.lt_succ_iff_lt_or_eq.mp hk with hlt | rfl
    · exact h.answered k h1 hlt
    · exact h.ready hw h1
  · exact fun hcon => absurd hcon (by simp)

/-- **The bridge reads a byte**: a fresh `U` was printed for the message sent last. -/
theorem Paced.hear (h : Paced ms x log) {p : UInt8 × ℕ} {down : List (UInt8 × ℕ)}
    (hdown : x.down = p :: down) (hfresh : p.1 = chU → x.sent ≤ p.2) :
    Paced ms { x with down := down, waiting := p.1 != chU } log := by
  have hp : p ∈ x.down := by rw [hdown]; exact List.mem_cons_self
  refine ⟨h.faithful, h.ord, h.room, h.wire, h.frames, h.printing, ?_, h.answered, ?_, h.carried⟩
  · intro q hq hU
    refine h.stamps q ?_ hU
    rw [hdown]
    exact List.mem_cons_of_mem p hq
  · intro hw _
    have hU : p.1 = chU := by simpa using hw
    have hshown := h.stamps p hp hU
    -- the stamp counts frames, of which there are no more than were sent
    have hle := hshown.le.trans h.length_latches_le
    have heq : p.2 = x.sent := le_antisymm hle (hfresh hU)
    change Shown x.sent log
    rw [← heq]
    exact hshown

theorem Paced.step (h : Paced ms x log) (e : LinkEvent) (hroom : x.Room e) (hfresh : x.Fresh e) :
    Paced ms (x.step ms e).1 (log ++ (x.step ms e).2) := by
  rcases e with - | - | - | u
  · rw [Link.step]
    split
    · rw [List.append_nil]
      exact h.send ‹_› ‹_›
    · rw [List.append_nil]
      exact h
  · rw [Link.step]
    split
    · rw [List.append_nil]
      exact h
    · exact h.deliver ‹_› hroom
  · rw [Link.step]
    split
    · rename_i c n down hw hdown
      rw [List.append_nil]
      exact h.hear hdown (hfresh hw (c, n) (by rw [hdown]; rfl))
    · rw [List.append_nil]
      exact h
  · exact h.main u

/-- A run of the system. -/
def linkRun (ms : List Message) (es : List LinkEvent) : Link × List Obs :=
  runFrom (Link.step ms) Link.start es

/-- **Every state is reported before it is replaced, if no stale `U` is accepted.** From
power-up and the start of the bridge, in every interleaving in which the ring is not
overrun and each `U` the bridge goes on with was printed after the message before it had
been latched: the frames latched are the messages in order, and none is replaced before
`HID_Task` has sent a report that holds it. -/
theorem link_carried {ms : List Message} {es : List LinkEvent}
    (hG : Guarded (Link.step ms) (fun x _ e => x.Room e ∧ x.Fresh e) Link.start es) :
    latches (linkRun ms es).2 <+: ms.map Message.state ∧ Everywhere Carried (linkRun ms es).2 := by
  have h : Paced ms (linkRun ms es).1 (linkRun ms es).2 :=
    runFrom_invariant_of_guard (P := Paced ms) (paced_start ms)
      (fun _ _ e h hg => h.step e hg.1 hg.2) hG
  refine ⟨(List.prefix_append _ _).trans (h.foretold_isPrefix.trans ?_), h.carried⟩
  exact (List.take_prefix _ ms).map Message.state

/-- Two messages: ones, and twos. -/
def onesAndTwos : List Message :=
  [Message.repeated 0x31 (by decide), Message.repeated 0x32 (by decide)]

/-- The bridge waits for the report of the first message, and sends the second. -/
theorem link_carried_two :
    ∃ es : List LinkEvent, latches (linkRun onesAndTwos es).2 = onesAndTwos.map Message.state ∧
      Everywhere Carried (linkRun onesAndTwos es).2 := by
  let es := [LinkEvent.send] ++ List.replicate 15 .deliver ++
    List.replicate 130 (.main Usb.quiet) ++ List.replicate 11 (.main Usb.poll) ++
    [.hear, .send] ++ List.replicate 15 .deliver ++ List.replicate 123 (.main Usb.quiet)
  have hG : Guarded (Link.step onesAndTwos) (fun x _ e => x.Room e ∧ x.Fresh e) Link.start es :=
    guarded_of_guardedFrom (G := fun (x : Link) e => x.Room e ∧ x.Fresh e) (by decide +kernel)
  exact ⟨es, by decide +kernel, (link_carried hG).2⟩

/-- A report was sent before the bridge started, and its `U` is still on the line. The bridge
takes it for the answer to the first message and sends the second; both are latched by one
call of `Serial_Task`, and the only report ever sent is the one from before. -/
theorem link_skips :
    ∃ es : List LinkEvent,
      Guarded (Link.step onesAndTwos) (fun x _ e => x.Room e) Link.start es ∧
      latches (linkRun onesAndTwos es).2 = onesAndTwos.map Message.state ∧
      transmissions (linkRun onesAndTwos es).2 = [(.hidTask, ⟨0, 0, 0, 0, 0, 0, 0⟩)] ∧
      ∀ m ∈ onesAndTwos, m.state ≠ Latched.powerUp := by
  let es := List.replicate 11 (LinkEvent.main Usb.poll) ++ [.send, .hear, .send] ++
    List.replicate 30 .deliver ++ List.replicate 248 (.main Usb.quiet)
  have hG : Guarded (Link.step onesAndTwos) (fun x _ e => x.Room e) Link.start es :=
    guarded_of_guardedFrom (G := fun (x : Link) e => x.Room e) (by decide +kernel)
  exact ⟨es, hG, by decide +kernel, by decide +kernel, by decide⟩

end SwitchController
