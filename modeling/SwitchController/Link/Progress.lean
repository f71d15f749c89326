import SwitchController.Firmware.Delivery
import SwitchController.Firmware.Recovery
import SwitchController.Link

/-!
# Nothing is stuck on the line

The bridge waits for a `U` before each message, and the firmware prints one after each report. Three
things are asked of this handshake that do not depend on which `U` answers which message.

That it is a *count*: every `U` printed is on the line, or has let the bridge send one message more.
The messages sent never get ahead of the reports by more than one
(`SwitchController.link_flow`). That it *settles*: with the bytes coming no faster than the
firmware takes them, once the line is quiet the firmware has latched every message sent, and the
next report shows the last of them, whatever stale `U` was accepted on the way
(`SwitchController.link_settles`). And that it *goes on*: from any state of the two ends, as
long as the console polls and the bridge reads its line, the next message is sent
(`SwitchController.link_progress`).

What the firmware does on the line it does alone, on the bytes as they reach it
(`SwitchController.device_runFrom`), so that what is known of its runs is known here.
-/

namespace SwitchController

open EventMachine Firmware

variable {ms : List Message} {x : Link} {log : List Obs}

/-! ### The firmware on the line -/

/-- What the firmware sees of a step of the system. -/
def Link.deviceEvent (x : Link) : LinkEvent → Option Event
  | .deliver => x.up.head?.map .rx
  | .main u => some (.main u)
  | .send | .hear => none

/-- What the firmware sees of a run of the system. -/
def deviceEvents (ms : List Message) : Link → List LinkEvent → List Event
  | _, [] => []
  | x, e :: es => (x.deviceEvent e).toList ++ deviceEvents ms (x.step ms e).1 es

theorem device_step (ms : List Message) (x : Link) (e : LinkEvent) :
    runFrom Device.step x.device (x.deviceEvent e).toList =
      ((x.step ms e).1.device, (x.step ms e).2) := by
  cases e with
  | send =>
    rw [Link.step]
    split <;> rfl
  | hear =>
    rw [Link.step]
    split <;> rfl
  | deliver =>
    rw [Link.step]
    split
    · rename_i hup
      rw [Link.deviceEvent, hup]
      rfl
    · rename_i c up hup
      rw [Link.deviceEvent, hup]
      simp [runFrom_cons, Link.deviceStep]
  | main u => simp [runFrom_cons, Link.deviceEvent, Link.step, Link.deviceStep]

/-- **On the line, the firmware runs as it does alone**, and what is seen of the system is what is
seen of the firmware. -/
theorem device_runFrom (ms : List Message) (x : Link) (es : List LinkEvent) :
    runFrom Device.step x.device (deviceEvents ms x es) =
      ((runFrom (Link.step ms) x es).1.device, (runFrom (Link.step ms) x es).2) := by
  induction es generalizing x with
  | nil => rfl
  | cons e es ih => rw [deviceEvents, runFrom_append, device_step ms, ih, runFrom_cons]

/-- What was received and what is under way is what was sent. -/
def Wired (ms : List Message) (x : Link) (log : List Obs) : Prop :=
  received log ++ x.up = stream (ms.take x.sent)

theorem Wired.step (h : Wired ms x log) (e : LinkEvent) :
    Wired ms (x.step ms e).1 (log ++ (x.step ms e).2) := by
  rw [Wired] at h ⊢
  cases e with
  | send =>
    rw [Link.step]
    split
    · rename_i m _ hm
      have hstream : stream (ms.take (x.sent + 1)) = stream (ms.take x.sent) ++ m.bytes := by
        rw [List.take_add_one, hm, stream, List.flatMap_append, stream]
        simp
      rw [List.append_nil, hstream, ← h, List.append_assoc]
    · rw [List.append_nil]
      exact h
  | hear =>
    rw [Link.step]
    split <;> rw [List.append_nil] <;> exact h
  | deliver =>
    rw [Link.step]
    split
    · rw [List.append_nil]
      exact h
    · rename_i c up hup
      change received (log ++ (x.device.receive c).2) ++ up = _
      rw [received_receive, List.append_assoc, List.singleton_append, ← hup]
      exact h
  | main u =>
    change received (log ++ (x.device.exec u).2) ++ x.up = _
    rw [received_exec]
    exact h

theorem wired_linkRun (ms : List Message) (es : List LinkEvent) :
    Wired ms (linkRun ms es).1 (linkRun ms es).2 :=
  runFrom_invariant (P := Wired ms) (by simp [Wired, Link.start, stream])
    (fun _ _ e h => h.step e) es

/-! ### Every `U` is one message -/

/-- The messages the bridge may have sent before it has to read again. -/
def Link.credit (x : Link) : ℕ := x.sent + if x.waiting then 0 else 1

/-- The `U`s among some characters. -/
def countU (chs : List UInt8) : ℕ := chs.count chU

/-- The reports of `HID_Task`. -/
def polls (log : List Obs) : ℕ := (transmissions log).countP (·.1 = .hidTask)

/-- The `U` of a report that was sent and is not yet printed. -/
def Firmware.Device.owed (d : Device) : ℕ := if d.pc = .printU then 1 else 0

/-- **Every report of `HID_Task` is accounted for**: its `U` is still owed, is on the line, or has
been taken for one message. -/
def Balanced (x : Link) (log : List Obs) : Prop :=
  x.credit + countU (x.down.map Prod.fst) + x.device.owed = 1 + polls log

theorem polls_append (log log' : List Obs) : polls (log ++ log') = polls log + polls log' := by
  simp [polls, transmissions]

theorem countU_append (chs chs' : List UInt8) :
    countU (chs ++ chs') = countU chs + countU chs' := List.count_append

/-- The interrupt prints no `U` and sends no report. -/
theorem owed_receive (d : Device) (c : UInt8) :
    countU (printed (d.receive c).2) = 0 ∧ polls (d.receive c).2 = 0 := by
  rw [Device.receive]
  cases d.overrun <;> exact ⟨rfl, rfl⟩

/-- A statement sends a report and owes its `U`, or prints it, or does neither. -/
theorem owed_exec (d : Device) (u : Usb) :
    countU (printed (d.exec u).2) + (d.exec u).1.owed = d.owed + polls (d.exec u).2 := by
  obtain ⟨buf, hd, tl, p, pc, c, v, r⟩ := d
  cases pc with
  | hidIn | usbTask =>
    simp only [Device.exec]
    split <;> rfl
  | fill via f => cases f <;> rfl
  | write via => cases via <;> rfl
  | latch f => cases f <;> rfl
  | hidTask | serialWhile | serialTest | serialIf | testVal =>
    simp only [Device.exec, Device.owed]
    split <;> rfl
  | _ => rfl

theorem Balanced.deviceStep (h : Balanced x log) (e : Event) (up : List UInt8) :
    Balanced ({ x with up := up }.deviceStep e).1
      (log ++ ({ x with up := up }.deviceStep e).2) := by
  have hstep : countU (printed (x.device.step e).2) + (x.device.step e).1.owed =
      x.device.owed + polls (x.device.step e).2 := by
    cases e with
    | rx c =>
      obtain ⟨hU, hpolls⟩ := owed_receive x.device c
      change countU (printed (x.device.receive c).2) + x.device.owed =
        x.device.owed + polls (x.device.receive c).2
      rw [hU, hpolls]
      omega
    | main u => exact owed_exec x.device u
  have hdown : (x.down ++ (printed (x.device.step e).2).map (·, x.frames)).map Prod.fst =
      x.down.map Prod.fst ++ printed (x.device.step e).2 := by
    simp [Function.comp_def]
  rw [Balanced] at h ⊢
  change x.credit + countU ((x.down ++ (printed (x.device.step e).2).map (·, x.frames)).map _) +
    (x.device.step e).1.owed = 1 + polls (log ++ (x.device.step e).2)
  rw [hdown, countU_append, polls_append]
  omega

/-- **The bridge and the line keep the balance.** -/
theorem Balanced.step (h : Balanced x log) (e : LinkEvent) :
    Balanced (x.step ms e).1 (log ++ (x.step ms e).2) := by
  cases e with
  | send =>
    rw [Link.step]
    split
    · rename_i hw _
      rw [List.append_nil, Balanced, ← h]
      simp [Link.credit, hw]
    · rw [List.append_nil]
      exact h
  | hear =>
    rw [Link.step]
    split
    · rename_i c n down hw hdown
      rw [List.append_nil, Balanced, ← h]
      by_cases hc : c = chU
      · simp [Link.credit, hw, hdown, hc, countU]
        omega
      · simp [Link.credit, hw, hdown, hc, countU]
    · rw [List.append_nil]
      exact h
  | deliver =>
    rw [Link.step]
    split
    · rw [List.append_nil]
      exact h
    · exact h.deviceStep _ _
  | main u => exact h.deviceStep (.main u) x.up

/-- The main loop of the firmware goes on. -/
def LinkEvent.isMain : LinkEvent → Bool
  | .main _ => true
  | _ => false

/-- A byte reaches the firmware. -/
def LinkEvent.isDeliver : LinkEvent → Bool
  | .deliver => true
  | _ => false

/-- The statements the firmware executes are those of the system, and it gets no more bytes than are
delivered. -/
theorem countP_deviceEvents (ms : List Message) (x : Link) (es : List LinkEvent) :
    (deviceEvents ms x es).countP Event.isMain = es.countP LinkEvent.isMain ∧
      (deviceEvents ms x es).countP (!Event.isMain ·) ≤ es.countP LinkEvent.isDeliver ∧
      ∀ u, .main u ∈ deviceEvents ms x es → .main u ∈ es := by
  induction es generalizing x with
  | nil => exact ⟨rfl, le_rfl, by simp [deviceEvents]⟩
  | cons e es ih =>
    obtain ⟨hmain, hrx, hmem⟩ := ih (x.step ms e).1
    have hone : (x.deviceEvent e).toList.countP Event.isMain = (if e.isMain then 1 else 0) ∧
        (x.deviceEvent e).toList.countP (!Event.isMain ·) ≤ (if e.isDeliver then 1 else 0) ∧
        ∀ u, .main u ∈ (x.deviceEvent e).toList → .main u = e := by
      cases e with
      | deliver =>
        cases hup : x.up <;> simp [Link.deviceEvent, hup, LinkEvent.isMain, LinkEvent.isDeliver,
          Event.isMain]
      | main u =>
        simp [Link.deviceEvent, LinkEvent.isMain, LinkEvent.isDeliver, Event.isMain, eq_comm]
      | send | hear => simp [Link.deviceEvent, LinkEvent.isMain, LinkEvent.isDeliver]
    rw [deviceEvents, List.countP_append, List.countP_append, List.countP_cons, List.countP_cons]
    refine ⟨by omega, by omega, fun u hu => ?_⟩
    rcases List.mem_append.mp hu with hu | hu
    · rw [hone.2.2 u hu]
      exact List.mem_cons_self
    · exact List.mem_cons_of_mem e (hmem u hu)

/-- With nothing under way and nothing sent, only the main loop goes on. -/
theorem deviceEvents_quiet (ms : List Message) {es : List LinkEvent} (hup : x.up = [])
    (hsend : .send ∉ es) :
    ∀ e ∈ deviceEvents ms x es, ∃ u, e = .main u := by
  induction es generalizing x with
  | nil => simp [deviceEvents]
  | cons e es ih =>
    have hnext : (x.step ms e).1.up = [] := by
      cases e with
      | send => exact absurd List.mem_cons_self hsend
      | hear =>
        rw [Link.step]
        split <;> exact hup
      | deliver => simp [Link.step, hup]
      | main u => exact hup
    intro e' he'
    rcases List.mem_append.mp he' with he' | he'
    · cases e with
      | main u => exact ⟨u, by simpa [Link.deviceEvent] using he'⟩
      | _ => exact absurd he' (by simp [Link.deviceEvent, hup])
    · exact ih hnext (fun h => hsend (List.mem_cons_of_mem e h)) e' he'

/-- The main loop alone does not bring bytes closer together. -/
theorem guarded_append_main {es es' : List Event}
    (h : Guarded timedStep (fun x _ e => Apart x e) (Device.powerUp, 13) es)
    (hmain : ∀ e ∈ es', ∃ u, e = .main u) :
    Guarded timedStep (fun x _ e => Apart x e) (Device.powerUp, 13) (es ++ es') := by
  intro pre e he
  rcases List.prefix_or_prefix_of_prefix he (List.prefix_append es es') with hle | hgt
  · exact h pre e hle
  · -- past `es`, the event is one of the main loop
    rcases List.prefix_concat_iff.mp hgt with heq | hpre
    · exact h pre e ⟨[], by rw [List.append_nil, heq]⟩
    · obtain ⟨mid, rfl⟩ := hpre
      rw [List.append_assoc, List.prefix_append_right_inj] at he
      obtain ⟨u, rfl⟩ := hmain e (he.subset (by simp))
      exact fun hrx => absurd hrx (by simp [Event.isMain])

/-- **Everything received has been read**, and the main loop goes on: nothing more is latched, and
every report holds the last frame there is. -/
theorem run_quiet {es es' : List Event}
    (hapart : Guarded timedStep (fun x _ e => Apart x e) (Device.powerUp, 13) es)
    (hpc : (run es).1.pc = .serialWhile) (hempty : (run es).1.bufferTail = (run es).1.bufferHead)
    (hmain : ∀ e ∈ es', ∃ u, e = .main u) :
    consumed (run es).2 = received (run es).2 ∧
      ∀ via r, .transmitted via r ∈ (runFrom Device.step (run es).1 es').2 →
        r.state = lastLatched (run es).2 := by
  obtain ⟨n, hnow⟩ := exists_keepsUp hapart
  obtain ⟨n', hthen⟩ := exists_keepsUp (guarded_append_main hapart hmain)
  have hrun : run (es ++ es') = ((runFrom Device.step (run es).1 es').1,
      (run es).2 ++ (runFrom Device.step (run es).1 es').2) := runFrom_append _ _ es es'
  have hread : consumed (run es).2 = received (run es).2 :=
    hnow.ord.consumed_eq (hnow.unread.trans (by decide)) hpc hempty
  -- no byte comes, so none is read
  have hbytes : es'.filterMap Event.byte? = [] := by
    refine List.filterMap_eq_nil_iff.mpr fun e he => ?_
    obtain ⟨u, rfl⟩ := hmain e he
    rfl
  have hsame : consumed (run (es ++ es')).2 = consumed (run es).2 := by
    have hle := hthen.ord.isPrefix.length_le
    rw [received_run, List.filterMap_append, hbytes, List.append_nil, ← received_run, ← hread,
      hrun, consumed_append, List.length_append] at hle
    have hnil : consumed (runFrom Device.step (run es).1 es').2 = [] :=
      List.eq_nil_of_length_eq_zero (by omega)
    rw [hrun, consumed_append, hnil, List.append_nil]
  have hlatches : latches (run (es ++ es')).2 <+: latches (run es).2 := by
    have hnone := settle_of_not_inBody (d := (run es).1) (by rw [hpc]; rfl)
    have hall := (run_faithful es).settled.foretold_eq
    rw [foretold, hnone, List.filterMap_nil, List.append_nil] at hall
    rw [hall, ← hsame]
    exact latches_run_isPrefix _
  refine ⟨hread, fun via r hr => ?_⟩
  obtain ⟨before, after, hsplit⟩ := List.append_of_mem hr
  have hcurrent : r.state = lastLatched ((run es).2 ++ before) := by
    refine run_report (es ++ es') ((run es).2 ++ before) (.transmitted via r) after ?_
    rw [hrun, hsplit, List.append_assoc]
  have hnone : latches before = [] := by
    rw [hrun, hsplit, latches_append, latches_append] at hlatches
    have hle := hlatches.length_le
    rw [List.length_append, List.length_append] at hle
    exact List.eq_nil_of_length_eq_zero (by omega)
  rw [hcurrent, lastLatched, lastLatched, latches_append, hnone, List.append_nil]

/-- **A quiet line shows the last message.** Whatever stale `U` the bridge has gone on with: if the
bytes have come no faster than the firmware takes them, then once none is under way and the ring is
seen empty, the frames latched are the messages sent. From there on, while nothing is sent, a
report follows as soon as the main loop gets to it, and every report holds the last message
sent. -/
theorem link_settles {es es' : List LinkEvent}
    (hapart : Guarded timedStep (fun x _ e => Apart x e) (Device.powerUp, 13)
      (deviceEvents ms Link.start es))
    (hup : (linkRun ms es).1.up = []) (hpc : (linkRun ms es).1.device.pc = .serialWhile)
    (hempty : (linkRun ms es).1.device.bufferTail = (linkRun ms es).1.device.bufferHead)
    (hsend : .send ∉ es') (hready : ∀ u, .main u ∈ es' → u.Ready)
    (hlong : (linkRun ms es).1.device.wait < es'.countP LinkEvent.isMain) :
    let shown := (ms.take (linkRun ms es).1.sent).map Message.state
    let later := (runFrom (Link.step ms) (linkRun ms es).1 es').2
    latches (linkRun ms es).2 = shown ∧ (∃ r, .transmitted .hidTask r ∈ later) ∧
      ∀ via r, .transmitted via r ∈ later → r.state = shown.getLast?.getD Latched.powerUp := by
  intro shown later
  have hnow : run (deviceEvents ms Link.start es) =
      ((linkRun ms es).1.device, (linkRun ms es).2) := device_runFrom ms Link.start es
  have hthen := device_runFrom ms (linkRun ms es).1 es'
  have hmain := deviceEvents_quiet ms hup hsend
  have hquiet := run_quiet hapart (by rw [hnow]; exact hpc) (by rw [hnow]; exact hempty) hmain
  rw [hnow, hthen] at hquiet
  obtain ⟨hread, hreports⟩ := hquiet
  have hshown : latches (linkRun ms es).2 = shown := by
    have hwired := wired_linkRun ms es
    rw [Wired, hup, List.append_nil] at hwired
    have hall := (run_faithful (deviceEvents ms Link.start es)).settled.foretold_eq
    rw [hnow, foretold, settle_of_not_inBody (by rw [hpc]; rfl), List.filterMap_nil,
      List.append_nil, hread, hwired] at hall
    exact hall.trans (framesOf_stream _)
  refine ⟨hshown, ?_, fun via r hr => ?_⟩
  · obtain ⟨hcount, -, hmem⟩ := countP_deviceEvents ms (linkRun ms es).1 es'
    have hidle : (deviceEvents ms (linkRun ms es).1 es').countP (!Event.isMain ·) = 0 := by
      rw [List.countP_eq_zero]
      intro e he
      obtain ⟨u, rfl⟩ := hmain e he
      simp [Event.isMain]
    obtain ⟨r, hr⟩ := exists_transmitted (linkRun ms es).1.device
      (fun u hu => hready u (hmem u hu)) (by omega)
    rw [hthen] at hr
    exact ⟨r, hr⟩
  · rw [hreports via r hr, lastLatched, hshown]

/-- One message, fourteen statements to the byte. -/
theorem link_settles_one :
    ∃ es es' : List LinkEvent, latches (linkRun onesAndTwos es).2 =
        [⟨0x11, 0x1111, 0x11, 0x11, 0x11, 0x11⟩] ∧
      ∃ r, .transmitted .hidTask r ∈
        (runFrom (Link.step onesAndTwos) (linkRun onesAndTwos es).1 es').2 := by
  let es := LinkEvent.send :: List.flatten (List.replicate 15
    (.deliver :: List.replicate 14 (.main Usb.quiet))) ++ List.replicate 4 (.main Usb.quiet)
  let es' := List.replicate 20 (LinkEvent.main Usb.poll)
  have hapart : Guarded timedStep (fun x _ e => Apart x e) (Device.powerUp, 13)
      (deviceEvents onesAndTwos Link.start es) := guarded_of_guardedFrom (by decide +kernel)
  have hready : ∀ u, .main u ∈ es' → u.Ready := by
    intro u hu
    obtain rfl : u = Usb.poll := LinkEvent.main.inj (List.eq_of_mem_replicate hu)
    exact ⟨rfl, rfl⟩
  have hsettles := link_settles hapart (by decide +kernel) (by decide +kernel)
    (by decide +kernel) (by simp [es']) hready (by decide +kernel)
  exact ⟨es, es', by decide +kernel, hsettles.2.1⟩

/-! ### The next message -/

/-- **Enough statements and a `U` is printed**, counting `13` for each byte that comes in
between. -/
theorem exists_printU (d : Device) {es : List Event} (hready : ∀ u, .main u ∈ es → u.Ready)
    (hlong : d.wait + 1 + 13 * es.countP (!Event.isMain ·) < es.countP Event.isMain) :
    .printed chU ∈ (runFrom Device.step d es).2 := by
  -- the wait for the report, and one statement for its `U`
  let φ : Device → ℕ := fun d => if d.pc = .printU then 0 else d.wait + 1
  have hwork : ∀ d : Device, True → ∀ e ∈ es, e.isMain = true →
      (∃ o ∈ (d.step e).2, o = .printed chU) ∨ True ∧ φ (d.step e).1 < φ d := by
    intro d _ e he hmain
    cases e with
    | rx c => exact absurd hmain (by simp [Event.isMain])
    | main u =>
      by_cases hpc : d.pc = .printU
      · exact Or.inl ⟨_, by simp [Device.step, Device.exec, hpc], rfl⟩
      · refine Or.inr ⟨trivial, ?_⟩
        change φ (d.exec u).1 < φ d
        have hφ : φ d = d.wait + 1 := if_neg hpc
        by_cases hnext : (d.exec u).1.pc = .printU
        · have hφ' : φ (d.exec u).1 = 0 := if_pos hnext
          omega
        · have hφ' : φ (d.exec u).1 = (d.exec u).1.wait + 1 := if_neg hnext
          rcases wait_exec (d := d) (hready u he) with ⟨r, hr⟩ | hlt
          · cases emits_of_mem_exec hr with
            | transmitted via hwrite => exact absurd (by simp [Device.exec, hwrite]) hnext
          · omega
  have hidle : ∀ d : Device, True → ∀ e ∈ es, e.isMain = false →
      (∃ o ∈ (d.step e).2, o = .printed chU) ∨ True ∧ φ (d.step e).1 ≤ φ d + 13 := by
    intro d _ e _ hrx
    cases e with
    | main u => exact absurd hrx (by simp [Event.isMain])
    | rx c =>
      refine Or.inr ⟨trivial, ?_⟩
      change φ (d.receive c).1 ≤ φ d + 13
      have hwait := wait_receive d c
      by_cases hpc : d.pc = .printU
      · have hφ : φ (d.receive c).1 = 0 := if_pos hpc
        omega
      · have hφ : φ d = d.wait + 1 := if_neg hpc
        have hφ' : φ (d.receive c).1 = (d.receive c).1.wait + 1 := if_neg hpc
        omega
  have hstart : φ d ≤ d.wait + 1 := by
    change (if d.pc = .printU then 0 else d.wait + 1) ≤ d.wait + 1
    split <;> omega
  obtain ⟨o, ho, rfl⟩ :=
    exists_of_potential φ (fun _ => True) hwork hidle (s := d) trivial (by omega)
  exact ho

/-- The bridge reads a byte. -/
def LinkEvent.isHear : LinkEvent → Bool
  | .hear => true
  | _ => false

/-- **A round**: the console polls the firmware, the bridge reads what is on the line, and then it
may send. Anything may happen besides. -/
structure Round where
  /-- The firmware runs. -/
  polled : List LinkEvent
  /-- The bridge reads. -/
  read : List LinkEvent

/-- The events of a round. -/
def Round.events (r : Round) : List LinkEvent := r.polled ++ r.read ++ [.send]

/-- **A round is fair**: the host takes reports, the main loop gets further than the bytes that come
can hold it up, and the bridge reads as many bytes as there are on the line. -/
structure Round.Fair (ms : List Message) (x : Link) (r : Round) : Prop where
  /-- The host is ready. -/
  ready : ∀ u, .main u ∈ r.polled → u.Ready
  /-- The main loop gets to its report. -/
  long : x.device.wait + 1 + 13 * r.polled.countP LinkEvent.isDeliver <
    r.polled.countP LinkEvent.isMain
  /-- The bridge reads. -/
  heard : (runFrom (Link.step ms) x r.polled).1.down.length ≤ r.read.countP LinkEvent.isHear

/-- The bridge has gone on from message `s`, or will once it has read the `U` that is among the next
`k` bytes on the line. -/
def Link.Due (s k : ℕ) (x : Link) : Prop :=
  s < x.credit ∨ s ≤ x.sent ∧
    ∃ before n after, x.down = before ++ (chU, n) :: after ∧ before.length < k

variable {s k : ℕ}

/-- The credit is never taken back, and nor is a message. -/
theorem credit_step (x : Link) (e : LinkEvent) :
    x.credit ≤ (x.step ms e).1.credit ∧ x.sent ≤ (x.step ms e).1.sent := by
  cases e with
  | send =>
    rw [Link.step]
    split
    · rename_i hw _
      simp [Link.credit, hw]
    · exact ⟨le_rfl, le_rfl⟩
  | hear =>
    rw [Link.step]
    split
    · rename_i hw _
      simp [Link.credit, hw]
    · exact ⟨le_rfl, le_rfl⟩
  | deliver =>
    rw [Link.step]
    split <;> exact ⟨le_rfl, le_rfl⟩
  | main u => exact ⟨le_rfl, le_rfl⟩

theorem Link.Due.mono {k' : ℕ} (h : x.Due s k) (hk : k ≤ k') : x.Due s k' := by
  rcases h with h | ⟨hs, before, n, after, hdown, hlt⟩
  · exact Or.inl h
  · exact Or.inr ⟨hs, before, n, after, hdown, hlt.trans_le hk⟩

/-- A `U` on the line is among all the bytes there are. -/
theorem Link.Due.all (h : x.Due s k) : x.Due s x.down.length := by
  rcases h with h | ⟨hs, before, n, after, hdown, -⟩
  · exact Or.inl h
  · exact Or.inr ⟨hs, before, n, after, hdown, by simp [hdown]⟩

/-- What the firmware prints comes behind what is on the line. -/
theorem Link.Due.deviceStep (h : x.Due s k) (e : Event) (up : List UInt8) :
    ({ x with up := up }.deviceStep e).1.Due s k := by
  rcases h with h | ⟨hs, before, n, after, hdown, hlt⟩
  · exact Or.inl h
  · refine Or.inr ⟨hs, before, n, after ++ (printed (x.device.step e).2).map (·, x.frames), ?_, hlt⟩
    change x.down ++ _ = _
    rw [hdown, List.append_assoc, List.cons_append]

/-- **A `U` on the line stays there until the bridge goes on with it**, and each byte the bridge
reads brings it closer. -/
theorem Link.Due.step (e : LinkEvent) (h : x.Due s (k + if e.isHear then 1 else 0)) :
    (x.step ms e).1.Due s k := by
  by_cases hcredit : s < x.credit
  · exact Or.inl (hcredit.trans_le (credit_step x e).1)
  obtain ⟨hs, before, n, after, hdown, hlt⟩ := h.resolve_left hcredit
  -- a bridge that does not wait has gone on
  have hw : x.waiting = true := by
    rcases hwait : x.waiting with - | -
    · rw [Link.credit, hwait] at hcredit
      exact absurd (Nat.lt_succ_of_le hs) hcredit
    · rfl
  cases e with
  | send =>
    rw [Link.step]
    split
    · rename_i hcon _
      exact absurd (hw.symm.trans hcon) (by simp)
    · exact Or.inr ⟨hs, before, n, after, hdown, hlt⟩
  | hear =>
    rcases before with - | ⟨p, before⟩
    · left
      simp [Link.step, hw, hdown, Link.credit, Nat.lt_succ_of_le hs]
    · have hnext : (x.step ms .hear).1 =
          { x with down := before ++ (chU, n) :: after, waiting := p.1 != chU } := by
        simp [Link.step, hw, hdown]
      rw [hnext]
      refine Or.inr ⟨hs, before, n, after, rfl, ?_⟩
      simpa [LinkEvent.isHear] using hlt
  | deliver =>
    have hdue : x.Due s k := Or.inr ⟨hs, before, n, after, hdown, hlt⟩
    rw [Link.step]
    split
    · exact hdue
    · exact hdue.deviceStep _ _
  | main u =>
    have hdue : x.Due s k := Or.inr ⟨hs, before, n, after, hdown, hlt⟩
    exact hdue.deviceStep (.main u) x.up

/-- **The bridge reads far enough.** -/
theorem Link.Due.runFrom (es : List LinkEvent) (h : x.Due s (k + es.countP LinkEvent.isHear)) :
    (EventMachine.runFrom (Link.step ms) x es).1.Due s k := by
  induction es generalizing x with
  | nil => exact h
  | cons e es ih =>
    rw [runFrom_cons]
    refine ih (Link.Due.step e ?_)
    rwa [List.countP_cons, ← Nat.add_assoc] at h

/-- **A `U` that is printed is on the line**, or the bridge has gone on with it. -/
theorem due_of_printed {es : List LinkEvent} (hs : s ≤ x.sent)
    (h : .printed chU ∈ (runFrom (Link.step ms) x es).2) :
    ∃ k, (runFrom (Link.step ms) x es).1.Due s k := by
  induction es generalizing x with
  | nil => exact absurd h List.not_mem_nil
  | cons e es ih =>
    rw [runFrom_cons] at h ⊢
    have hs' : s ≤ (x.step ms e).1.sent := hs.trans (credit_step x e).2
    rcases List.mem_append.mp h with hnow | hlater
    · have hdown : ∃ n, (chU, n) ∈ (x.step ms e).1.down := by
        have hprinted : ∀ d e, .printed chU ∈ (Device.step d e).2 →
            chU ∈ printed (Device.step d e).2 := fun d e h => List.mem_filterMap.mpr ⟨_, h, rfl⟩
        cases e with
        | send =>
          rw [Link.step] at hnow
          split at hnow <;> exact absurd hnow List.not_mem_nil
        | hear =>
          rw [Link.step] at hnow
          split at hnow <;> exact absurd hnow List.not_mem_nil
        | deliver =>
          rw [Link.step] at hnow ⊢
          split at hnow
          · exact absurd hnow List.not_mem_nil
          · exact ⟨_, List.mem_append_right _ (List.mem_map.mpr ⟨_, hprinted _ _ hnow, rfl⟩)⟩
        | main u =>
          exact ⟨_, List.mem_append_right _ (List.mem_map.mpr ⟨_, hprinted _ _ hnow, rfl⟩)⟩
      obtain ⟨n, hn⟩ := hdown
      obtain ⟨before, after, hsplit⟩ := List.append_of_mem hn
      have hdue : (x.step ms e).1.Due s (before.length + 1) :=
        Or.inr ⟨hs', before, n, after, hsplit, Nat.lt_succ_self _⟩
      exact ⟨before.length + 1, (hdue.mono (Nat.le_add_right _ _)).runFrom es⟩
    · exact ih hs' hlater

/-- **A fair round sends a message**, if there is one left. -/
theorem sent_round {r : Round} (hfair : r.Fair ms x) :
    min (x.sent + 1) ms.length ≤ (runFrom (Link.step ms) x r.events).1.sent := by
  obtain ⟨hcount, hrx, hmem⟩ := countP_deviceEvents ms x r.polled
  have hlong := hfair.long
  have hprinted : .printed chU ∈ (runFrom (Link.step ms) x r.polled).2 := by
    have h := exists_printU x.device (fun u hu => hfair.ready u (hmem u hu)) (by omega)
    rwa [device_runFrom] at h
  obtain ⟨k, hdue⟩ := due_of_printed le_rfl hprinted
  have hread : (runFrom (Link.step ms) (runFrom (Link.step ms) x r.polled).1 r.read).1.Due
      x.sent 0 :=
    Link.Due.runFrom r.read (hdue.all.mono (by rw [Nat.zero_add]; exact hfair.heard))
  have hcredit : x.sent < (runFrom (Link.step ms) x (r.polled ++ r.read)).1.credit := by
    rw [runFrom_append]
    rcases hread with h | ⟨-, before, n, after, -, hlt⟩
    · exact h
    · exact absurd hlt (Nat.not_lt_zero _)
  rw [Round.events, runFrom_concat]
  generalize (runFrom (Link.step ms) x (r.polled ++ r.read)).1 = y at hcredit
  rw [Link.step, Link.credit] at *
  split
  · rename_i hw _
    simp [hw] at hcredit
    change _ ≤ y.sent + 1
    omega
  · rename_i hno
    rcases hw : y.waiting with - | -
    · -- not waiting, and no message left
      have hlen : ms.length ≤ y.sent := by
        rw [← List.getElem?_eq_none_iff]
        rcases hm : ms[y.sent]? with - | m
        · rfl
        · exact absurd hm (hno m hw)
      exact (Nat.min_le_right _ _).trans hlen
    · simp [hw] at hcredit
      exact (Nat.min_le_left _ _).trans hcredit

/-- **The handshake goes on.** From any state of the two ends and of the line between them, every
fair round sends another message, until all have been sent. -/
theorem link_progress {rounds : List Round}
    (hfair : GuardedFrom (fun x (r : Round) => runFrom (Link.step ms) x r.events)
      (fun x r => r.Fair ms x) x rounds) :
    min (x.sent + rounds.length) ms.length ≤
      (runFrom (Link.step ms) x (rounds.flatMap Round.events)).1.sent := by
  induction rounds generalizing x with
  | nil => exact Nat.min_le_left _ _
  | cons r rounds ih =>
    have hone := sent_round hfair.1
    have hrest := ih hfair.2
    rw [List.flatMap_cons, runFrom_append, List.length_cons]
    dsimp only at hrest ⊢
    omega

/-- Two rounds send two messages, though not a byte of them is delivered: each is sent on the `U`
of an idle report. -/
theorem link_progress_two :
    ∃ rounds : List Round, rounds.length = 2 ∧
      2 ≤ (linkRun onesAndTwos (rounds.flatMap Round.events)).1.sent := by
  let r : Round := ⟨List.replicate 40 (.main Usb.poll), List.replicate 6 .hear⟩
  have hready : ∀ u, .main u ∈ r.polled → u.Ready := by
    intro u hu
    obtain rfl : u = Usb.poll := LinkEvent.main.inj (List.eq_of_mem_replicate hu)
    exact ⟨rfl, rfl⟩
  have h : min (Link.start.sent + [r, r].length) onesAndTwos.length ≤
      (runFrom (Link.step onesAndTwos) Link.start ([r, r].flatMap Round.events)).1.sent :=
    link_progress ⟨⟨hready, by decide +kernel, by decide +kernel⟩,
      ⟨hready, by decide +kernel, by decide +kernel⟩, trivial⟩
  have htwo : 2 ≤ min (Link.start.sent + [r, r].length) onesAndTwos.length := by decide
  refine ⟨[r, r], rfl, ?_⟩
  rw [linkRun]
  exact htwo.trans h

end SwitchController
