import SwitchController.Lib.Potential
import SwitchController.Firmware.Overrun

/-!
# How fast the firmware is

Two questions about time, with the statements of the main loop as the clock. How long can the
console wait for a report? And how fast may bytes come without overrunning the ring?

A turn of the main loop takes as long as there are bytes in the ring, and the interrupt may add to
them while they are read. A byte costs thirteen statements at most, the line end that latches a
frame. So `13` times what is left in the ring, and what is left of the current byte or of the turn,
is a potential that every statement lowers and every byte raises by `13`. With the report at
the end of the count it bounds the wait (`SwitchController.Firmware.report_within`); with the empty
ring at its end it shows that bytes at least thirteen statements apart never overrun the ring
(`SwitchController.Firmware.run_keeps_up`).

The count of what is left starts *behind* the byte that has been decided on. Between the test of the
loop and the read, a byte may arrive that fills the ring, and the two indices agree with a whole
round to read.
-/

namespace SwitchController

namespace Firmware

open EventMachine

variable {d : Device} {u : Usb} {log : List Obs}

/-! ### What is left to read -/

/-- A byte has been decided on, and `buffer_tail` does not say so yet. -/
def Pc.atByte (pc : Pc) : Bool := pc.inBody || pc == .serialRead

/-- **The bytes in the ring** behind the one that has been decided on. -/
def Device.behind (d : Device) : ℕ :=
  (d.bufferHead - if d.pc.atByte then d.bufferTail + 1 else d.bufferTail).toNat

/-- The bytes between two indices of the ring. -/
theorem toNat_sub_eq (a b : UInt8) : (a - b).toNat = (256 - b.toNat + a.toNat) % 256 :=
  UInt8.toNat_sub a b

theorem toNat_succ (a : UInt8) : (a + 1).toNat = (a.toNat + 1) % 256 := UInt8.toNat_add a 1

/-- A byte adds one, or the ring wraps around. -/
theorem behind_receive (d : Device) (c : UInt8) : (d.receive c).1.behind ≤ d.behind + 1 := by
  have hadd : ∀ a b : UInt8, (a + 1 - b).toNat ≤ (a - b).toNat + 1 := by
    intro a b
    have hb := b.toNat_lt
    rw [toNat_sub_eq, toNat_sub_eq, toNat_succ]
    omega
  exact hadd _ _

/-- The test of the loop takes one off, where the ring is not empty. -/
theorem behind_serialWhile (hpc : d.pc = .serialWhile) (hne : d.bufferTail ≠ d.bufferHead) :
    (d.exec u).1.pc = .serialRead ∧ (d.exec u).1.behind + 1 = d.behind := by
  have hnext : (d.exec u).1 = { d with pc := .serialRead } := by
    rw [Device.exec, hpc]
    simp [hne]
  have hsub : ∀ a b : UInt8, b ≠ a → (a - (b + 1)).toNat + 1 = (a - b).toNat := by
    intro a b hba
    have ha := a.toNat_lt
    have hb := b.toNat_lt
    rw [Ne, ← UInt8.toNat_inj] at hba
    rw [toNat_sub_eq, toNat_sub_eq, toNat_succ]
    omega
  rw [hnext]
  refine ⟨rfl, ?_⟩
  rw [Device.behind, Device.behind, hpc]
  exact hsub _ _ hne

/-- No other statement changes what is left. -/
theorem behind_exec (h : d.pc = .serialWhile → d.bufferTail = d.bufferHead) :
    (d.exec u).1.behind = d.behind := by
  obtain ⟨buf, hd, tl, p, pc, c, v, r⟩ := d
  cases pc with
  | serialWhile =>
    obtain rfl : tl = hd := h rfl
    simp [Device.exec, Device.behind, Pc.atByte, Pc.inBody]
  | hidIn | usbTask =>
    simp only [Device.exec]
    split <;> rfl
  | fill via f => cases f <;> rfl
  | write via => cases via <;> rfl
  | latch f => cases f <;> rfl
  | hidTask | serialTest | serialIf | testVal =>
    simp only [Device.exec, Device.behind]
    split <;> rfl
  | _ => rfl

/-! ### What is left of a turn -/

/-- The statements of `GetNextReport` from an assignment on. -/
def Field.fills (f : Field) : ℕ := f.fillRest.length

/-- The assignments that latch a frame from one of them on. -/
def Field.latchesLeft (f : Field) : ℕ := f.latchRest.length

/-- **The statements up to the test of the loop in `Serial_Task`**, at most, from a statement on:
those that are left of a byte, or those that are left of a turn that sends a report both ways. -/
def Pc.toRing : Pc → ℕ
  | .hidTask => 19
  | .hidOut => 18
  | .hidIn => 17
  | .fill .hidTask f => 10 + f.fills
  | .write .hidTask => 10
  | .printU => 9
  | .usbTask => 8
  | .fill .controlRequest f => 1 + f.fills
  | .write .controlRequest => 1
  | .serialWhile => 0
  | .serialRead => 12
  | .serialTest => 11
  | .serialIf => 10
  | .latch f => 3 + f.latchesLeft
  | .resetL => 3
  | .clearB => 2
  | .setVal => 5
  | .testVal => 4
  | .orNibble => 3
  | .incL => 2
  | .incTail => 1

/-- **The statements up to the next report**, from the test of the loop on with an empty ring, and
from the statements of `HID_Task`. -/
def Pc.toReport : Pc → ℕ
  | .hidTask => 9
  | .hidOut => 8
  | .hidIn => 7
  | .fill .hidTask f => f.fills
  | .write .hidTask => 0
  | pc => 10 + pc.toRing

/-- **What comes after a statement**, whatever the hardware answers. -/
def Pc.next : Pc → List Pc
  | .hidTask => [.hidOut, .usbTask]
  | .hidOut => [.hidIn]
  | .hidIn => [.fill .hidTask .button, .usbTask]
  | .fill via f => [Pc.afterFill via f]
  | .write .hidTask => [.printU]
  | .write .controlRequest => [.serialWhile]
  | .printU => [.usbTask]
  | .usbTask => [.fill .controlRequest .button, .serialWhile]
  | .serialWhile => [.serialRead, .hidTask]
  | .serialRead => [.serialTest]
  | .serialTest => [.serialIf, .setVal]
  | .serialIf => [.latch .hat, .resetL]
  | .latch f => [Pc.afterLatch f]
  | .resetL => [.clearB]
  | .clearB => [.incTail]
  | .setVal => [.testVal]
  | .testVal => [.incTail, .orNibble]
  | .orNibble => [.incL]
  | .incL => [.incTail]
  | .incTail => [.serialWhile]

theorem pc_exec_mem (d : Device) (u : Usb) : (d.exec u).1.pc ∈ d.pc.next := by
  obtain ⟨buf, hd, tl, p, pc, c, v, r⟩ := d
  cases pc with
  | hidIn | usbTask =>
    simp only [Device.exec]
    split <;> simp [Pc.next]
  | write via => cases via <;> simp [Device.exec, Pc.next]
  | hidTask | serialWhile | serialTest | serialIf | testVal =>
    simp only [Device.exec]
    split <;> simp [Pc.next]
  | _ => simp [Device.exec, Pc.next]

/-- Every statement but the test of the loop is followed by one nearer to the ring. -/
theorem toRing_next {pc : Pc} (h : pc ≠ .serialWhile) :
    ∀ pc' ∈ pc.next, pc'.toRing < pc.toRing := by
  cases pc with
  | serialWhile => exact absurd rfl h
  | fill via f => cases via <;> cases f <;> decide
  | write via => cases via <;> decide
  | latch f => cases f <;> decide
  | _ => decide

/-- **The host is ready for a report**: the device is configured and the IN endpoint is free. -/
def Usb.Ready (u : Usb) : Prop := u.state = .configured ∧ u.inReady = true

/-- With the host ready, every statement but the report itself and the test of the loop is followed
by one nearer to the report. -/
theorem toReport_exec (hu : u.Ready) (hwrite : d.pc ≠ .write .hidTask)
    (hwhile : d.pc ≠ .serialWhile) : (d.exec u).1.pc.toReport < d.pc.toReport := by
  have hmem := pc_exec_mem d u
  have hall : ∀ pc : Pc, pc ≠ .hidTask → pc ≠ .hidIn → pc ≠ .write .hidTask →
      pc ≠ .serialWhile → ∀ pc' ∈ pc.next, pc'.toReport < pc.toReport := by
    intro pc h1 h2 h3 h4
    cases pc with
    | fill via f => cases via <;> cases f <;> decide
    | write via => cases via <;> first | exact absurd rfl h3 | decide
    | latch f => cases f <;> decide
    | _ => first | contradiction | decide
  by_cases htask : d.pc = .hidTask
  · rw [Device.exec, htask]
    simp [hu.1, Pc.toReport]
  by_cases hin : d.pc = .hidIn
  · rw [Device.exec, hin]
    simp [hu.2, Pc.toReport, Field.fills, Field.fillRest]
  · exact hall d.pc htask hin hwrite hwhile _ hmem

/-! ### How long the console waits -/

/-- The statements the firmware may take to the next report, if no byte comes. -/
def Device.wait (d : Device) : ℕ := 13 * d.behind + d.pc.toReport

/-- A statement sends the report, or brings it nearer. -/
theorem wait_exec (hu : u.Ready) :
    (∃ r, .transmitted .hidTask r ∈ (d.exec u).2) ∨ (d.exec u).1.wait < d.wait := by
  by_cases hwrite : d.pc = .write .hidTask
  · refine Or.inl ⟨d.report, ?_⟩
    rw [Device.exec, hwrite]
    exact List.mem_singleton_self _
  by_cases hwhile : d.pc = .serialWhile
  · right
    by_cases hempty : d.bufferTail = d.bufferHead
    · have hbehind : (d.exec u).1.behind = d.behind := behind_exec fun _ => hempty
      have hnext : (d.exec u).1.pc = .hidTask := by
        rw [Device.exec, hwhile]
        simp [hempty]
      rw [Device.wait, Device.wait, hbehind, hnext, hwhile]
      exact Nat.add_lt_add_left (by decide) _
    · obtain ⟨hnext, hbehind⟩ := behind_serialWhile (u := u) hwhile hempty
      rw [Device.wait, Device.wait, hnext, hwhile]
      simp only [Pc.toReport, Pc.toRing]
      omega
  · right
    have hbehind : (d.exec u).1.behind = d.behind := behind_exec fun h => absurd h hwhile
    rw [Device.wait, Device.wait, hbehind]
    exact Nat.add_lt_add_left (toReport_exec hu hwrite hwhile) _

theorem wait_receive (d : Device) (c : UInt8) : (d.receive c).1.wait ≤ d.wait + 13 := by
  have hbehind := behind_receive d c
  have hpc : (d.receive c).1.pc = d.pc := rfl
  rw [Device.wait, Device.wait, hpc]
  omega

/-- A whole ring, and the statement that is farthest from the report. -/
theorem wait_le (d : Device) : d.wait ≤ 3337 := by
  have hbehind : d.behind ≤ 255 := Nat.lt_succ_iff.mp (UInt8.toNat_lt _)
  have hpc : d.pc.toReport ≤ 22 := by
    generalize d.pc = pc
    cases pc with
    | fill via f => cases via <;> cases f <;> decide
    | write via => cases via <;> decide
    | latch f => cases f <;> decide
    | _ => decide
  rw [Device.wait]
  omega

/-- The main loop goes on. -/
def Event.isMain : Event → Bool
  | .rx _ => false
  | .main _ => true

/-- **Enough statements and a report is sent**, counting `13` for each byte that comes in
between. -/
theorem exists_transmitted (d : Device) {es : List Event} (hready : ∀ u, .main u ∈ es → u.Ready)
    (hlong : d.wait + 13 * es.countP (!Event.isMain ·) < es.countP Event.isMain) :
    ∃ r, .transmitted .hidTask r ∈ (runFrom Device.step d es).2 := by
  let goal : Obs → Prop := fun o => ∃ r, o = .transmitted .hidTask r
  have hwork : ∀ d : Device, True → ∀ e ∈ es, e.isMain = true →
      (∃ o ∈ (d.step e).2, goal o) ∨ True ∧ (d.step e).1.wait < d.wait := by
    intro d _ e he hmain
    cases e with
    | rx c => exact absurd hmain (by simp [Event.isMain])
    | main u =>
      rcases wait_exec (d := d) (hready u he) with ⟨r, hr⟩ | hlt
      · exact Or.inl ⟨_, hr, r, rfl⟩
      · exact Or.inr ⟨trivial, hlt⟩
  have hidle : ∀ d : Device, True → ∀ e ∈ es, e.isMain = false →
      (∃ o ∈ (d.step e).2, goal o) ∨ True ∧ (d.step e).1.wait ≤ d.wait + 13 := by
    intro d _ e _ hrx
    cases e with
    | rx c => exact Or.inr ⟨trivial, wait_receive d c⟩
    | main u => exact absurd hrx (by simp [Event.isMain])
  obtain ⟨o, ho, r, rfl⟩ :=
    exists_of_potential Device.wait (fun _ => True) hwork hidle trivial hlong
  exact ⟨r, ho⟩

/-- **How long the console waits for a report.** Whatever the firmware is doing, with the host ready
and any bytes coming in between: more than `3337` statements, and `13` for each of the bytes, and a
report has been sent. -/
theorem report_within (d : Device) {es : List Event} (hready : ∀ u, .main u ∈ es → u.Ready)
    (hlong : 3337 + 13 * es.countP (!Event.isMain ·) < es.countP Event.isMain) :
    ∃ r, .transmitted .hidTask r ∈ (runFrom Device.step d es).2 :=
  exists_transmitted d hready (lt_of_le_of_lt (Nat.add_le_add_right (wait_le d) _) hlong)

/-- From power-up, with no byte coming. -/
theorem report_within_powerUp :
    ∃ r, .transmitted .hidTask r ∈
      (runFrom Device.step Device.powerUp (List.replicate 3338 (.main Usb.poll))).2 := by
  refine report_within Device.powerUp (fun u hu => ?_) ?_
  · obtain rfl : u = Usb.poll := Event.main.inj (List.eq_of_mem_replicate hu)
    exact ⟨rfl, rfl⟩
  · rw [List.countP_replicate, List.countP_replicate]
    decide

/-! ### How fast bytes may come -/

/-- The firmware with a count of the statements since the last byte came. -/
def timedStep (x : Device × ℕ) (e : Event) : (Device × ℕ) × List Obs :=
  (((x.1.step e).1, match e with
    | .rx _ => 0
    | .main _ => x.2 + 1), (x.1.step e).2)

/-- **A byte comes no sooner than thirteen statements after the last.** -/
def Apart (x : Device × ℕ) (e : Event) : Prop := e.isMain = false → 13 ≤ x.2

instance (x : Device × ℕ) (e : Event) : Decidable (Apart x e) := inferInstanceAs (Decidable (_ → _))

/-- The statements to the empty ring, if no byte comes. -/
def Device.load (d : Device) : ℕ := 13 * d.behind + d.pc.toRing

/-- A statement lowers the load, or finds the ring empty and starts a turn. -/
theorem load_exec (u : Usb) : (d.exec u).1.load < d.load ∨ (d.exec u).1.load ≤ 19 := by
  by_cases hwhile : d.pc = .serialWhile
  · by_cases hempty : d.bufferTail = d.bufferHead
    · right
      have hbehind : (d.exec u).1.behind = d.behind := behind_exec fun _ => hempty
      have hzero : d.behind = 0 := by
        rw [Device.behind, hwhile, hempty]
        simp [Pc.atByte, Pc.inBody]
      have hnext : (d.exec u).1.pc = .hidTask := by
        rw [Device.exec, hwhile]
        simp [hempty]
      rw [Device.load, hbehind, hzero, hnext]
      decide
    · left
      obtain ⟨hnext, hbehind⟩ := behind_serialWhile (u := u) hwhile hempty
      rw [Device.load, Device.load, hnext, hwhile]
      simp only [Pc.toRing]
      omega
  · left
    have hbehind : (d.exec u).1.behind = d.behind := behind_exec fun h => absurd h hwhile
    rw [Device.load, Device.load, hbehind]
    exact Nat.add_lt_add_left (toRing_next hwhile _ (pc_exec_mem d u)) _

theorem load_receive (d : Device) (c : UInt8) : (d.receive c).1.load ≤ d.load + 13 := by
  have hbehind := behind_receive d c
  have hpc : (d.receive c).1.pc = d.pc := rfl
  rw [Device.load, Device.load, hpc]
  omega

/-- What is unread, as long as it is less than a round, is what is left behind the byte decided on,
and that byte. -/
theorem InOrder.unread_eq (h : InOrder d log) (hroom : unread log ≤ 255) :
    unread log = d.behind + if d.pc = .serialRead then 1 else 0 := by
  have hle := h.ring.le
  have hlen : (received log).length = (consumed log).length + unread log := by
    rw [unread]
    omega
  have hhead : d.bufferHead.toNat = (received log).length % 256 := by
    rw [h.ring.head_eq, UInt8.toNat_ofNat']
  have hread : d.readIndex.toNat = (consumed log).length % 256 := by
    rw [h.ring.read_eq, UInt8.toNat_ofNat']
  by_cases hr : d.pc = .serialRead
  · have hready := h.ring.ready hr
    have hindex : d.readIndex = d.bufferTail := by
      rw [Device.readIndex, hr]
      rfl
    rw [hindex] at hread
    rw [Device.behind, if_pos hr, hr, toNat_sub_eq]
    change _ = (256 - (d.bufferTail + 1).toNat + _) % 256 + 1
    rw [toNat_succ]
    omega
  · have hindex : (if d.pc.atByte then d.bufferTail + 1 else d.bufferTail) = d.readIndex := by
      have hat : d.pc.atByte = d.pc.inBody := by simp [Pc.atByte, hr]
      rw [hat]
      rfl
    rw [Device.behind, if_neg hr, hindex, toNat_sub_eq]
    omega

/-- **The firmware keeps up**: what came last has been worked on ever since, or the work is down to
one turn without bytes. -/
structure KeepsUp (x : Device × ℕ) (log : List Obs) : Prop where
  ord : InOrder x.1 log
  load : x.1.load + x.2 ≤ 32 ∨ x.1.load ≤ 19
  unread : unread log ≤ 2
  silent : .printed chX ∉ log

theorem keepsUp_powerUp : KeepsUp (Device.powerUp, 13) [] where
  ord := inOrder_powerUp
  load := Or.inr (by decide)
  unread := by decide
  silent := List.not_mem_nil

/-- With so little to do, two bytes at most are unread. -/
theorem unread_le_of_load (h : InOrder d log) (hload : d.load ≤ 32) (hroom : unread log ≤ 255) :
    unread log ≤ 2 := by
  rw [Device.load] at hload
  rw [h.unread_eq hroom]
  split
  · rename_i hr
    rw [hr] at hload
    simp only [Pc.toRing] at hload
    omega
  · omega

/-- The interrupt has nothing to announce then. -/
theorem overrun_eq_false (hload : d.load ≤ 32) : d.overrun = false := by
  rw [Bool.eq_false_iff]
  intro hover
  obtain ⟨-, hhead⟩ := (overrun_iff d).mp hover
  have hh := d.bufferHead.toNat_lt
  rw [← UInt8.toNat_inj, toNat_succ] at hhead
  rw [Device.load, Device.behind] at hload
  -- the ring is full but for the byte in hand
  split at hload
  · rw [toNat_sub_eq, toNat_succ] at hload
    omega
  · rw [toNat_sub_eq] at hload
    omega

variable {x : Device × ℕ}

theorem KeepsUp.load_le (h : KeepsUp x log) : x.1.load ≤ 32 := by
  have hload := h.load
  omega

theorem KeepsUp.exec (h : KeepsUp x log) (u : Usb) :
    KeepsUp (timedStep x (.main u)).1 (log ++ (timedStep x (.main u)).2) := by
  have hun := h.unread
  have hload : (x.1.exec u).1.load + (x.2 + 1) ≤ 32 ∨ (x.1.exec u).1.load ≤ 19 := by
    have hold := h.load
    have hnew := load_exec (d := x.1) u
    omega
  refine ⟨h.ord.step (fun _ => ?_) (.main u), hload, ?_, ?_⟩
  · rw [Firmware.unread] at hun
    omega
  · change Firmware.unread (log ++ (x.1.exec u).2) ≤ 2
    by_cases hr : x.1.pc = .serialRead
    · rw [unread_serialRead log u hr]
      omega
    · rw [unread_exec log u hr]
      exact hun
  · intro hx
    rcases List.mem_append.mp hx with hx | hx
    · exact h.silent hx
    · cases emits_of_mem_exec hx

theorem KeepsUp.receive (h : KeepsUp x log) (hapart : 13 ≤ x.2) (c : UInt8) :
    KeepsUp (timedStep x (.rx c)).1 (log ++ (timedStep x (.rx c)).2) := by
  have hun := h.unread
  have hold := h.load
  have hnew := load_receive x.1 c
  have hord : InOrder (x.1.receive c).1 (log ++ (x.1.receive c).2) :=
    h.ord.step (fun _ => by rw [Firmware.unread] at hun; omega) (.rx c)
  refine ⟨hord, Or.inl ?_, unread_le_of_load hord (by omega) ?_, ?_⟩
  · change (x.1.receive c).1.load + 0 ≤ 32
    omega
  · change Firmware.unread (log ++ (x.1.receive c).2) ≤ 255
    rw [unread_receive h.ord.ring.le]
    omega
  · intro hx
    rcases List.mem_append.mp hx with hx | hx
    · exact h.silent hx
    · change _ ∈ (x.1.receive c).2 at hx
      rw [Device.receive, overrun_eq_false h.load_le] at hx
      exact absurd hx (by simp)

theorem KeepsUp.step (h : KeepsUp x log) (e : Event) (hapart : Apart x e) :
    KeepsUp (timedStep x e).1 (log ++ (timedStep x e).2) := by
  cases e with
  | rx c => exact h.receive (hapart rfl) c
  | main u => exact h.exec u

/-- **Bytes at least thirteen statements apart are kept up with**, at every moment of the run. -/
theorem exists_keepsUp {es : List Event}
    (hapart : Guarded timedStep (fun x _ e => Apart x e) (Device.powerUp, 13) es) :
    ∃ n, KeepsUp ((run es).1, n) (run es).2 := by
  have hrun : runFrom Device.step Device.powerUp es =
      ((runFrom timedStep (Device.powerUp, 13) es).1.1,
        (runFrom timedStep (Device.powerUp, 13) es).2) :=
    runFrom_map timedStep Prod.fst (fun _ _ => rfl) (Device.powerUp, 13) es
  have hinv := runFrom_invariant_of_guard (P := KeepsUp) keepsUp_powerUp
    (fun _ _ e h hg => h.step e hg) hapart
  rw [run, hrun]
  exact ⟨_, hinv⟩

/-- **How fast bytes may come.** In every run in which each byte comes at least thirteen statements
after the one before it, whatever the bytes are and whatever the hardware answers, no more than two
bytes are ever unread, all that is read is what was received, in order, and no `X` is printed. -/
theorem run_keeps_up {es : List Event}
    (hapart : Guarded timedStep (fun x _ e => Apart x e) (Device.powerUp, 13) es) :
    (∀ pre, pre <+: es → unread (run pre).2 ≤ 2) ∧ consumed (run es).2 <+: received (run es).2 ∧
      .printed chX ∉ (run es).2 := by
  obtain ⟨n, hend⟩ := exists_keepsUp hapart
  refine ⟨fun pre hpre => ?_, hend.ord.isPrefix, hend.silent⟩
  obtain ⟨n, hthen⟩ := exists_keepsUp (hapart.of_isPrefix hpre)
  exact hthen.unread

/-- Two digits, thirteen statements apart, while the host takes reports. -/
theorem run_keeps_up_two :
    ∃ es : List Event, received (run es).2 = [0x30, 0x31] ∧ .printed chX ∉ (run es).2 := by
  let es := [Event.rx 0x30] ++ List.replicate 13 (.main Usb.poll) ++ [.rx 0x31]
  have hapart : Guarded timedStep (fun x _ e => Apart x e) (Device.powerUp, 13) es :=
    guarded_of_guardedFrom (by decide)
  exact ⟨es, by decide, (run_keeps_up hapart).2.2⟩

end Firmware

end SwitchController
