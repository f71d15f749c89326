import SwitchController.Firmware.Refinement
import SwitchController.Firmware.Descriptor

/-!
# What the reports give away

A report is declared on the stack and not cleared, and `GetNextReport` assigns six of its seven
fields: `VendorSpec` is transmitted with whatever the stack happened to hold. So two runs that
differ in the contents of the stack only
(`SwitchController.Firmware.Event.masked` hides them) transmit reports that agree in all
fields but this one (`SwitchController.Firmware.run_masked`), and in this one exactly when the
stacks did (`SwitchController.Firmware.transmitted_eq_iff`).
-/

namespace SwitchController

namespace Firmware

open EventMachine

/-! ### Two runs -/

/-- A report without `VendorSpec`. -/
def Report.masked (r : Report) : Report := { r with vendorSpec := 0 }

/-- The answers of the USB hardware without the contents of the stack. -/
def Usb.masked (u : Usb) : Usb := { u with stack := ⟨0, 0, 0, 0, 0, 0, 0⟩ }

/-- An event without the contents of the stack. -/
def Event.masked : Event → Event
  | .rx c => .rx c
  | .main u => .main u.masked

/-- An observation without `VendorSpec`. -/
def Obs.masked : Obs → Obs
  | .report via r => .report via r.masked
  | .transmitted via r => .transmitted via r.masked
  | o => o

/-- **Two devices that differ in their reports only**, each of which is being filled. -/
structure Alike (d d' : Device) : Prop where
  same : ∃ r, d' = { d with report := r }
  left : Filling d
  right : Filling d'

theorem masked_eq_of_state {r r' : Report} (h : r.state = r'.state) : r.masked = r'.masked := by
  obtain ⟨button, hat, lx, ly, rx, ry, v⟩ := r
  obtain ⟨button', hat', lx', ly', rx', ry', v'⟩ := r'
  simp only [Report.state, Latched.mk.injEq] at h
  obtain ⟨rfl, rfl, rfl, rfl, rfl, rfl⟩ := h
  rfl

variable {d d' : Device}

/-- **A statement does not look at the report.** -/
theorem Alike.exec (h : Alike d d') {u u' : Usb} (hu : u.masked = u'.masked) :
    Alike (d.exec u).1 (d'.exec u').1 ∧
      (d.exec u).2.map Obs.masked = (d'.exec u').2.map Obs.masked := by
  obtain ⟨⟨r', rfl⟩, hleft, hright⟩ := h
  suffices (∃ r, (Device.exec { d with report := r' } u').1 = { (d.exec u).1 with report := r }) ∧
      (d.exec u).2.map Obs.masked = (Device.exec { d with report := r' } u').2.map Obs.masked from
    ⟨⟨this.1, hleft.exec u, hright.exec u'⟩, this.2⟩
  obtain ⟨state, ready, setup, stack⟩ := u
  obtain ⟨state', ready', setup', stack'⟩ := u'
  obtain ⟨rfl, rfl, rfl⟩ : state = state' ∧ ready = ready' ∧ setup = setup' := by
    simpa [Usb.masked] using hu
  obtain ⟨buf, hd, tl, p, pc, c, v, r⟩ := d
  cases pc with
  | fill via f =>
    refine ⟨⟨_, rfl⟩, ?_⟩
    by_cases hf : f = .ry
    · subst hf
      have hstate := fillRest_ry (hleft.fill via .ry rfl)
      have hstate' := fillRest_ry (hright.fill via .ry rfl)
      simpa [Device.exec, Obs.masked] using masked_eq_of_state (hstate.trans hstate'.symm)
    · simp [Device.exec, hf]
  | write via =>
    refine ⟨⟨_, rfl⟩, ?_⟩
    have hstate := (hleft.write via rfl).trans (hright.write via rfl).symm
    simpa [Device.exec, Obs.masked] using masked_eq_of_state hstate
  | hidIn | usbTask =>
    simp only [Device.exec]
    split
    · exact ⟨⟨_, rfl⟩, rfl⟩
    · exact ⟨⟨_, rfl⟩, rfl⟩
  | _ => exact ⟨⟨_, rfl⟩, rfl⟩

theorem Alike.step (h : Alike d d') {e e' : Event} (he : e.masked = e'.masked) :
    Alike (d.step e).1 (d'.step e').1 ∧
      (d.step e).2.map Obs.masked = (d'.step e').2.map Obs.masked := by
  rcases e with c | u <;> rcases e' with c' | u'
  · obtain rfl : c = c' := by simpa [Event.masked] using he
    obtain ⟨⟨r', rfl⟩, hleft, hright⟩ := h
    exact ⟨⟨⟨_, rfl⟩, ⟨hleft.fill, hleft.write⟩, ⟨hright.fill, hright.write⟩⟩, rfl⟩
  · exact absurd he (by simp [Event.masked])
  · exact absurd he (by simp [Event.masked])
  · exact h.exec (by simpa [Event.masked] using he)

/-- **The stack shows in `VendorSpec` at most.** -/
theorem run_masked {es es' : List Event} (h : es.map Event.masked = es'.map Event.masked) :
    (run es).2.map Obs.masked = (run es').2.map Obs.masked := by
  have hfilling := faithful_powerUp.filling
  exact (runFrom_lockstep Device.step (R := Alike) Event.masked Obs.masked
    (fun _ _ _ _ hR he => hR.step he) ⟨⟨_, rfl⟩, hfilling, hfilling⟩ h).2

/-! ### The stacks -/

/-- **The stack a report is declared on**, where the event declares one. -/
def Device.declares (d : Device) : Event → Option Report
  | .rx _ => none
  | .main u => match d.pc with
      | .hidIn => if u.inReady then some u.stack else none
      | .usbTask =>
          if u.state ≠ .unattached ∧ u.setup.any Setup.isGetReport then some u.stack else none
      | _ => none

/-- The stacks reports are declared on, in order. -/
def declared (d : Device) : List Event → List Report
  | [] => []
  | e :: es => (d.declares e).toList ++ declared (d.step e).1 es

/-- `VendorSpec` of the report that is being filled, if one is. -/
def Device.undelivered (d : Device) : List UInt8 :=
  match d.pc with
  | .fill _ _ | .write _ => [d.report.vendorSpec]
  | _ => []

/-- `VendorSpec` of the reports sent. -/
def vendorSpecs (log : List Obs) : List UInt8 := (transmissions log).map fun x => x.2.vendorSpec

@[simp] theorem transmissions_append (log log' : List Obs) :
    transmissions (log ++ log') = transmissions log ++ transmissions log' := by
  simp [transmissions]

/-- **`VendorSpec` is passed on**: from the stack to the report, and from there to the console. -/
theorem vendorSpecs_step (d : Device) (e : Event) :
    vendorSpecs (d.step e).2 ++ (d.step e).1.undelivered =
      d.undelivered ++ (d.declares e).toList.map Report.vendorSpec := by
  rcases e with c | u
  · have hnone : vendorSpecs (d.receive c).2 = [] := by
      rw [Device.receive]
      cases d.overrun <;> rfl
    rw [Device.step, hnone, Device.declares, Option.toList_none, List.map_nil, List.append_nil]
    rfl
  · obtain ⟨buf, hd, tl, p, pc, c, v, r⟩ := d
    cases pc with
    | fill via f => cases f <;> rfl
    | write via => cases via <;> rfl
    | latch f => cases f <;> rfl
    | hidIn | usbTask =>
      simp only [Device.step, Device.exec, Device.declares]
      split <;> rfl
    | hidTask | serialWhile | serialTest | serialIf | testVal =>
      simp only [Device.step, Device.exec]
      split <;> rfl
    | _ => rfl

/-- **The reports sent carry what the stacks held**, in order; one may be on its way. -/
theorem vendorSpecs_runFrom (d : Device) (es : List Event) :
    vendorSpecs (runFrom Device.step d es).2 ++ (runFrom Device.step d es).1.undelivered =
      d.undelivered ++ (declared d es).map Report.vendorSpec := by
  induction es generalizing d with
  | nil => simp [declared, vendorSpecs, transmissions]
  | cons e es ih =>
    have hone := vendorSpecs_step d e
    rw [vendorSpecs] at hone
    rw [runFrom_cons, vendorSpecs, transmissions_append, List.map_append, List.append_assoc]
    refine (congrArg (_ ++ ·) (ih (d.step e).1)).trans ?_
    rw [← List.append_assoc, hone, declared, List.map_append, List.append_assoc]

/-- What was sent is what was declared first. -/
theorem vendorSpecs_run (es : List Event) :
    vendorSpecs (run es).2 =
      ((declared Device.powerUp es).map Report.vendorSpec).take
        (transmissions (run es).2).length := by
  have hall : vendorSpecs (run es).2 ++ (run es).1.undelivered =
      (declared Device.powerUp es).map Report.vendorSpec := vendorSpecs_runFrom Device.powerUp es
  have hlength : (transmissions (run es).2).length = (vendorSpecs (run es).2).length :=
    (List.length_map _).symm
  rw [← hall, hlength, List.take_left]

/-! ### The bytes -/

/-- The bytes transmitted over USB, those of `HID_Task` and of `EVENT_USB_Device_ControlRequest`
alike. -/
def transmittedBytes (log : List Obs) : List UInt8 := (transmissions log).flatMap fun x => x.2.bytes

/-- Reports that agree but for `VendorSpec` have the same bytes if they agree there too. -/
theorem bytes_eq_iff {L L' : List (Path × Report)}
    (h : L.map (fun x => x.2.masked) = L'.map fun x => x.2.masked) :
    (L.flatMap fun x => x.2.bytes) = (L'.flatMap fun x => x.2.bytes) ↔
      (L.map fun x => x.2.vendorSpec) = L'.map fun x => x.2.vendorSpec := by
  induction L generalizing L' with
  | nil =>
    obtain rfl : L' = [] := List.map_eq_nil_iff.mp h.symm
    exact iff_of_true rfl rfl
  | cons x L ih =>
    obtain ⟨x', rest, rfl, hx, hrest⟩ := List.map_eq_cons_iff.mp h.symm
    have hbytes : x.2.bytes = x'.2.bytes ↔ x.2.vendorSpec = x'.2.vendorSpec := by
      obtain ⟨via, button, hat, lx, ly, rx, ry, v⟩ := x
      obtain ⟨via', button', hat', lx', ly', rx', ry', v'⟩ := x'
      simp only [Report.masked, Report.mk.injEq] at hx
      obtain ⟨rfl, rfl, rfl, rfl, rfl, rfl, -⟩ := hx
      simp [Report.bytes]
    rw [List.flatMap_cons, List.flatMap_cons, List.map_cons, List.map_cons, List.cons.injEq,
      ← hbytes, ← ih hrest.symm]
    exact ⟨fun he => List.append_inj he rfl, fun he => by rw [he.1, he.2]⟩

/-- The reports sent, without `VendorSpec`. -/
theorem transmissions_masked {log log' : List Obs} (h : log.map Obs.masked = log'.map Obs.masked) :
    (transmissions log).map (fun x => (x.1, x.2.masked)) =
      (transmissions log').map fun x => (x.1, x.2.masked) := by
  have hmask : ∀ log : List Obs, (transmissions log).map (fun x => (x.1, x.2.masked)) =
      transmissions (log.map Obs.masked) := fun log => by
    rw [transmissions, transmissions, List.map_filterMap, List.filterMap_map]
    refine List.filterMap_congr fun o _ => ?_
    cases o <;> rfl
  rw [hmask, hmask, h]

/-- **What the console learns about the stack.** Two runs with the same bytes received, the same
interrupts and the same answers of the USB hardware, but any contents of the stack at each use,
send their reports at the same times and agree in everything but `VendorSpec`. The bytes they
transmit are the same exactly when the stacks they declared these reports on hold the same
byte at this place. -/
theorem transmitted_eq_iff {es es' : List Event} (h : es.map Event.masked = es'.map Event.masked) :
    (transmissions (run es).2).map (fun x => (x.1, x.2.masked)) =
      (transmissions (run es').2).map (fun x => (x.1, x.2.masked)) ∧
    (transmittedBytes (run es).2 = transmittedBytes (run es').2 ↔
      ((declared Device.powerUp es).map Report.vendorSpec).take (transmissions (run es).2).length =
        ((declared Device.powerUp es').map Report.vendorSpec).take
          (transmissions (run es').2).length) := by
  have hmasked := transmissions_masked (run_masked h)
  refine ⟨hmasked, ?_⟩
  rw [← vendorSpecs_run, ← vendorSpecs_run]
  refine bytes_eq_iff ?_
  have hreports := congrArg (List.map Prod.snd) hmasked
  rwa [List.map_map, List.map_map] at hreports

/-- A run in which the host asks once by the IN endpoint, with this on the stack. -/
def pollOnce (stack : Report) : List Event :=
  List.replicate 10 (.main { Usb.poll with stack := stack })

/-- Two runs with different stacks that agree at `VendorSpec`. -/
theorem transmitted_eq_pollOnce :
    transmittedBytes (run (pollOnce ⟨1, 2, 3, 4, 5, 6, 0x5a⟩)).2 =
      transmittedBytes (run (pollOnce ⟨6, 5, 4, 3, 2, 1, 0x5a⟩)).2 :=
  (transmitted_eq_iff (by decide)).2.mpr (by decide)

/-- **The stack is transmitted.** -/
theorem transmitted_ne_pollOnce :
    (pollOnce ⟨0, 0, 0, 0, 0, 0, 0⟩).map Event.masked =
        (pollOnce ⟨0, 0, 0, 0, 0, 0, 0x5a⟩).map Event.masked ∧
      transmittedBytes (run (pollOnce ⟨0, 0, 0, 0, 0, 0, 0⟩)).2 = [0, 0, 0, 0, 0, 0, 0, 0] ∧
      transmittedBytes (run (pollOnce ⟨0, 0, 0, 0, 0, 0, 0x5a⟩)).2 =
        [0, 0, 0, 0, 0, 0, 0, 0x5a] := by
  decide

end Firmware

end SwitchController
