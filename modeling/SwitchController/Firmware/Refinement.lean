import SwitchController.Firmware.Device

/-!
# The statements refine the byte

The main loop takes up to fourteen statements over a byte that
`SwitchController.Firmware.serialByte` takes at once, and the interrupt runs between
them. The two are compared at every statement by *finishing the byte*:
`SwitchController.Firmware.Device.settle` is what the parser and the log will be once
the statements left of the current byte have run. Executing one of them changes
nothing there; reading the next byte from the ring is the one statement that does, by
exactly one `serialByte`; and the interrupt never does.

So at every point of every run the parser is where `serialTask` would be on the bytes
read so far (`SwitchController.Firmware.run_faithful`), and the questions about frames are
questions about that function. The reports are compared the same way: whatever the
stack held, a report returned by `GetNextReport` holds the last frame latched
(`SwitchController.Firmware.run_report`).
-/

namespace SwitchController

namespace Firmware

open EventMachine

/-! ### What the log records, one observation more -/

@[simp] theorem received_nil : received [] = [] := rfl

@[simp] theorem consumed_nil : consumed [] = [] := rfl

@[simp] theorem effects_nil : effects [] = [] := rfl

@[simp] theorem latches_nil : latches [] = [] := rfl

@[simp] theorem received_append (log log' : List Obs) :
    received (log ++ log') = received log ++ received log' := by
  simp [received]

@[simp] theorem consumed_append (log log' : List Obs) :
    consumed (log ++ log') = consumed log ++ consumed log' := by
  simp [consumed]

@[simp] theorem effects_append (log log' : List Obs) :
    effects (log ++ log') = effects log ++ effects log' := by
  simp [effects]

@[simp] theorem latches_append (log log' : List Obs) :
    latches (log ++ log') = latches log ++ latches log' := by
  simp [latches]

variable {d : Device}

/-- What the interrupt adds to the log. -/
theorem received_receive (log : List Obs) (d : Device) (c : UInt8) :
    received (log ++ (d.receive c).2) = received log ++ [c] := by
  rw [received_append, Device.receive]
  cases d.overrun <;> rfl

theorem consumed_receive (log : List Obs) (d : Device) (c : UInt8) :
    consumed (log ++ (d.receive c).2) = consumed log := by
  rw [consumed_append, Device.receive]
  cases d.overrun <;> exact List.append_nil _

theorem effects_receive (d : Device) (c : UInt8) : effects (d.receive c).2 = [] := by
  rw [Device.receive]
  cases d.overrun <;> rfl

/-! ### What a statement can be seen to do -/

/-- **The observations of the main loop**, each with the one statement that makes it. -/
inductive Device.Emits (d : Device) : Obs → Prop
  /-- The last field of a report is assigned. -/
  | report (via : Path) : d.pc = .fill via .ry →
      d.Emits (.report via (d.report.assign d.parser.latched .ry))
  /-- The report is sent. -/
  | transmitted (via : Path) : d.pc = .write via → d.Emits (.transmitted via d.report)
  /-- `HID_Task` ends. -/
  | printed : d.pc = .printU → d.Emits (.printed chU)
  /-- A byte is read. -/
  | consumed : d.pc = .serialRead → d.Emits (.consumed (d.buffer d.bufferTail))
  /-- The last of the globals is assigned. -/
  | latch : d.pc = .latch .ry →
      d.Emits (.effect (.latch (d.parser.latched.assign d.parser.b .ry)))
  /-- A digit is stored. -/
  | store : d.pc = .orNibble → d.Emits (.effect (.store (d.parser.l.toNat / 2)))

/-- A statement is seen to do one thing at most. -/
theorem exec_obs (d : Device) (u : Usb) :
    (d.exec u).2 = [] ∨ ∃ o, (d.exec u).2 = [o] ∧ d.Emits o := by
  obtain ⟨buf, hd, tl, p, pc, c, v, r⟩ := d
  cases pc with
  | fill via f =>
    cases f with
    | ry => exact Or.inr ⟨_, rfl, .report via rfl⟩
    | _ => exact Or.inl rfl
  | latch f =>
    cases f with
    | ry => exact Or.inr ⟨_, rfl, .latch rfl⟩
    | _ => exact Or.inl rfl
  | write via => exact Or.inr ⟨_, rfl, .transmitted via rfl⟩
  | printU => exact Or.inr ⟨_, rfl, .printed rfl⟩
  | serialRead => exact Or.inr ⟨_, rfl, .consumed rfl⟩
  | orNibble => exact Or.inr ⟨_, rfl, .store rfl⟩
  | hidIn | usbTask =>
    simp only [Device.exec]
    split <;> exact Or.inl rfl
  | _ => exact Or.inl rfl

theorem emits_of_mem_exec {u : Usb} {o : Obs} (ho : o ∈ (d.exec u).2) : d.Emits o := by
  rcases exec_obs d u with hnil | ⟨o', hone, hemits⟩
  · exact absurd (hnil ▸ ho) List.not_mem_nil
  · rw [hone] at ho
    exact List.mem_singleton.mp ho ▸ hemits

/-- The main loop receives nothing. -/
theorem received_exec (log : List Obs) (d : Device) (u : Usb) :
    received (log ++ (d.exec u).2) = received log := by
  have hnil : received (d.exec u).2 = [] := by
    refine List.filterMap_eq_nil_iff.mpr fun o ho => ?_
    cases emits_of_mem_exec ho <;> rfl
  rw [received_append, hnil, List.append_nil]

/-- Only `serialRead` reads. -/
theorem consumed_exec (log : List Obs) (u : Usb) (h : d.pc ≠ .serialRead) :
    consumed (log ++ (d.exec u).2) = consumed log := by
  have hnil : consumed (d.exec u).2 = [] := by
    refine List.filterMap_eq_nil_iff.mpr fun o ho => ?_
    cases emits_of_mem_exec ho with
    | consumed hpc => exact absurd hpc h
    | _ => rfl
  rw [consumed_append, hnil, List.append_nil]

theorem consumed_serialRead (log : List Obs) (u : Usb) (h : d.pc = .serialRead) :
    consumed (log ++ (d.exec u).2) = consumed log ++ [d.buffer d.bufferTail] := by
  rw [consumed_append, Device.exec, h]
  rfl

/-- Outside the loop body nothing happens to the frame or the globals. -/
theorem effects_exec (u : Usb) (h : d.pc.inBody = false) : effects (d.exec u).2 = [] := by
  refine List.filterMap_eq_nil_iff.mpr fun o ho => ?_
  cases emits_of_mem_exec ho with
  | latch hpc | store hpc => exact absurd h (by simp [hpc, Pc.inBody])
  | _ => rfl

/-! ### Finishing the byte -/

/-- The statements for a byte that is not a line end. -/
def Parser.digit (p : Parser) (v : UInt8) : Parser × List Effect :=
  if v = 0xff then (p, [])
  else ({ p.orNibble v with l := p.l + 1 }, [.store (p.l.toNat / 2)])

/-- The parser with the globals from a given one on assigned from the frame, and the next
line started. -/
def Parser.latchFrom (p : Parser) (f : Field) : Parser × List Effect :=
  ({ p with latched := f.latchRest.foldl (Latched.assign p.b) p.latched }.newLine,
    [.latch (f.latchRest.foldl (Latched.assign p.b) p.latched)])

/-- **The byte finished**: where the parser will be, and what will have been observed of
it, once the statements left of the current byte have run. -/
def Device.settle (d : Device) : Parser × List Effect :=
  match d.pc with
  | .serialTest => serialByte d.parser d.c
  | .serialIf => if d.parser.l = 14 then d.parser.latchFrom .hat else (d.parser.newLine, [])
  | .latch f => d.parser.latchFrom f
  | .resetL => (d.parser.newLine, [])
  | .clearB => ({ d.parser with b := fun _ => 0 }, [])
  | .setVal => d.parser.digit (hexVal d.c)
  | .testVal => d.parser.digit d.val
  | .orNibble =>
      ({ d.parser.orNibble d.val with l := d.parser.l + 1 }, [.store (d.parser.l.toNat / 2)])
  | .incL => ({ d.parser with l := d.parser.l + 1 }, [])
  | _ => (d.parser, [])

/-- Outside the loop body there is nothing to finish. -/
theorem settle_of_not_inBody (h : d.pc.inBody = false) : d.settle = (d.parser, []) := by
  obtain ⟨buf, hd, tl, p, pc, c, v, r⟩ := d
  cases pc <;> first | rfl | exact absurd h (by simp [Pc.inBody])

/-- The six assignments in turn set every global from the frame. -/
theorem latchRest_hat (b : Fin 7 → UInt8) (g : Latched) :
    Field.hat.latchRest.foldl (Latched.assign b) g = Latched.ofFrame b := rfl

theorem serialByte_eq_latchFrom {p : Parser} {c : UInt8} (hc : isEol c = true) :
    serialByte p c = if p.l = 14 then p.latchFrom .hat else (p.newLine, []) := by
  rw [serialByte, if_pos hc, Parser.latchFrom, latchRest_hat]

theorem serialByte_eq_digit {p : Parser} {c : UInt8} (hc : isEol c = false) :
    serialByte p c = p.digit (hexVal c) := by
  rw [serialByte, if_neg (by simp [hc]), Parser.digit]

/-- An assignment to a global, and those after it. -/
theorem latchFrom_eq (p : Parser) (f : Field) (hf : f ≠ .ry) :
    ∃ f', Pc.afterLatch f = .latch f' ∧
      p.latchFrom f = { p with latched := p.latched.assign p.b f }.latchFrom f' := by
  cases f with
  | ry => exact absurd rfl hf
  | hat => exact ⟨.button, rfl, rfl⟩
  | button => exact ⟨.lx, rfl, rfl⟩
  | lx => exact ⟨.ly, rfl, rfl⟩
  | ly => exact ⟨.rx, rfl, rfl⟩
  | rx => exact ⟨.ry, rfl, rfl⟩

/-- Outside the loop body a statement leaves the parser alone and stays outside, unless it
reads a byte. -/
theorem exec_of_not_inBody (u : Usb) (h : d.pc.inBody = false) (hr : d.pc ≠ .serialRead) :
    (d.exec u).1.pc.inBody = false ∧ (d.exec u).1.parser = d.parser := by
  obtain ⟨buf, hd, tl, p, pc, c, v, r⟩ := d
  cases pc with
  | hidTask =>
    refine ⟨?_, rfl⟩
    change (if u.state = .configured then Pc.hidOut else Pc.usbTask).inBody = false
    split <;> rfl
  | serialWhile =>
    refine ⟨?_, rfl⟩
    change (if tl ≠ hd then Pc.serialRead else Pc.hidTask).inBody = false
    split <;> rfl
  | hidIn | usbTask =>
    simp only [Device.exec]
    split <;> exact ⟨rfl, rfl⟩
  | fill via f => cases f <;> exact ⟨rfl, rfl⟩
  | write via => cases via <;> exact ⟨rfl, rfl⟩
  | hidOut | printU => exact ⟨rfl, rfl⟩
  | serialRead => exact absurd rfl hr
  | _ => exact absurd h (by simp [Pc.inBody])

/-- **A statement does not change where the byte is going**, unless it is the one that reads
the next byte: what it observes is what was left to observe. -/
theorem settle_exec (u : Usb) (h : d.pc ≠ .serialRead) :
    (d.exec u).1.settle.1 = d.settle.1 ∧
      effects (d.exec u).2 ++ (d.exec u).1.settle.2 = d.settle.2 := by
  by_cases hb : d.pc.inBody = false
  · obtain ⟨hpc, hp⟩ := exec_of_not_inBody u hb h
    rw [settle_of_not_inBody hpc, settle_of_not_inBody hb, hp, effects_exec u hb]
    exact ⟨rfl, rfl⟩
  · obtain ⟨buf, hd, tl, p, pc, c, v, r⟩ := d
    cases pc with
    | serialTest =>
      cases hc : isEol c with
      | true => simp [Device.exec, Device.settle, hc, serialByte_eq_latchFrom hc]
      | false => simp [Device.exec, Device.settle, hc, serialByte_eq_digit hc]
    | serialIf =>
      by_cases hl : p.l = 14
      · simp [Device.exec, Device.settle, hl]
      · simp [Device.exec, Device.settle, hl]
    | latch f =>
      by_cases hf : f = .ry
      · subst hf
        exact ⟨rfl, rfl⟩
      · obtain ⟨f', hpc, hlatch⟩ := latchFrom_eq p f hf
        simp [Device.exec, Device.settle, hpc, hf, hlatch]
    | testVal =>
      by_cases hv : v = 0xff
      · simp [Device.exec, Device.settle, Parser.digit, hv]
      · simp [Device.exec, Device.settle, Parser.digit, hv]
    | resetL | clearB | setVal | orNibble | incL | incTail => exact ⟨rfl, rfl⟩
    | _ => exact absurd rfl hb

/-- The interrupt leaves the main loop where it is. -/
theorem settle_receive (d : Device) (c : UInt8) : (d.receive c).1.settle = d.settle := rfl

/-- **Reading a byte is one `serialByte`.** -/
theorem settle_serialRead (u : Usb) (h : d.pc = .serialRead) :
    (d.exec u).1.settle = serialByte d.settle.1 (d.buffer d.bufferTail) ∧
      effects (d.exec u).2 = [] ∧ d.settle.2 = [] := by
  obtain ⟨buf, hd, tl, p, pc, c, v, r⟩ := d
  obtain rfl : pc = .serialRead := h
  exact ⟨rfl, rfl, rfl⟩

/-- The log has every byte that arrived. -/
theorem received_run (es : List Event) : received (run es).2 = es.filterMap Event.byte? := by
  induction es using List.reverseRecOn with
  | nil => rfl
  | append_singleton es e ih =>
    rw [List.filterMap_append, ← ih, run, runFrom_concat]
    rcases e with c | u
    · exact received_receive _ _ c
    · rw [Device.step, received_exec]
      exact (List.append_nil _).symm

/-- No more bytes are unread than events have happened. -/
theorem unread_run_le (es : List Event) : unread (run es).2 ≤ es.length := by
  rw [unread, received_run]
  exact (Nat.sub_le _ _).trans (List.length_filterMap_le _ _)

/-- **The firmware parses what it has read**: at every point of a run, the parser with the
current byte finished is where `serialTask` is on the bytes read so far, and so is what
has been observed of it. -/
def Settled (d : Device) (log : List Obs) : Prop :=
  d.settle.1 = (serialTask Parser.powerUp (consumed log)).1 ∧
    effects log ++ d.settle.2 = (serialTask Parser.powerUp (consumed log)).2

theorem Settled.step {log : List Obs} (h : Settled d log) (e : Event) :
    Settled (d.step e).1 (log ++ (d.step e).2) := by
  obtain ⟨hp, he⟩ := h
  cases e with
  | rx c =>
    change Settled (d.receive c).1 (log ++ (d.receive c).2)
    refine ⟨?_, ?_⟩
    · rw [settle_receive, consumed_receive, hp]
    · rw [settle_receive, consumed_receive, effects_append, effects_receive, List.append_nil, he]
  | main u =>
    change Settled (d.exec u).1 (log ++ (d.exec u).2)
    by_cases hr : d.pc = .serialRead
    · obtain ⟨hset, heff, hpend⟩ := settle_serialRead u hr
      rw [hpend, List.append_nil] at he
      refine ⟨?_, ?_⟩
      · rw [consumed_serialRead log u hr, serialTask_append, hset, hp]
        rfl
      · rw [consumed_serialRead log u hr, serialTask_append, effects_append, heff, List.append_nil,
          hset, hp, he]
        simp [serialTask, runFrom_cons]
    · obtain ⟨hset, hobs⟩ := settle_exec u hr
      refine ⟨?_, ?_⟩
      · rw [consumed_exec log u hr, hset, hp]
      · rw [consumed_exec log u hr, effects_append, List.append_assoc, hobs, he]

/-! ### The frames to come -/

/-- The frames latched, together with the one the current byte is about to latch. -/
def foretold (d : Device) (log : List Obs) : List Latched :=
  latches log ++ d.settle.2.filterMap Effect.latched?

variable {log : List Obs}

theorem foretold_receive (c : UInt8) :
    foretold (d.receive c).1 (log ++ (d.receive c).2) = foretold d log := by
  rw [foretold, latches_append, settle_receive, latches, latches, effects_receive, foretold,
    latches, List.filterMap_nil, List.append_nil]

theorem foretold_exec (u : Usb) (hr : d.pc ≠ .serialRead) :
    foretold (d.exec u).1 (log ++ (d.exec u).2) = foretold d log := by
  obtain ⟨-, hobs⟩ := settle_exec u hr
  rw [foretold, foretold, ← hobs, List.filterMap_append, latches_append, List.append_assoc]
  rfl

theorem foretold_serialRead (u : Usb) (hr : d.pc = .serialRead) :
    foretold (d.exec u).1 (log ++ (d.exec u).2) =
      foretold d log ++
        (serialByte d.settle.1 (d.buffer d.bufferTail)).2.filterMap Effect.latched? := by
  obtain ⟨hset, heff, hpend⟩ := settle_serialRead u hr
  have hnone : latches (d.exec u).2 = [] := by rw [latches, heff, List.filterMap_nil]
  rw [foretold, foretold, hset, hpend, latches_append, hnone, List.filterMap_nil]

/-- They are what the parser latches of the bytes read. -/
theorem Settled.foretold_eq (h : Settled d log) :
    foretold d log = (serialTask Parser.powerUp (consumed log)).2.filterMap Effect.latched? := by
  rw [foretold, latches, ← List.filterMap_append, h.2]

/-- A frame being latched is one more. -/
theorem length_foretold_of_latch {f : Field} (hpc : d.pc = .latch f) :
    (foretold d log).length = (latches log).length + 1 := by
  rw [foretold, List.length_append, Device.settle, hpc]
  rfl

/-! ### The reports -/

/-- The globals as the log has them: the last frame latched, or the values they were
initialised to. -/
def lastLatched (log : List Obs) : Latched := (latches log).getLast?.getD Latched.powerUp

/-- Between two bytes the globals hold the last frame latched. -/
theorem Settled.latched_eq {log : List Obs} (h : Settled d log) (hb : d.pc.inBody = false) :
    d.parser.latched = lastLatched log := by
  obtain ⟨hp, he⟩ := h
  have hlast := latched_serialTask Parser.powerUp (consumed log)
  rw [settle_of_not_inBody hb] at hp he
  rw [← hp, ← he, List.append_nil] at hlast
  exact hlast

/-- **A report being filled**: the fields already assigned are those of the globals, so that
the assignments left make it what `GetNextReport` makes of any report. -/
structure Filling (d : Device) : Prop where
  /-- While the fields are assigned. -/
  fill : ∀ via f, d.pc = .fill via f →
    f.fillRest.foldl (Report.assign d.parser.latched) d.report =
      getNextReport d.parser.latched d.report
  /-- Once they all are. -/
  write : ∀ via, d.pc = .write via → d.report.state = d.parser.latched

/-- `GetNextReport` overwrites what one of its assignments wrote. -/
theorem getNextReport_assign (g : Latched) (r : Report) (f : Field) :
    getNextReport g (r.assign g f) = getNextReport g r := by
  cases f <;> rfl

theorem state_getNextReport (g : Latched) (r : Report) : (getNextReport g r).state = g := rfl

theorem fillRest_ry {g : Latched} {r : Report}
    (h : Field.ry.fillRest.foldl (Report.assign g) r = getNextReport g r) :
    (r.assign g .ry).state = g := by
  have hr : r.assign g .ry = getNextReport g r := h
  rw [hr, state_getNextReport]

/-- An assignment to a field of a report, and those after it. -/
theorem fillRest_eq (f : Field) (hf : f ≠ .ry) :
    ∃ f', (∀ via, Pc.afterFill via f = .fill via f') ∧ f.fillRest = f :: f'.fillRest := by
  cases f with
  | ry => exact absurd rfl hf
  | button => exact ⟨.hat, fun _ => rfl, rfl⟩
  | hat => exact ⟨.lx, fun _ => rfl, rfl⟩
  | lx => exact ⟨.ly, fun _ => rfl, rfl⟩
  | ly => exact ⟨.rx, fun _ => rfl, rfl⟩
  | rx => exact ⟨.ry, fun _ => rfl, rfl⟩

/-- A statement that starts or ends no report. -/
theorem filling_of_pc (hf : ∀ via f, d.pc ≠ .fill via f) (hw : ∀ via, d.pc ≠ .write via) :
    Filling d :=
  ⟨fun via f h => absurd h (hf via f), fun via h => absurd h (hw via)⟩

theorem Filling.exec (h : Filling d) (u : Usb) : Filling (d.exec u).1 := by
  obtain ⟨buf, hd, tl, p, pc, c, v, r⟩ := d
  cases pc with
  | fill via f =>
    have hfill := h.fill via f rfl
    by_cases hf : f = .ry
    · subst hf
      exact ⟨fun _ _ hpc => absurd hpc (by simp [Device.exec, Pc.afterFill]),
        fun _ _ => fillRest_ry hfill⟩
    · obtain ⟨f', hpc, hrest⟩ := fillRest_eq f hf
      refine ⟨fun via' g hg => ?_, fun via' hw => ?_⟩
      · obtain ⟨-, rfl⟩ : via = via' ∧ f' = g := by
          simpa [Device.exec, hpc] using hg
        change f'.fillRest.foldl (Report.assign p.latched) (r.assign p.latched f) =
          getNextReport p.latched (r.assign p.latched f)
        rw [getNextReport_assign, ← hfill, hrest]
        rfl
      · exact absurd hw (by simp [Device.exec, hpc])
  | hidIn =>
    by_cases hu : u.inReady = true
    · refine ⟨fun via f hpc => ?_, fun via hpc => ?_⟩
      · obtain ⟨-, rfl⟩ : Path.hidTask = via ∧ Field.button = f := by
          simpa [Device.exec, hu] using hpc
        rfl
      · exact absurd hpc (by simp [Device.exec, hu])
    · exact filling_of_pc (by simp [Device.exec, hu]) (by simp [Device.exec, hu])
  | usbTask =>
    by_cases hu : u.state ≠ .unattached ∧ u.setup.any Setup.isGetReport
    · refine ⟨fun via f hpc => ?_, fun via hpc => ?_⟩
      · obtain ⟨-, rfl⟩ : Path.controlRequest = via ∧ Field.button = f := by
          simpa [Device.exec, hu] using hpc
        rfl
      · exact absurd hpc (by simp [Device.exec, hu])
    · simp only [Device.exec, if_neg hu]
      exact filling_of_pc (by simp) (by simp)
  | write via =>
    refine filling_of_pc ?_ ?_ <;> cases via <;> simp [Device.exec]
  | latch f =>
    refine filling_of_pc ?_ ?_ <;> cases f <;> simp [Device.exec, Pc.afterLatch]
  | hidTask | serialWhile | serialTest | serialIf | testVal =>
    refine filling_of_pc ?_ ?_ <;> simp only [Device.exec] <;> split <;> simp
  | _ => refine filling_of_pc ?_ ?_ <;> simp [Device.exec]

/-- A report holds the last frame latched before it. -/
def Obs.Current (pre : List Obs) : Obs → Prop
  | .report _ r => r.state = lastLatched pre
  | .transmitted _ r => r.state = lastLatched pre
  | _ => True

/-- The observations of the interrupt concern no report. -/
theorem everywhere_current_receive (log : List Obs) (d : Device) (c : UInt8) :
    Everywhere (fun pre o => Obs.Current (log ++ pre) o) (d.receive c).2 := by
  refine everywhere_of_forall fun pre o ho => ?_
  rw [Device.receive] at ho
  cases hx : d.overrun with
  | true =>
    obtain rfl | rfl : o = .printed chX ∨ o = .received c := by simpa [hx] using ho
    · trivial
    · trivial
  | false =>
    obtain rfl : o = .received c := by simpa [hx] using ho
    trivial

theorem everywhere_current_exec {log : List Obs} (hs : Settled d log) (hf : Filling d) (u : Usb) :
    Everywhere (fun pre o => Obs.Current (log ++ pre) o) (d.exec u).2 := by
  rcases exec_obs d u with hnil | ⟨o, hone, hemits⟩
  · rw [hnil]
    exact everywhere_nil _
  · rw [hone, everywhere_singleton, List.append_nil]
    cases hemits with
    | report via hpc =>
      change (d.report.assign d.parser.latched .ry).state = lastLatched log
      rw [fillRest_ry (hf.fill via .ry hpc), hs.latched_eq (by rw [hpc]; rfl)]
    | transmitted via hpc =>
      change d.report.state = lastLatched log
      rw [hf.write via hpc, hs.latched_eq (by rw [hpc]; rfl)]
    | printed | consumed | latch | store => trivial

/-- **What every run keeps**: the parser is where the bytes read have brought it, the report
is what the globals make of it, and every report in the log was up to date. -/
structure Faithful (d : Device) (log : List Obs) : Prop where
  /-- The parser. -/
  settled : Settled d log
  /-- The report being filled. -/
  filling : Filling d
  /-- The reports there are. -/
  current : Everywhere Obs.Current log

theorem faithful_powerUp : Faithful Device.powerUp [] where
  settled := ⟨rfl, rfl⟩
  filling := filling_of_pc (by simp [Device.powerUp]) (by simp [Device.powerUp])
  current := everywhere_nil _

theorem Faithful.step {log : List Obs} (h : Faithful d log) (e : Event) :
    Faithful (d.step e).1 (log ++ (d.step e).2) := by
  rcases e with c | u
  · exact ⟨h.settled.step _, ⟨h.filling.fill, h.filling.write⟩,
      everywhere_append.mpr ⟨h.current, everywhere_current_receive log d c⟩⟩
  · exact ⟨h.settled.step _, h.filling.exec u,
      everywhere_append.mpr ⟨h.current, everywhere_current_exec h.settled h.filling u⟩⟩

theorem run_faithful (es : List Event) : Faithful (run es).1 (run es).2 :=
  runFrom_invariant faithful_powerUp (fun _ _ e h => h.step e) es

/-- **Every report holds the last frame latched before it**, or the power-up values: none is
torn, and none is older than the frame it was filled after. -/
theorem run_report (es : List Event) : Everywhere Obs.Current (run es).2 :=
  (run_faithful es).current

end Firmware

end SwitchController
