import SwitchController.Firmware.Ring

/-!
# Overruns

The interrupt never refuses a byte. With `255` bytes unread it prints `X` and stores the
next one all the same, after which `buffer_head` equals `buffer_tail` and the ring looks
empty. Is a loss always announced? The test `buffer_head == (buffer_tail - 1)` is made in
`int`, so with `buffer_tail` at `0` it compares with `-1` and never holds. Everywhere else
it does its work: `SwitchController.Firmware.run_marked_of_faulty` shows that where no byte
arrives in a full ring with `buffer_tail` at `0`, a loss is preceded by its `X`.

One thing helps the interrupt. While a byte is being worked on, `buffer_tail` still counts
it, so the test holds one byte early; this is why the invariant
`SwitchController.Firmware.Spacious` asks for an `X` already there and not for one to come.
-/

namespace SwitchController

namespace Firmware

open EventMachine RingSlots

variable {d : Device} {w : List UInt8} {t : ℕ} {log : List Obs}

/-! ### A full ring -/

/-- **The ring is full**: the interrupt is about to fill the last slot in front of the next
read, after which the two indices agree. -/
def Device.full (d : Device) : Prop := d.bufferHead + 1 = d.readIndex

instance (d : Device) : Decidable d.full := inferInstanceAs (Decidable (_ = _))

/-- **The blind spot of the overrun test**: a byte arrives in a full ring with `buffer_tail`
at `0`. -/
def Device.BlindSpot (d : Device) : Event → Prop
  | .rx _ => d.full ∧ d.bufferTail = 0
  | .main _ => False

instance (d : Device) : ∀ e, Decidable (d.BlindSpot e)
  | .rx _ => inferInstanceAs (Decidable (_ ∧ _))
  | .main _ => inferInstanceAs (Decidable False)

/-- In terms of positions, the ring is full when a whole number of rounds, less one byte, is
unread. -/
theorem RingAt.full_iff (h : RingAt d w t) : d.full ↔ (w.length + 1) % 256 = t % 256 := by
  rw [Device.full, h.head_eq, h.read_eq, ← wraps_ofNat.eq_iff, UInt8.ofNat_add]
  rfl

/-- **What the overrun test finds out**: the byte before `buffer_tail`, except that there is
none before `0`. -/
theorem overrun_iff (d : Device) :
    d.overrun = true ↔ d.bufferTail ≠ 0 ∧ d.bufferHead + 1 = d.bufferTail := by
  have hh := d.bufferHead.toNat_lt
  have ht := d.bufferTail.toNat_lt
  have h0 : (0 : UInt8).toNat = 0 := rfl
  have h1 : (1 : UInt8).toNat = 1 := rfl
  rw [Device.overrun, beq_iff_eq, Ne, ← UInt8.toNat_inj, ← UInt8.toNat_inj, UInt8.toNat_add,
    h0, h1]
  omega

/-! ### Counting what is unread -/

theorem unread_receive (h : (consumed log).length ≤ (received log).length) (d : Device)
    (c : UInt8) : unread (log ++ (d.receive c).2) = unread log + 1 := by
  rw [unread, received_receive, consumed_receive, List.length_append, List.length_singleton,
    unread]
  omega

theorem unread_exec (log : List Obs) (u : Usb) (hr : d.pc ≠ .serialRead) :
    unread (log ++ (d.exec u).2) = unread log := by
  rw [unread, received_exec, consumed_exec log u hr, unread]

theorem unread_serialRead (log : List Obs) (u : Usb) (hr : d.pc = .serialRead) :
    unread (log ++ (d.exec u).2) = unread log - 1 := by
  rw [unread, received_exec, consumed_serialRead log u hr, List.length_append,
    List.length_singleton, unread]
  omega

/-! ### Announced losses -/

/-- **Something has gone wrong**: what was read is not the beginning of what was received, or
the ring is seen empty with bytes unread. -/
def Faulty (d : Device) (log : List Obs) : Prop :=
  ¬consumed log <+: received log ∨
    (d.pc = .serialWhile ∧ d.bufferTail = d.bufferHead ∧ consumed log ≠ received log)

/-- Every byte so far has come with fewer than `255` unread. -/
def Roomy : List Obs → Prop :=
  Everywhere fun pre o => ∀ c, o = .received c → unread pre < 255

/-- **The overrun was announced**: by the time the first byte came that found `255` unread, an
`X` had been printed. -/
def Marked (log : List Obs) : Prop :=
  ∃ pre c post, log = pre ++ .received c :: post ∧ Roomy pre ∧ unread pre = 255 ∧
    .printed chX ∈ pre

/-- The ring has not been overrun yet; and where it is about to be, with the byte just read
still counted by `buffer_tail`, the `X` is out. -/
structure Spacious (d : Device) (log : List Obs) : Prop where
  /-- The reader is in order. -/
  ord : InOrder d log
  /-- No byte has found `255` unread. -/
  roomy : Roomy log
  /-- Nor are there more. -/
  le : unread log ≤ 255
  /-- The interrupt counts the byte in hand as unread, so it warns one byte early. -/
  warned : d.pc.inBody = true → d.bufferTail ≠ 0 → .printed chX ∉ log → unread log < 255

theorem Marked.append (h : Marked log) (log' : List Obs) : Marked (log ++ log') := by
  obtain ⟨pre, c, post, rfl, hroomy, hun, hx⟩ := h
  exact ⟨pre, c, post ++ log', by simp, hroomy, hun, hx⟩

/-- The main loop receives nothing. -/
theorem roomy_exec (h : Roomy log) (u : Usb) : Roomy (log ++ (d.exec u).2) := by
  refine everywhere_append.mpr ⟨h, everywhere_of_forall fun pre o ho c hc => ?_⟩
  subst hc
  cases emits_of_mem_exec ho

/-- The body of the loop is entered by reading and left by `buffer_tail++`. -/
theorem inBody_exec {u : Usb} (hr : d.pc ≠ .serialRead) (h : (d.exec u).1.pc.inBody = true) :
    d.pc.inBody = true ∧ (d.exec u).1.bufferTail = d.bufferTail := by
  by_cases hb : d.pc.inBody = false
  · have hb' := (exec_of_not_inBody u hb hr).1
    rw [h] at hb'
    exact absurd hb' (by simp)
  · refine ⟨Bool.not_eq_false _ ▸ hb, ?_⟩
    obtain ⟨buf, hd, tl, p, pc, c, v, r⟩ := d
    cases pc with
    | incTail => exact absurd h (by simp [Device.exec, Pc.inBody])
    | hidIn | usbTask => exact absurd rfl hb
    | _ => rfl

theorem Spacious.exec (h : Spacious d log) (u : Usb) :
    Spacious (d.exec u).1 (log ++ (d.exec u).2) := by
  have hle := h.le
  have hstep := h.ord.step (fun _ => by rw [unread] at hle; omega) (.main u)
  by_cases hr : d.pc = .serialRead
  · have hready := h.ord.ring.ready hr
    have hun := unread_serialRead log u hr
    have hpos : 0 < unread log := by rw [unread]; omega
    exact ⟨hstep, roomy_exec h.roomy u, by omega, fun _ _ _ => by omega⟩
  · have hun := unread_exec log u hr
    refine ⟨hstep, roomy_exec h.roomy u, by omega, fun hb ht hx => ?_⟩
    obtain ⟨hb', htail⟩ := inBody_exec hr hb
    rw [htail] at ht
    rw [hun]
    exact h.warned hb' ht fun hmem => hx (List.mem_append_left _ hmem)

/-- A mark changes nothing that is counted. -/
theorem unread_mark (log : List Obs) (b : Bool) :
    unread (log ++ if b then [.printed chX] else []) = unread log := by
  cases b with
  | true =>
    rw [if_pos rfl, unread, received_append, consumed_append, unread]
    simp [received, consumed]
  | false => simp

theorem roomy_mark (h : Roomy log) (b : Bool) :
    Roomy (log ++ if b then [.printed chX] else []) := by
  refine everywhere_append.mpr ⟨h, everywhere_of_forall fun pre o ho c hc => ?_⟩
  subst hc
  cases b <;> simp at ho

/-- With `254` bytes unread beside the one in hand, the interrupt finds `buffer_head` just
before `buffer_tail`. -/
theorem RingAt.head_succ_of_inBody (h : RingAt d w t) (hb : d.pc.inBody = true)
    (hlen : w.length = t + 254) : d.bufferHead + 1 = d.bufferTail := by
  have hread := h.read_eq
  rw [Device.readIndex, if_pos hb, ← UInt8.toNat_inj, UInt8.toNat_add, UInt8.toNat_ofNat'] at hread
  have hh : d.bufferHead.toNat = w.length % 256 := by rw [h.head_eq, UInt8.toNat_ofNat']
  have ht := d.bufferTail.toNat_lt
  have h1 : (1 : UInt8).toNat = 1 := rfl
  rw [← UInt8.toNat_inj, UInt8.toNat_add, hh, h1]
  rw [h1] at hread
  omega

/-- **The byte that overruns the ring is announced**, unless `buffer_tail` is at `0`. -/
theorem Spacious.marked (h : Spacious d log) (hun : unread log = 255)
    (hg : ¬(d.full ∧ d.bufferTail = 0)) (c : UInt8) : Marked (log ++ (d.receive c).2) := by
  have hle := h.ord.ring.le
  have hfull : d.full := by
    rw [h.ord.ring.full_iff]
    rw [unread] at hun
    omega
  have htail : d.bufferTail ≠ 0 := fun h0 => hg ⟨hfull, h0⟩
  refine ⟨log ++ (if d.overrun then [.printed chX] else []), c, [], ?_, roomy_mark h.roomy _,
    (unread_mark log _).trans hun, ?_⟩
  · rw [Device.receive, List.append_assoc]
  · by_cases hx : .printed chX ∈ log
    · exact List.mem_append_left _ hx
    · -- no `X` yet, so no byte is in hand, and the test of the interrupt holds
      have hb : ¬d.pc.inBody = true := fun hb => absurd (h.warned hb htail hx) (by omega)
      have hread : d.readIndex = d.bufferTail := by rw [Device.readIndex, if_neg hb]
      have hover : d.overrun = true := (overrun_iff d).mpr ⟨htail, hfull.trans hread⟩
      rw [hover, if_pos rfl]
      exact List.mem_append_right _ (List.mem_singleton_self _)

theorem Spacious.receive (h : Spacious d log) (hun : unread log < 255) (c : UInt8) :
    Spacious (d.receive c).1 (log ++ (d.receive c).2) := by
  have hle := h.ord.ring.le
  have hnew := unread_receive hle d c
  refine ⟨?_, ?_, by omega, fun hb ht hx => ?_⟩
  · exact h.ord.step (fun _ => by rw [unread] at hun; omega) (.rx c)
  · rw [Device.receive, ← List.append_assoc]
    refine (roomy_mark h.roomy _).concat fun _ _ => ?_
    rw [unread_mark]
    exact hun
  · rw [hnew]
    by_contra hge
    have hlen : (received log).length = (consumed log).length + 254 := by
      rw [unread] at hun hge
      omega
    have hover : d.overrun = true :=
      (overrun_iff d).mpr ⟨ht, h.ord.ring.head_succ_of_inBody hb hlen⟩
    refine hx (List.mem_append_right _ ?_)
    rw [Device.receive, hover]
    simp

/-- Where the ring has not been overrun, nothing has gone wrong. -/
theorem Spacious.not_faulty (h : Spacious d log) : ¬Faulty d log := by
  rintro (hpre | ⟨hpc, he, hne⟩)
  · exact hpre h.ord.isPrefix
  · exact hne (h.ord.consumed_eq h.le hpc he)

/-- **No byte is lost silently, as long as `buffer_tail` is not at `0` when it happens.** In
every run in which no byte arrives in a full ring with `buffer_tail` at `0`, whatever goes
wrong was announced: the first byte that found `255` unread was preceded by an `X`. -/
theorem run_marked_of_faulty {es : List Event}
    (hG : Guarded Device.step (fun d _ e => ¬d.BlindSpot e) Device.powerUp es)
    (hf : Faulty (run es).1 (run es).2) : Marked (run es).2 := by
  have hinv : Spacious (run es).1 (run es).2 ∨ Marked (run es).2 := by
    refine runFrom_invariant_of_guard (P := fun d log => Spacious d log ∨ Marked log) ?_ ?_ hG
    · exact Or.inl ⟨inOrder_powerUp, everywhere_nil _, by decide, fun _ _ _ => by decide⟩
    · rintro d log e (hs | hm) hg
      · cases e with
        | main u => exact Or.inl (hs.exec u)
        | rx c =>
          rcases Nat.lt_or_ge (unread log) 255 with hlt | hge
          · exact Or.inl (hs.receive hlt c)
          · exact Or.inr (hs.marked (le_antisymm hs.le hge) hg c)
      · exact Or.inr (hm.append _)
  exact hinv.resolve_left fun hs => hs.not_faulty hf

/-- With one byte read before the ring fills up, the loss is announced. -/
theorem run_marked_of_faulty_one :
    ∃ es : List Event, Faulty (run es).1 (run es).2 ∧ Marked (run es).2 := by
  let es := [Event.rx 0x30] ++ List.replicate 12 (Event.main Usb.quiet) ++
    List.replicate 256 (Event.rx 0x30)
  have hG : Guarded Device.step (fun d _ e => ¬d.BlindSpot e) Device.powerUp es :=
    guarded_of_guardedFrom (by decide +kernel)
  have hf : Faulty (run es).1 (run es).2 :=
    Or.inr ⟨by decide +kernel, by decide +kernel, by decide +kernel⟩
  exact ⟨es, hf, run_marked_of_faulty hG hf⟩

/-- Without it, `buffer_tail` is still at `0`: the ring is seen empty with `256` bytes unread,
and no `X` has been printed. -/
theorem run_silent_loss :
    Faulty (run (List.replicate 4 (.main Usb.quiet) ++ List.replicate 256 (.rx 0x30))).1
        (run (List.replicate 4 (.main Usb.quiet) ++ List.replicate 256 (.rx 0x30))).2 ∧
      ¬Marked (run (List.replicate 4 (.main Usb.quiet) ++ List.replicate 256 (.rx 0x30))).2 := by
  refine ⟨Or.inr ⟨by decide +kernel, by decide +kernel, by decide +kernel⟩, ?_⟩
  have hx : Obs.printed chX ∉
      (run (List.replicate 4 (.main Usb.quiet) ++ List.replicate 256 (.rx 0x30))).2 := by
    decide +kernel
  rintro ⟨pre, c, post, heq, -, -, hmem⟩
  exact hx (heq ▸ List.mem_append_left _ hmem)

end Firmware

end SwitchController
