import SwitchController.Lib.Ring
import SwitchController.Firmware.Refinement

/-!
# The receive ring

`buffer_head` and `buffer_tail` are `uint8_t` and the ring has `256` slots, so an index
is a position of the stream modulo `256` for free, however often it has wrapped around.
`SwitchController.Firmware.RingAt` says what the ring is: the stream received, the
position the next read will ask for, and the last `256` bytes in their slots. The
interrupt and every statement keep it without any assumption
(`SwitchController.Firmware.RingAt.receive`, `SwitchController.Firmware.RingAt.exec`,
`SwitchController.Firmware.RingAt.serialRead`): what an overrun changes is only which
position a read is answered with.

The next read is counted from the statement `c = buffer[buffer_tail]`, not from
`buffer_tail++`: between the two, the slot of the byte just read may be overwritten
without harm. This is `SwitchController.Firmware.Device.readIndex`.
-/

namespace SwitchController

namespace Firmware

open EventMachine RingSlots

/-- The slot the next read will ask for. -/
def Device.readIndex (d : Device) : UInt8 :=
  if d.pc.inBody then d.bufferTail + 1 else d.bufferTail

/-- A `uint8_t` index is a position modulo `256`. -/
theorem wraps_ofNat : Wraps UInt8.ofNat 256 where
  pos := by decide
  eq_iff a b := by
    rw [← UInt8.toNat_inj, UInt8.toNat_ofNat', UInt8.toNat_ofNat']

/-- **The ring**: `w` has been received, and the next read asks for position `t`. -/
structure RingAt (d : Device) (w : List UInt8) (t : ℕ) : Prop where
  /-- The interrupt writes at the end of the stream. -/
  head_eq : d.bufferHead = UInt8.ofNat w.length
  /-- The main loop reads at position `t`. -/
  read_eq : d.readIndex = UInt8.ofNat t
  /-- It does not read ahead. -/
  le : t ≤ w.length
  /-- The last `256` bytes are in their slots. -/
  slots : Holds UInt8.ofNat 256 d.buffer w
  /-- A read that has been decided on finds a byte. -/
  ready : d.pc = .serialRead → t < w.length

theorem ringAt_powerUp : RingAt Device.powerUp [] 0 where
  head_eq := rfl
  read_eq := rfl
  le := le_rfl
  slots := holds_nil
  ready := fun h => absurd h (by simp [Device.powerUp])

variable {d : Device} {w : List UInt8} {t : ℕ}

/-- **The interrupt keeps the ring**, overrun or not. -/
theorem RingAt.receive (h : RingAt d w t) (c : UInt8) : RingAt (d.receive c).1 (w ++ [c]) t where
  head_eq := by
    change d.bufferHead + 1 = _
    rw [h.head_eq, List.length_append, List.length_singleton, UInt8.ofNat_add]
    rfl
  read_eq := h.read_eq
  le := by
    have := h.le
    rw [List.length_append, List.length_singleton]
    omega
  slots := by
    change Holds _ _ (Function.update d.buffer d.bufferHead c) _
    rw [h.head_eq]
    exact h.slots.store wraps_ofNat c
  ready := fun hpc => by
    have := h.ready hpc
    rw [List.length_append, List.length_singleton]
    omega

/-- The main loop never writes to the ring. -/
theorem buffer_exec (d : Device) (u : Usb) :
    (d.exec u).1.buffer = d.buffer ∧ (d.exec u).1.bufferHead = d.bufferHead := by
  obtain ⟨buf, hd, tl, p, pc, c, v, r⟩ := d
  cases pc with
  | hidIn | usbTask =>
    simp only [Device.exec]
    split <;> exact ⟨rfl, rfl⟩
  | _ => exact ⟨rfl, rfl⟩

/-- Only the statement that reads moves the next read: `buffer_tail++` catches up with it. -/
theorem readIndex_exec (u : Usb) (h : d.pc ≠ .serialRead) :
    (d.exec u).1.readIndex = d.readIndex := by
  obtain ⟨buf, hd, tl, p, pc, c, v, r⟩ := d
  cases pc with
  | serialRead => exact absurd rfl h
  | hidIn | usbTask =>
    simp only [Device.exec]
    split <;> rfl
  | fill via f => cases f <;> rfl
  | write via => cases via <;> rfl
  | latch f => cases f <;> rfl
  | hidTask | serialWhile | serialTest | serialIf | testVal =>
    simp only [Device.exec, Device.readIndex]
    split <;> rfl
  | _ => rfl

/-- A read is decided on only where `buffer_tail` and `buffer_head` differ. -/
theorem pc_exec_eq_serialRead {u : Usb} (h : (d.exec u).1.pc = .serialRead) :
    d.pc = .serialWhile ∧ d.bufferTail ≠ d.bufferHead := by
  obtain ⟨buf, hd, tl, p, pc, c, v, r⟩ := d
  cases pc with
  | serialWhile =>
    refine ⟨rfl, fun he => ?_⟩
    have he' : tl = hd := he
    simp [Device.exec, he'] at h
  | hidIn | usbTask =>
    simp only [Device.exec] at h
    split at h <;> exact absurd h (by simp)
  | fill via f => cases f <;> exact absurd h (by simp [Device.exec, Pc.afterFill])
  | write via => cases via <;> exact absurd h (by simp [Device.exec])
  | latch f => cases f <;> exact absurd h (by simp [Device.exec, Pc.afterLatch])
  | hidTask | serialTest | serialIf | testVal =>
    simp only [Device.exec] at h
    split at h <;> exact absurd h (by simp)
  | _ => exact absurd h (by simp [Device.exec])

theorem RingAt.tail_eq (h : RingAt d w t) (hb : d.pc.inBody = false) :
    d.bufferTail = UInt8.ofNat t := by
  have hr := h.read_eq
  rwa [Device.readIndex, if_neg (by simp [hb])] at hr

/-- **A statement keeps the ring**, unless it is the one that reads. -/
theorem RingAt.exec (h : RingAt d w t) (u : Usb) (hr : d.pc ≠ .serialRead) :
    RingAt (d.exec u).1 w t where
  head_eq := (buffer_exec d u).2.trans h.head_eq
  read_eq := (readIndex_exec u hr).trans h.read_eq
  le := h.le
  slots := by
    rw [(buffer_exec d u).1]
    exact h.slots
  ready := fun hpc => by
    obtain ⟨hw, hne⟩ := pc_exec_eq_serialRead hpc
    rw [h.tail_eq (by rw [hw]; rfl), h.head_eq] at hne
    exact lt_of_le_of_ne h.le fun he => hne (by rw [he])

/-- **A read** is answered with the last byte written to its slot, and the next read asks
for the position behind that one. -/
theorem RingAt.serialRead (h : RingAt d w t) (u : Usb) (hr : d.pc = .serialRead) :
    w[latest 256 w.length t]? = some (d.buffer d.bufferTail) ∧
      RingAt (d.exec u).1 w (latest 256 w.length t + 1) := by
  have ht := h.ready hr
  have htail := h.tail_eq (by rw [hr]; rfl)
  refine ⟨?_, ?_, ?_, latest_lt ht, ?_, ?_⟩
  · rw [htail]
    exact h.slots.fetch wraps_ofNat ht
  · exact (buffer_exec d u).2.trans h.head_eq
  · have hslot : UInt8.ofNat (latest 256 w.length t) = UInt8.ofNat t :=
      (wraps_ofNat.eq_iff _ _).mpr (latest_mod 256 w.length t)
    have hread : (d.exec u).1.readIndex = d.bufferTail + 1 := by
      simp [Device.exec, hr, Device.readIndex, Pc.inBody]
    rw [hread, htail, UInt8.ofNat_add, hslot]
    rfl
  · rw [(buffer_exec d u).1]
    exact h.slots
  · exact fun hpc => absurd hpc (by simp [Device.exec, hr])

/-! ### Reading in order -/

/-- **In order**: what `Serial_Task` has read is the beginning of what was received, and
the next read asks for the byte behind it. -/
structure InOrder (d : Device) (log : List Obs) : Prop where
  /-- The ring, with the reader at the end of what it has read. -/
  ring : RingAt d (received log) (consumed log).length
  /-- Nothing skipped, repeated or invented. -/
  isPrefix : consumed log <+: received log

theorem inOrder_powerUp : InOrder Device.powerUp [] := ⟨ringAt_powerUp, List.nil_prefix⟩

/-- A list extended by the next element of the one it opens. -/
theorem concat_isPrefix {α : Type*} {s w : List α} {c : α} (h : s <+: w)
    (hc : w[s.length]? = some c) : s ++ [c] <+: w := by
  obtain ⟨rest, rfl⟩ := h
  rcases rest with - | ⟨a, rest⟩
  · simp at hc
  · obtain rfl : a = c := by simpa using hc
    exact ⟨rest, by simp⟩

variable {log : List Obs}

/-- **A reader less than a round behind stays in order.** -/
theorem InOrder.step (h : InOrder d log)
    (hroom : d.pc = .serialRead → (received log).length ≤ (consumed log).length + 256)
    (e : Event) : InOrder (d.step e).1 (log ++ (d.step e).2) := by
  cases e with
  | rx c =>
    change InOrder (d.receive c).1 (log ++ (d.receive c).2)
    refine ⟨?_, ?_⟩
    · rw [received_receive, consumed_receive]
      exact h.ring.receive c
    · rw [received_receive, consumed_receive]
      exact h.isPrefix.trans (List.prefix_append _ _)
  | main u =>
    change InOrder (d.exec u).1 (log ++ (d.exec u).2)
    by_cases hr : d.pc = .serialRead
    · obtain ⟨hget, hring⟩ := h.ring.serialRead u hr
      rw [latest_eq_self (by decide) (hroom hr)] at hget hring
      refine ⟨?_, ?_⟩
      · rw [received_exec, consumed_serialRead log u hr, List.length_append,
          List.length_singleton]
        exact hring
      · rw [received_exec, consumed_serialRead log u hr]
        exact concat_isPrefix h.isPrefix hget
    · refine ⟨?_, ?_⟩
      · rw [received_exec, consumed_exec log u hr]
        exact h.ring.exec u hr
      · rw [received_exec, consumed_exec log u hr]
        exact h.isPrefix

/-- Where fewer than `256` bytes are unread, an empty ring is an empty ring. -/
theorem InOrder.consumed_eq (h : InOrder d log) (hroom : unread log ≤ 255)
    (hpc : d.pc = .serialWhile) (he : d.bufferTail = d.bufferHead) :
    consumed log = received log := by
  have hle := h.ring.le
  rw [h.ring.tail_eq (by rw [hpc]; rfl), h.ring.head_eq] at he
  have hmod := (wraps_ofNat.eq_iff _ _).mp he
  rw [unread] at hroom
  exact h.isPrefix.eq_of_length (by omega)

/-- **A run that never leaves more than `255` bytes unread is in order.** -/
theorem run_inOrder {es : List Event} (hroom : ∀ pre, pre <+: es → unread (run pre).2 ≤ 255) :
    InOrder (run es).1 (run es).2 := by
  refine runFrom_invariant_of_guard (P := InOrder) (G := fun _ log _ => unread log ≤ 255)
    inOrder_powerUp (fun d log e h hG => h.step (fun _ => ?_) e) ?_
  · rw [unread] at hG
    omega
  · exact fun pre e hpre => hroom pre ((List.prefix_append pre [e]).trans hpre)

end Firmware

end SwitchController
