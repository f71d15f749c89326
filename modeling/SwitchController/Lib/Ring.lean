import Mathlib.Data.List.Basic
import Mathlib.Logic.Function.Basic

/-!
# Ring buffers, read by position

A ring of `n` slots is written at ever growing positions, each taken modulo `n`.
Nothing here knows how the indices are represented: all that is asked of the map
`ix` from positions to slots is `RingSlots.Wraps`, that two positions share a slot
exactly when they agree modulo `n` – which a machine counter that wraps around
gives for free.

`RingSlots.Holds` says that the last `n` elements written are where they should be.
It survives every write, whether or not a reader has kept up
(`RingSlots.Holds.store`); what a slow reader pays is said by
`RingSlots.Holds.fetch`: asking for position `t` gives the element at
`RingSlots.latest`, the last position written that shares its slot, a whole number
of rounds later.
-/

namespace RingSlots

variable {ι α : Type*}

/-- Two positions share a slot exactly when they agree modulo `n`. -/
structure Wraps (ix : ℕ → ι) (n : ℕ) : Prop where
  /-- There is at least one slot. -/
  pos : 0 < n
  /-- Slots are positions modulo `n`. -/
  eq_iff : ∀ a b, ix a = ix b ↔ a % n = b % n

/-- **The last `n` elements written are in their slots.** -/
def Holds (ix : ℕ → ι) (n : ℕ) (slots : ι → α) (w : List α) : Prop :=
  ∀ k, k < w.length → w.length ≤ k + n → w[k]? = some (slots (ix k))

/-- **The last position below `len` that shares the slot of `t`.** -/
def latest (n len t : ℕ) : ℕ := t + n * ((len - t - 1) / n)

variable {ix : ℕ → ι} {n : ℕ} {slots : ι → α} {w : List α} {t : ℕ}

theorem holds_nil : Holds ix n slots [] := fun k hk => absurd hk (by simp)

/-- **A write keeps the ring.** The slot it takes is that of the position `n` back,
which is no longer among the last `n`. -/
theorem Holds.store [DecidableEq ι] (hix : Wraps ix n) (h : Holds ix n slots w) (c : α) :
    Holds ix n (Function.update slots (ix w.length) c) (w ++ [c]) := by
  intro k hk hlen
  rw [List.length_append, List.length_singleton] at hk hlen
  rcases Nat.lt_or_ge k w.length with hlt | hge
  · have hne : ix k ≠ ix w.length := by
      intro he
      have hmod : k % n = w.length % n := (hix.eq_iff _ _).mp he
      have hdvd : n ∣ w.length - k :=
        Nat.dvd_of_mod_eq_zero (Nat.sub_mod_eq_zero_of_mod_eq hmod.symm)
      exact absurd (Nat.le_of_dvd (by omega) hdvd) (by omega)
    rw [List.getElem?_append_left hlt, Function.update_of_ne hne]
    exact h k hlt (by omega)
  · obtain rfl : k = w.length := by omega
    rw [List.getElem?_concat_length, Function.update_self]

theorem latest_lt {len : ℕ} (ht : t < len) : latest n len t < len := by
  have h := Nat.mul_div_le (len - t - 1) n
  rw [latest]
  omega

theorem latest_mod (n len t : ℕ) : latest n len t % n = t % n := by
  rw [latest, Nat.add_mul_mod_self_left]

/-- A reader less than a round behind gets the position it asks for. -/
theorem latest_eq_self {len : ℕ} (hn : 0 < n) (h : len ≤ t + n) : latest n len t = t := by
  have hz : (len - t - 1) / n = 0 := Nat.div_eq_of_lt (by omega)
  rw [latest, hz, Nat.mul_zero, Nat.add_zero]

/-- Nothing of the slot's class is written between the latest position and the end. -/
theorem le_latest_add {len : ℕ} (hn : 0 < n) : len ≤ latest n len t + n := by
  have h := Nat.lt_mul_div_succ (len - t - 1) hn
  rw [Nat.mul_add, Nat.mul_one] at h
  rw [latest]
  omega

/-- **What a reader gets**: the last element written to the slot it asks for. -/
theorem Holds.fetch (hix : Wraps ix n) (h : Holds ix n slots w) (ht : t < w.length) :
    w[latest n w.length t]? = some (slots (ix t)) := by
  have hslot : ix (latest n w.length t) = ix t := (hix.eq_iff _ _).mpr (latest_mod n w.length t)
  rw [h _ (latest_lt ht) (le_latest_add hix.pos), hslot]

end RingSlots
