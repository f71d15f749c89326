import Mathlib.Data.List.Basic
import Mathlib.Algebra.BigOperators.Group.List.Basic
import Mathlib.Algebra.BigOperators.Ring.List
import Mathlib.Data.Nat.Bitwise

/-!
# Numbers put together from bits

The sum of a list of bits, each shifted to its place, is the number that has those bits:
no two of them meet, so nothing is ever carried (`PackedBits.testBit_ofBits`).
-/

namespace PackedBits

/-- **The sum of the bits of a list**, each shifted by its place. -/
def ofBits (bits : List ℕ) : ℕ := (bits.zipIdx.map fun p => p.1 <<< p.2).sum

/-- The first bit has place zero, and the others move up by one. -/
theorem ofBits_cons (b : ℕ) (bits : List ℕ) : ofBits (b :: bits) = b + 2 * ofBits bits := by
  have hshift : ∀ p : ℕ × ℕ, p.1 <<< (p.2 + 1) = 2 * p.1 <<< p.2 := fun p => by
    rw [Nat.shiftLeft_succ]
  rw [ofBits, List.zipIdx_cons, List.map_cons, List.sum_cons, Nat.shiftLeft_zero,
    List.zipIdx_succ, List.map_map, ofBits, ← List.sum_map_mul_left]
  exact congrArg (b + List.sum ·) (List.map_congr_left fun p _ => hshift p)

/-- **A bit of the sum is a bit of the list.** -/
theorem testBit_ofBits {bits : List ℕ} (h : ∀ b ∈ bits, b ≤ 1) (n : ℕ) :
    (ofBits bits).testBit n = decide (bits[n]? = some 1) := by
  induction bits generalizing n with
  | nil => simp [ofBits]
  | cons b bits ih =>
    have hb : b ≤ 1 := h b List.mem_cons_self
    rw [ofBits_cons]
    rcases n with - | n
    · rw [Nat.testBit_zero, List.getElem?_cons_zero]
      refine decide_eq_decide.mpr ?_
      rw [Option.some_inj]
      omega
    · have hhalf : (b + 2 * ofBits bits) / 2 = ofBits bits := by omega
      rw [Nat.testBit_succ, hhalf, List.getElem?_cons_succ]
      exact ih (fun b' hb' => h b' (List.mem_cons_of_mem b hb')) n

/-- A single bit shifted to its place. -/
theorem testBit_toNat_shiftLeft (b : Bool) (k n : ℕ) :
    (b.toNat <<< k).testBit n = (b && decide (n = k)) := by
  rcases b with - | -
  · simp
  · rw [Bool.toNat_true, Nat.one_shiftLeft, Nat.testBit_two_pow, Bool.true_and]
    exact decide_eq_decide.mpr eq_comm

end PackedBits
