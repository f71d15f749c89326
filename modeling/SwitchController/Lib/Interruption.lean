import Mathlib.Data.List.Infix

/-!
# Statements that are cut short

A function does its statements one after the other, and an exception ends it. Here some of the
statements may raise one, and which of them do is given by a sequence, with an entry for each time
that such a statement is reached. `Interruption.upTo` is what is then done of the function.
-/

namespace Interruption

variable {α : Type*} (mayRaise : α → Bool)

/-- **The statements up to the first that raises.** -/
def upTo : (ℕ → Bool) → List α → List α
  | _, [] => []
  | raises, a :: as =>
      if mayRaise a then
        if raises 0 then [] else a :: upTo (fun k => raises (k + 1)) as
      else a :: upTo raises as

variable {mayRaise} {raises : ℕ → Bool} {as : List α}

theorem upTo_isPrefix : upTo mayRaise raises as <+: as := by
  induction as generalizing raises with
  | nil => exact List.prefix_rfl
  | cons a as ih =>
    rw [upTo]
    split_ifs
    · exact List.nil_prefix
    · exact List.cons_prefix_cons.mpr ⟨rfl, ih⟩
    · exact List.cons_prefix_cons.mpr ⟨rfl, ih⟩

/-- Where nothing raises, all of them. -/
theorem upTo_of_forall (h : ∀ k, raises k = false) : upTo mayRaise raises as = as := by
  induction as generalizing raises with
  | nil => rfl
  | cons a as ih =>
    have hrest := ih fun k => h (k + 1)
    rw [upTo, h 0, hrest, ih h, if_neg Bool.false_ne_true, ite_self]

/-- Statements that raise nothing are done, whatever comes after them. -/
theorem upTo_append (h : ∀ a ∈ as, mayRaise a = false) (bs : List α) :
    upTo mayRaise raises (as ++ bs) = as ++ upTo mayRaise raises bs := by
  induction as with
  | nil => rfl
  | cons a as ih =>
    obtain ⟨ha, has⟩ := List.forall_mem_cons.mp h
    rw [List.cons_append, upTo, if_neg (by simp [ha]), ih has, List.cons_append]

end Interruption
