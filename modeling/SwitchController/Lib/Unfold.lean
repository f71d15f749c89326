import Mathlib.Data.List.Perm.Basic
import Mathlib.Algebra.BigOperators.Group.List.Basic
import Mathlib.Algebra.GroupWithZero.Nat

/-!
# Work that makes work

An item may give rise to further items when it is dealt with. `Unfolding.expandTo` lists an
item with everything it gives rise to, down to a depth; where nothing is found below some depth
(`Unfolding.Bounded`), that is everything, and `Unfolding.expansion_eq` unfolds it one step at a
time.

A store of items is measured by the expansions of all of them. To take one item out of the
store, and put what it gives rise to back, takes exactly that item out of the expansions
(`Unfolding.expansion_perm`).

An expansion is depth first: an item is followed by all it gives rise to before its neighbour
comes. Where the store is a queue, what an item gives rise to goes to its end, and the items are
dealt with in the order of `Unfolding.breadthFirst`.
-/

namespace Unfolding

variable {α : Type*} (succ : α → List α)

/-- An item and all it gives rise to, down to a depth. -/
def expandTo : ℕ → α → List α
  | 0, a => [a]
  | n + 1, a => a :: (succ a).flatMap (expandTo n)

/-- **Nothing is found below this depth.** -/
def Bounded (n : ℕ) : Prop := ∀ a, expandTo succ (n + 1) a = expandTo succ n a

variable {succ}

/-- An item that gives rise to nothing. -/
theorem expandTo_of_nil {a : α} (h : succ a = []) (n : ℕ) : expandTo succ n a = [a] := by
  cases n with
  | zero => rfl
  | succ n => rw [expandTo, h, List.flatMap_nil]

/-- The expansion, one step at a time. -/
theorem expansion_eq {n : ℕ} (h : Bounded succ n) (a : α) :
    expandTo succ n a = a :: (succ a).flatMap (expandTo succ n) :=
  (h a).symm

/-- How much there is to do for an item: itself, and what it gives rise to. -/
theorem length_expansion {n : ℕ} (h : Bounded succ n) (a : α) :
    (expandTo succ n a).length = 1 + ((succ a).map fun b => (expandTo succ n b).length).sum := by
  rw [expansion_eq h, List.length_cons, List.length_flatMap, Nat.add_comm]

/-- **One item is dealt with**: what is left, and it, are what there was. -/
theorem expansion_perm {n : ℕ} (h : Bounded succ n) {a : α} {store store' rest : List α}
    (hstore : store.Perm (a :: rest)) (hstore' : store'.Perm (succ a ++ rest)) :
    (a :: store'.flatMap (expandTo succ n)).Perm (store.flatMap (expandTo succ n)) := by
  have hleft : (store'.flatMap (expandTo succ n)).Perm
      ((succ a).flatMap (expandTo succ n) ++ rest.flatMap (expandTo succ n)) := by
    rw [← List.flatMap_append]
    exact hstore'.flatMap_right _
  have hright : (store.flatMap (expandTo succ n)).Perm
      (a :: ((succ a).flatMap (expandTo succ n) ++ rest.flatMap (expandTo succ n))) := by
    have hcons := hstore.flatMap_right (expandTo succ n)
    rwa [List.flatMap_cons, expansion_eq h, List.cons_append] at hcons
  exact (hleft.cons a).trans hright.symm

/-! ### Breadth first -/

variable (succ) in
/-- **The items of a queue as they are dealt with**, this many of them at most: each is taken from
the front, and what it gives rise to goes to the end. -/
def breadthFirst : ℕ → List α → List α
  | 0, _ => []
  | _ + 1, [] => []
  | n + 1, a :: queue => a :: breadthFirst n (queue ++ succ a)

@[simp] theorem breadthFirst_nil (n : ℕ) : breadthFirst succ n [] = [] := by
  cases n <;> rfl

/-- Items that give rise to nothing come first, as they are. -/
theorem breadthFirst_append_of_nil {front : List α} (h : ∀ a ∈ front, succ a = []) (n : ℕ)
    (queue : List α) :
    breadthFirst succ (front.length + n) (front ++ queue) = front ++ breadthFirst succ n queue := by
  induction front with
  | nil => simp
  | cons a front ih =>
    obtain ⟨ha, hfront⟩ := List.forall_mem_cons.mp h
    rw [List.length_cons, Nat.succ_add, List.cons_append, breadthFirst, ha, List.append_nil,
      ih hfront, List.cons_append]

/-- **The queue runs empty** after as many items as the expansions have; more are not found. -/
theorem breadthFirst_of_le {d : ℕ} (hd : Bounded succ d) {n : ℕ} {queue : List α}
    (h : (queue.flatMap (expandTo succ d)).length ≤ n) :
    breadthFirst succ n queue =
      breadthFirst succ (queue.flatMap (expandTo succ d)).length queue := by
  induction n generalizing queue with
  | zero => rw [Nat.le_zero.mp h]
  | succ n ih =>
    cases queue with
    | nil => simp
    | cons a queue =>
      have hlength : ((a :: queue).flatMap (expandTo succ d)).length =
          ((queue ++ succ a).flatMap (expandTo succ d)).length + 1 :=
        (expansion_perm hd (List.Perm.refl _) List.perm_append_comm).length_eq.symm
      rw [hlength] at h ⊢
      rw [breadthFirst, breadthFirst, ih (Nat.le_of_succ_le_succ h)]

/-! ### Items seen through a map -/

variable {β : Type*} {succ' : β → List β} {f : α → β}

theorem expandTo_map (hf : ∀ a, succ' (f a) = (succ a).map f) (n : ℕ) (a : α) :
    expandTo succ' n (f a) = (expandTo succ n a).map f := by
  induction n generalizing a with
  | zero => rfl
  | succ n ih => simp [expandTo, hf, ih, List.flatMap_map, List.map_flatMap]

theorem breadthFirst_map (hf : ∀ a, succ' (f a) = (succ a).map f) (n : ℕ) (queue : List α) :
    breadthFirst succ' n (queue.map f) = (breadthFirst succ n queue).map f := by
  induction n generalizing queue with
  | zero => rfl
  | succ n ih =>
    cases queue with
    | nil => rfl
    | cons a queue =>
      rw [List.map_cons, breadthFirst, hf, ← List.map_append, ih, breadthFirst, List.map_cons]

end Unfolding
