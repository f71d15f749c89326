import Mathlib.Data.List.Basic

/-!
# Lists of equal blocks

A list made of blocks of one length `n` is addressed by a quotient and a remainder: the
element at `n * k + j` is element `j` of block `k`. A prefix of it is some whole blocks
and the beginning of another.
-/

namespace EqualBlocks

variable {β α : Type*} {f : β → List α} {n : ℕ}

/-- Dropping whole blocks. -/
theorem drop_flatMap (hf : ∀ x, (f x).length = n) (l : List β) (k : ℕ) :
    (l.flatMap f).drop (n * k) = (l.drop k).flatMap f := by
  induction k generalizing l with
  | zero => simp
  | succ k ih =>
    rcases l with - | ⟨x, l⟩
    · simp
    · rw [Nat.mul_succ, Nat.add_comm, ← List.drop_drop, List.flatMap_cons,
        List.drop_left' (hf x), ih, List.drop_succ_cons]

/-- **An element by block and offset.** -/
theorem getElem?_flatMap (hf : ∀ x, (f x).length = n) (l : List β) (k : ℕ) {j : ℕ} (hj : j < n) :
    (l.flatMap f)[n * k + j]? = l[k]?.bind fun x => (f x)[j]? := by
  have hhead : l[k]? = (l.drop k)[0]? := by rw [List.getElem?_drop, Nat.add_zero]
  rw [← List.getElem?_drop, drop_flatMap hf, hhead]
  rcases l.drop k with - | ⟨x, rest⟩
  · rfl
  · have hx : j < (f x).length := by rw [hf]; exact hj
    rw [List.flatMap_cons, List.getElem?_append_left hx]
    rfl

theorem length_flatMap (hf : ∀ x, (f x).length = n) (l : List β) :
    (l.flatMap f).length = n * l.length := by
  induction l with
  | nil => simp
  | cons x l ih =>
    rw [List.flatMap_cons, List.length_append, hf, ih, List.length_cons, Nat.mul_succ, Nat.add_comm]

/-- **A prefix of the blocks**: whole blocks, and less than one more. -/
theorem exists_of_isPrefix (hf : ∀ x, (f x).length = n) (hn : 0 < n) {l : List β} {s : List α}
    (h : s <+: l.flatMap f) :
    ∃ (q : ℕ) (rest : List α), s = (l.take q).flatMap f ++ rest ∧ rest.length < n ∧
      (rest = [] ∨ ∃ x ∈ l, rest <+: f x) := by
  induction l generalizing s with
  | nil => exact ⟨0, [], by simpa using h, by simpa using hn, Or.inl rfl⟩
  | cons x l ih =>
    rw [List.flatMap_cons] at h
    rcases Nat.lt_or_ge s.length n with hlt | hge
    · have hpre : s <+: f x :=
        List.prefix_of_prefix_length_le h (List.prefix_append _ _) (by rw [hf]; omega)
      exact ⟨0, s, by simp, hlt, Or.inr ⟨x, by simp, hpre⟩⟩
    · have hpre : f x <+: s :=
        List.prefix_of_prefix_length_le (List.prefix_append _ _) h (by rw [hf]; exact hge)
      obtain ⟨s', rfl⟩ := hpre
      obtain ⟨q, rest, rfl, hlen, hrest⟩ := ih ((List.prefix_append_right_inj _).mp h)
      refine ⟨q + 1, rest, by simp, hlen, hrest.imp_right ?_⟩
      rintro ⟨y, hy, hp⟩
      exact ⟨y, List.mem_cons_of_mem x hy, hp⟩

end EqualBlocks
