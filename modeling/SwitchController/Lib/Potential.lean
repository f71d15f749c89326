import SwitchController.Lib.Trace

/-!
# Progress by a potential

How long can a machine go on without doing what it is waited for? Some of its events are *work*,
the others hold it up. A potential that each piece of work lowers, and each hold-up raises by at
most `k`, answers the question for every run and every order of the events
(`EventMachine.exists_of_potential`): work in excess of the potential at the start, and of `k` for
each hold-up, is enough.
-/

namespace EventMachine

variable {σ ε ω : Type*} {step : σ → ε → σ × List ω}

/-- **Enough work gets it done.** Where work either shows what is waited for or lowers the
potential, and any other event raises it by at most `k`, it is shown in every run with more work
than the potential at the start and `k` for each of the other events. What is asked of the
steps may rest on an invariant, which need only last until it is shown. -/
theorem exists_of_potential (φ : σ → ℕ) (P : σ → Prop) {goal : ω → Prop} {work : ε → Bool} {k : ℕ}
    {es : List ε}
    (hwork : ∀ s, P s → ∀ e ∈ es, work e = true →
      (∃ o ∈ (step s e).2, goal o) ∨ P (step s e).1 ∧ φ (step s e).1 < φ s)
    (hidle : ∀ s, P s → ∀ e ∈ es, work e = false →
      (∃ o ∈ (step s e).2, goal o) ∨ P (step s e).1 ∧ φ (step s e).1 ≤ φ s + k)
    {s : σ} (hs : P s) (hlong : φ s + k * es.countP (!work ·) < es.countP work) :
    ∃ o ∈ (runFrom step s es).2, goal o := by
  induction es generalizing s with
  | nil => exact absurd hlong (by simp)
  | cons e es ih =>
    have hrest := fun hs' => ih (fun s hP e' he' => hwork s hP e' (List.mem_cons_of_mem e he'))
      (fun s hP e' he' => hidle s hP e' (List.mem_cons_of_mem e he')) (s := (step s e).1) hs'
    rw [List.countP_cons, List.countP_cons] at hlong
    rw [runFrom_cons]
    cases he : work e with
    | true =>
      rcases hwork s hs e List.mem_cons_self he with ⟨o, ho, hgoal⟩ | ⟨hs', hlt⟩
      · exact ⟨o, List.mem_append_left _ ho, hgoal⟩
      · obtain ⟨o, ho, hgoal⟩ := hrest hs' (by simp [he] at hlong; omega)
        exact ⟨o, List.mem_append_right _ ho, hgoal⟩
    | false =>
      rcases hidle s hs e List.mem_cons_self he with ⟨o, ho, hgoal⟩ | ⟨hs', hle⟩
      · exact ⟨o, List.mem_append_left _ ho, hgoal⟩
      · obtain ⟨o, ho, hgoal⟩ := hrest hs' (by simp [he, Nat.mul_add] at hlong; omega)
        exact ⟨o, List.mem_append_right _ ho, hgoal⟩

end EventMachine
