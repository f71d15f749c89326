import SwitchController.Lib.Trace

/-!
# Who sees what

An observer sees a part of the state, some of the events and some of what is observed. Where what
it sees of a step is decided by what it sees of the state and of the event, and events it does not
see leave what it sees as it is, what it sees of a run is decided by what it sees of the start and
by the events it sees (`EventMachine.runFrom_view`): the rest has no influence on it, and might as
well not have happened.

What is seen of a state is a state again, one in which the rest is blotted out, and the same
with events. So one step has to be compared with the same step on what is seen, not any two
steps with each other.
-/

namespace EventMachine

variable {σ ε ω ψ : Type*} {step : σ → ε → σ × List ω}

/-- **What is seen of a run.** -/
theorem runFrom_view (view : σ → σ) (shown : ε → Option ε) (seen : ω → Option ψ) {G : ε → Prop}
    (hshown : ∀ s e, G e → ∀ e', shown e = some e' →
      view (step s e).1 = view (step (view s) e').1 ∧
        (step s e).2.filterMap seen = (step (view s) e').2.filterMap seen)
    (hhidden : ∀ s e, G e → shown e = none →
      view (step s e).1 = view s ∧ (step s e).2.filterMap seen = [])
    {s s' : σ} (hs : view s = view s') {es es' : List ε} (hes : ∀ e ∈ es, G e)
    (hes' : ∀ e ∈ es', G e) (h : es.filterMap shown = es'.filterMap shown) :
    view (runFrom step s es).1 = view (runFrom step s' es').1 ∧
      (runFrom step s es).2.filterMap seen = (runFrom step s' es').2.filterMap seen := by
  -- both runs are seen as the run of the machine on what is seen
  have hrun : ∀ {s : σ} {es : List ε}, (∀ e ∈ es, G e) →
      view (runFrom step s es).1 = (runFrom (fun t e =>
          (view (step t e).1, (step t e).2.filterMap seen)) (view s) (es.filterMap shown)).1 ∧
        (runFrom step s es).2.filterMap seen = (runFrom (fun t e =>
          (view (step t e).1, (step t e).2.filterMap seen)) (view s) (es.filterMap shown)).2 :=
    fun {s es} hG => runFrom_part view shown seen (fun s e he => hshown s e (hG e he))
      (fun s e he => hhidden s e (hG e he)) s
  rw [(hrun hes).1, (hrun hes).2, (hrun hes').1, (hrun hes').2, hs, h]
  exact ⟨rfl, rfl⟩

/-- The same, of an observer who sees every event. -/
theorem runFrom_view_all (view : σ → σ) (seen : ω → Option ψ) {G : ε → Prop}
    (hstep : ∀ s e, G e → view (step s e).1 = view (step (view s) e).1 ∧
      (step s e).2.filterMap seen = (step (view s) e).2.filterMap seen)
    {s s' : σ} (hs : view s = view s') {es : List ε} (hes : ∀ e ∈ es, G e) :
    view (runFrom step s es).1 = view (runFrom step s' es).1 ∧
      (runFrom step s es).2.filterMap seen = (runFrom step s' es).2.filterMap seen := by
  refine runFrom_view view some seen (fun s e he e' he' => ?_)
    (fun s e _ he' => absurd he' (Option.some_ne_none e)) hs hes hes rfl
  obtain rfl : e = e' := Option.some.inj he'
  exact hstep s e he

end EventMachine
