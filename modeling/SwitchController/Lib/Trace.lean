import Mathlib.Data.List.Basic
import Mathlib.Data.List.Infix
import Mathlib.Logic.Function.Basic

/-!
# Machines that log what they do

A machine takes events one at a time; each step gives the next state and the
observations made during it. `EventMachine.runFrom` takes a whole list of events and
concatenates the observations into one log, so a statement about *when* something
happened is a statement about where it stands in the log.

The two rules are the ones an invariant is proved by.
`EventMachine.runFrom_invariant` is for what every step keeps, and
`EventMachine.runFrom_invariant_of_guard` for what a step keeps under a condition on
the state it is taken from: the condition is then asked at every step of the run.
`EventMachine.Everywhere` states a property of each observation and of what stands
before it in the log.
-/

namespace EventMachine

variable {σ ε ω : Type*} (step : σ → ε → σ × List ω)

/-- **A run**: the events in order, each from the state the one before it left; the
log is everything observed on the way. -/
def runFrom (s : σ) : List ε → σ × List ω
  | [] => (s, [])
  | e :: es => match step s e with
      | (s', os) => match runFrom s' es with
          | (s'', os') => (s'', os ++ os')

@[simp] theorem runFrom_nil (s : σ) : runFrom step s [] = (s, []) := rfl

theorem runFrom_cons (s : σ) (e : ε) (es : List ε) :
    runFrom step s (e :: es) =
      ((runFrom step (step s e).1 es).1, (step s e).2 ++ (runFrom step (step s e).1 es).2) := rfl

/-- A run may be cut anywhere. -/
theorem runFrom_append (s : σ) (es es' : List ε) :
    runFrom step s (es ++ es') =
      ((runFrom step (runFrom step s es).1 es').1,
        (runFrom step s es).2 ++ (runFrom step (runFrom step s es).1 es').2) := by
  induction es generalizing s with
  | nil => simp
  | cons e es ih => simp [runFrom_cons, ih]

/-- A run extended by one event at its end. -/
theorem runFrom_concat (s : σ) (es : List ε) (e : ε) :
    runFrom step s (es ++ [e]) =
      ((step (runFrom step s es).1 e).1,
        (runFrom step s es).2 ++ (step (runFrom step s es).1 e).2) := by
  simp [runFrom_append, runFrom_cons]

/-- The events of a run may come in pieces: running the pieces one after the other is
running their concatenation. -/
theorem runFrom_flatten (s : σ) (pieces : List (List ε)) :
    runFrom (runFrom step) s pieces = runFrom step s pieces.flatten := by
  induction pieces generalizing s with
  | nil => rfl
  | cons piece pieces ih => rw [runFrom_cons, ih, List.flatten_cons, runFrom_append]

/-- **A machine seen through a map**: where the map takes steps to steps and keeps what is
observed, it takes runs to runs. -/
theorem runFrom_map {τ : Type*} {step' : τ → ε → τ × List ω} (f : σ → τ)
    (hf : ∀ s e, step' (f s) e = (f (step s e).1, (step s e).2)) (s : σ) (es : List ε) :
    runFrom step' (f s) es = (f (runFrom step s es).1, (runFrom step s es).2) := by
  induction es generalizing s with
  | nil => rfl
  | cons e es ih => rw [runFrom_cons, runFrom_cons, hf, ih]

/-- **Two runs in lockstep**: where steps on events that look the same keep two states related and
show what looks the same, so do runs. -/
theorem runFrom_lockstep {φ ψ : Type*} {R : σ → σ → Prop} (f : ε → φ) (g : ω → ψ)
    (hstep : ∀ s t e e', R s t → f e = f e' →
      R (step s e).1 (step t e').1 ∧ (step s e).2.map g = (step t e').2.map g)
    {s t : σ} (h : R s t) {es es' : List ε} (hes : es.map f = es'.map f) :
    R (runFrom step s es).1 (runFrom step t es').1 ∧
      (runFrom step s es).2.map g = (runFrom step t es').2.map g := by
  induction es generalizing s t es' with
  | nil =>
    obtain rfl : es' = [] := List.map_eq_nil_iff.mp hes.symm
    exact ⟨h, rfl⟩
  | cons e es ih =>
    obtain ⟨e', rest, rfl, he, hrest⟩ := List.map_eq_cons_iff.mp hes.symm
    obtain ⟨hone, hlog⟩ := hstep s t e e' h he.symm
    obtain ⟨hR, hlogs⟩ := ih hone hrest.symm
    rw [runFrom_cons, runFrom_cons, List.map_append, List.map_append, hlog, hlogs]
    exact ⟨hR, rfl⟩

variable {step}

/-- What is observed is observed in a step. -/
theorem exists_step_of_mem_runFrom {s : σ} {es : List ε} {o : ω} (h : o ∈ (runFrom step s es).2) :
    ∃ t, ∃ e ∈ es, o ∈ (step t e).2 := by
  induction es generalizing s with
  | nil => exact absurd h List.not_mem_nil
  | cons e es ih =>
    rw [runFrom_cons] at h
    rcases List.mem_append.mp h with h | h
    · exact ⟨s, e, List.mem_cons_self, h⟩
    · obtain ⟨t, e', he', ho⟩ := ih h
      exact ⟨t, e', List.mem_cons_of_mem _ he', ho⟩

/-- **A part of a machine**: where some of the events act on a part of the state, as a machine of
its own would, and the others leave it alone, the part runs as that machine does on the
events that concern it. -/
theorem runFrom_part {τ ε' ω' : Type*} {step' : τ → ε' → τ × List ω'} (π : σ → τ)
    (f : ε → Option ε') (g : ω → Option ω') {es : List ε}
    (hsome : ∀ s, ∀ e ∈ es, ∀ e', f e = some e' →
      π (step s e).1 = (step' (π s) e').1 ∧ (step s e).2.filterMap g = (step' (π s) e').2)
    (hnone : ∀ s, ∀ e ∈ es, f e = none → π (step s e).1 = π s ∧ (step s e).2.filterMap g = [])
    (s : σ) :
    π (runFrom step s es).1 = (runFrom step' (π s) (es.filterMap f)).1 ∧
      (runFrom step s es).2.filterMap g = (runFrom step' (π s) (es.filterMap f)).2 := by
  induction es generalizing s with
  | nil => exact ⟨rfl, rfl⟩
  | cons e es ih =>
    obtain ⟨hstate, hlog⟩ := ih (fun s e' he' => hsome s e' (List.mem_cons_of_mem e he'))
      (fun s e' he' => hnone s e' (List.mem_cons_of_mem e he')) (step s e).1
    rw [runFrom_cons, List.filterMap_append]
    cases he : f e with
    | none =>
      obtain ⟨hπ, hg⟩ := hnone s e List.mem_cons_self he
      rw [List.filterMap_cons_none he, hg, List.nil_append, ← hπ]
      exact ⟨hstate, hlog⟩
    | some e' =>
      obtain ⟨hπ, hg⟩ := hsome s e List.mem_cons_self e' he
      rw [List.filterMap_cons_some he, runFrom_cons, hg, ← hπ, hlog]
      exact ⟨hstate, rfl⟩

/-- What no statement of a list changes is the same at its end. -/
theorem foldl_frame {α τ : Type*} {f : σ → α → σ} (π : σ → τ) {l : List α}
    (h : ∀ a ∈ l, ∀ s, π (f s a) = π s) (s : σ) : π (l.foldl f s) = π s := by
  induction l generalizing s with
  | nil => rfl
  | cons a l ih =>
    obtain ⟨ha, hl⟩ := List.forall_mem_cons.mp h
    rw [List.foldl_cons, ih hl, ha]

/-- The same, of a part that shows nothing. -/
theorem fst_runFrom_part {τ ε' : Type*} (π : σ → τ) (f : ε → Option ε') (act : τ → ε' → τ)
    (hsome : ∀ s e e', f e = some e' → π (step s e).1 = act (π s) e')
    (hnone : ∀ s e, f e = none → π (step s e).1 = π s) (s : σ) (es : List ε) :
    π (runFrom step s es).1 = (es.filterMap f).foldl act (π s) := by
  induction es generalizing s with
  | nil => rfl
  | cons e es ih =>
    rw [runFrom_cons]
    refine (ih (step s e).1).trans ?_
    cases he : f e with
    | none => rw [List.filterMap_cons_none he, hnone s e he]
    | some e' => rw [List.filterMap_cons_some he, hsome s e e' he, List.foldl_cons]

/-- What a projection shows of a list, where `g` is the kind of entry it shows. -/
theorem mem_filterMap_of_isPartialInv {α β : Type*} {g : β → α} {f : α → Option β}
    (hf : Function.IsPartialInv g f) {l : List α} {b : β} : b ∈ l.filterMap f ↔ g b ∈ l := by
  rw [List.mem_filterMap]
  constructor
  · rintro ⟨a, ha, hsome⟩
    exact (hf b a).mp hsome ▸ ha
  · exact fun hb => ⟨g b, hb, (hf b (g b)).mpr rfl⟩

theorem filterMap_eq_nil_of_isPartialInv {α β : Type*} {g : β → α} {f : α → Option β}
    (hf : Function.IsPartialInv g f) {l : List α} (hl : ∀ b, g b ∉ l) : l.filterMap f = [] :=
  List.eq_nil_iff_forall_not_mem.mpr fun b hb => hl b ((mem_filterMap_of_isPartialInv hf).mp hb)

/-- **The invariant rule**: what holds at the start and is kept by every step, of the
state and of the log so far, holds after every run. -/
theorem runFrom_invariant {P : σ → List ω → Prop} {s : σ} (h0 : P s [])
    (hstep : ∀ s log e, P s log → P (step s e).1 (log ++ (step s e).2)) (es : List ε) :
    P (runFrom step s es).1 (runFrom step s es).2 := by
  induction es using List.reverseRecOn with
  | nil => exact h0
  | append_singleton es e ih =>
    rw [runFrom_concat]
    exact hstep _ _ _ ih

/-- **Every step of the run meets the guard**, at the state and the log it is taken
from. -/
def Guarded (step : σ → ε → σ × List ω) (G : σ → List ω → ε → Prop) (s : σ)
    (es : List ε) : Prop :=
  ∀ pre e, pre ++ [e] <+: es → G (runFrom step s pre).1 (runFrom step s pre).2 e

/-- A prefix of a guarded run is guarded. -/
theorem Guarded.of_isPrefix {G : σ → List ω → ε → Prop} {s : σ} {es es' : List ε}
    (h : Guarded step G s es) (hp : es' <+: es) : Guarded step G s es' :=
  fun pre e he => h pre e (he.trans hp)

/-- **The guarded invariant rule**: where every step of the run meets the guard, an
invariant need only be kept by the steps that do. -/
theorem runFrom_invariant_of_guard {P : σ → List ω → Prop} {G : σ → List ω → ε → Prop} {s : σ}
    (h0 : P s [])
    (hstep : ∀ s log e, P s log → G s log e → P (step s e).1 (log ++ (step s e).2))
    {es : List ε} (hG : Guarded step G s es) :
    P (runFrom step s es).1 (runFrom step s es).2 := by
  induction es using List.reverseRecOn with
  | nil => exact h0
  | append_singleton es e ih =>
    rw [runFrom_concat]
    exact hstep _ _ _ (ih (hG.of_isPrefix (List.prefix_append es [e]))) (hG es e List.prefix_rfl)

/-- **An invariant at every moment**: where the steps that keep it are just those that meet the
guard, it holds all along a run just when every step does. -/
theorem forall_isPrefix_iff_guarded {P : σ → List ω → Prop} {G : σ → List ω → ε → Prop} {s : σ}
    (h0 : P s [])
    (hstep : ∀ s log e, P s log → (P (step s e).1 (log ++ (step s e).2) ↔ G s log e))
    {es : List ε} :
    (∀ pre, pre <+: es → P (runFrom step s pre).1 (runFrom step s pre).2) ↔
      Guarded step G s es := by
  constructor
  · intro h pre e he
    have hnext := h (pre ++ [e]) he
    rw [runFrom_concat] at hnext
    exact (hstep _ _ e (h pre ((List.prefix_append pre [e]).trans he))).mp hnext
  · intro hG pre hpre
    exact runFrom_invariant_of_guard h0 (fun s log e hs he => (hstep s log e hs).mpr he)
      (hG.of_isPrefix hpre)

/-- A condition on the states alone, asked along the run: the form of
`EventMachine.Guarded` that can be evaluated. -/
def GuardedFrom (step : σ → ε → σ × List ω) (G : σ → ε → Prop) : σ → List ε → Prop
  | _, [] => True
  | s, e :: es => G s e ∧ GuardedFrom step G (step s e).1 es

instance decidableGuardedFrom (step : σ → ε → σ × List ω) (G : σ → ε → Prop)
    [∀ s e, Decidable (G s e)] : ∀ s es, Decidable (GuardedFrom step G s es)
  | _, [] => inferInstanceAs (Decidable True)
  | s, e :: es =>
      have := decidableGuardedFrom step G (step s e).1 es
      inferInstanceAs (Decidable (G s e ∧ GuardedFrom step G (step s e).1 es))

theorem guarded_of_guardedFrom {G : σ → ε → Prop} {s : σ} {es : List ε}
    (h : GuardedFrom step G s es) : Guarded step (fun s _ e => G s e) s es := by
  induction es generalizing s with
  | nil => exact fun pre e he => absurd he.length_le (by simp)
  | cons a es ih =>
    intro pre e he
    rcases pre with - | ⟨b, pre⟩
    · obtain ⟨rfl, -⟩ : e = a ∧ _ := List.cons_prefix_cons.mp he
      exact h.1
    · obtain ⟨rfl, he'⟩ : b = a ∧ pre ++ [e] <+: es := List.cons_prefix_cons.mp he
      exact ih h.2 pre e he'

/-! ### What stands before an observation -/

/-- **Every observation of the log**, with the observations before it, satisfies `Q`. -/
def Everywhere (Q : List ω → ω → Prop) (log : List ω) : Prop :=
  ∀ pre o post, log = pre ++ o :: post → Q pre o

theorem everywhere_nil (Q : List ω → ω → Prop) : Everywhere Q [] :=
  fun pre o post h => absurd h (by simp)

theorem everywhere_append {Q : List ω → ω → Prop} {log log' : List ω} :
    Everywhere Q (log ++ log') ↔
      Everywhere Q log ∧ Everywhere (fun pre o => Q (log ++ pre) o) log' := by
  constructor
  · intro h
    refine ⟨fun pre o post he => h pre o (post ++ log') (by simp [he]), fun pre o post he => ?_⟩
    exact h (log ++ pre) o post (by simp [he])
  · rintro ⟨h, h'⟩ pre o post he
    rcases List.append_eq_append_iff.mp he with ⟨rest, rfl, hr⟩ | ⟨rest, hl, hr⟩
    · exact h' rest o post hr
    · -- the cut is inside the first log, or just behind it
      rcases rest with - | ⟨a, rest⟩
      · have hl' : log = pre := by simpa using hl
        simpa [hl'] using h' [] o post (by simpa using hr.symm)
      · obtain ⟨rfl, rfl⟩ : o = a ∧ post = rest ++ log' := by simpa using hr
        exact h pre o rest hl

theorem everywhere_singleton {Q : List ω → ω → Prop} {o : ω} :
    Everywhere Q [o] ↔ Q [] o := by
  constructor
  · exact fun h => h [] o [] rfl
  · intro h pre o' post he
    rcases pre with - | ⟨a, pre⟩
    · obtain ⟨rfl, -⟩ : o = o' ∧ post = [] := by simpa [eq_comm] using he
      exact h
    · exact absurd he (by simp)

theorem everywhere_of_forall {Q : List ω → ω → Prop} {log : List ω}
    (h : ∀ pre, ∀ o ∈ log, Q pre o) : Everywhere Q log :=
  fun pre o post he => h pre o (by simp [he])

/-- One observation more. -/
theorem Everywhere.concat {Q : List ω → ω → Prop} {log : List ω} (h : Everywhere Q log) {o : ω}
    (ho : Q log o) : Everywhere Q (log ++ [o]) :=
  everywhere_append.mpr ⟨h, everywhere_singleton.mpr (by simpa using ho)⟩

end EventMachine
