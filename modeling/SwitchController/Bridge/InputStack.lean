import SwitchController.Lib.Trace
import SwitchController.Bridge.Encode

/-!
# The stack of input sources

`InputStack` of `bridge.py` is what the main loop reads its messages from: a stack of
iterators of which the top one is asked, and discarded when it is exhausted. Pushing a
source preempts the one below it – a macro started while the controller is live – and the
one below goes on where it was interrupted. What is read is copied to the record file and
to the macro file, if these are open.

The sources are any iterators: all that is asked of them is `next`, which gives a message
or raises, and leaves the iterator as it leaves it. `SwitchController.Bridge.read` is the
loop of `__next__` over the stack; it catches `StopIteration` of a source, and turns
`IndexError` into `StopIteration` of its own – meant for `self.l[-1]` on the empty stack,
but caught from the source all the same.

For sources that are lists, `SwitchController.Bridge.run_lossless` says that the stack is
lossless preemption, over every sequence of operations.
-/

namespace SwitchController

namespace Bridge

open EventMachine

variable {ι μ : Type}

/-! ### The stack -/

/-- **`InputStack`**, over iterators `ι` that give messages `μ`. -/
structure InputStack (ι μ : Type) where
  /-- `self.l`, the top first. -/
  l : List ι
  /-- `self.recordfile`: the messages written to it, if it is open. -/
  recordfile : Option (List μ)
  /-- `self.macrofile`: its name and the messages written to it, if it is open. -/
  macrofile : Option (String × List μ)

/-- `InputStack(recordfilename)`, entered. -/
def InputStack.empty (recording : Bool) : InputStack ι μ :=
  ⟨[], if recording then some [] else none, none⟩

/-- `push`. -/
def InputStack.push (s : InputStack ι μ) (it : ι) : InputStack ι μ := { s with l := it :: s.l }

/-- **The loop of `__next__`**: what it gives, with the iterator that gave it, and the stack it
leaves. -/
def read (next : ι → Except Exn μ × ι) : List ι → Except Exn (ι × μ) × List ι
  | [] => (.error .stopIteration, [])
  | it :: rest => match next it with
      | (.ok message, it') => (.ok (it', message), it' :: rest)
      | (.error .stopIteration, _) => read next rest
      | (.error .indexError, it') => (.error .stopIteration, it' :: rest)
      | (.error e, it') => (.error e, it' :: rest)

/-- A message is copied to the files that are open. -/
def InputStack.write (s : InputStack ι μ) (message : μ) : InputStack ι μ :=
  { s with
    recordfile := s.recordfile.map (· ++ [message])
    macrofile := s.macrofile.map fun f => (f.1, f.2 ++ [message]) }

/-! ### Operations -/

/-- What can be done with the stack. -/
inductive StackOp (ι : Type) where
  | push (it : ι)
  | next
  | macroStart (filename : String)
  | macroEnd

/-- The same operation on another representation of the source. -/
def StackOp.map {κ : Type} (f : ι → κ) : StackOp ι → StackOp κ
  | .push it => .push (f it)
  | .next => .next
  | .macroStart filename => .macroStart filename
  | .macroEnd => .macroEnd

/-- What is observed of the stack. -/
inductive StackObs (ι μ : Type) where
  /-- A source was pushed. -/
  | pushed (it : ι)
  /-- `__next__` returned a message; the iterator is the one that gave it, as it was left. -/
  | returned (it : ι) (message : μ)
  /-- `__next__` raised. -/
  | raised (e : Exn)
  /-- A macro file was closed. -/
  | macroClosed (filename : String) (content : List μ)

/-- **One operation.** `macro_start` while a macro is being recorded and `macro_end` while none
is do nothing. -/
def InputStack.step (next : ι → Except Exn μ × ι) (s : InputStack ι μ) :
    StackOp ι → InputStack ι μ × List (StackObs ι μ)
  | .push it => (s.push it, [.pushed it])
  | .next => match read next s.l with
      | (.ok (it, message), l) => ({ s with l := l }.write message, [.returned it message])
      | (.error e, l) => ({ s with l := l }, [.raised e])
  | .macroStart filename => match s.macrofile with
      | none => ({ s with macrofile := some (filename, []) }, [])
      | some _ => (s, [])
  | .macroEnd => match s.macrofile with
      | none => (s, [])
      | some f => ({ s with macrofile := none }, [.macroClosed f.1 f.2])

/-! ### What `__next__` gives -/

/-- A source has stopped. -/
def Stopped (next : ι → Except Exn μ × ι) (it : ι) : Prop := (next it).1 = .error .stopIteration

/-- What the caller sees of an exception of a source. -/
def caught : Exn → Exn
  | .indexError => .stopIteration
  | e => e

/-- A source that has stopped is discarded, and the loop goes on. -/
theorem read_of_stopped {next : ι → Except Exn μ × ι} {it : ι} (h : Stopped next it) (l : List ι) :
    read next (it :: l) = read next l := by
  rw [read]
  rw [Stopped] at h
  generalize next it = r at h
  obtain ⟨e, it'⟩ := r
  obtain rfl : e = .error .stopIteration := h
  rfl

theorem read_append_of_stopped {next : ι → Except Exn μ × ι} {dead : List ι}
    (h : ∀ it ∈ dead, Stopped next it) (l : List ι) : read next (dead ++ l) = read next l := by
  induction dead with
  | nil => rfl
  | cons it dead ih =>
    obtain ⟨hit, hdead⟩ := List.forall_mem_cons.mp h
    rw [List.cons_append, read_of_stopped hit, ih hdead]

/-- What the caller gets of a source that raises. -/
theorem read_of_error {next : ι → Except Exn μ × ι} {it : ι} {e : Exn} (h : (next it).1 = .error e)
    (he : e ≠ .stopIteration) (l : List ι) :
    read next (it :: l) = (.error (caught e), (next it).2 :: l) := by
  rw [read]
  generalize next it = r at h
  obtain ⟨e', it'⟩ := r
  obtain rfl : e' = .error e := h
  cases e with
  | stopIteration => exact absurd rfl he
  | _ => rfl

theorem read_of_ok {next : ι → Except Exn μ × ι} {it : ι} {m : μ} (h : (next it).1 = .ok m)
    (l : List ι) : read next (it :: l) = (.ok ((next it).2, m), (next it).2 :: l) := by
  rw [read]
  generalize next it = r at h
  obtain ⟨m', it'⟩ := r
  obtain rfl : m' = .ok m := h
  rfl

/-- All sources have stopped, or there is a first that has not. -/
theorem exists_first_not_stopped (next : ι → Except Exn μ × ι) (l : List ι) :
    (∀ it ∈ l, Stopped next it) ∨
      ∃ dead it rest, l = dead ++ it :: rest ∧ (∀ x ∈ dead, Stopped next x) ∧ ¬Stopped next it := by
  induction l with
  | nil => exact Or.inl (List.forall_mem_nil _)
  | cons it l ih =>
    by_cases hit : Stopped next it
    · rcases ih with hall | ⟨dead, src, rest, rfl, hdead, hsrc⟩
      · exact Or.inl (List.forall_mem_cons.mpr ⟨hit, hall⟩)
      · exact Or.inr ⟨it :: dead, src, rest, rfl, List.forall_mem_cons.mpr ⟨hit, hdead⟩, hsrc⟩
    · exact Or.inr ⟨[], it, l, rfl, List.forall_mem_nil _, hit⟩

/-- **`IndexError` is swallowed**: the first source that has not stopped raises it. -/
def Swallows (next : ι → Except Exn μ × ι) (l : List ι) : Prop :=
  ∃ dead it rest, l = dead ++ it :: rest ∧ (∀ x ∈ dead, Stopped next x) ∧
    (next it).1 = .error .indexError

/-- **An honest end of input**: `StopIteration` is raised only if every source has stopped, and any
other exception of the top source reaches the caller. -/
def HonestEnd (next : ι → Except Exn μ × ι) (l : List ι) : Prop :=
  ((read next l).1 = .error .stopIteration → ∀ it ∈ l, Stopped next it) ∧
    ∀ it rest e, l = it :: rest → (next it).1 = .error e → e ≠ .stopIteration →
      (read next l).1 = .error e

/-- **When the input seems to end**: when every source has stopped, or an `IndexError` is
swallowed. -/
theorem read_eq_stopIteration_iff (next : ι → Except Exn μ × ι) (l : List ι) :
    (read next l).1 = .error .stopIteration ↔
      (∀ it ∈ l, Stopped next it) ∨ Swallows next l := by
  constructor
  · intro hread
    rcases exists_first_not_stopped next l with hall | ⟨dead, it, rest, rfl, hdead, hit⟩
    · exact Or.inl hall
    · refine Or.inr ⟨dead, it, rest, rfl, hdead, ?_⟩
      rw [read_append_of_stopped hdead] at hread
      rcases hnext : (next it).1 with e | m
      · have he : e ≠ .stopIteration := fun he => hit (hnext.trans (by rw [he]))
        rw [read_of_error hnext he] at hread
        -- only `IndexError` turns into `StopIteration`
        cases e with
        | indexError => rfl
        | stopIteration => exact absurd rfl he
        | structError | unicodeDecodeError | other n => exact absurd hread (by simp [caught])
      · rw [read_of_ok hnext] at hread
        exact absurd hread (by simp)
  · rintro (hall | ⟨dead, it, rest, rfl, hdead, hit⟩)
    · have hread := read_append_of_stopped hall []
      rw [List.append_nil] at hread
      rw [hread]
      rfl
    · rw [read_append_of_stopped hdead, read_of_error hit (by simp)]
      rfl

/-- **The end of input is honest exactly when no `IndexError` is swallowed.** -/
theorem honestEnd_iff (next : ι → Except Exn μ × ι) (l : List ι) :
    HonestEnd next l ↔ ¬Swallows next l := by
  constructor
  · rintro ⟨hend, -⟩ hswallows
    have hall := hend ((read_eq_stopIteration_iff next l).mpr (Or.inr hswallows))
    obtain ⟨dead, it, rest, rfl, -, hit⟩ := hswallows
    have hstopped := hall it (List.mem_append_right _ List.mem_cons_self)
    exact absurd (hit.symm.trans hstopped) (by simp)
  · intro hnot
    refine ⟨fun hread => ((read_eq_stopIteration_iff next l).mp hread).resolve_right hnot, ?_⟩
    rintro it rest e rfl hit he
    have hindex : e ≠ .indexError := fun hindex =>
      hnot ⟨[], it, rest, rfl, List.forall_mem_nil _, hindex ▸ hit⟩
    rw [read_of_error hit he]
    cases e with
    | indexError => exact absurd rfl hindex
    | _ => rfl

/-! ### Sources that are lists -/

/-- `next` on a list of messages with a number to tell it by: the number of its push. -/
def listNext : ℕ × List μ → Except Exn μ × (ℕ × List μ)
  | (i, []) => (.error .stopIteration, (i, []))
  | (i, m :: ms) => (.ok m, (i, ms))

/-- One operation on a stack of lists, each numbered as it is pushed. -/
def listStep (x : InputStack (ℕ × List μ) μ × ℕ) (op : StackOp (List μ)) :
    (InputStack (ℕ × List μ) μ × ℕ) × List (StackObs (ℕ × List μ) μ) :=
  let r := x.1.step listNext (op.map (x.2, ·))
  match op with
  | .push _ => ((r.1, x.2 + 1), r.2)
  | _ => ((r.1, x.2), r.2)

/-- A sequence of operations on an initially empty stack. -/
def listRun (recording : Bool) (ops : List (StackOp (List μ))) :
    (InputStack (ℕ × List μ) μ × ℕ) × List (StackObs (ℕ × List μ) μ) :=
  runFrom listStep (InputStack.empty recording, 0) ops

/-- The sources pushed, in order. -/
def sources (log : List (StackObs (ℕ × List μ) μ)) : List (List μ) :=
  log.filterMap fun
    | .pushed it => some it.2
    | _ => none

/-- The messages a source has given. -/
def returnedBy (i : ℕ) (log : List (StackObs (ℕ × List μ) μ)) : List μ :=
  log.filterMap fun
    | .returned it m => if it.1 = i then some m else none
    | _ => none

/-- What a stack still holds of a source. -/
def leftOf (i : ℕ) (l : List (ℕ × List μ)) : List μ :=
  l.flatMap fun it => if it.1 = i then it.2 else []

variable {i j : ℕ} {l rest : List (ℕ × List μ)} {log log' : List (StackObs (ℕ × List μ) μ)}

@[simp] theorem sources_append : sources (log ++ log') = sources log ++ sources log' := by
  simp [sources]

@[simp] theorem returnedBy_append :
    returnedBy i (log ++ log') = returnedBy i log ++ returnedBy i log' := by
  simp [returnedBy]

theorem leftOf_cons (it : ℕ × List μ) :
    leftOf i (it :: l) = (if it.1 = i then it.2 else []) ++ leftOf i l := by
  rw [leftOf, List.flatMap_cons, leftOf]

/-- Exhausted sources hold nothing. -/
theorem leftOf_eq_nil (h : ∀ it ∈ l, it.1 = i → it.2 = []) : leftOf i l = [] := by
  refine List.flatMap_eq_nil_iff.mpr fun it hit => ?_
  split
  · exact h it hit ‹_›
  · rfl

theorem leftOf_append_of_dead {dead : List (ℕ × List μ)} (hdead : ∀ it ∈ dead, it.2 = []) :
    leftOf i (dead ++ l) = leftOf i l := by
  rw [leftOf, List.flatMap_append]
  exact congrArg (· ++ _) (leftOf_eq_nil fun it hit _ => hdead it hit)

/-- A list has stopped when it is exhausted. -/
theorem stopped_listNext {it : ℕ × List μ} : Stopped listNext it ↔ it.2 = [] := by
  obtain ⟨i, - | ⟨m, ms⟩⟩ := it
  · exact iff_of_true rfl rfl
  · exact iff_of_false (by simp [Stopped, listNext]) (by simp)

/-- **What `__next__` does to a stack of lists**: it discards the exhausted ones on the top,
and takes one message of the first that is not, or raises `StopIteration` when all are. -/
theorem read_listNext (l : List (ℕ × List μ)) :
    ((∀ it ∈ l, it.2 = []) ∧ read listNext l = (.error .stopIteration, [])) ∨
      ∃ dead j m ms rest, l = dead ++ (j, m :: ms) :: rest ∧ (∀ it ∈ dead, it.2 = []) ∧
        read listNext l = (.ok ((j, ms), m), (j, ms) :: rest) := by
  rcases exists_first_not_stopped listNext l with hall | ⟨dead, ⟨j, src⟩, rest, rfl, hdead, hsrc⟩
  · refine Or.inl ⟨fun it hit => stopped_listNext.mp (hall it hit), ?_⟩
    have hread := read_append_of_stopped hall []
    rwa [List.append_nil] at hread
  · obtain ⟨m, ms, rfl⟩ := List.exists_cons_of_ne_nil (mt stopped_listNext.mpr hsrc)
    refine Or.inr ⟨dead, j, m, ms, rest, rfl, fun it hit => stopped_listNext.mp (hdead it hit), ?_⟩
    rw [read_append_of_stopped hdead]
    rfl

/-! ### Lossless preemption -/

/-- **A source is asked only when every source pushed after it has given all it had.** -/
def Preempts (pre : List (StackObs (ℕ × List μ) μ)) (o : StackObs (ℕ × List μ) μ) : Prop :=
  ∀ it m, o = .returned it m → ∀ i src, it.1 < i → (sources pre)[i]? = some src →
    returnedBy i pre = src

/-- The invariant of a stack of lists: what a source has given, and what the stack still
holds of it, are the source. -/
structure Lossless (x : InputStack (ℕ × List μ) μ × ℕ)
    (log : List (StackObs (ℕ × List μ) μ)) : Prop where
  /-- The sources are numbered by their pushes. -/
  count : x.2 = (sources log).length
  /-- The later a source was pushed, the higher it is. -/
  sorted : x.1.l.Pairwise fun it it' => it'.1 < it.1
  /-- Only sources that were pushed are on the stack, -/
  bound : ∀ it ∈ x.1.l, it.1 < x.2
  /-- and only they have given anything. -/
  fresh : ∀ i, x.2 ≤ i → returnedBy i log = []
  /-- Nothing is lost, repeated or reordered. -/
  split : ∀ i src, (sources log)[i]? = some src → src = returnedBy i log ++ leftOf i x.1.l
  /-- Preemption is by the top. -/
  preempts : Everywhere Preempts log

variable {x : InputStack (ℕ × List μ) μ × ℕ}

theorem lossless_empty (recording : Bool) :
    Lossless (InputStack.empty recording, 0) ([] : List (StackObs (ℕ × List μ) μ)) where
  count := rfl
  sorted := List.Pairwise.nil
  bound := by simp [InputStack.empty]
  fresh := fun _ _ => rfl
  split := by simp [sources]
  preempts := everywhere_nil _

/-- An observation that is no message preempts nothing. -/
theorem Lossless.preempts_concat (h : Lossless x log) {o : StackObs (ℕ × List μ) μ}
    (ho : ∀ it m, o ≠ .returned it m) : Everywhere Preempts (log ++ [o]) :=
  h.preempts.concat fun it m he => absurd he (ho it m)

theorem Lossless.push (h : Lossless x log) (src : List μ) :
    Lossless (x.1.push (x.2, src), x.2 + 1) (log ++ [.pushed (x.2, src)]) where
  count := by simp [sources, h.count]
  sorted := List.pairwise_cons.mpr ⟨h.bound, h.sorted⟩
  bound := by
    rintro it (- | ⟨-, hit⟩)
    · exact Nat.lt_succ_self _
    · exact (h.bound it hit).trans (Nat.lt_succ_self _)
  fresh := by
    intro i hi
    rw [returnedBy_append, h.fresh i (by omega)]
    rfl
  split := by
    intro i src' hsrc
    have hgive : returnedBy i (log ++ [.pushed (x.2, src)]) = returnedBy i log := by
      simp [returnedBy]
    have hlist : sources (log ++ [.pushed (x.2, src)]) = sources log ++ [src] := by
      simp [sources]
    rw [hgive, InputStack.push, leftOf_cons]
    rw [hlist] at hsrc
    rcases Nat.lt_or_ge i x.2 with hlt | hge
    · rw [List.getElem?_append_left (by rw [← h.count]; exact hlt)] at hsrc
      rw [if_neg (by omega), List.nil_append]
      exact h.split i src' hsrc
    · -- the new source: nothing given, all on the stack
      have hi : i = x.2 := by
        have hlen := (List.getElem?_eq_some_iff.mp hsrc).1
        rw [List.length_append, List.length_singleton, ← h.count] at hlen
        omega
      subst hi
      rw [h.count, List.getElem?_concat_length] at hsrc
      have hleft : leftOf x.2 x.1.l = [] := leftOf_eq_nil fun it hit he =>
        absurd (h.bound it hit) (by omega)
      rw [h.fresh x.2 le_rfl, if_pos rfl, hleft, List.append_nil, List.nil_append]
      exact (Option.some_inj.mp hsrc).symm
  preempts := h.preempts_concat (by simp)

/-- An operation that leaves the stack of sources alone and shows no source and no message. -/
theorem Lossless.quiet (h : Lossless x log) {t : InputStack (ℕ × List μ) μ} (ht : t.l = x.1.l)
    {os : List (StackObs (ℕ × List μ) μ)} (hos : ∀ o ∈ os, ∀ it, o ≠ .pushed it ∧
      ∀ m, o ≠ .returned it m) : Lossless (t, x.2) (log ++ os) := by
  have hsrc : sources os = [] := List.filterMap_eq_nil_iff.mpr fun o ho => by
    rcases o with it | ⟨it, m⟩ | e | ⟨f, c⟩
    · exact absurd rfl (hos _ ho it).1
    all_goals rfl
  have hgive : ∀ i, returnedBy i os = [] := fun i => List.filterMap_eq_nil_iff.mpr fun o ho => by
    rcases o with it | ⟨it, m⟩ | e | ⟨f, c⟩
    · rfl
    · exact absurd rfl ((hos _ ho it).2 m)
    all_goals rfl
  refine ⟨?_, ?_, ?_, ?_, ?_, ?_⟩
  · rw [sources_append, hsrc, List.append_nil]
    exact h.count
  · rw [ht]
    exact h.sorted
  · rw [ht]
    exact h.bound
  · intro i hi
    rw [returnedBy_append, hgive, List.append_nil]
    exact h.fresh i hi
  · intro i src hi
    rw [sources_append, hsrc, List.append_nil] at hi
    rw [returnedBy_append, hgive, List.append_nil, ht]
    exact h.split i src hi
  · refine everywhere_append.mpr ⟨h.preempts, everywhere_of_forall fun pre o ho it m he => ?_⟩
    exact absurd he ((hos o ho it).2 m)

/-- The stack run dry: every source was exhausted, and is discarded. -/
theorem Lossless.dry (h : Lossless x log) (hall : ∀ it ∈ x.1.l, it.2 = []) :
    Lossless ({ x.1 with l := [] }, x.2) (log ++ [.raised .stopIteration]) := by
  have hnone : Lossless ({ x.1 with l := [] }, x.2) log := by
    refine ⟨h.count, List.Pairwise.nil, by simp, h.fresh, ?_, h.preempts⟩
    intro i src hi
    have hsplit := h.split i src hi
    rwa [leftOf_eq_nil fun it hit _ => hall it hit] at hsplit
  exact hnone.quiet rfl (by simp)

/-- **A message**: the sources above the one that gives it are exhausted. -/
theorem Lossless.returned (h : Lossless x log) {dead : List (ℕ × List μ)} {m : μ} {ms : List μ}
    (hl : x.1.l = dead ++ (j, m :: ms) :: rest) (hdead : ∀ it ∈ dead, it.2 = [])
    {t : InputStack (ℕ × List μ) μ} (ht : t.l = (j, ms) :: rest) :
    Lossless (t, x.2) (log ++ [.returned (j, ms) m]) := by
  have hsorted := h.sorted
  rw [hl, List.pairwise_append, List.pairwise_cons] at hsorted
  obtain ⟨-, ⟨hbelow, hrest⟩, -⟩ := hsorted
  have hbound : ∀ it ∈ (j, m :: ms) :: rest, it.1 < x.2 := fun it hit =>
    h.bound it (hl ▸ List.mem_append_right _ hit)
  have hsrc : sources (log ++ [.returned (j, ms) m]) = sources log := by simp [sources]
  have hgive : ∀ i, returnedBy i (log ++ [.returned (j, ms) m]) =
      returnedBy i log ++ if j = i then [m] else [] := fun i => by
    rw [returnedBy_append]
    refine congrArg (returnedBy i log ++ ·) ?_
    by_cases hi : j = i
    · simp [returnedBy, hi]
    · simp [returnedBy, hi]
  have hleft : ∀ i, leftOf i x.1.l = leftOf i ((j, m :: ms) :: rest) := fun i => by
    rw [hl, leftOf_append_of_dead hdead]
  refine ⟨hsrc ▸ h.count, ?_, ?_, ?_, ?_, h.preempts.concat ?_⟩
  · rw [ht]
    exact List.pairwise_cons.mpr ⟨hbelow, hrest⟩
  · rw [ht]
    intro it hit
    rcases List.mem_cons.mp hit with rfl | hit
    · exact hbound (j, m :: ms) List.mem_cons_self
    · exact hbound it (List.mem_cons_of_mem _ hit)
  · intro i hi
    have hj := hbound _ List.mem_cons_self
    rw [hgive, h.fresh i hi, if_neg (by omega)]
    rfl
  · intro i src hi
    rw [hsrc] at hi
    have hsplit := h.split i src hi
    rw [hleft, leftOf_cons] at hsplit
    rw [hsplit, hgive, ht, leftOf_cons]
    by_cases hij : j = i
    · simp [hij]
    · simp [hij]
  · -- what was pushed after `j` is no longer on the stack, or exhausted
    intro it m' he i src hi hsource
    obtain ⟨rfl, rfl⟩ : (j, ms) = it ∧ m = m' := by simpa using he
    have hnone : leftOf i x.1.l = [] := by
      rw [hleft]
      refine leftOf_eq_nil fun it hit heq => ?_
      rcases List.mem_cons.mp hit with rfl | hit
      · exact absurd heq (Nat.ne_of_lt hi)
      · exact absurd heq (Nat.ne_of_lt ((hbelow it hit).trans hi))
    have hsplit := h.split i src hsource
    rw [hnone, List.append_nil] at hsplit
    exact hsplit.symm

theorem Lossless.step (h : Lossless x log) (op : StackOp (List μ)) :
    Lossless (listStep x op).1 (log ++ (listStep x op).2) := by
  obtain ⟨s, n⟩ := x
  rcases op with src | - | filename | -
  · exact h.push src
  · rcases read_listNext s.l with ⟨hall, hread⟩ | ⟨dead, j, m, ms, rest, hl, hdead, hread⟩
    · have hstep : listStep (s, n) .next = (({ s with l := [] }, n), [.raised .stopIteration]) := by
        simp only [listStep, StackOp.map, InputStack.step, hread]
      rw [hstep]
      exact h.dry hall
    · have hstep : listStep (s, n) .next =
          (({ s with l := (j, ms) :: rest }.write m, n), [.returned (j, ms) m]) := by
        simp only [listStep, StackOp.map, InputStack.step, hread]
      rw [hstep]
      exact h.returned hl hdead rfl
  · obtain ⟨l, r, - | f⟩ := s
    · exact h.quiet (t := ⟨l, r, some (filename, [])⟩) rfl (List.forall_mem_nil _)
    · exact h.quiet rfl (List.forall_mem_nil _)
  · obtain ⟨l, r, - | f⟩ := s
    · exact h.quiet rfl (List.forall_mem_nil _)
    · refine h.quiet (t := ⟨l, r, none⟩) rfl (List.forall_mem_singleton.mpr ?_)
      exact fun it => ⟨by simp, by simp⟩

theorem listRun_lossless (recording : Bool) (ops : List (StackOp (List μ))) :
    Lossless (listRun recording ops).1 (listRun recording ops).2 :=
  runFrom_invariant (lossless_empty recording) (fun _ _ op h => h.step op) ops

/-- **`__next__` raises `StopIteration` exactly when everything has been given**, and nothing
else. -/
theorem Lossless.read_error_iff (h : Lossless x log) (e : Exn) :
    (read listNext x.1.l).1 = .error e ↔ e = .stopIteration ∧
      ∀ i src, (sources log)[i]? = some src → returnedBy i log = src := by
  rcases read_listNext x.1.l with ⟨hall, hread⟩ | ⟨dead, j, m, ms, rest, hl, hdead, hread⟩
  · rw [hread, Except.error.injEq]
    refine ⟨fun he => ⟨he.symm, fun i src hi => ?_⟩, fun he => he.1.symm⟩
    have hsplit := h.split i src hi
    rw [leftOf_eq_nil fun it hit _ => hall it hit, List.append_nil] at hsplit
    exact hsplit.symm
  · rw [hread]
    refine iff_of_false (by simp) fun hgiven => ?_
    -- the source that is about to give `m` has not given everything
    have hj : j < (sources log).length := by
      rw [← h.count]
      exact h.bound (j, m :: ms) (hl ▸ List.mem_append_right _ List.mem_cons_self)
    have hsrc := List.getElem?_eq_getElem hj
    have hsplit := h.split j _ hsrc
    rw [hgiven.2 j _ hsrc, hl, leftOf_append_of_dead hdead, leftOf_cons, if_pos rfl] at hsplit
    exact absurd (List.self_eq_append_right.mp hsplit) (by simp)

/-- The source an operation pushes. -/
def StackOp.source? : StackOp ι → Option ι
  | .push it => some it
  | _ => none

/-- The log has the sources that were pushed. -/
theorem sources_listRun (recording : Bool) (ops : List (StackOp (List μ))) :
    sources (listRun recording ops).2 = ops.filterMap StackOp.source? := by
  induction ops using List.reverseRecOn with
  | nil => rfl
  | append_singleton ops op ih =>
    rw [List.filterMap_append, ← ih, listRun, runFrom_concat, sources_append]
    refine congrArg (sources (listRun recording ops).2 ++ ·) ?_
    generalize (runFrom listStep (InputStack.empty recording, 0) ops).1 = x
    obtain ⟨s, n⟩ := x
    rcases op with src | - | filename | -
    · rfl
    · rcases read_listNext s.l with ⟨-, hread⟩ | ⟨dead, j, m, ms, rest, -, -, hread⟩
      · simp [listStep, StackOp.map, InputStack.step, hread, sources, StackOp.source?]
      · simp [listStep, StackOp.map, InputStack.step, hread, sources, StackOp.source?]
    · obtain ⟨l, r, - | f⟩ := s <;> rfl
    · obtain ⟨l, r, - | f⟩ := s <;> rfl

/-- **`InputStack` is lossless preemption.** After any operations on an initially empty stack,
the sources being the lists that were pushed: each has given a prefix of itself, in order
and without repetition; each message came from a source all of whose successors had given
everything by then; and the next `__next__` raises `StopIteration` – the only exception it
ever raises – exactly when every source has given everything. -/
theorem run_lossless (recording : Bool) (ops : List (StackOp (List μ))) :
    sources (listRun recording ops).2 = ops.filterMap StackOp.source? ∧
      (∀ i src, (sources (listRun recording ops).2)[i]? = some src →
        returnedBy i (listRun recording ops).2 <+: src) ∧
      Everywhere Preempts (listRun recording ops).2 ∧
      ∀ e, (read listNext (listRun recording ops).1.1.l).1 = .error e ↔ e = .stopIteration ∧
        ∀ i src, (sources (listRun recording ops).2)[i]? = some src →
          returnedBy i (listRun recording ops).2 = src := by
  have h := listRun_lossless recording ops
  refine ⟨sources_listRun recording ops, fun i src hi => ?_, h.preempts, h.read_error_iff⟩
  exact ⟨_, (h.split i src hi).symm⟩

end Bridge

end SwitchController
