import SwitchController.Lib.Trace

/-!
# Streams cut into lines

`LineSplit.linesFrom` cuts a stream at its line ends: the lines that were ended, in
order, and the unfinished one at the end of the stream. It is the reference a
byte-at-a-time machine is compared with, and `LineSplit.runFrom_lines` is the rule for
the comparison: where the state of the machine is a function of the unfinished line
alone – as much of it as the relation `R` says – what the machine observes over the
whole stream is what it observes of each ended line.
-/

namespace LineSplit

open EventMachine

variable {α : Type*} (eol : α → Bool)

/-- **The lines of a stream**, with `cur` already read of the first one: those that a
line end closed, and the one left open. -/
def linesFrom (cur : List α) : List α → List (List α) × List α
  | [] => ([], cur)
  | c :: cs =>
      if eol c then (cur :: (linesFrom [] cs).1, (linesFrom [] cs).2)
      else linesFrom (cur ++ [c]) cs

/-- The lines of a stream that a line end closed. -/
def closedLines (s : List α) : List (List α) := (linesFrom eol [] s).1

/-- Every line of a stream, the open one last. -/
def allLinesFrom (cur s : List α) : List (List α) :=
  (linesFrom eol cur s).1 ++ [(linesFrom eol cur s).2]

/-- Every line of a stream, from a line start. -/
def allLines (s : List α) : List (List α) := allLinesFrom eol [] s

variable {eol}

@[simp] theorem linesFrom_nil (cur : List α) : linesFrom eol cur [] = ([], cur) := rfl

theorem linesFrom_eol {c : α} (hc : eol c = true) (cur cs : List α) :
    linesFrom eol cur (c :: cs) = (cur :: (linesFrom eol [] cs).1, (linesFrom eol [] cs).2) :=
  if_pos hc

theorem linesFrom_other {c : α} (hc : eol c = false) (cur cs : List α) :
    linesFrom eol cur (c :: cs) = linesFrom eol (cur ++ [c]) cs :=
  if_neg (by simp [hc])

theorem allLinesFrom_eol {c : α} (hc : eol c = true) (cur cs : List α) :
    allLinesFrom eol cur (c :: cs) = cur :: allLines eol cs := by
  rw [allLinesFrom, linesFrom_eol hc, allLines, allLinesFrom, List.cons_append]

theorem allLinesFrom_other {c : α} (hc : eol c = false) (cur cs : List α) :
    allLinesFrom eol cur (c :: cs) = allLinesFrom eol (cur ++ [c]) cs := by
  rw [allLinesFrom, linesFrom_other hc, allLinesFrom]

variable (eol) in
/-- What has been read of the first line opens one of the lines. -/
theorem exists_prefix_mem_allLinesFrom (cur s : List α) :
    ∃ line ∈ allLinesFrom eol cur s, cur <+: line := by
  induction s generalizing cur with
  | nil => exact ⟨cur, by simp [allLinesFrom], List.prefix_rfl⟩
  | cons c cs ih =>
    cases hc : eol c with
    | true => exact ⟨cur, by simp [allLinesFrom_eol hc], List.prefix_rfl⟩
    | false =>
      obtain ⟨line, hmem, hpre⟩ := ih (cur ++ [c])
      rw [allLinesFrom_other hc]
      exact ⟨line, hmem, (List.prefix_append cur [c]).trans hpre⟩

/-- Bytes with no line end among them leave the line open. -/
theorem linesFrom_of_forall {s : List α} (hs : ∀ c ∈ s, eol c = false) (cur : List α) :
    linesFrom eol cur s = ([], cur ++ s) := by
  induction s generalizing cur with
  | nil => simp
  | cons c s ih =>
    rw [linesFrom_other (hs c (by simp)), ih (fun a ha => hs a (by simp [ha]))]
    simp

/-- The rest of a line, with its end. -/
theorem linesFrom_append_eol {line : List α} (hline : ∀ c ∈ line, eol c = false) {c : α}
    (hc : eol c = true) (cur cs : List α) :
    linesFrom eol cur (line ++ c :: cs) =
      ((cur ++ line) :: (linesFrom eol [] cs).1, (linesFrom eol [] cs).2) := by
  induction line generalizing cur with
  | nil => simp [linesFrom_eol hc]
  | cons a line ih =>
    have ha : eol a = false := hline a (by simp)
    rw [List.cons_append, linesFrom_other ha, ih (fun x hx => hline x (by simp [hx]))]
    simp

/-- A stream that is continued: the open line goes on. -/
theorem linesFrom_append (cur s s' : List α) :
    linesFrom eol cur (s ++ s') =
      ((linesFrom eol cur s).1 ++ (linesFrom eol (linesFrom eol cur s).2 s').1,
        (linesFrom eol (linesFrom eol cur s).2 s').2) := by
  induction s generalizing cur with
  | nil => rfl
  | cons c cs ih =>
    rw [List.cons_append]
    cases hc : eol c with
    | true => rw [linesFrom_eol hc, linesFrom_eol hc, ih, List.cons_append]
    | false => rw [linesFrom_other hc, linesFrom_other hc, ih]

/-- The lines of a longer stream start with those of the shorter one. -/
theorem closedLines_isPrefix {s s' : List α} (h : s <+: s') :
    closedLines eol s <+: closedLines eol s' := by
  obtain ⟨rest, rfl⟩ := h
  rw [closedLines, closedLines, linesFrom_append]
  exact List.prefix_append _ _

/-! ### Machines that start every line afresh -/

variable {σ ω ο : Type*} {step : σ → α → σ × List ω} (f : ω → Option ο)
  (R : σ → List α → Prop) (ok : List α → Prop) (out : List α → List ο)

/-- **The rule of line machines.** Suppose the state is related by `R` to the line read
so far; a byte inside a line keeps the relation and shows nothing, a line end closes
the line, shows `out` of it and starts afresh. Then over a stream whose lines are all
`ok` the machine shows `out` of each closed line in order, and is left related to the
open one. -/
theorem runFrom_lines
    (hopen : ∀ s cur c, R s cur → eol c = false → ok (cur ++ [c]) →
      R (step s c).1 (cur ++ [c]) ∧ (step s c).2.filterMap f = [])
    (hclose : ∀ s cur c, R s cur → eol c = true → ok cur →
      R (step s c).1 [] ∧ (step s c).2.filterMap f = out cur)
    (hok : ∀ cur line, cur <+: line → ok line → ok cur)
    {s : σ} {cur : List α} (hR : R s cur) (stream : List α)
    (hlines : ∀ line ∈ allLinesFrom eol cur stream, ok line) :
    R (runFrom step s stream).1 (linesFrom eol cur stream).2 ∧
      (runFrom step s stream).2.filterMap f = (linesFrom eol cur stream).1.flatMap out := by
  induction stream generalizing s cur with
  | nil => exact ⟨hR, rfl⟩
  | cons c cs ih =>
    rw [runFrom_cons]
    simp only [List.filterMap_append]
    cases hc : eol c with
    | true =>
      rw [allLinesFrom_eol hc] at hlines
      obtain ⟨hR', hout⟩ := hclose s cur c hR hc (hlines cur (by simp))
      obtain ⟨hrun, hlog⟩ := ih hR' fun line hl => hlines line (List.mem_cons_of_mem _ hl)
      rw [linesFrom_eol hc, hout, hlog]
      exact ⟨hrun, by simp⟩
    | false =>
      rw [allLinesFrom_other hc] at hlines
      obtain ⟨line, hmem, hpre⟩ := exists_prefix_mem_allLinesFrom eol (cur ++ [c]) cs
      obtain ⟨hR', hout⟩ := hopen s cur c hR hc (hok _ _ hpre (hlines line hmem))
      obtain ⟨hrun, hlog⟩ := ih hR' hlines
      rw [linesFrom_other hc, hout, hlog]
      exact ⟨hrun, by simp⟩

end LineSplit
