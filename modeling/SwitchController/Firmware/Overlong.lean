import SwitchController.Firmware.Lines

/-!
# Overlong lines

A line with more than fourteen digits is no frame. Whether the parser sees that is decided by
one test at its end, `l == 14`, and `l` counts modulo `256`: a line of `270` digits passes for
one of fourteen. With any other number of digits the line end puts everything back
(`SwitchController.Firmware.serialTask_line`), so that the stream is read as if the line were not
there.

In either case the static variables are cleared, and what follows is parsed as it would be
without the line: the globals play no part in the parsing
(`SwitchController.Firmware.serialTask_congr`).
-/

namespace SwitchController

namespace Firmware

open EventMachine LineSplit

variable {p q : Parser}

/-! ### The globals play no part -/

theorem serialByte_congr (hl : p.l = q.l) (hb : p.b = q.b) (c : UInt8) :
    (serialByte p c).2 = (serialByte q c).2 ∧ (serialByte p c).1.l = (serialByte q c).1.l ∧
      (serialByte p c).1.b = (serialByte q c).1.b := by
  obtain ⟨l, b, g⟩ := p
  obtain ⟨l', b', g'⟩ := q
  obtain rfl : l = l' := hl
  obtain rfl : b = b' := hb
  rw [serialByte, serialByte]
  split_ifs
  · exact ⟨rfl, rfl, rfl⟩
  · exact ⟨rfl, rfl, rfl⟩
  · exact ⟨rfl, rfl, rfl⟩
  · exact ⟨rfl, rfl, rfl⟩

/-- **What is parsed does not depend on the globals.** -/
theorem serialTask_congr (hl : p.l = q.l) (hb : p.b = q.b) (s : List UInt8) :
    (serialTask p s).2 = (serialTask q s).2 := by
  induction s generalizing p q with
  | nil => rfl
  | cons c s ih =>
    obtain ⟨heffects, hl', hb'⟩ := serialByte_congr hl hb c
    rw [serialTask, runFrom_cons, runFrom_cons, heffects]
    exact congrArg (_ ++ ·) (ih hl' hb')

/-! ### One line -/

/-- Inside a line the globals keep their values. -/
theorem serialTask_open {line : List UInt8} (hline : ∀ c ∈ line, isEol c = false)
    (hp : OnLine p []) :
    OnLine (serialTask p line).1 line ∧ (serialTask p line).2.filterMap Effect.latched? = [] ∧
      (serialTask p line).1.latched = p.latched := by
  induction line using List.reverseRecOn with
  | nil => exact ⟨hp, rfl, rfl⟩
  | append_singleton line c ih =>
    obtain ⟨hbefore, hc⟩ := List.forall_mem_append.mp hline
    obtain ⟨hon, hnone, hsame⟩ := ih hbefore
    have hc := hc c (List.mem_singleton_self c)
    have hlatch : (serialTask p (line ++ [c])).2.filterMap Effect.latched? = [] := by
      rw [serialTask, runFrom_concat, List.filterMap_append, filterMap_latched_of_not_isEol _ hc,
        List.append_nil]
      exact hnone
    refine ⟨?_, hlatch, ?_⟩
    · rw [serialTask, runFrom_concat]
      exact hon.concat hc
    · rw [latched_serialTask, hlatch]
      rfl

/-- **A closed line**: with fourteen digits modulo `256` it is latched, and otherwise it leaves
everything as it was. -/
theorem serialTask_line (hp : OnLine p []) {line : List UInt8}
    (hline : ∀ c ∈ line, isEol c = false) {eol : UInt8} (heol : isEol eol = true) :
    ((digits line).length % 256 = 14 →
      ∃ g, (serialTask p (line ++ [eol])).2.filterMap Effect.latched? = [g]) ∧
    ((digits line).length % 256 ≠ 14 →
      (serialTask p (line ++ [eol])).2.filterMap Effect.latched? = [] ∧
        (serialTask p (line ++ [eol])).1 = p) := by
  obtain ⟨hon, hnone, hsame⟩ := serialTask_open hline hp
  obtain ⟨hl, hb⟩ := onLine_nil_iff.mp hp
  have hrun : serialTask p (line ++ [eol]) =
      ((serialByte (serialTask p line).1 eol).1,
        (serialTask p line).2 ++ (serialByte (serialTask p line).1 eol).2) :=
    runFrom_concat serialByte p line eol
  rw [hrun, List.filterMap_append, hnone, List.nil_append]
  constructor
  · intro hlen
    rw [serialByte_accept heol (hon.l_eq_iff.mpr hlen)]
    exact ⟨_, rfl⟩
  · intro hlen
    rw [serialByte_reject heol (mt hon.l_eq_iff.mp hlen)]
    refine ⟨rfl, ?_⟩
    rw [Parser.newLine, hsame, ← hb, ← hl]

/-! ### Streams -/

/-- At the start of a stream, or behind a line end. -/
theorem onLine_of_getLast? (hp : OnLine p []) {s : List UInt8}
    (hs : ∀ c ∈ s.getLast?, isEol c = true) : OnLine (serialTask p s).1 [] := by
  rcases List.eq_nil_or_concat' s with rfl | ⟨s, c, rfl⟩
  · exact hp
  · rw [serialTask, runFrom_concat]
    exact onLine_of_isEol _ (hs c (by simp))

/-- **When an overlong line is rejected.** Take any stream that is at a line boundary after
`before`, and any closed line of it, of fifteen digits or more in particular. The globals are not
assigned at the end of the line exactly when its digits do not number fourteen modulo `256`.
They then keep their values, and the whole stream ends as it would without the line. What
follows the line is parsed as it would be without it in any case. -/
theorem overlong_rejected_iff (hl : p.l = 0) (hb : p.b = fun _ => 0)
    {before line after : List UInt8} {eol : UInt8} (hbefore : ∀ c ∈ before.getLast?, isEol c = true)
    (hline : ∀ c ∈ line, isEol c = false) (heol : isEol eol = true) :
    let q := (serialTask p before).1
    let r := (serialTask p (before ++ (line ++ [eol]))).1
    ((serialTask q (line ++ [eol])).2.filterMap Effect.latched? = [] ↔
      (digits line).length % 256 ≠ 14) ∧
    ((digits line).length % 256 ≠ 14 → r.latched = q.latched ∧
      (serialTask p (before ++ (line ++ [eol]) ++ after)).1 = (serialTask p (before ++ after)).1) ∧
    (serialTask r after).2 = (serialTask q after).2 := by
  intro q r
  have hq : OnLine q [] := onLine_of_getLast? (onLine_nil_iff.mpr ⟨hl, hb⟩) hbefore
  have hr : r = (serialTask q (line ++ [eol])).1 := by
    change (serialTask p (before ++ (line ++ [eol]))).1 = _
    rw [serialTask_append]
  obtain ⟨haccept, hreject⟩ := serialTask_line hq hline heol
  refine ⟨⟨fun hnone hlen => ?_, fun hlen => (hreject hlen).1⟩, fun hlen => ?_, ?_⟩
  · obtain ⟨g, hg⟩ := haccept hlen
    exact absurd (hnone.symm.trans hg) (by simp)
  · have hback : r = q := hr.trans (hreject hlen).2
    refine ⟨by rw [hback], ?_⟩
    rw [serialTask_append p _ after, serialTask_append p before after]
    exact congrArg (fun p => (serialTask p after).1) hback
  · -- both are at a line boundary
    have hr' : OnLine r [] := by
      rw [hr, serialTask, runFrom_concat]
      exact onLine_of_isEol _ heol
    obtain ⟨hlq, hbq⟩ := onLine_nil_iff.mp hq
    obtain ⟨hlr, hbr⟩ := onLine_nil_iff.mp hr'
    exact serialTask_congr (hlr.trans hlq.symm) (hbr.trans hbq.symm) after

/-- A line of twenty digits, behind the neutral frame and before a closed line of noise. -/
theorem overlong_rejected_twenty :
    (serialTask Parser.powerUp ((0x30 :: 0x38 :: List.replicate 4 0x30 ++
        [0x38, 0x30, 0x38, 0x30, 0x38, 0x30, 0x38, 0x30, 0x0a]) ++
        (List.replicate 20 0x31 ++ [0x0d]) ++ [0x20, 0x0a])).1.latched =
      ⟨8, 0, 128, 128, 128, 128⟩ := by
  have hline : ∀ c ∈ List.replicate 20 (0x31 : UInt8), isEol c = false := by
    intro c hc
    rw [List.eq_of_mem_replicate hc]
    rfl
  have hlast : ∀ c ∈ (0x30 :: 0x38 :: List.replicate 4 0x30 ++
      [0x38, 0x30, 0x38, 0x30, 0x38, 0x30, 0x38, 0x30, (0x0a : UInt8)]).getLast?,
      isEol c = true := by
    intro c hc
    obtain rfl : 0x0a = c := Option.some_inj.mp hc
    rfl
  have h := @overlong_rejected_iff Parser.powerUp rfl rfl _ _ [0x20, 0x0a] 0x0d hlast hline rfl
  exact (congrArg Parser.latched (h.2.1 (by decide)).2).trans (by decide)

/-- **A line of `270` digits is latched.** -/
theorem overlong_accepted :
    15 ≤ (digits (List.replicate 270 0x31)).length ∧
      (serialTask Parser.powerUp (List.replicate 270 0x31)).1.latched = Latched.powerUp ∧
      (serialTask Parser.powerUp (List.replicate 270 0x31 ++ [0x0a])).1.latched =
        ⟨0x11, 0x1111, 0x11, 0x11, 0x11, 0x11⟩ := by
  decide +kernel

end Firmware

end SwitchController
