import SwitchController.Twitch.Drain

/-!
# The order of compound moves

A compound move is meant to run as it is written: `long jump` is followed by `long jump2`,
`long jump3` and `long jump4`, and only then by what was queued behind it. What a command inserts
goes to the front of `nextCommands`, however, and the commands are taken from its back. So the
two queues are one (`SwitchController.Twitch.Queue.pending`), and what is inserted goes to the end
of it: the commands are executed breadth first
(`SwitchController.Twitch.executed_ticks`), and expansions are depth first.

The two orders agree when there is nothing a step could be overtaken by
(`SwitchController.Twitch.executed_depthFirst_iff`): a compound move comes last, and does not insert
compound moves behind others, as `cap bounce` does.
-/

namespace SwitchController

namespace Twitch

open EventMachine Unfolding

/-! ### The two queues are one -/

/-- **What is to be executed**, in the order it will be. -/
def Queue.pending (q : Queue) : List Queued := q.commandQueue ++ q.nextCommands.reverse

/-- **A tick takes the first of it**, and puts what that inserts at the end. -/
theorem pending_tick (U : Unicode) {c : Client} {x : Queued} {rest : List Queued}
    (h : c.queue.pending = x :: rest) :
    (step U c .tick).1.queue.pending = rest ++ x.inserted ∧
      executed (step U c .tick).2 = [x] := by
  rcases hcq : c.queue.commandQueue with - | ⟨y, ys⟩
  · -- the first is the last of `nextCommands`
    rw [Queue.pending, hcq, List.nil_append] at h
    have hnc : c.queue.nextCommands = rest.reverse ++ [x] := by
      rw [← List.reverse_reverse c.queue.nextCommands, h, List.reverse_cons]
    obtain ⟨hqueue, hlog⟩ := queue_tick_concat U hcq hnc
    rw [hqueue, executed, hlog, Queue.pending]
    exact ⟨by simp, rfl⟩
  · rw [Queue.pending, hcq, List.cons_append, List.cons.injEq] at h
    obtain ⟨rfl, rfl⟩ := h
    obtain ⟨hqueue, hlog⟩ := queue_tick_cons U hcq
    rw [hqueue, executed, hlog, Queue.pending]
    exact ⟨by simp, rfl⟩

theorem pending_tick_nil (U : Unicode) {c : Client} (h : c.queue.pending = []) :
    (step U c .tick).1.queue.pending = [] ∧ executed (step U c .tick).2 = [] := by
  obtain ⟨hcq, hnc⟩ := List.append_eq_nil_iff.mp h
  obtain ⟨hqueue, hlog⟩ := queue_tick_nil U hcq (List.reverse_eq_nil_iff.mp hnc)
  rw [hqueue, executed, hlog]
  exact ⟨h, rfl⟩

/-- **Ticks execute breadth first.** -/
theorem executed_ticks (U : Unicode) (c : Client) (n : ℕ) :
    executed (run U c (List.replicate n .tick)).2 =
      breadthFirst Queued.inserted n c.queue.pending := by
  induction n generalizing c with
  | zero => rfl
  | succ n ih =>
    rw [List.replicate_succ, run, runFrom_cons, executed_append]
    refine (congrArg (_ ++ ·) (ih (step U c .tick).1)).trans ?_
    rcases hp : c.queue.pending with - | ⟨x, rest⟩
    · obtain ⟨hnil, hexec⟩ := pending_tick_nil U hp
      rw [hnil, hexec, breadthFirst_nil, breadthFirst_nil, List.append_nil]
    · obtain ⟨hrest, hexec⟩ := pending_tick U hp
      rw [hrest, hexec, breadthFirst, List.singleton_append]

/-! ### Expansions -/

/-- **The steps of a command as it is written**: itself, and what it inserts with the steps of
that. All of them carry the stamp of the command, which tells the steps of one command from
those of another. -/
def Queued.depthFirst (x : Queued) : List Queued := (expansion x.cmd).map fun cmd => ⟨cmd, x.stamp⟩

theorem inserted_mk (stamp : ℕ) (cmd : Str) :
    Queued.inserted ⟨cmd, stamp⟩ = (inserts cmd).map fun cmd => ⟨cmd, stamp⟩ := rfl

theorem depthFirst_eq_expandTo : Queued.depthFirst = expandTo Queued.inserted 15 := by
  funext x
  exact (expandTo_map (inserted_mk x.stamp) 15 x.cmd).symm

theorem bounded_inserted : Bounded Queued.inserted 15 := by
  intro x
  rw [expandTo_map (inserted_mk x.stamp) 15 x.cmd, expandTo_map (inserted_mk x.stamp) 16 x.cmd,
    bounded_inserts]

theorem depthFirst_of_nil {x : Queued} (h : inserts x.cmd = []) : x.depthFirst = [x] := by
  rw [Queued.depthFirst, expansion, expandTo_of_nil h]
  rfl

theorem inserted_eq_nil {x : Queued} : x.inserted = [] ↔ inserts x.cmd = [] := by
  rw [Queued.inserted, List.map_eq_nil_iff]

/-- Commands that insert nothing are their own steps. -/
theorem flatMap_depthFirst_of_nil {xs : List Queued} (h : ∀ x ∈ xs, inserts x.cmd = []) :
    xs.flatMap Queued.depthFirst = xs := by
  induction xs with
  | nil => rfl
  | cons x xs ih =>
    obtain ⟨hx, hxs⟩ := List.forall_mem_cons.mp h
    rw [List.flatMap_cons, depthFirst_of_nil hx, ih hxs, List.singleton_append]

theorem load_eq_length_depthFirst {q : Queue} (h : q.nextCommands = []) :
    q.load = (q.commandQueue.flatMap Queued.depthFirst).length := by
  rw [load_eq_length, Queue.cmds, h, List.append_nil, List.flatMap_map, List.length_flatMap,
    List.length_flatMap]
  exact congrArg List.sum (List.map_congr_left fun x _ => (List.length_map _).symm)

/-! ### One compound move -/

/-- The walk from each compound move alone, in the smaller table. -/
theorem breadthFirst_compounds : ∀ br ∈ compounds, ∀ cmd ∈ br.names,
    breadthFirst compoundInserts (expandTo compoundInserts 15 cmd).length [cmd] =
      expandTo compoundInserts 15 cmd ↔ cmd ≠ "cap bounce" := by decide +kernel

/-- **A command by itself runs as it is written**, with the exception of `cap bounce`. -/
theorem breadthFirst_expansion (cmd : Str) :
    breadthFirst inserts (weight cmd) [cmd] = expansion cmd ↔ cmd ≠ "cap bounce" := by
  by_cases h : ∃ br ∈ compounds, cmd ∈ br.names
  · obtain ⟨br, hbr, hcmd⟩ := h
    rw [weight, expansion, inserts_eq_compoundInserts]
    exact breadthFirst_compounds br hbr cmd hcmd
  · have hnil : inserts cmd = [] := by
      rw [inserts_eq_compoundInserts, compoundInserts, List.flatMap_eq_nil_iff]
      intro br hbr
      obtain ⟨hbr, hcmd⟩ := List.mem_filter.mp hbr
      exact absurd ⟨br, hbr, of_decide_eq_true hcmd⟩ h
    have hcap : cmd ≠ "cap bounce" := by
      rintro rfl
      exact absurd hnil (by decide)
    rw [weight, expansion, expandTo_of_nil hnil]
    exact iff_of_true (by simp [breadthFirst]) hcap

theorem breadthFirst_depthFirst (x : Queued) :
    breadthFirst Queued.inserted x.depthFirst.length [x] = x.depthFirst ↔
      x.cmd ≠ "cap bounce" := by
  have hmap : breadthFirst Queued.inserted x.depthFirst.length [x] =
      (breadthFirst inserts (weight x.cmd) [x.cmd]).map fun cmd => ⟨cmd, x.stamp⟩ := by
    rw [Queued.depthFirst, List.length_map]
    exact breadthFirst_map (inserted_mk x.stamp) _ [x.cmd]
  have hinj : Function.Injective fun cmd : Str => Queued.mk cmd x.stamp := fun cmd cmd' he =>
    (Queued.mk.injEq .. ▸ he).1
  rw [hmap, Queued.depthFirst, (List.map_injective_iff.mpr hinj).eq_iff, breadthFirst_expansion]

/-! ### Whole queues -/

/-- **Nothing can be overtaken**: only the last command is compound, and it is not
`cap bounce`. -/
def Orderly (xs : List Queued) : Prop :=
  (∀ x ∈ xs.dropLast, inserts x.cmd = []) ∧ ∀ x ∈ xs.getLast?, x.cmd ≠ "cap bounce"

instance (xs : List Queued) : Decidable (Orderly xs) := inferInstanceAs (Decidable (_ ∧ _))

/-- The steps of a queue as it is written, behind commands that insert nothing. -/
theorem breadthFirst_append_iff {front rest : List Queued} (h : ∀ x ∈ front, inserts x.cmd = []) :
    breadthFirst Queued.inserted ((front ++ rest).flatMap Queued.depthFirst).length
        (front ++ rest) = (front ++ rest).flatMap Queued.depthFirst ↔
      breadthFirst Queued.inserted (rest.flatMap Queued.depthFirst).length rest =
        rest.flatMap Queued.depthFirst := by
  rw [List.flatMap_append, flatMap_depthFirst_of_nil h, List.length_append,
    breadthFirst_append_of_nil fun x hx => inserted_eq_nil.mpr (h x hx), List.append_cancel_left_eq]

theorem Orderly.breadthFirst_eq {xs : List Queued} (h : Orderly xs) :
    breadthFirst Queued.inserted (xs.flatMap Queued.depthFirst).length xs =
      xs.flatMap Queued.depthFirst := by
  rcases List.eq_nil_or_concat' xs with rfl | ⟨front, x, rfl⟩
  · rfl
  · obtain ⟨hfront, hlast⟩ := h
    rw [List.dropLast_concat] at hfront
    rw [List.getLast?_concat] at hlast
    rw [breadthFirst_append_iff hfront, List.flatMap_singleton]
    exact (breadthFirst_depthFirst x).mpr (hlast x rfl)

/-- **A command behind a compound move overtakes it.** -/
theorem breadthFirst_overtaken {x y : Queued} {rest : List Queued} (hx : inserts x.cmd ≠ [])
    (hstamp : x.stamp ≠ y.stamp) :
    breadthFirst Queued.inserted ((x :: y :: rest).flatMap Queued.depthFirst).length
      (x :: y :: rest) ≠ (x :: y :: rest).flatMap Queued.depthFirst := by
  -- the second to be executed is `y`, and the second step as written is one of `x`
  obtain ⟨cmd, cmds, hcmds⟩ := List.exists_cons_of_ne_nil hx
  obtain ⟨steps, hsteps⟩ : ∃ steps, (x :: y :: rest).flatMap Queued.depthFirst =
      x :: ⟨cmd, x.stamp⟩ :: steps := by
    rw [List.flatMap_cons, Queued.depthFirst, expansion, expansion_eq bounded_inserts, hcmds,
      List.flatMap_cons, expansion_eq bounded_inserts cmd]
    exact ⟨_, rfl⟩
  rw [hsteps, List.length_cons, List.length_cons, breadthFirst, List.cons_append, breadthFirst]
  intro he
  have hy : y = ⟨cmd, x.stamp⟩ := (List.cons.inj (List.cons.inj he).2).1
  exact hstamp (congrArg Queued.stamp hy).symm

/-- Where the stamps tell the commands apart, only an orderly queue runs as it is written. By
induction: a command that inserts nothing comes first in both orders, and one that inserts
something must be the last. -/
theorem orderly_of_breadthFirst_eq {xs : List Queued} (hstamps : (xs.map Queued.stamp).Nodup)
    (h : breadthFirst Queued.inserted (xs.flatMap Queued.depthFirst).length xs =
      xs.flatMap Queued.depthFirst) : Orderly xs := by
  induction xs with
  | nil => exact ⟨List.forall_mem_nil _, by simp⟩
  | cons x xs ih =>
    obtain ⟨hfresh, hstamps'⟩ := List.nodup_cons.mp hstamps
    rcases xs with - | ⟨y, rest⟩
    · rw [List.flatMap_singleton, breadthFirst_depthFirst] at h
      exact ⟨List.forall_mem_nil _, by simpa using h⟩
    · by_cases hx : inserts x.cmd = []
      · have hrest := (breadthFirst_append_iff (List.forall_mem_singleton.mpr hx)).mp h
        obtain ⟨hsimple, hlast⟩ := ih hstamps' hrest
        exact ⟨List.forall_mem_cons.mpr ⟨hx, hsimple⟩, by simpa using hlast⟩
      · have hne : x.stamp ≠ y.stamp := fun he => hfresh (by simp [he])
        exact absurd h (breadthFirst_overtaken hx hne)

/-- **When compound moves run as written.** With nothing in `nextCommands`, ticks alone empty both
queues, in as many ticks as the commands have steps. If the queue is orderly, the steps executed
by then are those of its commands, one command after the other. Where the stamps tell the
commands apart, so that a step is known to be of one command and not of another, this is so only
if it is orderly. -/
theorem executed_depthFirst_iff (U : Unicode) {c : Client} (hnext : c.queue.nextCommands = [])
    (n : ℕ) :
    let steps := c.queue.commandQueue.flatMap Queued.depthFirst
    let r := run U c (List.replicate n .tick)
    (r.1.queue.cmds = [] ↔ steps.length ≤ n) ∧
    (r.1.queue.cmds = [] →
      (Orderly c.queue.commandQueue → executed r.2 = steps) ∧
      ((c.queue.commandQueue.map Queued.stamp).Nodup → executed r.2 = steps →
        Orderly c.queue.commandQueue)) := by
  intro steps r
  have hpending : c.queue.pending = c.queue.commandQueue := by
    rw [Queue.pending, hnext, List.reverse_nil, List.append_nil]
  have hempty : r.1.queue.cmds = [] ↔ steps.length ≤ n := by
    rw [← load_eq_zero_iff, load_ticks, load_eq_length_depthFirst hnext, Nat.sub_eq_zero_iff_le]
  refine ⟨hempty, fun hdone => ?_⟩
  have hexec : executed r.2 =
      breadthFirst Queued.inserted steps.length c.queue.commandQueue := by
    simp only [r, steps]
    rw [executed_ticks, hpending, depthFirst_eq_expandTo]
    refine breadthFirst_of_le bounded_inserted ?_
    rw [← depthFirst_eq_expandTo]
    exact hempty.mp hdone
  rw [hexec]
  exact ⟨Orderly.breadthFirst_eq, orderly_of_breadthFirst_eq⟩

/-- The program with commands in its queue. -/
def Client.queueing (xs : List Queued) : Client :=
  { Client.init none none with queue := ⟨xs, []⟩ }

/-- A step to the left and a long jump, told apart by their stamps. -/
theorem executed_depthFirst_longJump :
    executed (run .ascii (Client.queueing [⟨"left", 0⟩, ⟨"long jump", 1⟩])
        (List.replicate 5 .tick)).2 =
      [⟨"left", 0⟩, ⟨"long jump", 1⟩, ⟨"long jump2", 1⟩, ⟨"long jump3", 1⟩, ⟨"long jump4", 1⟩] ∧
    Orderly [⟨"left", 0⟩, ⟨"long jump", 1⟩] := by
  have hiff := @executed_depthFirst_iff .ascii
    (Client.queueing [⟨"left", 0⟩, ⟨"long jump", 1⟩]) rfl 5
  obtain ⟨hsteps, hconverse⟩ := hiff.2 (hiff.1.mpr (by decide +kernel))
  have hexec := hsteps (by decide)
  exact ⟨hexec.trans (by decide +kernel), hconverse (by decide) hexec⟩

/-- **`cap bounce` does not run as it is written**: both of its dives are finished at the end only.
Nor does a long jump with anything queued behind it, which comes between its steps. -/
theorem executed_capBounce :
    let steps := fun xs n =>
      (executed (run .ascii (Client.queueing xs) (List.replicate n .tick)).2).map Queued.cmd
    steps [⟨"cap bounce", 0⟩] 9 =
        ["cap bounce", "b", "y", "sdive", "hy", "y", "sdive", "sdive2", "sdive2"] ∧
      steps [⟨"cap bounce", 0⟩] 9 ≠ expansion "cap bounce" ∧
      steps [⟨"long jump", 0⟩, ⟨"a", 1⟩] 5 =
        ["long jump", "a", "long jump2", "long jump3", "long jump4"] ∧
      steps [⟨"long jump", 0⟩, ⟨"a", 1⟩] 5 ≠ expansion "long jump" ++ expansion "a" := by
  decide +kernel

end Twitch

end SwitchController
