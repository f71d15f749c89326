import SwitchController.Lib.Unfold
import SwitchController.Twitch.Run

/-!
# The queue drains

A compound command puts further commands into `nextCommands`, some of which are compound
themselves. What a command gives rise to in the end is its expansion
(`SwitchController.Twitch.expansion`), and the number of commands in it is its weight: one for
itself, and the weights of what it inserts.

Every tick executes one command and puts what it inserts in its place, so the weights of all
that is queued go down by one. Nothing is lost and nothing is executed twice: what has been
executed, and the expansions of what is queued, are together the expansions of what was there
and what was appended (`SwitchController.Twitch.queue_drains`).
-/

namespace SwitchController

namespace Twitch

open EventMachine Unfolding

/-! ### Expansions -/

/-- **A command and all it gives rise to.** The longest chain is that of `spin`. -/
def expansion (cmd : Str) : List Str := expandTo inserts 15 cmd

/-- The weight of a command. -/
def weight (cmd : Str) : ℕ := (expansion cmd).length

/-- The tests that insert something. -/
def compounds : List Branch := moves.filter (·.inserts ≠ [])

/-- What they insert: all that is inserted. -/
def compoundInserts (cmd : Str) : List Str :=
  (compounds.filter (cmd ∈ ·.names)).flatMap Branch.inserts

theorem inserts_eq_compoundInserts : inserts = compoundInserts := by
  funext cmd
  rw [inserts, branches, compoundInserts, compounds, List.filter_comm]
  generalize moves.filter (cmd ∈ ·.names) = brs
  induction brs with
  | nil => rfl
  | cons br brs ih =>
    rw [List.flatMap_cons, ih]
    by_cases hnil : br.inserts = []
    · rw [List.filter_cons_of_neg (by simpa using hnil), hnil, List.nil_append]
    · rw [List.filter_cons_of_pos (by simpa using hnil), List.flatMap_cons]

theorem expandTo_compounds : ∀ br ∈ compounds, ∀ cmd ∈ br.names,
    expandTo compoundInserts (15 + 1) cmd = expandTo compoundInserts 15 cmd := by decide +kernel

theorem bounded_inserts : Bounded inserts 15 := by
  intro cmd
  rw [inserts_eq_compoundInserts]
  by_cases h : ∃ br ∈ compounds, cmd ∈ br.names
  · obtain ⟨br, hbr, hcmd⟩ := h
    exact expandTo_compounds br hbr cmd hcmd
  · -- any other command inserts nothing
    have hnone : compounds.filter (cmd ∈ ·.names) = [] :=
      List.filter_eq_nil_iff.mpr fun br hbr hcmd => h ⟨br, hbr, of_decide_eq_true hcmd⟩
    have hnil : compoundInserts cmd = [] := by rw [compoundInserts, hnone, List.flatMap_nil]
    rw [expandTo_of_nil hnil, expandTo_of_nil hnil]

/-- **The weight of a command is one more than the weights of what it inserts.** -/
theorem weight_eq (cmd : Str) : weight cmd = 1 + ((inserts cmd).map weight).sum :=
  length_expansion bounded_inserts cmd

/-! ### What is queued, and what the log says -/

/-- The commands that are queued. -/
def Queue.cmds (q : Queue) : List Str := (q.commandQueue ++ q.nextCommands).map Queued.cmd

/-- **The total of the weights.** -/
def Queue.load (q : Queue) : ℕ := (q.cmds.map weight).sum

/-- A command was appended. -/
@[simp] def QueueObs.appended? : QueueObs → Option Queued
  | .appended q => some q
  | .executed _ _ => none

/-- A command was executed. -/
@[simp] def QueueObs.executed? : QueueObs → Option Queued
  | .appended _ => none
  | .executed q _ => some q

/-- A command of `commandQueue` was executed. -/
@[simp] def QueueObs.fresh? : QueueObs → Option Queued
  | .executed q true => some q
  | _ => none

/-- What was appended to `commandQueue`. -/
def appended (log : List Obs) : List Queued :=
  (log.filterMap Obs.queue?).filterMap QueueObs.appended?

/-- What was executed. -/
def executed (log : List Obs) : List Queued :=
  (log.filterMap Obs.queue?).filterMap QueueObs.executed?

/-- What was executed of `commandQueue`. -/
def executedFresh (log : List Obs) : List Queued :=
  (log.filterMap Obs.queue?).filterMap QueueObs.fresh?

@[simp] theorem appended_append (log log' : List Obs) :
    appended (log ++ log') = appended log ++ appended log' := by
  simp [appended]

@[simp] theorem executed_append (log log' : List Obs) :
    executed (log ++ log') = executed log ++ executed log' := by
  simp [executed]

@[simp] theorem executedFresh_append (log log' : List Obs) :
    executedFresh (log ++ log') = executedFresh log ++ executedFresh log' := by
  simp [executedFresh]

theorem load_eq_length (q : Queue) : q.load = (q.cmds.flatMap expansion).length := by
  rw [Queue.load, List.length_flatMap]
  rfl

/-! ### Events other than ticks -/

/-- **Other statements**: what is submitted is appended, and nothing is executed. -/
theorem queue_exec_quiet {a : Act} (h : a.kind ≠ .queue) (c : Client) :
    (c.exec a).1.queue = ⟨c.queue.commandQueue ++ appended (c.exec a).2, c.queue.nextCommands⟩ ∧
      executed (c.exec a).2 = [] ∧ executedFresh (c.exec a).2 = [] := by
  rcases a with a | a | a | a | a | a | a | cmds
  all_goals simp [Client.exec, appended, executed, executedFresh, List.filterMap_map,
    List.filterMap_cons, Function.comp_def] at h ⊢
  split
  · simp [List.filterMap_map, Function.comp_def]
  · simp

theorem queue_perform_quiet {acts : List Act} (h : ∀ a ∈ acts, a.kind ≠ .queue) (c : Client) :
    (c.perform acts).1.queue =
        ⟨c.queue.commandQueue ++ appended (c.perform acts).2, c.queue.nextCommands⟩ ∧
      executed (c.perform acts).2 = [] ∧ executedFresh (c.perform acts).2 = [] := by
  induction acts generalizing c with
  | nil => exact ⟨by simp [Client.perform, appended], rfl, rfl⟩
  | cons a acts ih =>
    obtain ⟨ha, hacts⟩ := List.forall_mem_cons.mp h
    obtain ⟨hone, hexec, hfresh⟩ := queue_exec_quiet ha c
    obtain ⟨hrest, hexec', hfresh'⟩ := ih hacts (c.exec a).1
    rw [Client.perform, runFrom_cons]
    refine ⟨hrest.trans ?_, ?_, ?_⟩
    · rw [hone, appended_append, List.append_assoc]
      rfl
    · rw [executed_append, hexec]
      exact hexec'
    · rw [executedFresh_append, hfresh]
      exact hfresh'

/-! ### Ticks -/

theorem queue_executeActs (U : Unicode) (lockon : Bool) (q : Queued) :
    (executeActs U lockon q).filterMap Act.queue? =
      (inserts q.cmd).map fun cmd => .insert ⟨cmd, q.stamp⟩ := by
  have hpads : ∀ as : List PadAct, (as.map Act.pad).filterMap Act.queue? = [] := fun as =>
    List.filterMap_eq_nil_iff.mpr (List.forall_mem_map.mpr fun _ _ => rfl)
  have hsets : ∀ ss : List Setting,
      (ss.map fun s => Act.pad (s.act (.chat q.stamp))).filterMap Act.queue? = [] := fun ss =>
    List.filterMap_eq_nil_iff.mpr (List.forall_mem_map.mpr fun _ _ => rfl)
  -- only the branches insert: the settings and the send are on controllers
  rw [executeActs, List.filterMap_append, List.filterMap_append, hpads, hsets, List.append_nil,
    List.append_nil, inserts]
  -- branch by branch, in the order of the table
  induction branches q.cmd with
  | nil => rfl
  | cons br brs ih =>
    rw [List.flatMap_cons, List.filterMap_append, ih, List.filterMap_append, hsets,
      List.nil_append, List.flatMap_cons, List.map_append, List.filterMap_map]
    exact congrArg (· ++ _) (List.filterMap_eq_map (f := fun cmd => _) ▸ rfl)

/-- Insertions at the front, one after the other. -/
theorem runFrom_insert (q : Queue) (xs : List Queued) :
    runFrom Queue.exec q (xs.map .insert) =
      (⟨q.commandQueue, xs.reverse ++ q.nextCommands⟩, []) := by
  induction xs generalizing q with
  | nil => rfl
  | cons x xs ih =>
    rw [List.map_cons, runFrom_cons, Queue.exec, ih]
    simp

/-- What a command inserts, as it is queued. -/
def Queued.inserted (x : Queued) : List Queued := (inserts x.cmd).map fun cmd => ⟨cmd, x.stamp⟩

/-- **A tick with something in `commandQueue`** executes the first of it, -/
theorem queue_tick_cons (U : Unicode) {c : Client} {x : Queued} {rest : List Queued}
    (h : c.queue.commandQueue = x :: rest) :
    (step U c .tick).1.queue = ⟨rest, x.inserted.reverse ++ c.queue.nextCommands⟩ ∧
      (step U c .tick).2.filterMap Obs.queue? = [.executed x true] := by
  have hnext : c.queue.next? = some (x, true) := by rw [Queue.next?, h]
  have hacts : (decreaseQueue U c).filterMap Act.queue? =
      .advance :: .take true :: x.inserted.map .insert := by
    rw [decreaseQueue, hnext, ifThen_pos (by rw [h]; simp)]
    -- `lockon` presses a button first, which is none of the queue's business
    cases c.switches.lockon <;>
      simp [ifThen, List.filterMap_cons, queue_executeActs, Queued.inserted, Function.comp_def]
  obtain ⟨hqueue, hlog⟩ := queue_perform c (kind_decreaseQueue_ne U c (by decide) (by decide))
  rw [hacts, runFrom_cons, runFrom_cons, runFrom_insert] at hqueue hlog
  simp only [Queue.exec, h, List.getLast?_concat, List.dropLast_concat] at hqueue hlog
  exact ⟨hqueue, hlog⟩

/-- **and with nothing there**, the last of `nextCommands`. -/
theorem queue_tick_concat (U : Unicode) {c : Client} {x : Queued} {rest : List Queued}
    (h : c.queue.commandQueue = []) (h' : c.queue.nextCommands = rest ++ [x]) :
    (step U c .tick).1.queue = ⟨[], x.inserted.reverse ++ rest⟩ ∧
      (step U c .tick).2.filterMap Obs.queue? = [.executed x false] := by
  have hnext : c.queue.next? = some (x, false) := by simp [Queue.next?, h, h']
  have hacts : (decreaseQueue U c).filterMap Act.queue? =
      .take false :: x.inserted.map .insert := by
    rw [decreaseQueue, hnext, ifThen_neg (by rw [h]; simp)]
    cases c.switches.lockon <;>
      simp [ifThen, List.filterMap_cons, queue_executeActs, Queued.inserted, Function.comp_def]
  obtain ⟨hqueue, hlog⟩ := queue_perform c (kind_decreaseQueue_ne U c (by decide) (by decide))
  rw [hacts, runFrom_cons, runFrom_insert] at hqueue hlog
  simp only [Queue.exec, h, h', List.getLast?_concat, List.dropLast_concat] at hqueue hlog
  exact ⟨hqueue, hlog⟩

theorem queue_tick_nil (U : Unicode) {c : Client} (h : c.queue.commandQueue = [])
    (h' : c.queue.nextCommands = []) :
    (step U c .tick).1.queue = c.queue ∧ (step U c .tick).2.filterMap Obs.queue? = [] := by
  have hnext : c.queue.next? = none := by simp [Queue.next?, h, h']
  have hacts : (decreaseQueue U c).filterMap Act.queue? = [] := by
    rw [decreaseQueue, hnext, ifThen_neg (by rw [h]; simp)]
    cases c.switches.lockon <;> simp [ifThen, List.filterMap_cons]
  obtain ⟨hqueue, hlog⟩ := queue_perform c (kind_decreaseQueue_ne U c (by decide) (by decide))
  rw [hacts] at hqueue hlog
  exact ⟨hqueue, hlog⟩

/-- What takes the place of a command, wherever it is put. -/
theorem cmds_inserted (x : Queued) (front back : List Queued) :
    (Queue.mk front (x.inserted.reverse ++ back)).cmds.Perm
      (inserts x.cmd ++ (front ++ back).map Queued.cmd) := by
  have hcmds : x.inserted.map Queued.cmd = inserts x.cmd := by
    rw [Queued.inserted, List.map_map]
    exact List.map_id _
  -- insertions at the front come out in reverse, which a permutation does not see
  have hmove : (front ++ (x.inserted.reverse ++ back)).Perm (x.inserted ++ (front ++ back)) :=
    (List.perm_append_comm_assoc _ _ _).trans ((List.reverse_perm _).append_right _)
  rw [← hcmds, ← List.map_append]
  exact hmove.map Queued.cmd

/-- **What a tick does to the queues**: nothing if they are empty; else it executes one command,
the first of `commandQueue` if there is one, and what that inserts takes its place. -/
theorem tick_cases (U : Unicode) (c : Client) :
    (c.queue.cmds = [] ∧ (step U c .tick).1.queue = c.queue ∧
        (step U c .tick).2.filterMap Obs.queue? = []) ∨
      ∃ x fresh rest, c.queue.cmds.Perm (x.cmd :: rest) ∧
        (step U c .tick).1.queue.cmds.Perm (inserts x.cmd ++ rest) ∧
        (step U c .tick).2.filterMap Obs.queue? = [.executed x fresh] ∧
        executedFresh (step U c .tick).2 ++ (step U c .tick).1.queue.commandQueue =
          c.queue.commandQueue := by
  rcases hcq : c.queue.commandQueue with - | ⟨x, rest⟩
  · rcases List.eq_nil_or_concat' c.queue.nextCommands with hnc | ⟨rest, x, hnc⟩
    · obtain ⟨hqueue, hlog⟩ := queue_tick_nil U hcq hnc
      exact Or.inl ⟨by simp [Queue.cmds, hcq, hnc], hqueue, hlog⟩
    · obtain ⟨hqueue, hlog⟩ := queue_tick_concat U hcq hnc
      refine Or.inr ⟨x, false, rest.map Queued.cmd, ?_, ?_, hlog, ?_⟩
      · rw [Queue.cmds, hcq, hnc, List.nil_append, List.map_append]
        exact List.perm_append_singleton _ _
      · rw [hqueue]
        exact cmds_inserted x [] rest
      · rw [executedFresh, hlog, hqueue]
        rfl
  · obtain ⟨hqueue, hlog⟩ := queue_tick_cons U hcq
    refine Or.inr ⟨x, true, (rest ++ c.queue.nextCommands).map Queued.cmd, ?_, ?_, hlog, ?_⟩
    · rw [Queue.cmds, hcq]
      exact List.Perm.refl _
    · rw [hqueue]
      exact cmds_inserted x rest c.queue.nextCommands
    · rw [executedFresh, hlog, hqueue]
      rfl

/-- The weights go down by one. -/
theorem load_tick (U : Unicode) (c : Client) :
    (step U c .tick).1.queue.load = c.queue.load - 1 ∧
      (c.queue.cmds ≠ [] → 0 < c.queue.load ∧ ∃ x, executed (step U c .tick).2 = [x]) := by
  rcases tick_cases U c with ⟨hnil, hqueue, -⟩ | ⟨x, fresh, rest, hcmds, hcmds', hlog, -⟩
  · refine ⟨?_, fun h => absurd hnil h⟩
    rw [hqueue, Queue.load, hnil]
    rfl
  · have hperm := (expansion_perm bounded_inserts hcmds hcmds').length_eq
    rw [List.length_cons] at hperm
    rw [load_eq_length, load_eq_length]
    change (List.flatMap expansion _).length + 1 = (List.flatMap expansion _).length at hperm
    exact ⟨by omega, fun _ => ⟨by omega, x, by rw [executed, hlog]; rfl⟩⟩

/-- Nothing weighs nothing. -/
theorem load_eq_zero_iff (q : Queue) : q.load = 0 ↔ q.cmds = [] := by
  constructor
  · intro hload
    rcases hcmds : q.cmds with - | ⟨cmd, cmds⟩
    · rfl
    · rw [Queue.load, hcmds, List.map_cons, List.sum_cons, weight_eq] at hload
      omega
  · intro hcmds
    rw [Queue.load, hcmds]
    rfl

theorem load_ticks (U : Unicode) (c : Client) (n : ℕ) :
    (run U c (List.replicate n .tick)).1.queue.load = c.queue.load - n := by
  induction n generalizing c with
  | zero => rfl
  | succ n ih =>
    rw [List.replicate_succ, run, runFrom_cons]
    refine (ih (step U c .tick).1).trans ?_
    rw [(load_tick U c).1]
    omega

/-! ### Runs -/

/-- What happens to the queues: the events of the program, and anything else that appends to
`commandQueue`. -/
inductive Feed where
  | event (e : Event)
  | append (q : Queued)

/-- One of them. -/
def feed (U : Unicode) (c : Client) : Feed → Client × List Obs
  | .event e => step U c e
  | .append q =>
      ({ c with queue := ⟨c.queue.commandQueue ++ [q], c.queue.nextCommands⟩ },
        [.queue (.appended q)])

/-- **Everything is accounted for.** -/
structure Accounted (q₀ q : Queue) (log : List Obs) : Prop where
  /-- What was executed, and what is to come, are what was there and was appended. -/
  perm : ((executed log).map Queued.cmd ++ q.cmds.flatMap expansion).Perm
    ((q₀.cmds ++ (appended log).map Queued.cmd).flatMap expansion)
  /-- `commandQueue` is executed in its order. -/
  order : executedFresh log ++ q.commandQueue = q₀.commandQueue ++ appended log

theorem accounted_nil (q : Queue) : Accounted q q [] where
  perm := by simp [executed, appended]
  order := by simp [executedFresh, appended]

variable {q₀ : Queue} {c : Client} {log : List Obs}

/-- A step that appends something, and executes nothing. -/
theorem Accounted.append (h : Accounted q₀ c.queue log) {q : Queue} {os : List Obs}
    (hq : q = ⟨c.queue.commandQueue ++ appended os, c.queue.nextCommands⟩)
    (hexec : executed os = []) (hfresh : executedFresh os = []) :
    Accounted q₀ q (log ++ os) where
  perm := by
    have hcmds : q.cmds.Perm (c.queue.cmds ++ (appended os).map Queued.cmd) := by
      rw [hq, Queue.cmds, Queue.cmds, ← List.map_append, List.append_assoc, List.append_assoc]
      exact (List.perm_append_comm.append_left _).map Queued.cmd
    rw [executed_append, hexec, List.append_nil, appended_append, List.map_append,
      ← List.append_assoc, List.flatMap_append]
    -- what is appended has its expansion on both sides
    refine ((hcmds.flatMap_right expansion).append_left _).trans ?_
    rw [List.flatMap_append, ← List.append_assoc]
    exact h.perm.append_right _
  order := by
    rw [executedFresh_append, hfresh, List.append_nil, appended_append, hq, ← List.append_assoc,
      ← List.append_assoc, h.order]

theorem Accounted.tick (h : Accounted q₀ c.queue log) (U : Unicode) :
    Accounted q₀ (step U c .tick).1.queue (log ++ (step U c .tick).2) := by
  rcases tick_cases U c with
    ⟨-, hqueue, hlog⟩ | ⟨x, fresh, rest, hcmds, hcmds', hlog, horder⟩
  · refine h.append ?_ (by rw [executed, hlog]; rfl) (by rw [executedFresh, hlog]; rfl)
    rw [hqueue, appended, hlog, List.filterMap_nil, List.append_nil]
  · have hexec : executed (step U c .tick).2 = [x] := by rw [executed, hlog]; rfl
    have hnone : appended (step U c .tick).2 = [] := by rw [appended, hlog]; rfl
    constructor
    · -- the command moves from what is to come to what was executed
      rw [executed_append, hexec, appended_append, hnone, List.append_nil, List.map_append,
        List.append_assoc]
      exact ((expansion_perm bounded_inserts hcmds hcmds').append_left _).trans h.perm
    · rw [executedFresh_append, List.append_assoc, horder, appended_append, hnone, List.append_nil]
      exact h.order

theorem Accounted.feed (h : Accounted q₀ c.queue log) (U : Unicode) (f : Feed) :
    Accounted q₀ (feed U c f).1.queue (log ++ (feed U c f).2) := by
  rcases f with e | q
  · by_cases he : e = .tick
    · subst he
      exact h.tick U
    · obtain ⟨hqueue, hexec, hfresh⟩ := queue_perform_quiet (kind_script U c he) c
      exact h.append hqueue hexec hfresh
  · exact h.append rfl rfl rfl

/-- **The queue drains, and nothing is lost or executed twice.** The weight of a command is one
more than the weights of what it inserts. From any contents of the two queues and after any
events and appended commands, with `r` the state and the log then:

* a tick with something queued executes exactly one command, and lowers the total of the
  weights by one;
* by ticks alone, the queues are empty after as many of them as the total, and not before;
* what has been executed, and the expansions of what is queued, are the expansions of what was
  queued at first or appended; with the queues empty, that is what has been executed;
* the commands of `commandQueue` are executed in its order. -/
theorem queue_drains (U : Unicode) (c : Client) (fs : List Feed) :
    (∀ cmd, weight cmd = 1 + ((inserts cmd).map weight).sum) ∧
    let r := runFrom (feed U) c fs
    (r.1.queue.cmds ≠ [] → ∃ x, executed (step U r.1 .tick).2 = [x] ∧
      (step U r.1 .tick).1.queue.load + 1 = r.1.queue.load) ∧
    (∀ n, (run U r.1 (List.replicate n .tick)).1.queue.cmds = [] ↔ r.1.queue.load ≤ n) ∧
    ((executed r.2).map Queued.cmd ++ r.1.queue.cmds.flatMap expansion).Perm
      ((c.queue.cmds ++ (appended r.2).map Queued.cmd).flatMap expansion) ∧
    executedFresh r.2 ++ r.1.queue.commandQueue = c.queue.commandQueue ++ appended r.2 := by
  refine ⟨weight_eq, ?_⟩
  intro r
  have hrun : Accounted c.queue r.1.queue r.2 :=
    runFrom_invariant (P := fun (c' : Client) log => Accounted c.queue c'.queue log)
      (accounted_nil c.queue) (fun _ _ f h => h.feed U f) fs
  refine ⟨fun hne => ?_, fun n => ?_, hrun.perm, hrun.order⟩
  · obtain ⟨hload, hexec⟩ := load_tick U r.1
    obtain ⟨hpos, x, hx⟩ := hexec hne
    exact ⟨x, hx, by omega⟩
  · rw [← load_eq_zero_iff, load_ticks]
    omega

end Twitch

end SwitchController
