import SwitchController.Twitch.Authority
import SwitchController.Twitch.Order

/-!
# Nothing stays pressed

A step of a compound move leaves its buttons pressed: it sends the controller without a reset, and
the next step takes it from there. So a button is pressed between two ticks only while something
is queued, and what ends with the queues empty has let go of everything. The steps of two
compound moves may be mixed, which does not matter here: whatever step is the last, it inserts
nothing, and a step that inserts nothing resets the controller
(`SwitchController.Twitch.resetAfter_of_inserts_eq_nil`) – unless lock-on is on.
-/

namespace SwitchController

namespace Twitch

open EventMachine

/-! ### A reset at the end -/

/-- **`send_and_reset` with a reset** leaves the controller neutral, and transmits that last. -/
theorem runFrom_sendAndReset {as : List PadAct} {n : Slot} (h : sendAndReset true n <:+ as)
    (p : Pads) :
    (runFrom Pads.exec p as).1 n = Controller.neutral ∧
      ((runFrom Pads.exec p as).2.filterMap (PadObs.line? n)).getLast? = some neutralState := by
  obtain ⟨front, rfl⟩ := h
  rw [runFrom_append]
  generalize (runFrom Pads.exec p front).1 = q
  constructor
  · simp [sendAndReset, runFrom_cons, Pads.exec]
  · simp [sendAndReset, runFrom_cons, Pads.exec, List.filterMap_cons, getOutput_neutral]

/-! ### Ticks -/

/-- What inserts nothing gives `reset` the value `1`. -/
theorem moves_reset : ∀ br ∈ moves, br.inserts = [] → br.reset = some true := by decide +kernel

theorem resetAfter_of_inserts_eq_nil {cmd : Str} (h : inserts cmd = []) :
    resetAfter false cmd = true := by
  have hreset : ∀ br ∈ branches cmd, br.reset = some true := fun br hbr =>
    moves_reset br (List.mem_of_mem_filter hbr) (List.flatMap_eq_nil_iff.mp h br hbr)
  rw [resetAfter]
  split
  · rfl
  · -- `reset` is `1` at first, and each test that holds sets it to `1` again
    generalize branches cmd = brs at hreset
    induction brs with
    | nil => rfl
    | cons br brs ih =>
      obtain ⟨hbr, hbrs⟩ := List.forall_mem_cons.mp hreset
      rw [List.foldl_cons, hbr]
      exact ih hbrs

/-- **A tick with something queued** ends with `send_and_reset`. -/
theorem pad_decreaseQueue (U : Unicode) {c : Client} {x : Queued} {fresh : Bool}
    (h : c.queue.next? = some (x, fresh)) :
    sendAndReset (resetAfter c.switches.lockon x.cmd) .one <:+
      (decreaseQueue U c).filterMap Act.pad? := by
  simp only [decreaseQueue, h, executeActs, List.flatten_cons, List.flatten_nil, List.append_nil,
    List.filterMap_append, List.filterMap_cons, Act.pad?, filterMap_pad?_map, ← List.append_assoc]
  exact List.suffix_append _ _

theorem next?_of_pending {q : Queue} {x : Queued} {rest : List Queued}
    (h : q.pending = x :: rest) : ∃ fresh, q.next? = some (x, fresh) := by
  rw [Queue.pending] at h
  rcases hcq : q.commandQueue with - | ⟨y, ys⟩
  · rw [hcq, List.nil_append] at h
    exact ⟨false, by rw [Queue.next?, hcq, ← List.head?_reverse, h]; rfl⟩
  · rw [hcq, List.cons_append, List.cons.injEq] at h
    exact ⟨true, by rw [Queue.next?, hcq, h.1]⟩

/-- A tick with nothing queued, and lock-on off, does nothing. -/
theorem decreaseQueue_of_pending_eq_nil (U : Unicode) {c : Client} (h : c.queue.pending = [])
    (hlock : c.switches.lockon = false) : decreaseQueue U c = [] := by
  obtain ⟨hcq, hnc⟩ := List.append_eq_nil_iff.mp h
  rw [List.reverse_eq_nil_iff] at hnc
  simp [decreaseQueue, Queue.next?, hcq, hnc, hlock, ifThen]

/-! ### Messages -/

variable {U : Unicode} {c : Client} {username message : Str}

/-- A statement on a controller, or on the switch for all of them. -/
def Act.controls : Act → Bool
  | .pad _ => true
  | .switch (.controllerEnabled _) => true
  | _ => false

/-- **Only `!fixcontrollers` touches the controllers.** -/
theorem controls_handleChat : ∀ a ∈ handleChat U c username message, a.controls = true →
    U.commands message = [("!fixcontrollers" : Str)] ∧ username ∈ c.permissions.pluslist := by
  refine forall_handleChat (by simp [Act.controls]) ?_ ?_ ?_ (by simp [Act.controls])
    (by simp [Act.controls])
  · intro cmd _
    simp only [loopActs, forall_flatten, List.forall_mem_cons, forall_ifThen]
    simp [Act.controls]
  · intro cmd hcmd
    simp only [oneWord, forall_flatten, List.forall_mem_cons, forall_ifThen]
    simp [Act.controls, -String.reduceToList]
    rintro rfl hplus - - -
    exact ⟨hcmd, hplus⟩
  · intro cmd arg _
    exact forall_twoWords (by simp [Act.controls]) (by simp [Act.controls]) (by simp [Act.controls])
      (by simp [Act.controls]) (by simp [Act.controls])

/-- **`!fixcontrollers`** ends with `send_and_reset`. -/
theorem pad_handleChat_fixcontrollers (h : U.commands message = [("!fixcontrollers" : Str)])
    (hplus : username ∈ c.permissions.pluslist) :
    sendAndReset true .one <:+ (handleChat U c username message).filterMap Act.pad? := by
  obtain ⟨acts, hacts⟩ := oneWord_fixcontrollers hplus
  have hfix : sendAndReset true .one <:+ fixControllers.filterMap Act.pad? :=
    ⟨(fixControllers.filterMap Act.pad?).take 66, rfl⟩
  rw [handleChat_of_commands_eq h, hacts, ← List.append_assoc, List.filterMap_append,
    List.filterMap_append, List.filterMap_cons_none rfl, List.filterMap_nil, List.append_nil]
  exact hfix.trans (List.suffix_append _ _)

/-- Lock-on is toggled in the loop over the words, and nowhere else. -/
theorem toggle_commandActs (c : Client) (username : Str) (commands : List Str) :
    ∀ a ∈ (commandActs c username commands).acts, a ≠ .switch .toggleLockon := by
  refine forall_commandActs (by simp) ?_ ?_ (by simp)
  · intro cmd _
    have hfix : ∀ a ∈ fixControllers, a ≠ .switch .toggleLockon := by
      have hswitch : ∀ a ∈ fixControllers, a.switch? ≠ some .toggleLockon := by decide
      rintro a ha rfl
      exact hswitch _ ha rfl
    simp only [oneWord, forall_flatten, List.forall_mem_cons, forall_ifThen]
    simpa [-String.reduceToList] using fun _ _ => hfix
  · exact fun cmd arg _ => forall_twoWords (by simp) (by simp) (by simp) (by simp) (by simp)

theorem switch_loopActs (username cmd : Str) :
    (loopActs username cmd).filterMap Act.switch? =
      if isIn "lockon" cmd then [.toggleLockon] else [] := by
  have hballot : ∀ (p : Prop) [Decidable p] (yea : Bool),
      (ifThen p [.poll (.ballot username yea)]).filterMap Act.switch? = [] := by
    intro p _ yea
    rw [ifThen]
    split <;> rfl
  simp only [loopActs, List.flatten_cons, List.flatten_nil, List.append_nil, List.filterMap_append,
    hballot]
  rw [ifThen]
  split <;> rfl

/-- **Each word with `lockon` in it toggles lock-on.** -/
theorem toggles_handleChat :
    ((handleChat U c username message).filterMap Act.switch?).count .toggleLockon =
      (U.commands message).countP (isIn "lockon") := by
  have hhelp : (helpActs (U.commands message)).filterMap Act.switch? = [] :=
    filterMap_eq_nil_of_isPartialInv isPartialInv_switch fun b hb =>
      absurd (kind_helpActs _ _ hb) (by simp)
  have hrest : ((Script.andThen (commandActs c username (U.commands message))
      (.pure [.submit (submitted c username (U.commands message))])).acts.filterMap
        Act.switch?).count .toggleLockon = 0 := by
    refine List.count_eq_zero.mpr fun hmem => ?_
    have hacts := (mem_filterMap_of_isPartialInv isPartialInv_switch).mp hmem
    exact forall_andThen (toggle_commandActs c username _) (by simp) _ hacts rfl
  have hloop : ∀ commands : List Str,
      ((commands.flatMap (loopActs username)).filterMap Act.switch?).count .toggleLockon =
        commands.countP (isIn "lockon") := by
    intro commands
    induction commands with
    | nil => rfl
    | cons cmd commands ih =>
      rw [List.flatMap_cons, List.filterMap_append, List.count_append, ih, switch_loopActs,
        List.countP_cons]
      split <;> simp [Nat.add_comm]
  rw [handleChat, pure_andThen, List.filterMap_append, List.count_append, hrest,
    List.filterMap_append, hhelp, List.nil_append, hloop, Nat.add_zero]

/-- A message without `lockon` in it leaves lock-on alone. -/
theorem lockon_handleChat (h : isIn "lockon" message = false) :
    .switch .toggleLockon ∉ handleChat U c username message := by
  intro hmem
  have hcount : (U.commands message).countP (isIn "lockon") = 0 := by
    refine List.countP_eq_zero.mpr fun cmd hcmd hin => of_decide_eq_false h ?_
    exact (of_decide_eq_true hin).trans (isInfix_of_mem_commands hcmd)
  rw [← @toggles_handleChat U c username message, List.count_eq_zero] at hcount
  exact hcount ((mem_filterMap_of_isPartialInv isPartialInv_switch).mpr hmem)

theorem lockon_foldl {acts : List SwitchAct} (h : .toggleLockon ∉ acts) (s : Switches) :
    (acts.foldl Switches.exec s).lockon = s.lockon := by
  refine foldl_frame Switches.lockon (fun a ha s => ?_) s
  cases a with
  | toggleLockon => exact absurd ha h
  | _ => rfl

/-! ### Runs -/

/-- **Let go**: the first controller is neutral, and if a line was transmitted to it, so was the
last. -/
def LetGo (p : Pads) (msgs : List Str) : Prop :=
  p .one = Controller.neutral ∧ ∀ msg ∈ msgs.getLast?, msg = neutralState

/-- The invariant: lock-on is off, and with nothing queued the first controller is let go. -/
structure Released (c : Client) (log : List Obs) : Prop where
  lockon : c.switches.lockon = false
  letGo : c.queue.pending = [] → LetGo c.pads (linesTo .one log)

theorem released_init (pluslistPkl banlistPkl : Option (List Str)) :
    Released (Client.init pluslistPkl banlistPkl) [] :=
  ⟨rfl, fun _ => ⟨rfl, by simp [linesTo]⟩⟩

variable {log : List Obs}

/-- A script that ends with `send_and_reset` lets go. -/
theorem letGo_perform {acts : List Act} (h : sendAndReset true .one <:+ acts.filterMap Act.pad?)
    (c : Client) (log : List Obs) :
    LetGo (c.perform acts).1.pads (linesTo .one (log ++ (c.perform acts).2)) := by
  obtain ⟨hneutral, hlast⟩ := runFrom_sendAndReset h c.pads
  refine ⟨by rw [(pads_perform c acts).1, hneutral], fun msg hmsg => ?_⟩
  rw [linesTo_append, linesTo_perform, List.getLast?_append, hlast] at hmsg
  exact (Option.some_inj.mp hmsg).symm

/-- A script without statements on controllers keeps what is let go. -/
theorem LetGo.perform (h : LetGo c.pads (linesTo .one log)) {acts : List Act}
    (hacts : ∀ a ∈ acts, a.kind ≠ .pad) :
    LetGo (c.perform acts).1.pads (linesTo .one (log ++ (c.perform acts).2)) := by
  rw [(pads_perform_quiet c hacts).1, linesTo_append, linesTo_perform_quiet c hacts,
    List.append_nil]
  exact h

theorem Released.tick (h : Released c log) :
    Released (step U c .tick).1 (log ++ (step U c .tick).2) := by
  refine ⟨(congrArg _ (switches_tick U c)).trans h.lockon, fun hempty => ?_⟩
  rcases hp : c.queue.pending with - | ⟨x, rest⟩
  · have hnone : ∀ a ∈ decreaseQueue U c, a.kind ≠ .pad := by
      rw [decreaseQueue_of_pending_eq_nil U hp h.lockon]
      exact List.forall_mem_nil _
    exact (h.letGo hp).perform hnone
  · -- the last command to be executed inserts nothing
    obtain ⟨hrest, -⟩ := pending_tick U hp
    obtain ⟨-, hinserted⟩ := List.append_eq_nil_iff.mp (hrest.symm.trans hempty)
    obtain ⟨fresh, hnext⟩ := next?_of_pending hp
    have hsuffix := pad_decreaseQueue U hnext
    rw [h.lockon, resetAfter_of_inserts_eq_nil (inserted_eq_nil.mp hinserted)] at hsuffix
    exact letGo_perform hsuffix c log

theorem Released.chat (h : Released c log) (hlock : isIn "lockon" message = false) :
    Released (step U c (.chat username message)).1
      (log ++ (step U c (.chat username message)).2) := by
  constructor
  · have hnot : .switch .toggleLockon ∉ handleChat U c username message :=
      lockon_handleChat hlock
    change (c.perform (handleChat U c username message)).1.switches.lockon = false
    rw [switches_perform, lockon_foldl fun hmem => hnot
      ((mem_filterMap_of_isPartialInv isPartialInv_switch).mp hmem)]
    exact h.lockon
  · intro hempty
    by_cases hfix : U.commands message = [("!fixcontrollers" : Str)] ∧
        username ∈ c.permissions.pluslist
    · exact letGo_perform (pad_handleChat_fixcontrollers hfix.1 hfix.2) c log
    · -- what is queued after the message was queued before it, or came with it
      have hkind : ∀ a ∈ handleChat U c username message, a.kind ≠ .queue :=
        fun a ha => (kind_handleChat a ha).1
      obtain ⟨hqueue, -⟩ := queue_perform_quiet hkind c
      have hbefore : c.queue.pending = [] := by
        have hpending : (Queue.mk _ _).pending = [] :=
          (congrArg Queue.pending hqueue).symm.trans hempty
        simp only [Queue.pending, List.append_eq_nil_iff] at hpending ⊢
        exact ⟨hpending.1.1, hpending.2⟩
      refine (h.letGo hbefore).perform fun a ha hk => hfix (controls_handleChat a ha ?_)
      cases a with
      | pad a => rfl
      | _ => exact absurd hk (by simp)

/-- **No command leaves a button pressed.** After any messages without `lockon` in them and any
ticks, in any order, from the start of the program: if nothing is queued, the first controller
is neutral, and the last line transmitted to it, if there is one, is the neutral one. -/
theorem letGo_of_queue_empty (U : Unicode) (pluslistPkl banlistPkl : Option (List Str))
    {es : List Event} (hes : ∀ e ∈ es, e = .tick ∨
      ∃ username message, e = .chat username message ∧ isIn "lockon" message = false)
    (hempty : (run U (Client.init pluslistPkl banlistPkl) es).1.queue = ⟨[], []⟩) :
    (run U (Client.init pluslistPkl banlistPkl) es).1.pads .one = Controller.neutral ∧
      ∀ msg, (linesTo .one (run U (Client.init pluslistPkl banlistPkl) es).2).getLast? = some msg →
        msg = "800000000000000 128 128 128 128" := by
  have hguard : Guarded (step U) (fun _ _ e => e ∈ es) (Client.init pluslistPkl banlistPkl) es :=
    fun pre e he => he.subset (List.mem_append_right _ (List.mem_singleton_self e))
  have hrel : Released (run U (Client.init pluslistPkl banlistPkl) es).1
      (run U (Client.init pluslistPkl banlistPkl) es).2 := by
    refine runFrom_invariant_of_guard (released_init pluslistPkl banlistPkl) ?_ hguard
    intro c log e h he
    rcases hes e he with rfl | ⟨username, message, rfl, hlock⟩
    · exact h.tick
    · exact h.chat hlock
  exact hrel.letGo (by rw [hempty]; rfl)

/-- A long jump with a button pressed in the middle of it, and a combination. -/
theorem letGo_longJump :
    let es : List Event := [.chat "viewer" "long jump,y", .tick, .tick, .chat "viewer" "a+hup+zr",
      .tick, .tick, .tick, .tick]
    linesTo .one (run .ascii (Client.init none none) es).2 ≠ [] ∧
      (run .ascii (Client.init none none) es).1.pads .one = Controller.neutral := by
  intro es
  have hrun : linesTo .one (run .ascii (Client.init none none) es).2 ≠ [] ∧
      (run .ascii (Client.init none none) es).1.queue = ⟨[], []⟩ := by
    decide +kernel
  have hes : ∀ e ∈ es, e = .tick ∨
      ∃ username message, e = .chat username message ∧ isIn "lockon" message = false := by
    simp only [es, List.forall_mem_cons, reduceCtorEq, true_or, Event.chat.injEq, false_or]
    refine ⟨⟨_, _, ⟨rfl, rfl⟩, by decide⟩, trivial, trivial, ⟨_, _, ⟨rfl, rfl⟩, by decide⟩, ?_⟩
    simp
  exact ⟨hrun.1, (letGo_of_queue_empty .ascii none none hes hrun.2).1⟩

end Twitch

end SwitchController
