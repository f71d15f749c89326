import SwitchController.Twitch.Drain

/-!
# Where privileged buttons come from

`plus` is for the users on `pluslist`, `home` and `capture` are for the moderators. The test is
made when a message is handled or a state comes in; the press may come many ticks later, by way
of the queue, and the button stays pressed until its controller is reset. Five parts of the program
press buttons of the same controllers.

Every press is logged with what it goes back to (`SwitchController.Twitch.Cause`), and a digit of a
line is `1` just when a press of the button is standing. So the question is what the presses in
the log go back to, and that is settled event by event: a press is made by the event itself, or
by a command in the queue, which was put there by a message
(`SwitchController.Twitch.vouched_step`).
-/

namespace SwitchController

namespace Twitch

open EventMachine

/-! ### Permission -/

section

variable (U : Unicode) (c₀ : Client) (es : List Event)

/-- The client when an event of the run is handled. -/
def clientAt (k : ℕ) : Client := (run U c₀ (es.take k)).1

/-- Event `k` is a message with this command, of a user who was on the list when it was
handled. -/
def FromChat (k : ℕ) (cmd : Str) (users : Client → List Str) : Prop :=
  ∃ username message, es[k]? = some (.chat username message) ∧ cmd ∈ U.commands message ∧
    username ∈ users (clientAt U c₀ es k)

/-- Event `k` is a state of this slot, whose player was on the list. -/
def FromState (k : ℕ) (n : Slot) (users : Client → List Str) : Prop :=
  ∃ state, es[k]? = some (.state n state) ∧
    (clientAt U c₀ es k).switches.playerIn U n (users (clientAt U c₀ es k))

/-- `pluslist`, -/
def plusUsers (c : Client) : List Str := c.permissions.pluslist

/-- and `modlist`, which is the same at all times. -/
def modUsers (_ : Client) : List Str := modlist

/-- **What a press of a button may go back to.** -/
def Permitted (n : Slot) : Btn → Cause → Prop
  | .plus, .chat k => FromChat U c₀ es k "plus" plusUsers
  | .plus, .state k => FromState U c₀ es k n plusUsers
  | .plus, _ => False
  | .home, .chat k => FromChat U c₀ es k "home" modUsers
  | .home, .state k => FromState U c₀ es k n modUsers
  | .home, .lockon => False
  | .home, .gotoGame => True
  | .home, .fixControllers => True
  | .capture, .state k => FromState U c₀ es k n modUsers
  | .capture, _ => False
  | _, _ => True

end

section

variable {U : Unicode} {c₀ : Client} {es : List Event} {k : ℕ} {n : Slot}

/-- What an event goes back to stays as it is. -/
theorem clientAt_concat (hk : k < es.length) (e : Event) :
    clientAt U c₀ (es ++ [e]) k = clientAt U c₀ es k := by
  rw [clientAt, clientAt, List.take_append_of_le_length hk.le]

theorem clientAt_length (e : Event) :
    clientAt U c₀ (es ++ [e]) es.length = (run U c₀ es).1 := by
  rw [clientAt, List.take_left]

theorem FromChat.concat {cmd : Str} {users : Client → List Str}
    (h : FromChat U c₀ es k cmd users) (e : Event) : FromChat U c₀ (es ++ [e]) k cmd users := by
  obtain ⟨username, message, hk, hcmd, hu⟩ := h
  obtain ⟨hlt, -⟩ := List.getElem?_eq_some_iff.mp hk
  refine ⟨username, message, ?_, hcmd, by rwa [clientAt_concat hlt]⟩
  rw [List.getElem?_append_left hlt, hk]

theorem FromState.concat {users : Client → List Str} (h : FromState U c₀ es k n users)
    (e : Event) : FromState U c₀ (es ++ [e]) k n users := by
  obtain ⟨state, hk, hplayer⟩ := h
  obtain ⟨hlt, -⟩ := List.getElem?_eq_some_iff.mp hk
  refine ⟨state, ?_, by rwa [clientAt_concat hlt]⟩
  rw [List.getElem?_append_left hlt, hk]

theorem Permitted.concat {btn : Btn} {cause : Cause} (h : Permitted U c₀ es n btn cause)
    (e : Event) : Permitted U c₀ (es ++ [e]) n btn cause := by
  cases btn <;> cases cause <;>
    first
    | exact h
    | exact FromChat.concat h e
    | exact FromState.concat h e

end

/-! ### The table -/

/-- **The table has one row for `plus` and one for `home`**, none for `capture`, and nothing inserts
one of them. -/
theorem moves_privileged : ∀ br ∈ moves,
    (.press .plus ∈ br.sets → br.names = [("plus" : Str)]) ∧
      (.press .home ∈ br.sets → br.names = [("home" : Str)]) ∧ .press .capture ∉ br.sets ∧
      ("plus" : Str) ∉ br.inserts ∧ ("home" : Str) ∉ br.inserts := by
  decide +kernel

theorem combos_privileged : ∀ combo ∈ combos,
    combo.2 ≠ .press .plus ∧ combo.2 ≠ .press .home ∧ combo.2 ≠ .press .capture := by
  decide +kernel

theorem not_mem_inserts (cmd : Str) :
    ("plus" : Str) ∉ inserts cmd ∧ ("home" : Str) ∉ inserts cmd := by
  simp only [inserts, List.mem_flatMap, not_exists, not_and]
  constructor
  · intro br hbr
    exact (moves_privileged br (List.mem_of_mem_filter hbr)).2.2.2.1
  · intro br hbr
    exact (moves_privileged br (List.mem_of_mem_filter hbr)).2.2.2.2

/-! ### Presses -/

/-- A press that needs no permission. -/
def Harmless (btn : Btn) (cause : Cause) : Prop :=
  btn ≠ .plus ∧ btn ≠ .capture ∧ (btn = .home → cause = .gotoGame ∨ cause = .fixControllers)

instance (btn : Btn) (cause : Cause) : Decidable (Harmless btn cause) :=
  inferInstanceAs (Decidable (_ ∧ _))

theorem Harmless.permitted {btn : Btn} {cause : Cause} (h : Harmless btn cause) (U : Unicode)
    (c₀ : Client) (es : List Event) (n : Slot) : Permitted U c₀ es n btn cause := by
  obtain ⟨hplus, hcapture, hhome⟩ := h
  cases btn with
  | plus => exact absurd rfl hplus
  | capture => exact absurd rfl hcapture
  | home => rcases hhome rfl with rfl | rfl <;> trivial
  | _ => trivial

/-- A statement that is a harmless press, if it is a press. -/
def Act.Harmless : Act → Prop
  | .pad (.press _ btn cause) => Twitch.Harmless btn cause
  | _ => True

instance : DecidablePred Act.Harmless
  | .pad (.press _ btn cause) => inferInstanceAs (Decidable (Twitch.Harmless btn cause))
  | .pad (.reset _) | .pad (.release _ _) | .pad (.dpad _ _) | .pad (.stick _ _ _)
  | .pad (.send _) | .poll _ | .permission _ | .queue _ | .switch _ | .call _ | .io _
  | .submit _ => isTrue trivial

theorem Act.Harmless.of_kind {a : Act} (h : a.kind ≠ .pad) : a.Harmless := by
  cases a with
  | pad a => exact absurd rfl h
  | _ => trivial

theorem harmless_fixControllers : ∀ a ∈ fixControllers, a.Harmless := by decide

theorem harmless_push (s : Stick) (v : ℤ) : ∀ a ∈ (push s v).map Act.pad, a.Harmless := by
  simp [push, sendAndReset, Act.Harmless]

theorem harmless_tap : ∀ a ∈ (tap .one .a .gotoGame).map Act.pad, a.Harmless := by decide

theorem harmless_replicate {as : List PadAct} (h : ∀ a ∈ as.map Act.pad, a.Harmless) (k : ℕ) :
    ∀ a ∈ (List.replicate k as).flatten.map Act.pad, a.Harmless := by
  intro a ha
  simp only [List.mem_map, List.mem_flatten] at ha h
  obtain ⟨b, ⟨l, hl, hb⟩, rfl⟩ := ha
  rw [List.eq_of_mem_replicate hl] at hb
  exact h _ ⟨b, hb, rfl⟩

theorem harmless_startGame (g : Game) (x y : ℕ) : ∀ a ∈ startGame g x y, a.Harmless := by
  rw [startGame, List.map_append, List.map_append]
  simp only [List.forall_mem_append]
  exact ⟨⟨⟨harmless_replicate (harmless_push _ _) _, harmless_replicate (harmless_push _ _) _⟩,
    harmless_replicate harmless_tap _⟩, by simp [Act.Harmless]⟩

theorem harmless_search (g : Game) (find : ℕ → Option (ℕ × ℕ)) (left attempt : ℕ) :
    ∀ a ∈ search g find left attempt, a.Harmless := by
  induction left generalizing attempt with
  | zero =>
    rw [search]
    split
    · decide
    · exact harmless_startGame g _ _
  | succ left ih =>
    rw [search]
    split
    · exact List.forall_mem_append.mpr ⟨by decide, ih (attempt + 1)⟩
    · exact harmless_startGame g _ _

/-- `goto_game` presses `home` and `a`. -/
theorem harmless_gotoRest (g : Game) (find : ℕ → Option (ℕ × ℕ)) :
    ∀ a ∈ gotoRest g find, a.Harmless :=
  List.forall_mem_append.mpr ⟨by decide, harmless_search g find 3 0⟩

theorem harmless_gotoStep (c : Client) (i : ℕ) : ∀ a ∈ gotoStep c i, a.Harmless := by
  rcases gotoStep_cases c i with h | ⟨b, acts, call, h, -, hacts⟩
  · rw [h]
    exact List.forall_mem_nil _
  · rw [h]
    exact List.forall_mem_cons.mpr ⟨trivial, fun a ha => harmless_gotoRest _ _ a (hacts ha)⟩

theorem harmless_endGotoVote (c : Client) (i : ℕ) (find : ℕ → Option (ℕ × ℕ)) :
    ∀ a ∈ endGotoVote c i find, a.Harmless := by
  cases hi : c.poll.voteTimers[i]? with
  | none => simp [endGotoVote, hi]
  | some g =>
    rw [endGotoVote_eq c hi]
    split <;> simp [gotoStart, Act.Harmless, Harmless]

section

variable {U : Unicode} {c : Client} {n : Slot} {btn : Btn} {cause : Cause}

/-- A message presses buttons only with `!fixcontrollers`. -/
theorem harmless_handleChat {username message : Str} :
    ∀ a ∈ handleChat U c username message, a.Harmless := by
  refine forall_handleChat (by simp [Act.Harmless]) ?_ ?_ ?_ (by simp [Act.Harmless])
    (by simp [Act.Harmless])
  · intro cmd _ a ha
    refine .of_kind ?_
    rcases kind_loopActs username cmd a ha with h | h <;> rw [h] <;> decide
  · intro cmd _
    simp only [oneWord, forall_flatten, List.forall_mem_cons, forall_ifThen]
    simp [Act.Harmless, -String.reduceToList]
    exact fun _ _ => harmless_fixControllers
  · intro cmd arg _ a ha
    refine .of_kind ?_
    rcases kind_twoWords _ username cmd arg a ha with h | h <;> rw [h] <;> decide

/-- A command of the queue presses `plus` and `home` only if that is its name. -/
theorem press_executeActs {lockon : Bool} {q : Queued}
    (h : .pad (.press n btn cause) ∈ executeActs U lockon q) :
    cause = .chat q.stamp ∧ (btn = .plus → q.cmd = "plus") ∧ (btn = .home → q.cmd = "home") ∧
      btn ≠ .capture := by
  -- a press of the script comes from a setting that is a press
  have hact : ∀ s : Setting, Act.pad (s.act (.chat q.stamp)) = .pad (.press n btn cause) →
      s = .press btn ∧ cause = .chat q.stamp := by
    intro s heq
    cases s with
    | press btn' =>
      obtain ⟨-, rfl, rfl⟩ : Slot.one = n ∧ btn' = btn ∧ .chat q.stamp = cause := by
        simpa [Setting.act] using heq
      exact ⟨rfl, rfl⟩
    | _ => simp [Setting.act] at heq
  simp only [executeActs, List.mem_append, List.mem_flatMap, List.mem_map] at h
  -- from a branch of the table, a combination with `+`, or the send at the end
  rcases h with (⟨br, hbr, ⟨s, hs, heq⟩ | ⟨cmd, -, heq⟩⟩ | ⟨s, hs, heq⟩) | ⟨x, hx, heq⟩
  · obtain ⟨rfl, hcause⟩ := hact s heq
    obtain ⟨hmem, hname⟩ := List.mem_filter.mp hbr
    obtain ⟨hplus, hhome, hcapture, -⟩ := moves_privileged br hmem
    refine ⟨hcause, ?_, ?_, ?_⟩
    · rintro rfl
      simpa [hplus hs, -String.reduceToList] using hname
    · rintro rfl
      simpa [hhome hs, -String.reduceToList] using hname
    · rintro rfl
      exact hcapture hs
  · exact absurd heq (by simp)
  · obtain ⟨rfl, hcause⟩ := hact s heq
    rw [comboSettings] at hs
    split_ifs at hs
    · simp only [List.mem_flatMap, List.mem_map] at hs
      obtain ⟨part, -, combo, hcombo, hsnd⟩ := hs
      obtain ⟨hplus, hhome, hcapture⟩ := combos_privileged combo (List.mem_of_mem_filter hcombo)
      refine ⟨hcause, ?_, ?_, ?_⟩
      · rintro rfl
        exact absurd hsnd hplus
      · rintro rfl
        exact absurd hsnd hhome
      · rintro rfl
        exact absurd hsnd hcapture
    · exact absurd hs List.not_mem_nil
  · rw [sendAndReset] at hx
    split_ifs at hx <;> simp_all

theorem press_pressButtons (m : Slot) (btns : Str) (l : List Btn) :
    ∀ a ∈ (pressButtons U c m btns l).acts, a = .pad (.press n btn cause) →
      m = n ∧ cause = .state c.clock ∧ allows U c n btn := by
  induction l with
  | nil => exact List.forall_mem_nil _
  | cons btn' l ih =>
    rw [pressButtons]
    split
    · exact List.forall_mem_nil _
    · refine forall_andThen (List.forall_mem_singleton.mpr ?_) ih
      split_ifs with hallows
      · rintro heq
        obtain ⟨rfl, rfl, rfl⟩ : m = n ∧ btn' = btn ∧ .state c.clock = cause := by simpa using heq
        exact ⟨rfl, rfl, hallows⟩
      · simp
    · exact ih

/-- **A state presses the buttons its player may press**, in its own slot. -/
theorem press_onControllerState {m : Slot} {state : Str} :
    ∀ a ∈ onControllerState U c m state, a = .pad (.press n btn cause) →
      m = n ∧ cause = .state c.clock ∧ allows U c n btn := by
  rw [onControllerState]
  split_ifs
  · exact List.forall_mem_nil _
  · exact List.forall_mem_nil _
  · simp
  · refine List.forall_mem_cons.mpr ⟨by simp, ?_⟩
    split
    · refine forall_andThen ?_ (forall_andThen (press_pressButtons m _ _) ?_)
      · rw [setDpad]
        split <;> simp
      · rintro a ha rfl
        simp only [acts_pure, List.mem_map, List.mem_append] at ha
        obtain ⟨b, hb | hb, heq⟩ := ha
        · obtain ⟨s, v, rfl⟩ := stick_of_mem_setSticks b hb
          exact absurd heq (by simp)
        · obtain rfl : b = .send m := by simpa [sendAndReset] using hb
          exact absurd heq (by simp)
    · exact List.forall_mem_nil _

/-! ### The queue -/

/-- What is appended was submitted. -/
theorem exists_submit_of_mem_appended {acts : List Act} {q : Queued}
    (h : q ∈ appended (c.perform acts).2) : ∃ cmds, .submit cmds ∈ acts ∧ q ∈ cmds := by
  rw [Client.perform] at h
  induction acts generalizing c with
  | nil => exact absurd h List.not_mem_nil
  | cons a acts ih =>
    rw [runFrom_cons, appended_append, List.mem_append] at h
    rcases h with h | h
    · cases a with
      | submit cmds =>
        refine ⟨cmds, List.mem_cons_self, ?_⟩
        rw [Client.exec] at h
        split_ifs at h
        · simpa [appended, List.filterMap_map, Function.comp_def, QueueObs.appended?] using h
        · exact absurd h List.not_mem_nil
      | queue a =>
        cases a with
        | advance =>
          simp only [Client.exec, Queue.exec] at h
          split at h <;> exact absurd h List.not_mem_nil
        | take fresh =>
          simp only [Client.exec, Queue.exec] at h
          split at h <;> exact absurd h List.not_mem_nil
        | insert q => exact absurd h List.not_mem_nil
      | _ => simp [Client.exec, appended, List.filterMap_map, Function.comp_def] at h
    · obtain ⟨cmds, hcmds, hq⟩ := ih h
      exact ⟨cmds, List.mem_cons_of_mem a hcmds, hq⟩

/-- All that is queued. -/
def Queue.all (q : Queue) : List Queued := q.commandQueue ++ q.nextCommands

/-- **How a command gets into the queue**: it was there, or a tick inserts it, or it comes with a
message. -/
theorem mem_queue_step {e : Event} {q : Queued} (h : q ∈ (step U c e).1.queue.all) :
    q ∈ c.queue.all ∨ (∃ cmd, q.cmd ∈ inserts cmd) ∨
      ∃ username message, e = .chat username message ∧
        q ∈ submitted c username (U.commands message) := by
  -- a tick appends nothing, and any other event inserts nothing
  by_cases htick : e = .tick
  · subst htick
    have hinserted : ∀ x : Queued, q ∈ x.inserted → ∃ cmd, q.cmd ∈ inserts cmd := by
      intro x hx
      obtain ⟨cmd, hcmd, rfl⟩ := List.mem_map.mp hx
      exact ⟨x.cmd, hcmd⟩
    rw [Queue.all] at h ⊢
    rcases hcq : c.queue.commandQueue with - | ⟨x, rest⟩
    · rcases List.eq_nil_or_concat c.queue.nextCommands with hnc | ⟨rest, x, hnc⟩
      · rw [(queue_tick_nil U hcq hnc).1, hcq] at h
        exact Or.inl h
      · rw [List.concat_eq_append] at hnc
        rw [(queue_tick_concat U hcq hnc).1] at h
        simp only [List.nil_append, List.mem_append, List.mem_reverse] at h
        rcases h with h | h
        · exact Or.inr (Or.inl (hinserted x h))
        · exact Or.inl (by simp [hnc, h])
    · rw [(queue_tick_cons U hcq).1] at h
      simp only [List.mem_append, List.mem_reverse] at h
      rcases h with h | h | h
      · exact Or.inl (by simp [h])
      · exact Or.inr (Or.inl (hinserted x h))
      · exact Or.inl (by simp [h])
  · obtain ⟨hqueue, -⟩ := queue_perform_quiet (kind_script U c htick) c
    have hq : q ∈ c.queue.all ∨ q ∈ appended (step U c e).2 := by
      rw [show (step U c e).1.queue = _ from hqueue] at h
      simp only [Queue.all, List.mem_append] at h ⊢
      tauto
    refine hq.imp_right fun happended => Or.inr ?_
    obtain ⟨cmds, hcmds, hmem⟩ := exists_submit_of_mem_appended happended
    by_cases hchat : ∃ username message, e = .chat username message
    · obtain ⟨username, message, rfl⟩ := hchat
      exact ⟨username, message, rfl, eq_submitted_of_mem hcmds ▸ hmem⟩
    · exact absurd rfl (kind_script_of_not_chat U c (fun u m he => hchat ⟨u, m, he⟩) _ hcmds).2

end

/-! ### Runs -/

section

variable {U : Unicode} {c₀ : Client} {es : List Event}

/-- A queued `plus` or `home` came with a message of a user who may give it. -/
structure Vouched (U : Unicode) (c₀ : Client) (es : List Event) (q : Queued) : Prop where
  plus : q.cmd = "plus" → FromChat U c₀ es q.stamp "plus" plusUsers
  home : q.cmd = "home" → FromChat U c₀ es q.stamp "home" modUsers

/-- **Everything can be traced back**: what is queued is vouched for, and every press in the log is
permitted. -/
structure Traced (U : Unicode) (c₀ : Client) (es : List Event) : Prop where
  clock : (run U c₀ es).1.clock = es.length
  queue : ∀ q ∈ (run U c₀ es).1.queue.all, Vouched U c₀ es q
  pressed : ∀ n btn cause, .pressed n btn cause ∈ (run U c₀ es).2.filterMap Obs.pad? →
    Permitted U c₀ es n btn cause

theorem press_of_pressed {c : Client} {acts : List Act} {n : Slot} {btn : Btn} {cause : Cause}
    (h : .pressed n btn cause ∈ (c.perform acts).2.filterMap Obs.pad?) :
    .pad (.press n btn cause) ∈ acts := by
  rw [(pads_perform c acts).2] at h
  obtain ⟨p, a, ha, ho⟩ := exists_step_of_mem_runFrom h
  obtain rfl : a = .press n btn cause := by
    cases a <;> simp_all [Pads.exec]
  exact (mem_filterMap_of_isPartialInv isPartialInv_pad).mp ha

/-- The tests of `handleChat`, for the two commands. -/
theorem mem_of_not_rejects {pluslist : List Str} {username : Str} :
    (rejects pluslist username "plus" = false → username ∈ pluslist) ∧
      (rejects pluslist username "home" = false → username ∈ modlist) := by
  have hplus : isIn "plus" "plus" = true := by decide
  have hhome : isIn "home" "home" = true := by decide
  constructor
  · intro h
    simp only [rejects, hplus, Bool.or_eq_false_iff, Bool.true_and, decide_eq_false_iff_not,
      not_not] at h
    exact h.1.1.1.1.1.2
  · intro h
    simp only [rejects, hhome, Bool.or_eq_false_iff, Bool.true_and, decide_eq_false_iff_not,
      not_not] at h
    exact h.1.1.1.1.2

/-- A message that is accepted vouches for its commands. -/
theorem vouched_submitted (hclock : (run U c₀ es).1.clock = es.length) {username message : Str}
    {q : Queued} (h : q ∈ submitted (run U c₀ es).1 username (U.commands message)) :
    Vouched U c₀ (es ++ [.chat username message]) q := by
  rw [submitted] at h
  split_ifs at h with hvalid
  · obtain ⟨cmd, hcmd, rfl⟩ := List.mem_map.mp h
    have hok : rejects (run U c₀ es).1.permissions.pluslist username cmd = false := by
      simpa using List.all_eq_true.mp hvalid.1 cmd hcmd
    have hk : (es ++ [.chat username message])[es.length]? = some (.chat username message) :=
      List.getElem?_concat_length
    rw [hclock]
    constructor
    · rintro rfl
      refine ⟨username, message, hk, hcmd, ?_⟩
      rw [clientAt_length]
      exact mem_of_not_rejects.1 hok
    · rintro rfl
      exact ⟨username, message, hk, hcmd, mem_of_not_rejects.2 hok⟩
  · exact absurd h List.not_mem_nil

theorem Vouched.concat {q : Queued} (h : Vouched U c₀ es q) (e : Event) :
    Vouched U c₀ (es ++ [e]) q :=
  ⟨fun hq => (h.plus hq).concat e, fun hq => (h.home hq).concat e⟩

theorem Queue.mem_all_of_next? {q : Queue} {x : Queued} {fresh : Bool}
    (h : q.next? = some (x, fresh)) : x ∈ q.all := by
  rw [Queue.next?] at h
  rw [Queue.all]
  split at h
  · rename_i y rest hcq
    obtain ⟨rfl, -⟩ : y = x ∧ true = fresh := by simpa using h
    simp [hcq]
  · obtain ⟨y, hy, heq⟩ := Option.map_eq_some_iff.mp h
    obtain ⟨rfl, -⟩ : y = x ∧ false = fresh := by simpa using heq
    exact List.mem_append_right _ (List.mem_of_getLast? hy)

/-- A press by a command of the queue, -/
theorem Vouched.permitted {q : Queued} (h : Vouched U c₀ es q) {lockon : Bool} {n : Slot}
    {btn : Btn} {cause : Cause} (hpress : .pad (.press n btn cause) ∈ executeActs U lockon q) :
    Permitted U c₀ es n btn cause := by
  obtain ⟨rfl, hplus, hhome, hcapture⟩ := press_executeActs hpress
  cases btn with
  | plus => exact h.plus (hplus rfl)
  | home => exact h.home (hhome rfl)
  | capture => exact absurd rfl hcapture
  | _ => trivial

/-- a press by a state event, -/
theorem permitted_of_allows (hclock : (run U c₀ es).1.clock = es.length) {n : Slot} {btn : Btn}
    {state : Str} (h : allows U (run U c₀ es).1 n btn) :
    Permitted U c₀ (es ++ [.state n state]) n btn (.state (run U c₀ es).1.clock) := by
  have hfrom : ∀ users : Client → List Str,
      (run U c₀ es).1.switches.playerIn U n (users (run U c₀ es).1) →
        FromState U c₀ (es ++ [.state n state]) es.length n users := by
    intro users hplayer
    refine ⟨state, List.getElem?_concat_length, ?_⟩
    rwa [clientAt_length]
  rw [hclock]
  cases btn with
  | plus => exact hfrom plusUsers h
  | home => exact hfrom modUsers h
  | capture => exact hfrom modUsers h
  | _ => trivial

/-- **and any other press is permitted** too. -/
theorem Traced.permitted (h : Traced U c₀ es) {e : Event} {n : Slot} {btn : Btn} {cause : Cause}
    (hpress : .pad (.press n btn cause) ∈ script U (run U c₀ es).1 e) :
    Permitted U c₀ (es ++ [e]) n btn cause := by
  cases e with
  | chat username message => exact (harmless_handleChat _ hpress).permitted ..
  | tick =>
    -- `lockon` presses `zl`; all else comes from the command that is executed
    have hall : ∀ a ∈ decreaseQueue U (run U c₀ es).1, a = .pad (.press n btn cause) →
        Permitted U c₀ (es ++ [.tick]) n btn cause := by
      simp only [decreaseQueue, forall_flatten, List.forall_mem_cons, forall_ifThen]
      refine ⟨by simp, fun _ => ⟨?_, List.forall_mem_nil _⟩, ?_, List.forall_mem_nil _⟩
      · intro heq
        obtain ⟨-, rfl, -⟩ : Slot.one = n ∧ Btn.zl = btn ∧ Cause.lockon = cause := by
          simpa using heq
        trivial
      · split
        · exact List.forall_mem_nil _
        · rename_i q fresh hnext
          refine List.forall_mem_cons.mpr ⟨by simp, ?_⟩
          rintro a ha rfl
          exact ((h.queue q (Queue.mem_all_of_next? hnext)).permitted ha).concat _
    exact hall _ hpress rfl
  | state m state =>
    obtain ⟨rfl, rfl, hallows⟩ := press_onControllerState _ hpress rfl
    exact permitted_of_allows h.clock hallows
  | turns players => simp [script] at hpress
  | endGotoVote i find => exact (harmless_endGotoVote _ i find _ hpress).permitted ..
  | reenableGoto => simp [script] at hpress
  | gotoStep i => exact (harmless_gotoStep _ i _ hpress).permitted ..

/-- **One event more.** -/
theorem Traced.concat (h : Traced U c₀ es) (e : Event) : Traced U c₀ (es ++ [e]) where
  clock := by
    rw [run_concat, List.length_append, ← h.clock]
    rfl
  queue := by
    rw [run_concat]
    intro q hq
    rcases mem_queue_step hq with hold | ⟨cmd, hins⟩ | ⟨username, message, rfl, hsub⟩
    · exact (h.queue q hold).concat e
    · obtain ⟨hplus, hhome⟩ := not_mem_inserts cmd
      exact ⟨fun heq => absurd (heq ▸ hins) hplus, fun heq => absurd (heq ▸ hins) hhome⟩
    · exact vouched_submitted h.clock hsub
  pressed := by
    intro n btn cause hmem
    rw [run_concat, List.filterMap_append, List.mem_append] at hmem
    rcases hmem with hold | hnew
    · exact (h.pressed n btn cause hold).concat e
    · exact h.permitted (press_of_pressed hnew)

theorem traced_run (U : Unicode) (pluslistPkl banlistPkl : Option (List Str)) (es : List Event) :
    Traced U (Client.init pluslistPkl banlistPkl) es := by
  induction es using List.reverseRecOn with
  | nil => exact ⟨rfl, List.forall_mem_nil _, fun _ _ _ h => absurd h List.not_mem_nil⟩
  | append_singleton es e ih => exact ih.concat e

/-- The controllers show what stands, in every run. -/
theorem shown_run (U : Unicode) (pluslistPkl banlistPkl : Option (List Str)) (es : List Event) :
    Shown (run U (Client.init pluslistPkl banlistPkl) es).1.pads
      ((run U (Client.init pluslistPkl banlistPkl) es).2.filterMap Obs.pad?) := by
  refine runFrom_invariant (P := fun (c : Client) log => Shown c.pads (log.filterMap Obs.pad?))
    shown_neutral (fun c log e h => ?_) es
  obtain ⟨hpads, hlog⟩ := pads_perform c (script U c e)
  rw [List.filterMap_append]
  exact (congrArg₂ (fun p l => Shown p (log.filterMap Obs.pad? ++ l)) hpads hlog).mpr (h.run _)

end

/-- **Privileged buttons are only pressed with permission.** In every run, a line with the digit of
`plus`, `home` or `capture` set owes it to a press that stands when the line is transmitted, and
that press goes back to what it may go back to: for `plus` a message with this command by a user who
was on `pluslist` when it was handled, or a state event of the controller's slot whose player was;
for `home` the same with `modlist`, or `goto_game` or `!fixcontrollers`; for `capture` a state event
whose player was on `modlist`. -/
theorem privileged_buttons (U : Unicode) (pluslistPkl banlistPkl : Option (List Str))
    (es : List Event) {pre post : List PadObs} {n : Slot} {msg : Str}
    (hlog : (run U (Client.init pluslistPkl banlistPkl) es).2.filterMap Obs.pad? =
      pre ++ .sent n msg :: post) {btn : Btn} (hdigit : msg[btn.index]? = some '1') :
    ∃ cause, standing n btn pre = some cause ∧
      Permitted U (Client.init pluslistPkl banlistPkl) es n btn cause := by
  obtain ⟨cause, hcause⟩ := Option.isSome_iff_exists.mp
    (((shown_run U pluslistPkl banlistPkl es).digit hlog btn).mp hdigit)
  refine ⟨cause, hcause, (traced_run U pluslistPkl banlistPkl es).pressed n btn cause ?_⟩
  rw [hlog]
  exact List.mem_append_left _ (pressed_of_standing hcause)

/-- A user with plus permission presses `plus`. -/
theorem privileged_buttons_viewer :
    let init := Client.init (some ["viewer"]) none
    let es : List Event := [.chat "viewer" "plus", .tick]
    ∃ cause, standing .one .plus [.pressed .one .plus (.chat 0)] = some cause ∧
      Permitted Unicode.ascii init es .one .plus cause := by
  intro init es
  have hlog : (run Unicode.ascii init es).2.filterMap Obs.pad? =
      [.pressed .one .plus (.chat 0)] ++ .sent .one "800000000000010 128 128 128 128" ::
        [.reset .one, .sent .one neutralState] := by
    decide +kernel
  exact privileged_buttons Unicode.ascii (some ["viewer"]) none es hlog (by decide)

end Twitch

end SwitchController
