import SwitchController.Twitch.Release
import SwitchController.Twitch.Votes
import Mathlib.Data.List.GetD

/-!
# Exclusive use of the first controller

`goto_game` steers through the menus of the console without seeing much of them, so nobody else
should touch the first controller meanwhile. It clears `controllerEnabled`, at which
`on_controller_state` turns away, and `chatEnabled`, at which `handleChat` does not add to the
queue any more. What is queued already is executed as before, however, and `!fixcontrollers` looks
at neither switch.

Between the first and the last send of a call (`SwitchController.Twitch.Client.underWay`), these two
are the only ways for a line to come in between
(`SwitchController.Twitch.exclusive_iff`), and the first of them is open exactly when there was
something queued when the call began, as long as nobody enables the chat in the middle of it.
-/

namespace SwitchController

namespace Twitch

open EventMachine

/-! ### Between the first and the last send -/

/-- A call has a send before it. -/
def GotoCall.steers (call : GotoCall) : Bool := (call.pieces.drop call.sends).any (·.any Act.sends)

/-- **The call of this number is between its first and its last send.** -/
def Client.underWay (c : Client) (k : ℕ) : Bool := c.calls[k]?.any GotoCall.steers

/-- **What may happen during a call**: its own steps, and what the main loop and the thread of the
socket do. -/
def Event.concurrent (k : ℕ) : Event → Bool
  | .chat _ _ | .tick | .state _ _ | .turns _ => true
  | .gotoStep i => i == k
  | .endGotoVote _ _ | .reenableGoto => false

/-- **Exclusive use**: while the call is between its first and its last send, only its own steps
transmit to the first controller. -/
def Exclusive (U : Unicode) (k : ℕ) (c : Client) (es : List Event) : Prop :=
  Guarded (step U)
    (fun c _ e => c.underWay k = true → (∀ i, e ≠ .gotoStep i) →
      linesTo .one (step U c e).2 = []) c es

/-- **What comes in between**: a tick with something queued, and `!fixcontrollers`. -/
def Event.disturbs (U : Unicode) (c : Client) : Event → Prop
  | .tick => c.queue.pending ≠ []
  | .chat username message =>
      U.commands message = [("!fixcontrollers" : Str)] ∧ username ∈ c.permissions.pluslist
  | _ => False

/-- What enables the chat: a moderator's `!enablechat`, and `!fixcontrollers` of a user with plus
permission. -/
def Event.unlocks (U : Unicode) (c : Client) : Event → Prop
  | .chat username message =>
      U.commands message = [("!enablechat" : Str)] ∧ username ∈ modlist ∨
        U.commands message = [("!fixcontrollers" : Str)] ∧ username ∈ c.permissions.pluslist
  | _ => False

/-! ### The pieces of a call -/

/-- Statements on controllers, and then some that send nothing. -/
def EndsQuietly (acts : List Act) : Prop :=
  ∃ (as : List PadAct) (rest : List Act), acts = as.map .pad ++ rest ∧ rest ≠ [] ∧
    ∀ a ∈ rest, a.sends = false

theorem EndsQuietly.prepend {acts : List Act} (h : EndsQuietly acts) (as : List PadAct) :
    EndsQuietly (as.map .pad ++ acts) := by
  obtain ⟨as', rest, rfl, hne, hrest⟩ := h
  exact ⟨as ++ as', rest, by rw [List.map_append, List.append_assoc], hne, hrest⟩

theorem endsQuietly_startGame (g : Game) (x y : ℕ) : EndsQuietly (startGame g x y) :=
  ⟨_, _, rfl, by simp, by simp [Act.sends]⟩

theorem endsQuietly_search (g : Game) (find : ℕ → Option (ℕ × ℕ)) (left attempt : ℕ) :
    EndsQuietly (search g find left attempt) := by
  induction left generalizing attempt with
  | zero =>
    rw [search]
    split
    · exact ⟨_, _, rfl, by simp, by simp [Act.sends]⟩
    · exact endsQuietly_startGame g _ _
  | succ left ih =>
    rw [search]
    split
    · exact (ih (attempt + 1)).prepend scroll
    · exact endsQuietly_startGame g _ _

theorem endsQuietly_gotoRest (g : Game) (find : ℕ → Option (ℕ × ℕ)) :
    EndsQuietly (gotoRest g find) :=
  (endsQuietly_search g find 3 0).prepend _

theorem pieces_of_not_sends {acts : List Act} (h : ∀ a ∈ acts, a.sends = false) (hne : acts ≠ []) :
    pieces acts = [acts] := by
  induction acts with
  | nil => exact absurd rfl hne
  | cons a acts ih =>
    obtain ⟨ha, hacts⟩ := List.forall_mem_cons.mp h
    rw [pieces, ha, if_neg Bool.false_ne_true]
    rcases acts with - | ⟨b, acts⟩
    · rfl
    · rw [ih hacts (by simp)]

/-- **All pieces but the last are on controllers, and the last sends nothing.** -/
theorem EndsQuietly.pieces {acts : List Act} (h : EndsQuietly acts) :
    ∃ front last, pieces acts = front ++ [last] ∧
      (∀ piece ∈ front, ∀ a ∈ piece, a.kind = .pad) ∧ ∀ a ∈ last, a.sends = false := by
  obtain ⟨as, rest, rfl, hne, hrest⟩ := h
  induction as with
  | nil => exact ⟨[], rest, pieces_of_not_sends hrest hne, List.forall_mem_nil _, hrest⟩
  | cons x as ih =>
    obtain ⟨front, last, hpieces, hfront, hlast⟩ := ih
    rw [List.map_cons, List.cons_append, Twitch.pieces, hpieces]
    split
    · refine ⟨[.pad x] :: front, last, rfl, List.forall_mem_cons.mpr ⟨?_, hfront⟩, hlast⟩
      exact List.forall_mem_singleton.mpr rfl
    · rename_i hx
      -- the statement joins the first piece, which may be the last as well
      rcases front with - | ⟨piece, front⟩
      · refine ⟨[], .pad x :: last, rfl, List.forall_mem_nil _, ?_⟩
        exact List.forall_mem_cons.mpr ⟨Bool.eq_false_iff.mpr hx, hlast⟩
      · obtain ⟨hpiece, hfront⟩ := List.forall_mem_cons.mp hfront
        refine ⟨(.pad x :: piece) :: front, last, rfl, List.forall_mem_cons.mpr ⟨?_, hfront⟩, hlast⟩
        exact List.forall_mem_cons.mpr ⟨rfl, hpiece⟩

/-- A call with a send before it has more than its last piece left, and what comes next is on
controllers. -/
theorem GotoCall.steers_iff (call : GotoCall) :
    (call.steers = true → call.sends + 1 < call.pieces.length) ∧
      (call.sends + 1 < call.pieces.length →
        ∀ a ∈ call.pieces.getD call.sends [], a.kind = .pad) := by
  obtain ⟨front, last, hpieces, hfront, hlast⟩ :=
    (endsQuietly_gotoRest call.game call.find).pieces
  have hcall : call.pieces = front ++ [last] := hpieces
  rw [GotoCall.steers, hcall, List.length_append, List.length_singleton]
  constructor
  · intro hsteers
    by_contra hle
    -- at most the last piece is left
    rw [List.drop_append, List.drop_eq_nil_of_le (by omega), List.nil_append, List.any_eq_true]
      at hsteers
    obtain ⟨piece, hpiece, hany⟩ := hsteers
    obtain ⟨a, ha, hsends⟩ := List.any_eq_true.mp hany
    rw [List.mem_singleton.mp (List.mem_of_mem_drop hpiece)] at ha
    exact absurd hsends (by simp [hlast a ha])
  · intro hlt a ha
    rw [List.getD_append _ _ _ _ (by omega), List.getD_eq_getElem _ _ (by omega)] at ha
    exact hfront _ (List.getElem_mem _) a ha

/-- One send less. -/
theorem GotoCall.steers_of_succ {call : GotoCall}
    (h : GotoCall.steers { call with sends := call.sends + 1 } = true) : call.steers = true := by
  rw [GotoCall.steers, List.any_eq_true] at h ⊢
  obtain ⟨piece, hpiece, hany⟩ := h
  refine ⟨piece, ?_, hany⟩
  exact (List.drop_sublist_drop_left call.pieces (Nat.le_succ call.sends)).subset hpiece

/-! ### Who transmits -/

/-- What sends transmits. -/
theorem line_of_send {as : List PadAct} {n : Slot} (h : .send n ∈ as) (p : Pads) :
    (runFrom Pads.exec p as).2.filterMap (PadObs.line? n) ≠ [] := by
  obtain ⟨front, rest, rfl⟩ := List.append_of_mem h
  rw [runFrom_append, runFrom_cons]
  simp [Pads.exec]

/-- What does not send transmits nothing. -/
theorem linesTo_of_not_sends {acts : List Act} (h : ∀ a ∈ acts, a.sends = false) (c : Client)
    (n : Slot) : linesTo n (c.perform acts).2 = [] := by
  rw [linesTo_perform]
  refine lines_runFrom ?_ c.pads
  rintro _ ha rfl
  exact absurd (h _ ((mem_filterMap_of_isPartialInv isPartialInv_pad).mp ha)) (by simp [Act.sends])

variable {U : Unicode} {c : Client} {e : Event} {k : ℕ}

theorem linesTo_ne_nil_of_suffix {acts : List Act} {reset : Bool}
    (h : sendAndReset reset .one <:+ acts.filterMap Act.pad?) (c : Client) :
    linesTo .one (c.perform acts).2 ≠ [] := by
  rw [linesTo_perform]
  exact line_of_send (h.subset List.mem_cons_self) c.pads

/-- **What comes in between transmits to the first controller**, -/
theorem Event.disturbs.linesTo_ne_nil (h : e.disturbs U c) : linesTo .one (step U c e).2 ≠ [] := by
  cases e with
  | tick =>
    obtain ⟨x, rest, hpending⟩ := List.exists_cons_of_ne_nil h
    obtain ⟨fresh, hnext⟩ := next?_of_pending hpending
    exact linesTo_ne_nil_of_suffix (pad_decreaseQueue U hnext) c
  | chat username message =>
    exact linesTo_ne_nil_of_suffix (pad_handleChat_fixcontrollers h.1 h.2) c
  | _ => exact absurd h not_false

/-- What another thread may do during a call. -/
theorem concurrent_cases (he : e.concurrent k = true) (hown : ∀ i, e ≠ .gotoStep i) :
    (∃ username message, e = .chat username message) ∨ e = .tick ∨ (∃ n state, e = .state n state) ∨
      ∃ players, e = .turns players := by
  cases e with
  | gotoStep i => exact absurd rfl (hown i)
  | endGotoVote i find => exact absurd he Bool.false_ne_true
  | reenableGoto => exact absurd he Bool.false_ne_true
  | _ => simp

/-- **and nothing else does**, with the remote controllers disabled. -/
theorem linesTo_eq_nil (he : e.concurrent k = true) (hown : ∀ i, e ≠ .gotoStep i)
    (h : ¬e.disturbs U c) (hoff : c.switches.controllerEnabled = false) (n : Slot) :
    linesTo n (step U c e).2 = [] := by
  refine linesTo_of_not_sends ?_ c n
  rcases concurrent_cases he hown with ⟨username, message, rfl⟩ | rfl | ⟨m, state, rfl⟩ |
    ⟨players, rfl⟩
  · intro a ha
    have hquiet := mt (controls_handleChat a ha) h
    cases a with
    | pad a => exact absurd rfl hquiet
    | _ => rfl
  · -- lock-on presses a button, and sends nothing
    obtain ⟨hcq, hnc⟩ := List.append_eq_nil_iff.mp (not_not.mp h)
    rw [List.reverse_eq_nil_iff] at hnc
    simp only [script, decreaseQueue, Queue.next?, hcq, hnc, forall_flatten, List.forall_mem_cons,
      forall_ifThen]
    simp [Act.sends]
  · simp [script, onControllerState, hoff]
  · simp [script, Act.sends]

/-! ### The switches during a call -/

/-- **A step of another thread** leaves the calls alone. -/
theorem calls_step_of_concurrent (he : e.concurrent k = true) (hown : ∀ i, e ≠ .gotoStep i) :
    (step U c e).1.calls = c.calls := by
  have hkind : ∀ a ∈ script U c e, a.kind ≠ .call := by
    rcases concurrent_cases he hown with ⟨username, message, rfl⟩ | rfl | ⟨m, state, rfl⟩ |
      ⟨players, rfl⟩
    · exact fun a ha => (kind_handleChat a ha).2
    · exact kind_decreaseQueue_ne U c (by decide) (by decide)
    · intro a ha
      rw [kind_onControllerState U c m state a ha]
      decide
    · simp [script]
  exact calls_perform_quiet c hkind

theorem controllerEnabled_foldl {acts : List SwitchAct} (h : ∀ on, .controllerEnabled on ∉ acts)
    (s : Switches) : (acts.foldl Switches.exec s).controllerEnabled = s.controllerEnabled := by
  refine foldl_frame Switches.controllerEnabled (fun a ha s => ?_) s
  cases a with
  | controllerEnabled on => exact absurd ha (h on)
  | _ => rfl

/-- It leaves the switch of the remote controllers alone, unless it is `!fixcontrollers`. -/
theorem controllerEnabled_step (he : e.concurrent k = true) (hown : ∀ i, e ≠ .gotoStep i)
    (h : ¬e.disturbs U c) :
    (step U c e).1.switches.controllerEnabled = c.switches.controllerEnabled := by
  have hkind : ∀ on, .switch (.controllerEnabled on) ∉ script U c e := by
    rcases concurrent_cases he hown with ⟨username, message, rfl⟩ | rfl | ⟨m, state, rfl⟩ |
      ⟨players, rfl⟩
    · exact fun on ha => h (controls_handleChat _ ha rfl)
    · exact fun on ha => absurd (kind_decreaseQueue U c _ ha) (by simp)
    · exact fun on ha => absurd (kind_onControllerState U c m state _ ha) (by simp)
    · simp [script]
  refine (congrArg _ (switches_perform c _)).trans (controllerEnabled_foldl (fun on hmem => ?_) _)
  exact hkind on ((mem_filterMap_of_isPartialInv isPartialInv_switch).mp hmem)

/-- **A step of the call itself**: either that was its last send, or it goes on with statements on
controllers. -/
theorem gotoStep_own (U : Unicode) (hlength : c.calls.length ≤ k + 1) :
    (step U c (.gotoStep k)).1.calls.length ≤ k + 1 ∧
      ((step U c (.gotoStep k)).1.underWay k = true →
        c.underWay k = true ∧ ∀ a ∈ gotoStep c k, a.kind = .pad ∨ a.kind = .call) := by
  have hcalls : (step U c (.gotoStep k)).1.calls =
      ((gotoStep c k).filterMap Act.call?).foldl execCalls c.calls := calls_perform c _
  simp only [Client.underWay, hcalls]
  cases hcall : c.calls[k]? with
  | none =>
    have hnone : gotoStep c k = [] := by rw [gotoStep, hcall]
    rw [hnone]
    exact ⟨hlength, fun h => absurd h (by simp [hcall])⟩
  | some call =>
    have hrest : (call.pieces.getD call.sends []).filterMap Act.call? = [] := by
      refine filterMap_eq_nil_of_isPartialInv isPartialInv_call fun b hb => ?_
      rcases steering_gotoRest _ _ _ (mem_gotoRest hb) with hk | hk | hk <;> simp at hk
    simp only [gotoStep, hcall, List.filterMap_cons, Act.call?, hrest, List.foldl_cons,
      List.foldl_nil]
    by_cases hlt : call.sends + 1 < call.pieces.length
    · rw [if_pos hlt, execCalls, List.length_modify, List.getElem?_modify_eq, hcall]
      refine ⟨hlength, fun h => ⟨GotoCall.steers_of_succ h, ?_⟩⟩
      refine List.forall_mem_cons.mpr ⟨Or.inr rfl, fun a ha => Or.inl ?_⟩
      exact call.steers_iff.2 hlt a ha
    · -- the call returns, and no other has its number
      have hk : k < c.calls.length := (List.getElem?_eq_some_iff.mp hcall).1
      have hless : (c.calls.eraseIdx k).length ≤ k := by
        rw [List.length_eraseIdx_of_lt hk]
        omega
      rw [if_neg hlt, execCalls]
      refine ⟨by omega, fun h => ?_⟩
      rw [List.getElem?_eq_none hless] at h
      exact absurd h (by simp)

/-- The invariant of a call that nothing comes between: the remote controllers are disabled until
the last send. -/
structure Held (k : ℕ) (c : Client) : Prop where
  /-- No call was entered after it. -/
  length : c.calls.length ≤ k + 1
  disabled : c.underWay k = true → c.switches.controllerEnabled = false

theorem Held.step (h : Held k c) (he : e.concurrent k = true)
    (hd : c.underWay k = true → ¬e.disturbs U c) : Held k (step U c e).1 := by
  by_cases hown : ∃ i, e = .gotoStep i
  · obtain ⟨i, rfl⟩ := hown
    obtain rfl : i = k := beq_iff_eq.mp he
    obtain ⟨hlength, hgo⟩ := gotoStep_own U h.length
    refine ⟨hlength, fun hway => ?_⟩
    obtain ⟨hbefore, hkind⟩ := hgo hway
    have hquiet : ∀ a ∈ gotoStep c i, a.kind ≠ .switch := by
      intro a ha
      rcases hkind a ha with hk | hk <;> rw [hk] <;> decide
    exact (congrArg _ (switches_perform_quiet c hquiet)).trans (h.disabled hbefore)
  · rw [not_exists] at hown
    have hcalls := calls_step_of_concurrent (U := U) (c := c) he hown
    constructor
    · rw [hcalls]
      exact h.length
    · intro hway
      rw [Client.underWay, hcalls] at hway
      rw [controllerEnabled_step he hown (hd hway)]
      exact h.disabled hway

/-- **Exactly when a call is undisturbed.** -/
theorem exclusive_iff_guarded (h : Held k c) {es : List Event}
    (hes : ∀ e ∈ es, e.concurrent k = true) :
    Exclusive U k c es ↔
      Guarded (step U) (fun c _ e => c.underWay k = true → ¬e.disturbs U c) c es := by
  constructor
  · intro hex pre e hpre hway hd
    refine hd.linesTo_ne_nil (hex pre e hpre hway fun i => ?_)
    rintro rfl
    exact hd
  · intro hguard pre e hpre hway hown
    have hheld : Held k (runFrom (Twitch.step U) c pre).1 := by
      refine runFrom_invariant_of_guard (P := fun c _ => Held k c)
        (G := fun c _ e => e.concurrent k = true ∧ (c.underWay k = true → ¬e.disturbs U c)) h
        (fun c _ e hc hG => hc.step hG.1 hG.2) fun pre' e' hpre' => ?_
      have hsub : pre' ++ [e'] <+: es := hpre'.trans ((List.prefix_append pre [e]).trans hpre)
      exact ⟨hes e' (hsub.subset (by simp)), hguard pre' e' hsub⟩
    exact linesTo_eq_nil (hes e (hpre.subset (by simp))) hown (hguard pre e hpre hway)
      (hheld.disabled hway) .one

/-! ### A call that begins with nothing queued -/

/-- Only these two enable the chat. -/
theorem chatEnabled_true_handleChat {username message : Str}
    (h : .switch (.chatEnabled true) ∈ handleChat U c username message) :
    (Event.chat username message).unlocks U c := by
  suffices ∀ a ∈ handleChat U c username message, a = .switch (.chatEnabled true) →
      (Event.chat username message).unlocks U c from this _ h rfl
  refine forall_handleChat (by simp) ?_ ?_ ?_ (by simp) (by simp)
  · intro cmd _
    simp only [loopActs, forall_flatten, List.forall_mem_cons, forall_ifThen]
    simp
  · intro cmd hcmd
    simp only [oneWord, forall_flatten, List.forall_mem_cons, forall_ifThen]
    simp [-String.reduceToList]
    refine ⟨?_, ?_⟩
    · rintro rfl hmod
      exact Or.inl ⟨hcmd, hmod⟩
    · rintro rfl hplus - - -
      exact Or.inr ⟨hcmd, hplus⟩
  · exact fun cmd arg _ => forall_twoWords (by simp) (by simp) (by simp) (by simp) (by simp)

/-- **With the chat disabled nothing is added to the queue**, by a script that does not enable
it. -/
theorem queue_of_disabled {acts : List Act} (hkind : ∀ a ∈ acts, a.kind ≠ .queue)
    (h : .switch (.chatEnabled true) ∉ acts) (hoff : c.switches.chatEnabled = false) :
    (c.perform acts).1.queue = c.queue ∧ (c.perform acts).1.switches.chatEnabled = false := by
  induction acts generalizing c with
  | nil => exact ⟨rfl, hoff⟩
  | cons a acts ih =>
    obtain ⟨ha, hacts⟩ := List.forall_mem_cons.mp hkind
    rw [List.mem_cons, not_or] at h
    have hone : (c.exec a).1.queue = c.queue ∧ (c.exec a).1.switches.chatEnabled = false := by
      cases a with
      | submit cmds => simp [Client.exec, hoff]
      | switch a =>
        refine ⟨rfl, ?_⟩
        cases a with
        | chatEnabled on => exact Bool.eq_false_iff.mpr fun hon => h.1 (by rw [← hon]; rfl)
        | _ => exact hoff
      | queue a => exact absurd rfl ha
      | _ => exact ⟨rfl, hoff⟩
    obtain ⟨hqueue, hstill⟩ := ih hacts h.2 hone.2
    rw [Client.perform, runFrom_cons]
    exact ⟨hqueue.trans hone.1, hstill⟩

/-- The invariant of a call that began with nothing queued: until the last send nothing is queued,
and the chat is disabled. -/
structure Locked (k : ℕ) (c : Client) : Prop extends Held k c where
  empty : c.underWay k = true → c.queue.pending = [] ∧ c.switches.chatEnabled = false

theorem Locked.not_disturbs (h : Locked k c) (hlock : c.underWay k = true → ¬e.unlocks U c)
    (hway : c.underWay k = true) : ¬e.disturbs U c := by
  cases e with
  | tick => exact not_not.mpr (h.empty hway).1
  | chat username message => exact fun hd => hlock hway (Or.inr hd)
  | _ => exact not_false

theorem Locked.step (h : Locked k c) (he : e.concurrent k = true)
    (hlock : c.underWay k = true → ¬e.unlocks U c) : Locked k (step U c e).1 := by
  refine ⟨h.toHeld.step he (h.not_disturbs hlock), fun hway => ?_⟩
  by_cases htick : e = .tick
  · subst htick
    rw [Client.underWay, calls_step_of_concurrent he (by simp)] at hway
    obtain ⟨hempty, hoff⟩ := h.empty hway
    exact ⟨(pending_tick_nil U hempty).1, (congrArg _ (switches_tick U c)).trans hoff⟩
  · -- any other step leaves the queues alone, unless it enables the chat
    suffices c.underWay k = true ∧ .switch (.chatEnabled true) ∉ script U c e by
      obtain ⟨hempty, hoff⟩ := h.empty this.1
      obtain ⟨hqueue, hstill⟩ := queue_of_disabled (kind_script U c htick) this.2 hoff
      exact ⟨(congrArg Queue.pending hqueue).trans hempty, hstill⟩
    by_cases hown : ∃ i, e = .gotoStep i
    · obtain ⟨i, rfl⟩ := hown
      obtain rfl : i = k := beq_iff_eq.mp he
      obtain ⟨hbefore, hkind⟩ := (gotoStep_own U h.length).2 hway
      exact ⟨hbefore, fun hmem => absurd (hkind _ hmem) (by simp)⟩
    · rw [not_exists] at hown
      rw [Client.underWay, calls_step_of_concurrent he hown] at hway
      refine ⟨hway, ?_⟩
      rcases concurrent_cases he hown with ⟨username, message, rfl⟩ | rfl | ⟨m, state, rfl⟩ |
        ⟨players, rfl⟩
      · exact fun hmem => hlock hway (chatEnabled_true_handleChat hmem)
      · exact absurd rfl htick
      · exact fun hmem => absurd (kind_onControllerState U c m state _ hmem) (by simp)
      · simp [script]

/-- **A call begins**: it has the next number, the switches are off, and what is queued stays. -/
theorem endGotoVote_won (U : Unicode) {i : ℕ} {g : Game} (hi : c.poll.voteTimers[i]? = some g)
    (hwon : c.poll.nayVotes < c.poll.yeaVotes) (find : ℕ → Option (ℕ × ℕ)) :
    (step U c (.endGotoVote i find)).1.underWay c.calls.length = true ∧
      Held c.calls.length (step U c (.endGotoVote i find)).1 ∧
      (step U c (.endGotoVote i find)).1.queue = c.queue ∧
      (step U c (.endGotoVote i find)).1.switches.chatEnabled = false := by
  have hacts : script U c (.endGotoVote i find) = [.poll (.endGotoVote i),
      .io (.chat (resultText c.poll))] ++ .call (.enter g find) :: gotoStart g := by
    rw [script, endGotoVote_eq c hi, if_pos hwon]
  have hcalls : (step U c (.endGotoVote i find)).1.calls = c.calls ++ [⟨g, find, 0⟩] := by
    refine (calls_perform c _).trans ?_
    rw [hacts]
    rfl
  have hswitches : (step U c (.endGotoVote i find)).1.switches =
      { c.switches with
        currentGame := g.nameofgame, controllerEnabled := false, chatEnabled := false } := by
    refine (switches_perform c _).trans ?_
    rw [hacts]
    rfl
  have hqueue : (step U c (.endGotoVote i find)).1.queue = c.queue := by
    refine (queue_perform c fun a ha => (kind_endGotoVote c i find a ha).2.2).1.trans ?_
    rw [filterMap_eq_nil_of_isPartialInv isPartialInv_queue fun b hb =>
      (kind_endGotoVote c i find _ hb).1 rfl]
    rfl
  refine ⟨?_, ⟨by rw [hcalls]; simp, fun _ => by rw [hswitches]⟩, hqueue, by rw [hswitches]⟩
  rw [Client.underWay, hcalls, List.getElem?_concat_length]
  rfl

/-- **When `goto_game` has the first controller to itself.** A vote is won and `goto_game` makes its
first send. Whatever the main loop and the thread of the socket do until its last, in any
interleaving with its own steps, no other line goes to the first controller exactly when no
tick finds something queued and nobody with plus permission says `!fixcontrollers`. Where the chat
is not enabled in between, by one who may, that is the case in every interleaving exactly when
nothing was queued at the start. -/
theorem exclusive_iff (U : Unicode) {c : Client} {i : ℕ} {g : Game}
    (hi : c.poll.voteTimers[i]? = some g) (hwon : c.poll.nayVotes < c.poll.yeaVotes)
    (find : ℕ → Option (ℕ × ℕ)) :
    let k := c.calls.length
    let c₁ := (step U c (.endGotoVote i find)).1
    (∀ es, (∀ e ∈ es, e.concurrent k = true) →
      (Exclusive U k c₁ es ↔
        Guarded (step U) (fun c _ e => c.underWay k = true → ¬e.disturbs U c) c₁ es)) ∧
    ((∀ es, (∀ e ∈ es, e.concurrent k = true) →
        Guarded (step U) (fun c _ e => c.underWay k = true → ¬e.unlocks U c) c₁ es →
          Exclusive U k c₁ es) ↔
      c.queue.commandQueue = [] ∧ c.queue.nextCommands = []) := by
  intro k c₁
  obtain ⟨hway, hheld, hqueue, hoff⟩ := endGotoVote_won U hi hwon find
  refine ⟨fun es hes => exclusive_iff_guarded hheld hes, ?_⟩
  have hpending : c₁.queue.pending = [] ↔
      c.queue.commandQueue = [] ∧ c.queue.nextCommands = [] := by
    rw [hqueue, Queue.pending, List.append_eq_nil_iff, List.reverse_eq_nil_iff]
  rw [← hpending]
  constructor
  · -- a tick right after the first send
    intro hall
    have htick := hall [.tick] (List.forall_mem_singleton.mpr rfl)
      (guarded_of_guardedFrom ⟨fun _ => not_false, trivial⟩)
    by_contra hne
    exact Event.disturbs.linesTo_ne_nil (e := .tick) hne
      (htick [] .tick List.prefix_rfl hway fun i => by simp)
  · intro hempty es hes hlock
    refine (exclusive_iff_guarded hheld hes).mpr fun pre e hpre => ?_
    have hlocked : Locked k (runFrom (step U) c₁ pre).1 := by
      refine runFrom_invariant_of_guard (P := fun c _ => Locked k c)
        (G := fun c _ e => e.concurrent k = true ∧ (c.underWay k = true → ¬e.unlocks U c))
        ⟨hheld, fun _ => ⟨hempty, hoff⟩⟩ (fun c _ e hc hG => hc.step hG.1 hG.2)
        fun pre' e' hpre' => ?_
      have hsub := hpre'.trans ((List.prefix_append pre [e]).trans hpre)
      exact ⟨hes e' (hsub.subset (by simp)), hlock pre' e' hsub⟩
    exact hlocked.not_disturbs (hlock pre e hpre)

/-- The start of the program, a vote for another game, one ballot for it, and two ticks. -/
def votedToLeave : Client :=
  (run .ascii (Client.init none none)
    [.chat "viewer" "!goto smo", .chat "viewer" "yea", .tick, .tick]).1

/-- With nothing queued, a viewer's message and their `!fixcontrollers`, a tick and a remote
controller do not come in between. -/
theorem exclusive_votedToLeave :
    Exclusive .ascii 0 (step .ascii votedToLeave (.endGotoVote 0 fun _ => none)).1
      [.chat "viewer" "a", .chat "viewer" "!fixcontrollers", .tick, .gotoStep 0,
        .state .one "800000100000000 128 128 128 128"] := by
  obtain ⟨hi, hwon, hqueue, hcalls⟩ : votedToLeave.poll.voteTimers[0]? = some smo ∧
      votedToLeave.poll.nayVotes < votedToLeave.poll.yeaVotes ∧
      (votedToLeave.queue.commandQueue = [] ∧ votedToLeave.queue.nextCommands = []) ∧
      votedToLeave.calls.length = 0 := by
    decide +kernel
  obtain ⟨-, hiff⟩ := exclusive_iff .ascii hi hwon fun _ => none
  rw [hcalls] at hiff
  -- the viewer is no moderator, and has no plus permission
  have hviewer : ("viewer" : Str) ∉ modlist := by decide
  have hmessage : ∀ (c : Client) (message : Str), ("viewer" : Str) ∉ c.permissions.pluslist →
      ¬(Event.chat "viewer" message).unlocks .ascii c := by
    rintro c message hplus (⟨-, hmod⟩ | ⟨-, hmem⟩)
    · exact hviewer hmod
    · exact hplus hmem
  have hplus : ("viewer" : Str) ∉
      (step .ascii votedToLeave (.endGotoVote 0 fun _ => none)).1.permissions.pluslist := by
    decide +kernel
  have hstays : ∀ c : Client, (step .ascii c (.chat "viewer" "a")).1.permissions.pluslist =
      c.permissions.pluslist := fun c =>
    (lists_step fun _ _ _ _ heq hmod => absurd ((Event.chat.inj heq).1 ▸ hmod) hviewer).1
  have hall := hiff.mpr hqueue
  -- what the client is like at the start of the call does not matter any more
  generalize (step .ascii votedToLeave (.endGotoVote 0 fun _ => none)).1 = c₁ at hall hplus ⊢
  refine hall _ (by simp [Event.concurrent]) (guarded_of_guardedFrom ?_)
  exact ⟨fun _ => hmessage _ _ hplus, fun _ => hmessage _ _ fun h => hplus (hstays c₁ ▸ h),
    fun _ => not_false, fun _ => not_false, fun _ => not_false, trivial⟩

/-- **A command that is queued comes in between**: the vote is won while an `a` waits, `goto_game`
presses `home`, and before it releases it, `a` is pressed as well. -/
theorem exclusive_queued :
    let c := (step .ascii votedToLeave (.chat "viewer" "a")).1
    let c₁ := (step .ascii c (.endGotoVote 0 fun _ => none)).1
    linesTo .one (step .ascii c (.endGotoVote 0 fun _ => none)).2 =
        ["800000000000001 128 128 128 128"] ∧
      c₁.underWay 0 = true ∧
      linesTo .one (step .ascii c₁ .tick).2 =
        ["800000100000001 128 128 128 128", "800000000000000 128 128 128 128"] ∧
      ¬Exclusive .ascii 0 c₁ [.tick] := by
  intro c c₁
  have hlines : linesTo .one (step .ascii c (.endGotoVote 0 fun _ => none)).2 =
        ["800000000000001 128 128 128 128"] ∧
      c₁.underWay 0 = true ∧
      linesTo .one (step .ascii c₁ .tick).2 =
        ["800000100000001 128 128 128 128", "800000000000000 128 128 128 128"] := by
    decide +kernel
  refine ⟨hlines.1, hlines.2.1, hlines.2.2, fun hex => ?_⟩
  have hnone := hex [] .tick List.prefix_rfl hlines.2.1 (by simp)
  exact absurd (hlines.2.2.symm.trans hnone) (by simp)

end Twitch

end SwitchController
