import SwitchController.Twitch.Tally

/-!
# Votes in time

`goto_game_vote` starts a timer of twenty seconds, and `end_goto_vote` one of two minutes, or of
eight if the vote was won. Neither is ever cancelled, and a timer may be late but is not early.
So runs are looked at with the times of their events here
(`SwitchController.Twitch.Clocked.step`), and with the times the pending timers are due at.

As long as no moderator says `!enablegoto` during a vote, the program goes round in a circle of
three phases (`SwitchController.Twitch.Phase`): it waits, it votes, it pauses. The phase is all
there is to know about the two flags and the two kinds of timers
(`SwitchController.Twitch.Phase.Holds.step`), and going round takes its time: votes start at least
two minutes and twenty seconds after each other, and eight minutes and twenty seconds after a
vote that was won (`SwitchController.Twitch.votes_apart`). What the program tells the user who is
too early, that `!goto` was used in the last eight minutes, is thus true of votes that were won.

Times are in milliseconds.
-/

namespace SwitchController

namespace Twitch

open EventMachine

/-! ### Timers -/

/-- How long a vote takes. -/
def voteLength : ℕ := 20000

/-- **`timeGotoisDisabled`**, by the numbers of the vote. -/
def timeGotoisDisabled (yeaVotes nayVotes : ℕ) : ℕ :=
  if yeaVotes > nayVotes then 8 * 60 * 1000 else 2 * 60 * 1000

/-- **The program and its timers.** -/
structure Clocked where
  client : Client
  now : ℕ
  /-- When the pending calls of `end_goto_vote` are due, -/
  voteDue : List ℕ
  /-- and those of `reenable_goto`. -/
  gotoDue : List ℕ

/-- The program starts. -/
def Clocked.init (pluslistPkl banlistPkl : Option (List Str)) : Clocked :=
  ⟨Client.init pluslistPkl banlistPkl, 0, [], []⟩

/-- The timer of a vote. -/
def voteTimer (t : ℕ) : PollObs → Option ℕ
  | .voteStarted _ => some (t + voteLength)
  | _ => none

/-- The timer of the pause after it. -/
def gotoTimer (t : ℕ) : PollObs → Option ℕ
  | .voteEnded _ yeaVotes nayVotes => some (t + timeGotoisDisabled yeaVotes nayVotes)
  | _ => none

/-- The timers that are left when a vote is ended, -/
def voteDueAfter (due : List ℕ) : Event → List ℕ
  | .endGotoVote i _ => due.eraseIdx i
  | _ => due

/-- and when a pause is. It does not matter which of those that are due has fired. -/
def gotoDueAfter (due : List ℕ) : Event → List ℕ
  | .reenableGoto => due.erase (due.min?.getD 0)
  | _ => due

/-- **An event, at its time.** -/
def Clocked.step (U : Unicode) (x : Clocked) (e : ℕ × Event) : Clocked × List (ℕ × PollObs) :=
  let log := (Twitch.step U x.client e.2).2.filterMap Obs.poll?
  ({ client := (Twitch.step U x.client e.2).1
     now := e.1
     voteDue := voteDueAfter x.voteDue e.2 ++ log.filterMap (voteTimer e.1)
     gotoDue := gotoDueAfter x.gotoDue e.2 ++ log.filterMap (gotoTimer e.1) },
    log.map fun o => (e.1, o))

/-- **No timer is early**, and time goes on. -/
def Clocked.OnTime (x : Clocked) : ℕ × Event → Prop
  | (t, .endGotoVote i _) => x.now ≤ t ∧ ∀ due ∈ x.voteDue[i]?, due ≤ t
  | (t, .reenableGoto) => x.now ≤ t ∧ ∀ due ∈ x.gotoDue.min?, due ≤ t
  | (t, _) => x.now ≤ t

instance (x : Clocked) : ∀ e, Decidable (x.OnTime e)
  | (_, .endGotoVote _ _) | (_, .reenableGoto) => inferInstanceAs (Decidable (_ ∧ _))
  | (t, .chat _ _) | (t, .tick) | (t, .state _ _) | (t, .turns _) | (t, .gotoStep _) =>
      inferInstanceAs (Decidable (x.now ≤ t))

theorem Clocked.OnTime.now_le {x : Clocked} {e : ℕ × Event} (h : x.OnTime e) : x.now ≤ e.1 := by
  obtain ⟨t, e⟩ := e
  cases e with
  | endGotoVote | reenableGoto => exact h.1
  | _ => exact h

/-- With its times left out, a run is a run. -/
theorem client_clocked (U : Unicode) (x : Clocked) (es : List (ℕ × Event)) :
    (runFrom (Clocked.step U) x es).1.client = (run U x.client (es.map Prod.snd)).1 ∧
      (runFrom (Clocked.step U) x es).2.map Prod.snd =
        (run U x.client (es.map Prod.snd)).2.filterMap Obs.poll? := by
  induction es generalizing x with
  | nil => exact ⟨rfl, rfl⟩
  | cons e es ih =>
    obtain ⟨hstate, hlog⟩ := ih (x.step U e).1
    rw [runFrom_cons, List.map_cons, run, runFrom_cons, List.filterMap_append, List.map_append,
      hstate, hlog]
    refine ⟨rfl, congrArg (· ++ _) ?_⟩
    rw [Clocked.step, List.map_map]
    exact List.map_id _

/-! ### Three phases -/

/-- **Where the program is.** -/
inductive Phase where
  /-- A vote may start. -/
  | idle
  /-- A vote is going on, up to this time or later. -/
  | voting (due : ℕ)
  /-- `!goto` is disabled, up to this time or later. -/
  | pausing (due : ℕ)

/-- **The circle.** -/
inductive Phase.Next : Phase → ℕ → List PollObs → Phase → Prop
  /-- Ballots, locks and whatever else happens. -/
  | stay {ph : Phase} {t : ℕ} {log : List PollObs} (hstart : ∀ g, .voteStarted g ∉ log)
      (hend : ∀ g yeaVotes nayVotes, .voteEnded g yeaVotes nayVotes ∉ log) : Next ph t log ph
  | start {t : ℕ} {g : Game} : Next .idle t [.voteStarted g] (.voting (t + voteLength))
  | stop {t due : ℕ} {g : Game} {yeaVotes nayVotes : ℕ} (hdue : due ≤ t) :
      Next (.voting due) t [.voteEnded g yeaVotes nayVotes]
        (.pausing (t + timeGotoisDisabled yeaVotes nayVotes))
  | free {t due : ℕ} (hdue : due ≤ t) : Next (.pausing due) t [] .idle

/-- The timer of a vote that is going on, -/
def Phase.voteDue : Phase → List ℕ
  | .voting due => [due]
  | _ => []

/-- and that of a pause. -/
def Phase.gotoDue : Phase → List ℕ
  | .pausing due => [due]
  | _ => []

/-- **What a phase says** about the flags and the timers. -/
structure Phase.Holds (ph : Phase) (p : Poll) (voteDue gotoDue : List ℕ) : Prop where
  voteDue : voteDue = ph.voteDue
  gotoDue : gotoDue = ph.gotoDue
  voteTimers : p.voteTimers.length = ph.voteDue.length
  gotoTimers : p.gotoTimers = ph.gotoDue.length
  voting : ph.voteDue ≠ [] → p.voting = true
  gotoUsed : ph.gotoDue ≠ [] → p.gotoUsed = true

section

variable {U : Unicode} {ph : Phase} {p : Poll} {voteDue gotoDue : List ℕ} {t : ℕ} {e : Event}

/-- **A timer ends a vote.** -/
theorem Phase.Holds.ended (h : ph.Holds p voteDue gotoDue) {i : ℕ} {g : Game}
    (hi : p.voteTimers[i]? = some g) (hdue : ∀ due ∈ voteDue[i]?, due ≤ t) :
    ∃ ph' : Phase, ph'.Holds
        { p with gotoUsed := true, gotoTimers := p.gotoTimers + 1, voting := false, voted := [],
                 voteTimers := p.voteTimers.eraseIdx i }
        (voteDue.eraseIdx i) (gotoDue ++ [t + timeGotoisDisabled p.yeaVotes p.nayVotes]) ∧
      ph.Next t [.voteEnded g p.yeaVotes p.nayVotes] ph' := by
  obtain ⟨hlt, -⟩ := List.getElem?_eq_some_iff.mp hi
  have hlength := h.voteTimers
  cases ph with
  | voting due =>
    obtain rfl : i = 0 := by
      simp only [Phase.voteDue, List.length_singleton] at hlength
      omega
    refine ⟨_, ⟨?_, ?_, ?_, ?_, fun hne => absurd rfl hne, fun _ => rfl⟩, .stop (hdue due ?_)⟩
    · rw [h.voteDue]
      rfl
    · rw [h.gotoDue]
      rfl
    · rw [List.length_eraseIdx_of_lt hlt, hlength]
      rfl
    · exact congrArg (· + 1) h.gotoTimers
    · rw [h.voteDue]
      rfl
  | idle | pausing =>
    rw [hlength] at hlt
    exact absurd hlt (Nat.not_lt_zero i)

/-- **A timer ends a pause.** -/
theorem Phase.Holds.reenabled (h : ph.Holds p voteDue gotoDue) (hp : p.gotoTimers ≠ 0)
    (hdue : ∀ due ∈ gotoDue.min?, due ≤ t) :
    ∃ ph' : Phase, ph'.Holds { p with gotoUsed := false, gotoTimers := p.gotoTimers - 1 } voteDue
        (gotoDue.erase (gotoDue.min?.getD 0)) ∧
      ph.Next t [] ph' := by
  have hcount := h.gotoTimers
  cases ph with
  | pausing due =>
    refine ⟨.idle, ⟨h.voteDue, ?_, h.voteTimers, ?_, fun hne => absurd rfl hne,
      fun hne => absurd rfl hne⟩, .free (hdue due ?_)⟩
    · rw [h.gotoDue]
      simp [Phase.gotoDue]
    · exact congrArg (· - 1) hcount
    · rw [h.gotoDue]
      rfl
  | idle | voting => exact absurd hcount hp

/-- A vote can only be started if the program is idle. -/
theorem Phase.Holds.eq_idle (h : ph.Holds p voteDue gotoDue) (hvoting : p.voting = false)
    (hused : p.gotoUsed = false) : ph = .idle := by
  cases ph with
  | idle => rfl
  | voting due =>
    exact absurd ((h.voting (List.cons_ne_nil due [])).symm.trans hvoting) (by decide)
  | pausing due =>
    exact absurd ((h.gotoUsed (List.cons_ne_nil due [])).symm.trans hused) (by decide)

/-- A phase goes on, if the timers stay as they are. -/
theorem Phase.Holds.congr (h : ph.Holds p voteDue gotoDue) {p' : Poll}
    (htimers : p'.voteTimers = p.voteTimers) (hcount : p'.gotoTimers = p.gotoTimers)
    (hvoting : p.voteTimers ≠ [] → p.voting = true → p'.voting = true)
    (hused : p'.gotoUsed = p.gotoUsed) : ph.Holds p' voteDue gotoDue := by
  refine ⟨h.voteDue, h.gotoDue, htimers ▸ h.voteTimers, hcount ▸ h.gotoTimers, fun hne => ?_,
    hused ▸ h.gotoUsed⟩
  refine hvoting (fun hnil => hne ?_) (h.voting hne)
  rw [← List.length_eq_zero_iff, ← h.voteTimers, hnil, List.length_nil]

/-- Without a start and an end there is no new timer. -/
theorem Phase.Holds.stay (h : ph.Holds p voteDue gotoDue) {log : List PollObs}
    (hstart : ∀ g, .voteStarted g ∉ log)
    (hend : ∀ g yeaVotes nayVotes, .voteEnded g yeaVotes nayVotes ∉ log) :
    ∃ ph' : Phase, ph'.Holds p (voteDue ++ log.filterMap (voteTimer t))
        (gotoDue ++ log.filterMap (gotoTimer t)) ∧ ph.Next t log ph' := by
  have hvote : log.filterMap (voteTimer t) = [] := by
    refine List.filterMap_eq_nil_iff.mpr fun o ho => ?_
    cases o with
    | voteStarted g => exact absurd ho (hstart g)
    | _ => rfl
  have hgoto : log.filterMap (gotoTimer t) = [] := by
    refine List.filterMap_eq_nil_iff.mpr fun o ho => ?_
    cases o with
    | voteEnded g yeaVotes nayVotes => exact absurd ho (hend g yeaVotes nayVotes)
    | _ => rfl
  rw [hvote, hgoto, List.append_nil, List.append_nil]
  exact ⟨ph, h, .stay hstart hend⟩

/-- **Whatever else happens**: a vote starts, or the phase goes on. -/
theorem Phase.Holds.voteStep (h : ph.Holds p voteDue gotoDue) {r : Poll × List PollObs}
    (hr : VoteStep U p e r) (hend : ∀ i find, e ≠ .endGotoVote i find) (hre : e ≠ .reenableGoto)
    (hen : byMod U "!enablegoto" e → p.voteTimers = []) :
    ∃ ph' : Phase, ph'.Holds r.1 (voteDue ++ r.2.filterMap (voteTimer t))
        (gotoDue ++ r.2.filterMap (gotoTimer t)) ∧ ph.Next t r.2 ph' := by
  cases hr with
  | ballots hacts =>
    have hobs : ∀ o ∈ (runFrom Poll.exec p _).2, ∃ username yea, o = .counted username yea :=
      fun o ho => eq_counted_of_mem hacts ho
    refine Phase.Holds.stay ?_ (fun g hg => ?_) (fun g yeaVotes nayVotes hg => ?_)
    · refine ballots_invariant (P := fun p _ => ph.Holds p voteDue gotoDue) [] hacts ?_ h
      rintro p - username yea - - h
      cases yea <;> exact h.congr rfl rfl (fun _ hv => hv) rfl
    · obtain ⟨username, yea, heq⟩ := hobs _ hg
      exact absurd heq (by simp)
    · obtain ⟨username, yea, heq⟩ := hobs _ hg
      exact absurd heq (by simp)
  | disabled =>
    refine Phase.Holds.stay ?_ (by simp) (by simp)
    exact h.congr rfl rfl (fun _ _ => rfl) rfl
  | enabled he =>
    refine Phase.Holds.stay ?_ (by simp) (by simp)
    exact h.congr rfl rfl (fun hne => absurd (hen he) hne) rfl
  | started hvoting hused =>
    obtain rfl := h.eq_idle hvoting hused
    have hnil := List.length_eq_zero_iff.mp h.voteTimers
    refine ⟨.voting (t + voteLength), ⟨?_, ?_, ?_, h.gotoTimers, fun _ => rfl,
      fun hne => absurd rfl hne⟩, .start⟩
    · rw [h.voteDue]
      rfl
    · rw [h.gotoDue]
      rfl
    · rw [hnil]
      rfl
  | ended he => exact absurd he (hend _ _)
  | reenabled he => exact absurd he hre

end

/-- **The program is where the phase says.** -/
def Phase.At (ph : Phase) (x : Clocked) : Prop := ph.Holds x.client.poll x.voteDue x.gotoDue

/-- **Going round.** -/
theorem Phase.At.step {U : Unicode} {ph : Phase} {x : Clocked} (h : ph.At x) {e : ℕ × Event}
    (htime : x.OnTime e) (hen : byMod U "!enablegoto" e.2 → x.client.poll.voteTimers = []) :
    ∃ (log : List PollObs) (ph' : Phase), (x.step U e).2 = log.map (fun o => (e.1, o)) ∧
      ph'.At (x.step U e).1 ∧ ph.Next e.1 log ph' := by
  obtain ⟨t, e⟩ := e
  refine ⟨(Twitch.step U x.client e).2.filterMap Obs.poll?, ?_⟩
  simp only [Phase.At, Clocked.step, true_and]
  cases e with
  | endGotoVote i find =>
    cases hi : x.client.poll.voteTimers[i]? with
    | none =>
      -- there is no such timer
      have hout : x.voteDue.length ≤ i := by
        rw [h.voteDue, ← h.voteTimers]
        exact List.getElem?_eq_none_iff.mp hi
      have hscript : script U x.client (.endGotoVote i find) = [] := by
        rw [script, endGotoVote, hi]
      obtain ⟨hpoll, hlog⟩ := Prod.mk.inj (poll_step U x.client (.endGotoVote i find))
      rw [hpoll, hlog, hscript, voteDueAfter, List.eraseIdx_of_length_le hout]
      exact h.stay (by simp) (by simp)
    | some g =>
      obtain ⟨hpoll, hlog⟩ := Prod.mk.inj (poll_step_ended (U := U) find hi)
      rw [hpoll, hlog]
      obtain ⟨ph', hph', hnext⟩ := h.ended hi htime.2
      exact ⟨ph', by simpa [voteDueAfter, gotoDueAfter, voteTimer, gotoTimer] using hph', hnext⟩
  | reenableGoto =>
    have hstep := poll_step_reenabled (U := U) (c := x.client)
    split_ifs at hstep with hzero
    · -- there is no such timer
      obtain ⟨hpoll, hlog⟩ := Prod.mk.inj hstep
      have hnil : x.gotoDue = [] := by
        rw [h.gotoDue, ← List.length_eq_zero_iff, ← h.gotoTimers, hzero]
      have hafter : gotoDueAfter x.gotoDue .reenableGoto = x.gotoDue := by
        rw [hnil]
        rfl
      rw [hpoll, hlog, hafter]
      exact h.stay (by simp) (by simp)
    · obtain ⟨hpoll, hlog⟩ := Prod.mk.inj hstep
      rw [hpoll, hlog]
      obtain ⟨ph', hph', hnext⟩ := h.reenabled hzero htime.2
      exact ⟨ph', by simpa [voteDueAfter, gotoDueAfter] using hph', hnext⟩
  | _ => exact Phase.Holds.voteStep h (voteStep_step U x.client _) (by simp) (by simp) hen

/-! ### How long it takes -/

/-- How long no vote starts after an observation. -/
def wait : PollObs → ℕ
  | .voteStarted _ => voteLength + 2 * 60 * 1000
  | .voteEnded _ yeaVotes nayVotes => timeGotoisDisabled yeaVotes nayVotes
  | _ => 0

/-- **When a vote may start**, at the earliest. -/
def Phase.free (now : ℕ) : Phase → ℕ
  | .idle => now
  | .voting due => max now due + 2 * 60 * 1000
  | .pausing due => max now due

/-- What is right of an observation, with those before it: a vote has started after the waiting,
or a vote has ended that took its time. -/
def Timely (pre : List (ℕ × PollObs)) (x : ℕ × PollObs) : Prop :=
  match x.2 with
  | .voteStarted _ => ∀ y ∈ pre, y.1 + wait y.2 ≤ x.1
  | .voteEnded _ _ _ => ∀ y ∈ pre, ∀ g, y.2 = .voteStarted g → y.1 + voteLength ≤ x.1
  | _ => True

/-- **The log and the phase.** -/
structure Spaced (now : ℕ) (ph : Phase) (log : List (ℕ × PollObs)) : Prop where
  free : ∀ x ∈ log, x.1 + wait x.2 ≤ ph.free now
  voting : ∀ due ∈ ph.voteDue, ∀ x ∈ log, ∀ g, x.2 = .voteStarted g → x.1 + voteLength ≤ due
  timely : Everywhere Timely log

theorem le_timeGotoisDisabled (yeaVotes nayVotes : ℕ) :
    2 * 60 * 1000 ≤ timeGotoisDisabled yeaVotes nayVotes := by
  rw [timeGotoisDisabled]
  split <;> omega

theorem Phase.le_free (ph : Phase) (now : ℕ) : now ≤ ph.free now := by
  cases ph <;> simp only [Phase.free] <;> omega

theorem Phase.free_mono (ph : Phase) {now t : ℕ} (h : now ≤ t) : ph.free now ≤ ph.free t := by
  cases ph <;> simp only [Phase.free] <;> omega

/-- **Each turn of the circle keeps the distance.** -/
theorem Spaced.step {now t : ℕ} {ph ph' : Phase} {log : List (ℕ × PollObs)} {obs : List PollObs}
    (h : Spaced now ph log) (htime : now ≤ t) (hnext : ph.Next t obs ph') :
    Spaced t ph' (log ++ obs.map fun o => (t, o)) := by
  cases hnext with
  | stay hstart hend =>
    have hnew : ∀ x ∈ obs.map fun o => (t, o), wait x.2 = 0 ∧ (∀ g, x.2 ≠ .voteStarted g) ∧
        ∀ pre, Timely pre x := by
      refine List.forall_mem_map.mpr fun o ho => ?_
      cases o with
      | voteStarted g => exact absurd ho (hstart g)
      | voteEnded g yeaVotes nayVotes => exact absurd ho (hend g yeaVotes nayVotes)
      | _ => exact ⟨rfl, by simp, fun _ => trivial⟩
    refine ⟨List.forall_mem_append.mpr ⟨fun x hx => ?_, fun x hx => ?_⟩, fun due hdue =>
      List.forall_mem_append.mpr ⟨h.voting due hdue, fun x hx g hg => ?_⟩, ?_⟩
    · exact (h.free x hx).trans (ph.free_mono htime)
    · obtain ⟨o, -, rfl⟩ := List.mem_map.mp hx
      rw [(hnew _ hx).1]
      exact ph.le_free t
    · exact absurd hg ((hnew x hx).2.1 g)
    · exact everywhere_append.mpr
        ⟨h.timely, everywhere_of_forall fun pre x hx => (hnew x hx).2.2 (log ++ pre)⟩
  | start =>
    -- the program was idle, so all the waiting was over
    have hfree : ∀ x ∈ log, x.1 + wait x.2 ≤ t := fun x hx => (h.free x hx).trans htime
    refine ⟨List.forall_mem_append.mpr ⟨fun x hx => ?_, ?_⟩, fun due hdue =>
      List.forall_mem_append.mpr ⟨fun x hx g hg => ?_, ?_⟩, h.timely.concat hfree⟩
    · have := hfree x hx
      simp only [Phase.free]
      omega
    · refine List.forall_mem_singleton.mpr ?_
      rw [Phase.free, wait, ← Nat.add_assoc]
      exact Nat.add_le_add_right (le_max_right t _) _
    · have := hfree x hx
      rw [List.mem_singleton.mp hdue]
      omega
    · rw [List.mem_singleton.mp hdue, List.map_singleton, List.forall_mem_singleton]
      exact fun _ _ => Nat.le_refl _
  | stop hdue =>
    rename_i due g yeaVotes nayVotes
    have hpause := le_timeGotoisDisabled yeaVotes nayVotes
    refine ⟨List.forall_mem_append.mpr ⟨fun x hx => ?_, ?_⟩,
      fun _ hnone => absurd hnone List.not_mem_nil, h.timely.concat fun x hx g' hg' => ?_⟩
    · have := h.free x hx
      simp only [Phase.free] at this ⊢
      omega
    · refine List.forall_mem_singleton.mpr ?_
      simp only [Phase.free, wait]
      omega
    · exact (h.voting due List.mem_cons_self x hx g' hg').trans hdue
  | free hdue =>
    rw [List.map_nil, List.append_nil]
    refine ⟨fun x hx => ?_, fun _ hnone => absurd hnone List.not_mem_nil, h.timely⟩
    have := h.free x hx
    simp only [Phase.free] at this ⊢
    omega

/-- What is asked of a timed event: no timer is early, and no moderator clears the flag during a
vote. -/
def Punctual (U : Unicode) (x : Clocked) (e : ℕ × Event) : Prop :=
  x.OnTime e ∧ (byMod U "!enablegoto" e.2 → x.client.poll.voteTimers = [])

instance (U : Unicode) (x : Clocked) (e : ℕ × Event) : Decidable (Punctual U x e) :=
  inferInstanceAs (Decidable (_ ∧ _))

/-- **Votes keep their distance.** In a run in which no timer is early and no moderator says
`!enablegoto` during a vote, a vote starts at least two minutes and twenty seconds after
the one before; if one that was won has ended in between, eight minutes and twenty seconds. -/
theorem votes_apart (U : Unicode) (pluslistPkl banlistPkl : Option (List Str))
    {es : List (ℕ × Event)}
    (h : Guarded (Clocked.step U) (fun x _ e => Punctual U x e)
      (Clocked.init pluslistPkl banlistPkl) es)
    {pre mid post : List (ℕ × PollObs)} {t t' : ℕ} {g g' : Game}
    (hlog : (runFrom (Clocked.step U) (Clocked.init pluslistPkl banlistPkl) es).2 =
      pre ++ (t, .voteStarted g) :: (mid ++ (t', .voteStarted g') :: post)) :
    t + (20 + 2 * 60) * 1000 ≤ t' ∧
      ∀ s yeaVotes nayVotes, (∃ g, (s, .voteEnded g yeaVotes nayVotes) ∈ mid) →
        yeaVotes > nayVotes → t + (20 + 8 * 60) * 1000 ≤ t' := by
  have hinv := runFrom_invariant_of_guard
    (P := fun (x : Clocked) log => ∃ ph : Phase, ph.At x ∧ Spaced x.now ph log)
    ⟨.idle, ⟨rfl, rfl, rfl, rfl, fun hne => absurd rfl hne, fun hne => absurd rfl hne⟩,
      by simp, by simp, everywhere_nil _⟩ ?_ h
  · obtain ⟨ph, -, hspaced⟩ := hinv
    have hstart : ∀ y ∈ pre ++ (t, .voteStarted g) :: mid, y.1 + wait y.2 ≤ t' :=
      hspaced.timely _ (t', .voteStarted g') post (by rw [hlog]; simp)
    constructor
    · exact hstart (t, .voteStarted g) (by simp)
    · rintro s yeaVotes nayVotes ⟨k, hk⟩ hwon
      -- the vote had started by then, so it has ended twenty seconds later
      obtain ⟨mid, mid', rfl⟩ := List.append_of_mem hk
      have hend : t + voteLength ≤ s :=
        hspaced.timely (pre ++ (t, .voteStarted g) :: mid) (s, .voteEnded k yeaVotes nayVotes)
          (mid' ++ (t', .voteStarted g') :: post) (by rw [hlog]; simp) (t, .voteStarted g)
          (by simp) g rfl
      have hpause := hstart (s, .voteEnded k yeaVotes nayVotes) (by simp)
      rw [wait, timeGotoisDisabled, if_pos hwon] at hpause
      rw [voteLength] at hend
      simp only at hpause
      omega
  · rintro x log e ⟨ph, hph, hspaced⟩ ⟨htime, hen⟩
    obtain ⟨obs, ph', hlog, hph', hnext⟩ := hph.step htime hen
    rw [hlog]
    exact ⟨ph', hph', hspaced.step htime.now_le hnext⟩

/-- A vote without ballots, and the next one as soon as possible. -/
theorem votes_apart_again :
    let es : List (ℕ × Event) := [(1000, .chat "viewer" "!goto smo"),
      (21000, .endGotoVote 0 fun _ => none), (141000, .reenableGoto),
      (141000, .chat "viewer" "!goto botw")]
    (runFrom (Clocked.step .ascii) (Clocked.init none none) es).2 =
        [(1000, .voteStarted smo), (21000, .voteEnded smo 0 0), (141000, .voteStarted botw)] ∧
      1000 + (20 + 2 * 60) * 1000 ≤ 141000 := by
  intro es
  have hrun : GuardedFrom (Clocked.step .ascii) (Punctual .ascii) (Clocked.init none none) es ∧
      (runFrom (Clocked.step .ascii) (Clocked.init none none) es).2 =
        [] ++ (1000, .voteStarted smo) ::
          ([(21000, .voteEnded smo 0 0)] ++ (141000, .voteStarted botw) :: []) := by
    decide +kernel
  exact ⟨hrun.2, (votes_apart .ascii none none (guarded_of_guardedFrom hrun.1) hrun.2).1⟩

end Twitch

end SwitchController
