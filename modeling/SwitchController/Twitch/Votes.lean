import Mathlib.Data.List.Nodup
import SwitchController.Twitch.Run

/-!
# What an event does to the votes

Ballots, the lock of `!goto`, the start of a vote, its end, and the timer that lifts the ban of
`!goto` after a vote: an event is at most one of these
(`SwitchController.Twitch.voteStep_step`). A message that starts a vote or sets the lock casts no
ballot besides, since it has no word to spare.

The lock is the flag that tells whether a vote is going on. So the end of a vote lifts a lock
that was set in its course, and a lock holds until it is lifted only if no vote was going on
when it was set (`SwitchController.Twitch.disablegoto_holds_iff`).
-/

namespace SwitchController

namespace Twitch

open EventMachine

/-! ### The statements on votes in a message -/

/-- The words that cast a ballot. -/
def ballotWords : List Str := ["voteyea", "yea", "votenay", "nay"]

theorem filterMap_poll?_eq_nil {acts : List Act} (h : ∀ a ∈ acts, a.kind ≠ .poll) :
    acts.filterMap Act.poll? = [] :=
  filterMap_eq_nil_of_isPartialInv isPartialInv_poll fun _ hb => h _ hb rfl

theorem poll_loopActs (username cmd : Str) :
    (loopActs username cmd).filterMap Act.poll? =
      (if cmd = "voteyea" ∨ cmd = "yea" then [.ballot username true] else []) ++
        (if cmd = "votenay" ∨ cmd = "nay" then [.ballot username false] else []) := by
  simp [loopActs, List.filterMap_append, filterMap_ifThen, List.filterMap_cons,
    -String.reduceToList]

theorem poll_loopActs_of_not_mem (username : Str) {cmd : Str} (h : cmd ∉ ballotWords) :
    (loopActs username cmd).filterMap Act.poll? = [] := by
  simp only [ballotWords, List.mem_cons, List.not_mem_nil, or_false, not_or] at h
  rw [poll_loopActs, if_neg (not_or.mpr ⟨h.1, h.2.1⟩), if_neg (not_or.mpr h.2.2)]
  rfl

theorem poll_oneWord (p : Permissions) (username cmd : Str) :
    (oneWord p username cmd).filterMap Act.poll? =
      (if cmd = "!disablegoto" ∧ username ∈ modlist then [.disableGoto] else []) ++
        (if cmd = "!enablegoto" ∧ username ∈ modlist then [.enableGoto] else []) := by
  have hfix : fixControllers.filterMap Act.poll? = [] :=
    filterMap_poll?_eq_nil (by decide)
  simp [oneWord, List.filterMap_append, filterMap_ifThen, List.filterMap_cons, hfix,
    -String.reduceToList]

/-- No two games have the same name, and no name is a ballot. -/
theorem gotoTable_names :
    (gotoTable.map Prod.fst).Nodup ∧ ∀ name ∈ gotoTable.map Prod.fst, name ∉ ballotWords := by
  decide +kernel

theorem filter_gotoTable {name : Str} {g : Game} (h : (name, g) ∈ gotoTable) :
    gotoTable.filter (·.1 = name) = [(name, g)] := by
  -- a name that is in the table is there once
  have hcount : (gotoTable.map Prod.fst).count name = 1 :=
    List.count_eq_one_of_mem gotoTable_names.1 (List.mem_map_of_mem h)
  rw [List.count, List.countP_map, List.countP_eq_length_filter] at hcount
  obtain ⟨entry, hentry⟩ := List.length_eq_one_iff.mp hcount
  have hmem : (name, g) ∈ gotoTable.filter ((· == name) ∘ Prod.fst) :=
    List.mem_filter.mpr ⟨h, by simp⟩
  rw [hentry, List.mem_singleton] at hmem
  rw [hmem, ← hentry]
  exact List.filter_congr fun _ _ => (beq_eq_decide ..).symm

section

variable {U : Unicode} {c : Client} {username message : Str}

/-- **A message that starts a vote** does nothing else to the votes. -/
theorem poll_handleChat_goto {name : Str} {g : Game}
    (hcmd : U.commands message = [("!goto" : Str), name]) (h : (name, g) ∈ gotoTable) :
    (handleChat U c username message).filterMap Act.poll? = [.gotoGameVote g] := by
  -- none of the other commands of two words is called `!goto`
  have htwo : twoWords c.permissions username "!goto" name = .pure [] := by
    simp [twoWords, ifThen]
    rfl
  have hname : name ∉ ballotWords := gotoTable_names.2 name (List.mem_map_of_mem h)
  have hgoto : ("!goto" : Str) ∉ ballotWords := by decide
  rw [handleChat, hcmd, commandActs, htwo, if_pos rfl, gotoActs, filter_gotoTable h]
  simp only [pure_andThen, acts_pure, List.filterMap_append, List.flatMap_cons, List.flatMap_nil,
    poll_loopActs_of_not_mem username hname, poll_loopActs_of_not_mem username hgoto]
  rw [filterMap_poll?_eq_nil fun a ha => by rw [kind_helpActs _ a ha]; decide]
  rfl

/-- **A message of one word**: a ballot, or the lock. -/
theorem poll_handleChat_oneWord {cmd : Str} (hcmd : U.commands message = [cmd]) :
    (handleChat U c username message).filterMap Act.poll? =
      (loopActs username cmd).filterMap Act.poll? ++
        (oneWord c.permissions username cmd).filterMap Act.poll? := by
  rw [handleChat_of_commands_eq hcmd]
  simp only [List.filterMap_append]
  rw [filterMap_poll?_eq_nil fun a ha => by rw [kind_helpActs _ a ha]; decide]
  simp [List.filterMap_cons]

/-- **Any other message** does to the votes what the loop over its words does. -/
theorem poll_handleChat_loop
    (hlock : ¬(username ∈ modlist ∧
      (U.commands message = [("!disablegoto" : Str)] ∨
        U.commands message = [("!enablegoto" : Str)])))
    (hgoto : ∀ name g, U.commands message = [("!goto" : Str), name] → (name, g) ∉ gotoTable) :
    (handleChat U c username message).filterMap Act.poll? =
      ((U.commands message).flatMap (loopActs username)).filterMap Act.poll? := by
  have hcommand : ∀ a ∈ (commandActs c username (U.commands message)).acts, a.kind ≠ .poll := by
    refine forall_commandActs (by simp) ?_ ?_ ?_
    · intro cmd hcmd a ha hkind
      obtain ⟨b, rfl⟩ : ∃ b, a = .poll b := by
        cases a <;> simp at hkind ⊢
      have hmem := (mem_filterMap_of_isPartialInv isPartialInv_poll).mpr ha
      rw [poll_oneWord, if_neg, if_neg] at hmem
      · exact absurd hmem List.not_mem_nil
      · rintro ⟨rfl, hmod⟩
        exact hlock ⟨hmod, Or.inr hcmd⟩
      · rintro ⟨rfl, hmod⟩
        exact hlock ⟨hmod, Or.inl hcmd⟩
    · intro cmd arg _ a ha
      rcases kind_twoWords _ username cmd arg a ha with h | h <;> rw [h] <;> decide
    · exact fun name g hcmd hmem => absurd hmem (hgoto name g hcmd)
  have hhelp : (helpActs (U.commands message)).filterMap Act.poll? = [] :=
    filterMap_poll?_eq_nil fun a ha => by rw [kind_helpActs _ a ha]; decide
  rw [handleChat_eq, chatActs, List.filterMap_append, List.filterMap_append, List.filterMap_append,
    hhelp, filterMap_poll?_eq_nil hcommand, List.nil_append, List.append_nil]
  split <;> simp [List.filterMap_cons]

/-- It casts ballots, if it does anything to the votes. -/
theorem poll_handleChat_ballots
    (hlock : ¬(username ∈ modlist ∧
      (U.commands message = [("!disablegoto" : Str)] ∨
        U.commands message = [("!enablegoto" : Str)])))
    (hgoto : ∀ name g, U.commands message = [("!goto" : Str), name] → (name, g) ∉ gotoTable) :
    ∀ a ∈ (handleChat U c username message).filterMap Act.poll?,
      ∃ yea, a = .ballot username yea := by
  intro a ha
  rw [poll_handleChat_loop hlock hgoto, List.filterMap_flatMap] at ha
  obtain ⟨cmd, -, ha⟩ := List.mem_flatMap.mp ha
  rw [poll_loopActs, List.mem_append] at ha
  rcases ha with ha | ha <;> split at ha <;> simp at ha <;> exact ⟨_, ha⟩

end

/-! ### One event -/

/-- The votes go on as a machine of their own. -/
theorem poll_step (U : Unicode) (c : Client) (e : Event) :
    ((step U c e).1.poll, (step U c e).2.filterMap Obs.poll?) =
      runFrom Poll.exec c.poll ((script U c e).filterMap Act.poll?) :=
  Prod.ext (poll_perform c _).1 (poll_perform c _).2

/-- A moderator's command of one word. -/
def byMod (U : Unicode) (word : Str) : Event → Bool
  | .chat username message => username ∈ modlist && U.commands message = [word]
  | _ => false

/-- **What an event can do to the votes.** -/
inductive VoteStep (U : Unicode) (p : Poll) (e : Event) : Poll × List PollObs → Prop
  /-- Ballots, if anything. -/
  | ballots {acts : List PollAct} (h : ∀ a ∈ acts, ∃ username yea, a = .ballot username yea) :
      VoteStep U p e (runFrom Poll.exec p acts)
  /-- A moderator's `!disablegoto`. -/
  | disabled (he : byMod U "!disablegoto" e) :
      VoteStep U p e ({ p with voting := true }, [.disabled])
  /-- A moderator's `!enablegoto`. -/
  | enabled (he : byMod U "!enablegoto" e) :
      VoteStep U p e ({ p with voting := false }, [.enabled])
  /-- A vote starts, with `!goto`. -/
  | started {g : Game} (hvoting : p.voting = false) (hused : p.gotoUsed = false)
      {username message name : Str} (he : e = .chat username message)
      (hcmd : U.commands message = [("!goto" : Str), name]) (hmem : (name, g) ∈ gotoTable) :
      VoteStep U p e
        ({ p with yeaVotes := 0, nayVotes := 0, voting := true, voteTimers := p.voteTimers ++ [g] },
          [.voteStarted g])
  /-- A timer ends a vote. -/
  | ended {i : ℕ} {find : ℕ → Option (ℕ × ℕ)} {g : Game} (he : e = .endGotoVote i find)
      (hi : p.voteTimers[i]? = some g) :
      VoteStep U p e
        ({ p with gotoUsed := true, gotoTimers := p.gotoTimers + 1, voting := false, voted := [],
                  voteTimers := p.voteTimers.eraseIdx i },
          [.voteEnded g p.yeaVotes p.nayVotes])
  /-- A timer lifts the ban of `!goto`. -/
  | reenabled (he : e = .reenableGoto) (h : p.gotoTimers ≠ 0) :
      VoteStep U p e ({ p with gotoUsed := false, gotoTimers := p.gotoTimers - 1 }, [])

section

variable {U : Unicode} {c : Client} {e : Event} {p : Poll}

theorem VoteStep.nothing : VoteStep U p e (p, []) := .ballots (List.forall_mem_nil _)

/-- An event without statements on votes. -/
theorem VoteStep.of_quiet (h : ∀ a ∈ script U c e, a.kind ≠ .poll) :
    VoteStep U c.poll e ((step U c e).1.poll, (step U c e).2.filterMap Obs.poll?) := by
  rw [poll_step, filterMap_poll?_eq_nil h]
  exact .nothing

/-- **A moderator's command of one word**: the lock is set, or lifted, or neither. -/
theorem poll_step_byMod {word : Str} (hword : word ∉ ballotWords) (he : byMod U word e) :
    ((step U c e).1.poll, (step U c e).2.filterMap Obs.poll?) =
      runFrom Poll.exec c.poll
        ((if word = "!disablegoto" then [.disableGoto] else []) ++
          (if word = "!enablegoto" then [.enableGoto] else [])) := by
  cases e with
  | chat username message =>
    obtain ⟨hmod, hcmd⟩ : username ∈ modlist ∧ U.commands message = [word] := by
      simpa [byMod] using he
    rw [poll_step, script, poll_handleChat_oneWord hcmd, poll_oneWord,
      poll_loopActs_of_not_mem username hword, List.nil_append]
    simp only [hmod, and_true]
  | _ => simp [byMod] at he

theorem poll_step_disable (he : byMod U "!disablegoto" e) :
    ((step U c e).1.poll, (step U c e).2.filterMap Obs.poll?) =
      ({ c.poll with voting := true }, [.disabled]) := by
  rw [poll_step_byMod (by decide) he, if_pos rfl, if_neg (by decide)]
  rfl

theorem poll_step_enable (he : byMod U "!enablegoto" e) :
    ((step U c e).1.poll, (step U c e).2.filterMap Obs.poll?) =
      ({ c.poll with voting := false }, [.enabled]) := by
  rw [poll_step_byMod (by decide) he, if_neg (by decide), if_pos rfl]
  rfl

/-- **A vote starts** with `!goto`, unless a vote is going on, or the lock is set, or `!goto` is
banned. -/
theorem poll_step_goto (username : Str) {message name : Str} {g : Game}
    (hcmd : U.commands message = [("!goto" : Str), name]) (hmem : (name, g) ∈ gotoTable) :
    ((step U c (.chat username message)).1.poll,
        (step U c (.chat username message)).2.filterMap Obs.poll?) =
      if c.poll.voting then (c.poll, [])
      else if c.poll.gotoUsed then (c.poll, [])
      else
        ({ c.poll with yeaVotes := 0, nayVotes := 0, voting := true,
                       voteTimers := c.poll.voteTimers ++ [g] },
          [.voteStarted g]) := by
  rw [poll_step, script, poll_handleChat_goto hcmd hmem, runFrom_cons, runFrom_nil,
    List.append_nil]
  rfl

/-- **A timer ends a vote.** `goto_game` then clears a list that is empty already. -/
theorem poll_step_ended {i : ℕ} (find : ℕ → Option (ℕ × ℕ)) {g : Game}
    (hi : c.poll.voteTimers[i]? = some g) :
    ((step U c (.endGotoVote i find)).1.poll,
        (step U c (.endGotoVote i find)).2.filterMap Obs.poll?) =
      ({ c.poll with gotoUsed := true, gotoTimers := c.poll.gotoTimers + 1, voting := false,
                     voted := [], voteTimers := c.poll.voteTimers.eraseIdx i },
        [.voteEnded g c.poll.yeaVotes c.poll.nayVotes]) := by
  rw [poll_step, script, endGotoVote_eq c hi]
  split_ifs
  · simp [gotoStart, List.filterMap_cons, runFrom_cons, Poll.exec, hi]
  · simp [List.filterMap_cons, runFrom_cons, Poll.exec, hi]

/-- **A timer lifts the ban.** -/
theorem poll_step_reenabled :
    ((step U c .reenableGoto).1.poll, (step U c .reenableGoto).2.filterMap Obs.poll?) =
      if c.poll.gotoTimers = 0 then (c.poll, [])
      else ({ c.poll with gotoUsed := false, gotoTimers := c.poll.gotoTimers - 1 }, []) := by
  rw [poll_step, script]
  simp [runFrom_cons, Poll.exec]

/-- **An event is one of these.** -/
theorem voteStep_step (U : Unicode) (c : Client) (e : Event) :
    VoteStep U c.poll e ((step U c e).1.poll, (step U c e).2.filterMap Obs.poll?) := by
  cases e with
  | chat username message =>
    -- by what the message is: the lock, its end, a `!goto`, or anything else
    by_cases hdis : byMod U "!disablegoto" (.chat username message)
    · rw [poll_step_disable hdis]
      exact .disabled hdis
    by_cases hen : byMod U "!enablegoto" (.chat username message)
    · rw [poll_step_enable hen]
      exact .enabled hen
    by_cases hgoto : ∃ name g, U.commands message = [("!goto" : Str), name] ∧
        (name, g) ∈ gotoTable
    · obtain ⟨name, g, hcmd, hmem⟩ := hgoto
      rw [poll_step_goto username hcmd hmem]
      split_ifs with hvoting hused
      · exact .nothing
      · exact .nothing
      · exact .started (by simpa using hvoting) (by simpa using hused) rfl hcmd hmem
    · rw [poll_step, script]
      have hlock : ¬(username ∈ modlist ∧
          (U.commands message = [("!disablegoto" : Str)] ∨
            U.commands message = [("!enablegoto" : Str)])) := by
        rintro ⟨hmod, hcmd | hcmd⟩
        · exact hdis (by simp [byMod, hmod, hcmd])
        · exact hen (by simp [byMod, hmod, hcmd])
      refine .ballots fun a ha => ?_
      obtain ⟨yea, rfl⟩ := poll_handleChat_ballots hlock
        (fun name g hcmd hmem => hgoto ⟨name, g, hcmd, hmem⟩) a ha
      exact ⟨username, yea, rfl⟩
  | tick =>
    exact .of_quiet (kind_decreaseQueue_ne U c (by decide) (by decide))
  | state n state =>
    refine .of_quiet fun a ha => ?_
    rw [kind_onControllerState U c n state a ha]
    decide
  | turns players => exact .nothing
  | endGotoVote i find =>
    cases hi : c.poll.voteTimers[i]? with
    | none =>
      rw [poll_step, script, endGotoVote, hi]
      exact .nothing
    | some g =>
      rw [poll_step_ended find hi]
      exact .ended rfl hi
  | reenableGoto =>
    rw [poll_step_reenabled]
    split_ifs with hzero
    · exact .nothing
    · exact .reenabled rfl hzero
  | gotoStep i => exact .of_quiet fun a ha => (kind_gotoStep c i a ha).2.2.2

/-! ### Ballots -/

/-- A ballot is counted. -/
def Poll.count (p : Poll) (username : Str) (yea : Bool) : Poll :=
  if yea then { p with voted := p.voted ++ [username], yeaVotes := p.yeaVotes + 1 }
  else { p with voted := p.voted ++ [username], nayVotes := p.nayVotes + 1 }

@[simp] theorem voted_count (p : Poll) (username : Str) (yea : Bool) :
    (p.count username yea).voted = p.voted ++ [username] := by
  cases yea <;> rfl

@[simp] theorem voteTimers_count (p : Poll) (username : Str) (yea : Bool) :
    (p.count username yea).voteTimers = p.voteTimers := by
  cases yea <;> rfl

@[simp] theorem voting_count (p : Poll) (username : Str) (yea : Bool) :
    (p.count username yea).voting = p.voting := by
  cases yea <;> rfl

theorem exec_ballot (p : Poll) (username : Str) (yea : Bool) :
    p.exec (.ballot username yea) =
      if p.voting && username ∉ p.voted then (p.count username yea, [.counted username yea])
      else (p, []) := rfl

/-- **The rule for ballots**: what is kept by every ballot that is counted is kept. -/
theorem ballots_invariant {P : Poll → List PollObs → Prop} {acts : List PollAct}
    (log : List PollObs) (h : ∀ a ∈ acts, ∃ username yea, a = .ballot username yea)
    (hstep : ∀ p log username yea, p.voting = true → username ∉ p.voted → P p log →
      P (p.count username yea) (log ++ [.counted username yea]))
    (h0 : P p log) :
    P (runFrom Poll.exec p acts).1 (log ++ (runFrom Poll.exec p acts).2) := by
  induction acts generalizing p log with
  | nil => simpa using h0
  | cons a acts ih =>
    obtain ⟨⟨username, yea, rfl⟩, hacts⟩ := List.forall_mem_cons.mp h
    rw [runFrom_cons, ← List.append_assoc]
    refine ih _ hacts ?_
    rw [exec_ballot]
    split_ifs with hcount
    · simp only [Bool.and_eq_true, decide_eq_true_eq] at hcount
      exact hstep p log username yea hcount.1 hcount.2 h0
    · simpa using h0

/-- Ballots are all that is observed of ballots. -/
theorem eq_counted_of_mem {acts : List PollAct}
    (h : ∀ a ∈ acts, ∃ username yea, a = .ballot username yea) {o : PollObs}
    (ho : o ∈ (runFrom Poll.exec p acts).2) : ∃ username yea, o = .counted username yea := by
  obtain ⟨q, a, ha, ho⟩ := exists_step_of_mem_runFrom ho
  obtain ⟨username, yea, rfl⟩ := h a ha
  rw [exec_ballot] at ho
  split_ifs at ho
  · exact ⟨username, yea, List.mem_singleton.mp ho⟩
  · exact absurd ho List.not_mem_nil

/-- **What the start of a vote does.** -/
theorem VoteStep.eq_of_voteStarted {r : Poll × List PollObs} (hr : VoteStep U p e r) {g : Game}
    (hg : .voteStarted g ∈ r.2) :
    p.voting = false ∧ p.gotoUsed = false ∧
      r = ({ p with yeaVotes := 0, nayVotes := 0, voting := true,
                    voteTimers := p.voteTimers ++ [g] }, [.voteStarted g]) := by
  cases hr with
  | ballots hacts =>
    obtain ⟨username, yea, heq⟩ := eq_counted_of_mem hacts hg
    exact absurd heq (by simp)
  | started hvoting hused =>
    obtain rfl : g = _ := by simpa using hg
    exact ⟨hvoting, hused, rfl⟩
  | _ => simp at hg

/-- It is a `!goto` that starts one. -/
theorem VoteStep.exists_of_voteStarted {r : Poll × List PollObs} (hr : VoteStep U p e r) {g : Game}
    (hg : .voteStarted g ∈ r.2) :
    ∃ username message name, e = .chat username message ∧
      U.commands message = [("!goto" : Str), name] ∧ (name, g) ∈ gotoTable := by
  cases hr with
  | ballots hacts =>
    obtain ⟨username, yea, heq⟩ := eq_counted_of_mem hacts hg
    exact absurd heq (by simp)
  | started _ _ he hcmd hmem =>
    obtain rfl : g = _ := by simpa using hg
    exact ⟨_, _, _, he, hcmd, hmem⟩
  | _ => simp at hg

/-- **What the end of a vote does.** -/
theorem VoteStep.eq_of_voteEnded {r : Poll × List PollObs} (hr : VoteStep U p e r) {g : Game}
    {yeaVotes nayVotes : ℕ} (hg : .voteEnded g yeaVotes nayVotes ∈ r.2) :
    yeaVotes = p.yeaVotes ∧ nayVotes = p.nayVotes ∧
      ∃ i find, e = .endGotoVote i find ∧ p.voteTimers[i]? = some g := by
  cases hr with
  | ballots hacts =>
    obtain ⟨username, yea, heq⟩ := eq_counted_of_mem hacts hg
    exact absurd heq (by simp)
  | ended he hi =>
    obtain ⟨rfl, rfl, rfl⟩ : g = _ ∧ yeaVotes = _ ∧ nayVotes = _ := by simpa using hg
    exact ⟨rfl, rfl, _, _, he, hi⟩
  | _ => simp at hg

/-! ### The lock -/

/-- `!goto` is locked, and no vote is going on that could lift the lock at its end. -/
def Poll.Locked (p : Poll) : Prop := p.voting = true ∧ p.voteTimers = []

/-- **Only `!enablegoto` lifts such a lock**, -/
theorem Poll.Locked.step (h : p.Locked) {r : Poll × List PollObs} (hr : VoteStep U p e r)
    (he : byMod U "!enablegoto" e = false) : r.1.Locked ∧ ∀ g, .voteStarted g ∉ r.2 := by
  refine ⟨?_, fun g hg => ?_⟩
  · cases hr with
    | ballots hacts =>
      refine ballots_invariant (P := fun p _ => p.Locked) [] hacts ?_ h
      rintro p log username yea - - ⟨hvoting, htimers⟩
      exact ⟨by rwa [voting_count], by rwa [voteTimers_count]⟩
    | disabled => exact ⟨rfl, h.2⟩
    | enabled hen => exact absurd (hen.symm.trans he) (by decide)
    | started hvoting hused => exact absurd h.1 (by simp [hvoting])
    | ended hend hi => exact absurd hi (by simp [h.2])
    | reenabled => exact h
  · exact absurd h.1 (by simp [(hr.eq_of_voteStarted hg).1])

/-- and while it is set no vote is started. -/
theorem Poll.Locked.run {c : Client} (h : c.poll.Locked) {es : List Event}
    (hes : ∀ e ∈ es, byMod U "!enablegoto" e = false) (g : Game) :
    .poll (.voteStarted g) ∉ (run U c es).2 := by
  induction es generalizing c with
  | nil => exact List.not_mem_nil
  | cons e es ih =>
    obtain ⟨he, hes⟩ := List.forall_mem_cons.mp hes
    obtain ⟨hlocked, hnone⟩ := h.step (voteStep_step U c e) he
    rw [Twitch.run, runFrom_cons, List.mem_append, not_or, ← mem_filterMap_poll?]
    exact ⟨hnone g, ih hlocked hes⟩

end

/-- The games of `!goto smo` and `!goto botw`. -/
def smo : Game := ⟨"icons/smo.png", 30, "Super Mario Odyssey"⟩

@[inherit_doc smo]
def botw : Game := ⟨"icons/botw.png", 20, "The Legend of Zelda: Breath of the Wild"⟩

/-- The end of a vote, the end of the ban that follows it, and the next `!goto`. -/
def nextVote : List Event :=
  [.endGotoVote 0 fun _ => none, .reenableGoto, .chat "viewer" "!goto smo"]

/-- **Whatever the flags are, a vote that is going on makes way for the next.** -/
theorem voteStarted_nextVote (U : Unicode) {c : Client} (h : c.poll.voteTimers ≠ []) :
    .poll (.voteStarted smo) ∈ (run U c nextVote).2 := by
  obtain ⟨g, timers, hg⟩ := List.exists_cons_of_ne_nil h
  have hcmd : U.commands "!goto smo" = [("!goto" : Str), "smo"] :=
    commands_ascii U ["!goto", "smo"] (by decide) (by decide) (by decide)
  have hmem : (("smo" : Str), smo) ∈ gotoTable := List.mem_cons_self
  -- the end of the vote clears the flag, and the second timer ends the ban
  let c₁ := (step U c (.endGotoVote 0 fun _ => none)).1
  let c₂ := (step U c₁ .reenableGoto).1
  have hended : c₁.poll.voting = false ∧ c₁.poll.gotoTimers = c.poll.gotoTimers + 1 := by
    have htimer : c.poll.voteTimers[0]? = some g := by simp [hg]
    have h₁ := poll_step_ended (U := U) (fun _ => none) htimer
    exact ⟨congrArg (·.1.voting) h₁, congrArg (·.1.gotoTimers) h₁⟩
  have hlifted : c₂.poll.voting = false ∧ c₂.poll.gotoUsed = false := by
    have h₂ := poll_step_reenabled (U := U) (c := c₁)
    rw [if_neg (by rw [hended.2]; exact Nat.succ_ne_zero _)] at h₂
    exact ⟨(congrArg (·.1.voting) h₂).trans hended.1, congrArg (·.1.gotoUsed) h₂⟩
  have hstarted : (step U c₂ (.chat "viewer" "!goto smo")).2.filterMap Obs.poll? =
      [.voteStarted smo] := by
    have h₃ := poll_step_goto (c := c₂) "viewer" hcmd hmem
    rw [hlifted.1, hlifted.2] at h₃
    exact congrArg Prod.snd h₃
  have hobs : .poll (.voteStarted smo) ∈ (step U c₂ (.chat "viewer" "!goto smo")).2 := by
    rw [← mem_filterMap_poll?, hstarted]
    exact List.mem_singleton_self _
  rw [run, nextVote, runFrom_cons, runFrom_cons, runFrom_cons]
  exact List.mem_append_right _ (List.mem_append_right _ (List.mem_append_left _ hobs))

/-- **Whether the lock holds.** After a moderator's `!disablegoto`, no vote is started until a
moderator's `!enablegoto`, whatever happens, just when no vote was going on. The end of a vote that
was lifts the lock. -/
theorem disablegoto_holds_iff (U : Unicode) (c : Client) {e : Event}
    (he : byMod U "!disablegoto" e) :
    (∀ es : List Event, (∀ e' ∈ es, byMod U "!enablegoto" e' = false) →
        ∀ g, .poll (.voteStarted g) ∉ (run U (step U c e).1 es).2) ↔
      c.poll.voteTimers = [] := by
  have hpoll : (step U c e).1.poll = { c.poll with voting := true } :=
    congrArg Prod.fst (poll_step_disable he)
  constructor
  · intro h
    by_contra htimers
    refine h nextVote ?_ smo (voteStarted_nextVote U (by rwa [hpoll]))
    have hviewer : ("viewer" : Str) ∉ modlist := by decide
    simp [nextVote, byMod, hviewer, -String.reduceToList]
  · exact fun htimers es hes g => Poll.Locked.run ⟨by rw [hpoll], by rw [hpoll, htimers]⟩ hes g

/-- With no vote going on, the lock holds against a viewer's `!goto`. -/
theorem disablegoto_holds_init :
    let e : Event := .chat "alua2020" "!disablegoto"
    byMod Unicode.ascii "!disablegoto" e ∧
      .poll (.voteStarted smo) ∉ (run Unicode.ascii (step Unicode.ascii (Client.init none none) e).1
        [.chat "viewer" "!goto smo"]).2 := by
  intro e
  have he : byMod Unicode.ascii "!disablegoto" e := by decide +kernel
  refine ⟨he, (disablegoto_holds_iff Unicode.ascii (Client.init none none) he).mpr rfl _ ?_ smo⟩
  decide +kernel

/-- **A lock that does not hold**: it is set while a vote is going on, and the end of the vote
lifts it. -/
theorem disablegoto_lifted :
    (run Unicode.ascii (Client.init none none)
      [.chat "viewer" "!goto smo", .chat "alua2020" "!disablegoto", .endGotoVote 0 fun _ => none,
        .reenableGoto, .chat "viewer" "!goto botw"]).2.filterMap Obs.poll? =
      [.voteStarted smo, .disabled, .voteEnded smo 0 0, .voteStarted botw] := by
  decide +kernel

end Twitch

end SwitchController
