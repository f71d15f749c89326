import Mathlib.Data.Fintype.EquivFin
import SwitchController.Twitch.Votes

/-!
# Honest votes, one at a time

A vote is going on while its timer is pending. The counters are cleared when it starts, the list
of those who have voted when it ends, and ballots are counted while the flag `voting` is set,
which a moderator can do at any time.

So the tally of a vote is honest as long as no moderator clears the flag in its course, and no
vote starts with names on the list (`SwitchController.Twitch.honest_iff`). And there is one vote
at a time, decided on its own ballots, as long as no vote starts while another is going on
(`SwitchController.Twitch.one_vote_iff`), which again takes a moderator who clears the flag.
-/

namespace SwitchController

namespace Twitch

open EventMachine

/-! ### The log of the votes -/

/-- What has been observed of the votes since the last one was started. -/
def sinceStart (log : List PollObs) : List PollObs :=
  log.foldl (fun since o => match o with
    | .voteStarted _ => []
    | _ => since ++ [o]) []

/-- The game of the last vote that was started. -/
def lastStart (log : List PollObs) : Option Game :=
  log.foldl (fun last o => match o with
    | .voteStarted g => some g
    | _ => last) none

/-- The number of ballots for an answer. -/
def ballotsFor (answer : Bool) (log : List PollObs) : ℕ :=
  log.countP fun o => match o with
    | .counted _ yea => yea == answer
    | _ => false

@[simp] theorem sinceStart_voteStarted (log : List PollObs) (g : Game) :
    sinceStart (log ++ [.voteStarted g]) = [] := by
  rw [sinceStart, List.foldl_append]
  rfl

theorem sinceStart_concat (log : List PollObs) {o : PollObs} (ho : ∀ g, o ≠ .voteStarted g) :
    sinceStart (log ++ [o]) = sinceStart log ++ [o] := by
  rw [sinceStart, List.foldl_append]
  cases o with
  | voteStarted g => exact absurd rfl (ho g)
  | _ => rfl

@[simp] theorem lastStart_voteStarted (log : List PollObs) (g : Game) :
    lastStart (log ++ [.voteStarted g]) = some g := by
  rw [lastStart, List.foldl_append]
  rfl

theorem lastStart_concat (log : List PollObs) {o : PollObs} (ho : ∀ g, o ≠ .voteStarted g) :
    lastStart (log ++ [o]) = lastStart log := by
  rw [lastStart, List.foldl_append]
  cases o with
  | voteStarted g => exact absurd rfl (ho g)
  | _ => rfl

theorem ballotsFor_append (answer : Bool) (log log' : List PollObs) :
    ballotsFor answer (log ++ log') = ballotsFor answer log + ballotsFor answer log' :=
  List.countP_append

/-! ### The tally of a vote -/

/-- **One flag for one vote**: while a vote is going on, which is one at most, the flag is set. -/
structure Flagged (p : Poll) : Prop where
  one : p.voteTimers.length ≤ 1
  voting : p.voteTimers ≠ [] → p.voting = true

/-- **The tally**, as it should be: nobody has voted twice, those on the list have voted in this
vote, and while a vote is going on the counters add up to the list. -/
structure Tallied (p : Poll) (log : List PollObs) : Prop extends Flagged p where
  nodup : p.voted.Nodup
  voted : ∀ username ∈ p.voted, ∃ yea, .counted username yea ∈ sinceStart log
  sum : p.voteTimers ≠ [] → p.yeaVotes + p.nayVotes = p.voted.length

section

variable {U : Unicode} {p : Poll} {e : Event} {log : List PollObs}

theorem flagged_init : Flagged Poll.init := ⟨by simp [Poll.init], by simp [Poll.init]⟩

/-- Without the flag no vote is going on, -/
theorem Flagged.voteTimers_eq_nil (h : Flagged p) (hvoting : p.voting = false) :
    p.voteTimers = [] := by
  by_contra hne
  exact absurd (h.voting hne) (by simp [hvoting])

/-- and none is when one has ended. -/
theorem Flagged.eraseIdx_eq_nil (h : Flagged p) {i : ℕ} {g : Game}
    (hi : p.voteTimers[i]? = some g) : p.voteTimers.eraseIdx i = [] := by
  obtain ⟨hlt, -⟩ := List.getElem?_eq_some_iff.mp hi
  have hone := h.one
  rw [← List.length_eq_zero_iff, List.length_eraseIdx_of_lt hlt]
  omega

/-- **It stays so**, unless a moderator clears the flag while a vote is going on. -/
theorem Flagged.step (h : Flagged p) {r : Poll × List PollObs} (hr : VoteStep U p e r)
    (hen : byMod U "!enablegoto" e → p.voteTimers = []) : Flagged r.1 := by
  cases hr with
  | ballots hacts =>
    refine ballots_invariant (P := fun p _ => Flagged p) [] hacts ?_ h
    rintro p log username yea - - ⟨hone, hvoting⟩
    exact ⟨by rwa [voteTimers_count], by rwa [voteTimers_count, voting_count]⟩
  | disabled => exact ⟨h.one, fun _ => rfl⟩
  | enabled he => exact ⟨h.one, fun hne => absurd (hen he) hne⟩
  | started hvoting hused =>
    have htimers := h.voteTimers_eq_nil hvoting
    exact ⟨by simp [htimers], fun _ => rfl⟩
  | ended he hi =>
    have htimers := h.eraseIdx_eq_nil hi
    exact ⟨by simp [htimers], fun hne => absurd htimers hne⟩
  | reenabled => exact ⟨h.one, h.voting⟩

theorem tallied_init : Tallied Poll.init [] :=
  ⟨flagged_init, List.nodup_nil, by simp [Poll.init], by simp [Poll.init]⟩

/-- What a ballot does to the list and the counters. -/
theorem Tallied.count (h : Tallied p log) {username : Str} (hu : username ∉ p.voted) (yea : Bool) :
    Tallied (p.count username yea) (log ++ [.counted username yea]) := by
  have hsum : (p.count username yea).yeaVotes + (p.count username yea).nayVotes =
      p.yeaVotes + p.nayVotes + 1 := by
    cases yea
    · exact (Nat.add_assoc _ _ _).symm
    · exact Nat.add_right_comm _ _ _
  refine ⟨⟨?_, ?_⟩, ?_, ?_, ?_⟩
  · rw [voteTimers_count]
    exact h.one
  · rw [voteTimers_count, voting_count]
    exact h.voting
  · rw [voted_count, ← List.concat_eq_append]
    exact h.nodup.concat hu
  · rw [voted_count, sinceStart_concat log (by simp)]
    refine List.forall_mem_append.mpr ⟨fun u hmem => ?_, List.forall_mem_singleton.mpr ⟨yea, ?_⟩⟩
    · exact (h.voted u hmem).imp fun _ => List.mem_append_left _
    · exact List.mem_append_right _ (List.mem_singleton_self _)
  · intro hne
    rw [voteTimers_count] at hne
    rw [hsum, voted_count, List.length_append, h.sum hne, List.length_singleton]

/-- **The tally is kept** by an event that neither clears the flag while a vote is going on nor
starts a vote with names on the list. -/
theorem Tallied.step (h : Tallied p log) {r : Poll × List PollObs} (hr : VoteStep U p e r)
    (hen : byMod U "!enablegoto" e → p.voteTimers = [])
    (hstart : ∀ g, .voteStarted g ∈ r.2 → p.voted = []) : Tallied r.1 (log ++ r.2) := by
  -- who is on the list stays accounted for until the next vote starts
  have hkept : ∀ o, (∀ g, o ≠ .voteStarted g) → ∀ username ∈ p.voted,
      ∃ yea, .counted username yea ∈ sinceStart (log ++ [o]) := by
    intro o ho username hu
    rw [sinceStart_concat log ho]
    exact (h.voted username hu).imp fun _ => List.mem_append_left _
  have hflagged : Flagged r.1 := h.toFlagged.step hr hen
  cases hr with
  | ballots hacts => exact ballots_invariant _ hacts (fun _ _ _ yea _ hu h => h.count hu yea) h
  | disabled => exact ⟨hflagged, h.nodup, hkept _ (by simp), h.sum⟩
  | enabled he => exact ⟨hflagged, h.nodup, hkept _ (by simp), h.sum⟩
  | started hvoting hused =>
    have hvoted : p.voted = [] := hstart _ (List.mem_singleton_self _)
    exact ⟨hflagged, h.nodup, by simp [hvoted], fun _ => by simp [hvoted]⟩
  | ended hend hi =>
    have htimers := h.eraseIdx_eq_nil hi
    exact ⟨hflagged, List.nodup_nil, List.forall_mem_nil _, fun hne => absurd htimers hne⟩
  | reenabled =>
    rw [List.append_nil]
    exact ⟨hflagged, h.nodup, h.voted, h.sum⟩

/-- Without the flag no ballot is counted. -/
theorem not_counted_of_not_voting {r : Poll × List PollObs} (hr : VoteStep U p e r)
    (h : p.voting = false) (username : Str) (yea : Bool) : .counted username yea ∉ r.2 := by
  cases hr with
  | ballots hacts =>
    refine (ballots_invariant (P := fun p log => p.voting = false ∧ .counted username yea ∉ log)
      [] hacts ?_ ⟨h, List.not_mem_nil⟩).2
    rintro p log _ _ hvoting - ⟨hnot, -⟩
    exact absurd hvoting (by simp [hnot])
  | _ => simp

end

/-! ### Honesty -/

section

variable {U : Unicode} {c : Client}

/-- A user can vote, either way. -/
def CanVote (U : Unicode) (c : Client) (username : Str) : Prop :=
  .poll (.counted username true) ∈ (step U c (.chat username "yea")).2 ∧
    .poll (.counted username false) ∈ (step U c (.chat username "nay")).2

/-- **The vote that is going on is honest**: nobody is on the list twice, the counters add up to
the list, and whoever has not voted in this vote can. -/
def Honest (U : Unicode) (c : Client) (log : List Obs) : Prop :=
  c.poll.voteTimers ≠ [] →
    c.poll.voted.Nodup ∧ c.poll.yeaVotes + c.poll.nayVotes = c.poll.voted.length ∧
      ∀ username, (∀ yea, .counted username yea ∉ sinceStart (log.filterMap Obs.poll?)) →
        CanVote U c username

/-- A message of one word that is a ballot. -/
theorem poll_step_ballot {username word : Str} (yea : Bool) (hcmd : U.commands word = [word])
    (hloop : (loopActs username word).filterMap Act.poll? = [.ballot username yea])
    (hdis : word ≠ "!disablegoto") (hen : word ≠ "!enablegoto") :
    (step U c (.chat username word)).2.filterMap Obs.poll? =
      (c.poll.exec (.ballot username yea)).2 := by
  have hstep := congrArg Prod.snd (poll_step U c (.chat username word))
  rw [script, poll_handleChat_oneWord hcmd, hloop, poll_oneWord, if_neg fun h => hdis h.1,
    if_neg fun h => hen h.1, List.append_nil, List.append_nil, runFrom_cons, runFrom_nil,
    List.append_nil] at hstep
  exact hstep

theorem canVote (hvoting : c.poll.voting = true) {username : Str} (hu : username ∉ c.poll.voted) :
    CanVote U c username := by
  have hcount : ∀ yea, (c.poll.exec (.ballot username yea)).2 = [.counted username yea] := by
    intro yea
    rw [exec_ballot, if_pos (by simp [hvoting, hu])]
  constructor
  · rw [← mem_filterMap_poll?, poll_step_ballot true, hcount]
    · exact List.mem_singleton_self _
    · exact commands_ascii U ["yea"] (by decide) (by decide) (by decide)
    · rw [poll_loopActs, if_pos (Or.inr rfl), if_neg (by decide)]
      rfl
    · decide
    · decide
  · rw [← mem_filterMap_poll?, poll_step_ballot false, hcount]
    · exact List.mem_singleton_self _
    · exact commands_ascii U ["nay"] (by decide) (by decide) (by decide)
    · rw [poll_loopActs, if_neg (by decide), if_pos (Or.inr rfl)]
      rfl
    · decide
    · decide

/-- There is always someone who has not voted. -/
theorem exists_not_counted (log : List PollObs) :
    ∃ username, ∀ yea, .counted username yea ∉ log := by
  obtain ⟨username, hu⟩ := Infinite.exists_notMem_finset
    (log.filterMap fun o => match o with
      | .counted username _ => some username
      | _ => none).toFinset
  refine ⟨username, fun yea hmem => hu ?_⟩
  rw [List.mem_toFinset, List.mem_filterMap]
  exact ⟨_, hmem, rfl⟩

/-- **An event that starts a vote**: `!goto` and the name of a game, if `!goto` is neither locked
nor banned. -/
def starts (U : Unicode) (c : Client) : Event → Bool
  | .chat _ message => !c.poll.voting && !c.poll.gotoUsed && match U.commands message with
      | [cmd, name] => cmd = "!goto" && name ∈ gotoTable.map Prod.fst
      | _ => false
  | _ => false

theorem starts_iff {e : Event} :
    starts U c e = true ↔ ∃ g, .voteStarted g ∈ (step U c e).2.filterMap Obs.poll? := by
  constructor
  · intro h
    cases e with
    | chat username message =>
      simp only [starts, Bool.and_eq_true, Bool.not_eq_true'] at h
      obtain ⟨⟨hvoting, hused⟩, h⟩ := h
      split at h
      · rename_i cmd name hcmd
        simp only [Bool.and_eq_true, decide_eq_true_eq] at h
        obtain ⟨rfl, hname⟩ := h
        obtain ⟨⟨name, g⟩, hmem, rfl⟩ := List.mem_map.mp hname
        have hstep := poll_step_goto (c := c) username hcmd hmem
        rw [if_neg (by simp [hvoting]), if_neg (by simp [hused])] at hstep
        refine ⟨g, ?_⟩
        rw [(Prod.mk.inj hstep).2]
        exact List.mem_singleton_self _
      · exact absurd h Bool.false_ne_true
    | _ => exact absurd h Bool.false_ne_true
  · rintro ⟨g, hg⟩
    obtain ⟨hvoting, hused, -⟩ := (voteStep_step U c e).eq_of_voteStarted hg
    obtain ⟨username, message, name, rfl, hcmd, hmem⟩ :=
      (voteStep_step U c e).exists_of_voteStarted hg
    have hname : name ∈ gotoTable.map Prod.fst := List.mem_map_of_mem hmem
    simp [starts, hvoting, hused, hcmd, hname, -String.reduceToList]

/-- **An event that does not spoil the tally**: no moderator's `!enablegoto` while a vote is going
on, and no vote with names on the list. -/
def Fair (U : Unicode) (c : Client) (e : Event) : Prop :=
  (byMod U "!enablegoto" e → c.poll.voteTimers = []) ∧
    (starts U c e → c.poll.voted = [])

instance (U : Unicode) (c : Client) (e : Event) : Decidable (Fair U c e) :=
  inferInstanceAs (Decidable (_ ∧ _))

theorem Honest.of_tallied {log : List Obs} (h : Tallied c.poll (log.filterMap Obs.poll?)) :
    Honest U c log := by
  intro hne
  refine ⟨h.nodup, h.sum hne, fun username hnot => canVote (h.voting hne) fun hu => ?_⟩
  obtain ⟨yea, hmem⟩ := h.voted username hu
  exact hnot yea hmem

theorem Fair.of_honest {log : List Obs} {e : Event}
    (h : Honest U (step U c e).1 (log ++ (step U c e).2)) : Fair U c e := by
  constructor
  · intro he
    by_contra hne
    -- with the flag cleared, someone who has not voted cannot
    have hpoll : (step U c e).1.poll = { c.poll with voting := false } :=
      congrArg Prod.fst (poll_step_enable he)
    obtain ⟨username, hnot⟩ := exists_not_counted
      (sinceStart ((log ++ (step U c e).2).filterMap Obs.poll?))
    have hvote := ((h (by rwa [hpoll])).2.2 username hnot).1
    rw [← mem_filterMap_poll?] at hvote
    exact not_counted_of_not_voting (voteStep_step U _ _) (by rw [hpoll]) username true hvote
  · intro hstarts
    obtain ⟨g, hg⟩ := starts_iff.mp hstarts
    -- the counters are at zero, so the list has to be empty
    obtain ⟨-, -, hstart⟩ := (voteStep_step U c e).eq_of_voteStarted hg
    obtain ⟨hpoll, -⟩ := Prod.mk.inj hstart
    have hsum := (h (by simp [hpoll])).2.1
    rw [hpoll] at hsum
    exact List.length_eq_zero_iff.mp hsum.symm

end

/-- **When votes are honest.** At every moment of a run the vote that is going on, if there is one,
is honest just when no moderator's `!enablegoto` is handled while a vote is going on and no vote
starts with names on the list. -/
theorem honest_iff (U : Unicode) (pluslistPkl banlistPkl : Option (List Str)) (es : List Event) :
    (∀ pre, pre <+: es → Honest U (run U (Client.init pluslistPkl banlistPkl) pre).1
        (run U (Client.init pluslistPkl banlistPkl) pre).2) ↔
      Guarded (step U) (fun c _ e => Fair U c e) (Client.init pluslistPkl banlistPkl) es := by
  constructor
  · intro h pre e he
    have hhonest := h (pre ++ [e]) he
    rw [run_concat] at hhonest
    exact Fair.of_honest hhonest
  · intro h pre hpre
    refine Honest.of_tallied (runFrom_invariant_of_guard
      (P := fun (c : Client) log => Tallied c.poll (log.filterMap Obs.poll?)) tallied_init ?_
      (h.of_isPrefix hpre))
    intro c log e htally hfair
    rw [List.filterMap_append]
    exact htally.step (voteStep_step U c e) hfair.1 fun g hg => hfair.2 (starts_iff.mpr ⟨g, hg⟩)

/-- A vote in which two users vote, one of them twice. -/
theorem honest_sample :
    let es : List Event := [.chat "viewer" "!goto smo", .chat "viewer" "yea", .chat "viewer" "nay",
      .chat "other" "nay"]
    let r := run Unicode.ascii (Client.init none none) es
    r.1.poll.voteTimers = [smo] ∧ (r.1.poll.yeaVotes = 1 ∧ r.1.poll.nayVotes = 1) ∧
      Honest Unicode.ascii r.1 r.2 := by
  intro es r
  have hfair : GuardedFrom (step Unicode.ascii) (Fair Unicode.ascii) (Client.init none none)
      es := by
    decide +kernel
  refine ⟨by decide +kernel, by decide +kernel, ?_⟩
  exact (honest_iff Unicode.ascii none none es).mpr (guarded_of_guardedFrom hfair) es
    List.prefix_rfl

/-- **A vote that is not honest**: someone voted before it was started, while `!goto` was locked,
and cannot vote in it. -/
theorem not_honest_of_lock :
    let r := run Unicode.ascii (Client.init none none)
      [.chat "alua2020" "!disablegoto", .chat "viewer" "yea", .chat "alua2020" "!enablegoto",
        .chat "viewer" "!goto smo"]
    r.1.poll.voteTimers = [smo] ∧ r.1.poll.yeaVotes + r.1.poll.nayVotes = 0 ∧
      r.1.poll.voted = [("viewer" : Str)] ∧ ¬Honest Unicode.ascii r.1 r.2 := by
  intro r
  obtain ⟨htimers, hsum, hvoted⟩ : r.1.poll.voteTimers = [smo] ∧
      r.1.poll.yeaVotes + r.1.poll.nayVotes = 0 ∧ r.1.poll.voted = [("viewer" : Str)] := by
    decide +kernel
  refine ⟨htimers, hsum, hvoted, fun h => ?_⟩
  have hlength := (h (by rw [htimers]; exact List.cons_ne_nil _ _)).2.1
  rw [hsum, hvoted] at hlength
  exact absurd hlength (by decide)

/-! ### One vote at a time -/

/-- **An event that ends a vote that is won.** -/
def wins (c : Client) : Event → Bool
  | .endGotoVote i _ => i < c.poll.voteTimers.length && c.poll.nayVotes < c.poll.yeaVotes
  | _ => false

theorem wins_iff {U : Unicode} {c : Client} {e : Event} :
    wins c e = true ↔ ∃ g yeaVotes nayVotes, .voteEnded g yeaVotes nayVotes ∈
      (step U c e).2.filterMap Obs.poll? ∧ yeaVotes > nayVotes := by
  constructor
  · intro h
    cases e with
    | endGotoVote i find =>
      simp only [wins, Bool.and_eq_true, decide_eq_true_eq] at h
      obtain ⟨-, hobs⟩ :=
        Prod.mk.inj (poll_step_ended (U := U) find (List.getElem?_eq_getElem h.1))
      exact ⟨_, _, _, by rw [hobs]; exact List.mem_singleton_self _, h.2⟩
    | _ => exact absurd h Bool.false_ne_true
  · rintro ⟨g, yeaVotes, nayVotes, hmem, hgt⟩
    obtain ⟨rfl, rfl, i, find, rfl, hi⟩ := (voteStep_step U c e).eq_of_voteEnded hmem
    obtain ⟨hlt, -⟩ := List.getElem?_eq_some_iff.mp hi
    simp [wins, hlt, hgt]

theorem filterMap_call?_eq_nil {acts : List Act} (h : ∀ a ∈ acts, a.kind ≠ .call) :
    acts.filterMap Act.call? = [] :=
  filterMap_eq_nil_of_isPartialInv isPartialInv_call fun _ hb => h _ hb rfl

section

variable {U : Unicode} {c : Client}

theorem calls_step (U : Unicode) (c : Client) (e : Event) :
    (step U c e).1.calls = ((script U c e).filterMap Act.call?).foldl execCalls c.calls :=
  calls_perform c _

theorem calls_step_quiet {e : Event} (h : ∀ a ∈ script U c e, a.kind ≠ .call) :
    (step U c e).1.calls = c.calls :=
  calls_perform_quiet c h

/-- **A call of `goto_game` begins when a vote is won**, and at no other time. -/
theorem length_calls_step (U : Unicode) (c : Client) (e : Event) :
    (wins c e = true ∧ (step U c e).1.calls.length = c.calls.length + 1) ∨
      (wins c e = false ∧ (step U c e).1.calls.length ≤ c.calls.length) := by
  by_cases hwins : wins c e = true
  · refine Or.inl ⟨hwins, ?_⟩
    obtain ⟨g, yeaVotes, nayVotes, hmem, hgt⟩ := (wins_iff (U := U)).mp hwins
    obtain ⟨rfl, rfl, i, find, rfl, hi⟩ := (voteStep_step U c e).eq_of_voteEnded hmem
    rw [calls_step, script, endGotoVote_eq c hi, if_pos hgt]
    simp [gotoStart, List.filterMap_cons, execCalls]
  · refine Or.inr ⟨by simpa using hwins, ?_⟩
    cases e with
    | chat username message =>
      refine (congrArg List.length (calls_step_quiet fun a ha => ?_)).le
      exact (kind_handleChat a ha).2
    | tick =>
      refine (congrArg List.length (calls_step_quiet ?_)).le
      exact kind_decreaseQueue_ne U c (by decide) (by decide)
    | state n state =>
      refine (congrArg List.length (calls_step_quiet fun a ha => ?_)).le
      rw [kind_onControllerState U c n state a ha]
      decide
    | turns players => exact le_rfl
    | endGotoVote i find =>
      cases hi : c.poll.voteTimers[i]? with
      | none =>
        rw [calls_step, script, endGotoVote, hi]
        exact le_rfl
      | some g =>
        obtain ⟨hlt, -⟩ := List.getElem?_eq_some_iff.mp hi
        have hlost : ¬c.poll.yeaVotes > c.poll.nayVotes := fun hgt =>
          hwins (by simp [wins, hlt, hgt])
        rw [calls_step, script, endGotoVote_eq c hi, if_neg hlost]
        exact le_rfl
    | reenableGoto => exact le_rfl
    | gotoStep i =>
      rw [calls_step, script]
      rcases gotoStep_cases c i with h | ⟨a, acts, call, h, ha, hacts⟩
      · rw [h]
        exact le_rfl
      · have hnil : acts.filterMap Act.call? = [] := by
          refine filterMap_call?_eq_nil fun b hb => ?_
          rcases steering_gotoRest _ _ b (hacts hb) with h | h | h <;> rw [h] <;> decide
        rw [h, List.filterMap_cons, hnil]
        rcases ha with rfl | rfl
        · exact (List.length_modify ..).le
        · exact List.length_eraseIdx_le ..

/-- An event of a run with one vote at a time: no vote starts while another is going on, and none
is won while `goto_game` is still running. -/
def Single (U : Unicode) (c : Client) (e : Event) : Prop :=
  (starts U c e → c.poll.voteTimers = []) ∧ (wins c e → c.calls = [])

/-- **A vote that was ended was decided on its own ballots**: it was the last to be started, and
the numbers are those of the ballots counted since. -/
def Decided (pre : List PollObs) (o : PollObs) : Prop :=
  ∀ g yeaVotes nayVotes, o = .voteEnded g yeaVotes nayVotes →
    lastStart pre = some g ∧ yeaVotes = ballotsFor true (sinceStart pre) ∧
      nayVotes = ballotsFor false (sinceStart pre)

/-- **One vote at a time, decided on its own ballots.** -/
structure OneVote (c : Client) (log : List Obs) : Prop where
  timers : c.poll.voteTimers.length ≤ 1
  decided : Everywhere Decided (log.filterMap Obs.poll?)
  calls : c.calls.length ≤ 1

/-- The counters are those of the vote that is going on. -/
structure OwnBallots (p : Poll) (log : List PollObs) : Prop where
  timers : p.voteTimers.length ≤ 1
  last : ∀ g ∈ p.voteTimers, lastStart log = some g
  yea : p.yeaVotes = ballotsFor true (sinceStart log)
  nay : p.nayVotes = ballotsFor false (sinceStart log)
  decided : Everywhere Decided log

variable {p : Poll} {e : Event} {log : List PollObs}

/-- An observation that is no ballot and starts no vote. -/
theorem OwnBallots.concat (h : OwnBallots p log) {p' : Poll} {o : PollObs}
    (htimers : p'.voteTimers.length ≤ 1) (hlast : p'.voteTimers ⊆ p.voteTimers)
    (hyea : p'.yeaVotes = p.yeaVotes) (hnay : p'.nayVotes = p.nayVotes)
    (hstarted : ∀ g, o ≠ .voteStarted g) (hcounted : ∀ username yea, o ≠ .counted username yea)
    (ho : Decided log o) : OwnBallots p' (log ++ [o]) := by
  have hballots : ∀ answer, ballotsFor answer [o] = 0 := by
    intro answer
    cases o with
    | counted username yea => exact absurd rfl (hcounted username yea)
    | _ => rfl
  constructor
  · exact htimers
  · intro g hg
    rw [lastStart_concat log hstarted]
    exact h.last g (hlast hg)
  · rw [hyea, h.yea, sinceStart_concat log hstarted, ballotsFor_append, hballots, Nat.add_zero]
  · rw [hnay, h.nay, sinceStart_concat log hstarted, ballotsFor_append, hballots, Nat.add_zero]
  · exact h.decided.concat ho

theorem OwnBallots.count (h : OwnBallots p log) (username : Str) (yea : Bool) :
    OwnBallots (p.count username yea) (log ++ [.counted username yea]) := by
  constructor
  · rw [voteTimers_count]
    exact h.timers
  · rw [voteTimers_count, lastStart_concat log (by simp)]
    exact h.last
  · rw [sinceStart_concat log (by simp), ballotsFor_append, ← h.yea]
    cases yea <;> rfl
  · rw [sinceStart_concat log (by simp), ballotsFor_append, ← h.nay]
    cases yea <;> rfl
  · exact h.decided.concat (by simp [Decided])

/-- **The counters stay those of the vote that is going on**, if none is started meanwhile. -/
theorem OwnBallots.step (h : OwnBallots p log) {r : Poll × List PollObs} (hr : VoteStep U p e r)
    (hstart : ∀ g, .voteStarted g ∈ r.2 → p.voteTimers = []) : OwnBallots r.1 (log ++ r.2) := by
  cases hr with
  | ballots hacts =>
    exact ballots_invariant _ hacts (fun _ _ username yea _ _ h => h.count username yea) h
  | disabled =>
    exact h.concat h.timers (List.Subset.refl _) rfl rfl (by simp) (by simp) (by simp [Decided])
  | enabled =>
    exact h.concat h.timers (List.Subset.refl _) rfl rfl (by simp) (by simp) (by simp [Decided])
  | @started g hvoting hused =>
    have htimers : p.voteTimers = [] := hstart g (List.mem_singleton_self _)
    refine ⟨by simp [htimers], by simp [htimers], ?_, ?_, h.decided.concat (by simp [Decided])⟩
    · rw [sinceStart_voteStarted]
      rfl
    · rw [sinceStart_voteStarted]
      rfl
  | @ended i find g he hi =>
    refine h.concat ((List.length_eraseIdx_le ..).trans h.timers) (List.eraseIdx_subset ..) rfl rfl
      (by simp) (by simp) ?_
    rintro g yeaVotes nayVotes heq
    obtain ⟨rfl, rfl, rfl⟩ : _ = g ∧ _ = yeaVotes ∧ _ = nayVotes := by simpa using heq
    exact ⟨h.last _ (List.mem_of_getElem? hi), h.yea, h.nay⟩
  | reenabled =>
    rw [List.append_nil]
    exact ⟨h.timers, h.last, h.yea, h.nay, h.decided⟩

theorem Single.of_oneVote {log : List Obs} (h : OneVote (step U c e).1 (log ++ (step U c e).2)) :
    Single U c e := by
  constructor
  · intro hstarts
    obtain ⟨g, hg⟩ := starts_iff.mp hstarts
    obtain ⟨-, -, hstart⟩ := (voteStep_step U c e).eq_of_voteStarted hg
    obtain ⟨hpoll, -⟩ := Prod.mk.inj hstart
    have htimers := h.timers
    rw [hpoll, List.length_append, List.length_singleton] at htimers
    exact List.length_eq_zero_iff.mp (by omega)
  · intro hwins
    have hcalls := h.calls
    rcases length_calls_step U c e with ⟨-, hlen⟩ | ⟨hnot, -⟩
    · exact List.length_eq_zero_iff.mp (by omega)
    · exact absurd (hwins.symm.trans hnot) (by decide)

/-- The timer that lifts the ban of `!goto`. -/
def lifts : Event → Bool
  | .reenableGoto => true
  | _ => false

/-- **An event that leaves the votes undisturbed**: no moderator's `!enablegoto` while a vote is
going on, and no end of the ban while `goto_game` is still running. -/
def Undisturbed (U : Unicode) (c : Client) (e : Event) : Prop :=
  (byMod U "!enablegoto" e → c.poll.voteTimers = []) ∧ (lifts e → c.calls = [])

instance (U : Unicode) (c : Client) (e : Event) : Decidable (Undisturbed U c e) :=
  inferInstanceAs (Decidable (_ ∧ _))

/-- While a vote is going on the flag is set, and while `goto_game` is running `!goto` is banned
and no vote is going on. -/
structure Calm (p : Poll) (calls : List GotoCall) : Prop extends Flagged p where
  banned : calls ≠ [] → p.gotoUsed = true
  idle : calls ≠ [] → p.voteTimers = []

theorem Calm.single (h : Calm c.poll c.calls) : Single U c e := by
  constructor
  · intro hstarts
    obtain ⟨g, hg⟩ := starts_iff.mp hstarts
    exact h.voteTimers_eq_nil ((voteStep_step U c e).eq_of_voteStarted hg).1
  · intro hwins
    obtain ⟨g, yeaVotes, nayVotes, hmem, -⟩ := (wins_iff (U := U)).mp hwins
    obtain ⟨-, -, i, find, -, hi⟩ := (voteStep_step U c e).eq_of_voteEnded hmem
    by_contra hne
    exact absurd hi (by simp [h.idle hne])

/-- Votes are calm as long as they are undisturbed, if no call begins but at the end of a vote. -/
theorem Calm.voteStep {calls calls' : List GotoCall} (h : Calm p calls)
    {r : Poll × List PollObs} (hr : VoteStep U p e r)
    (hcalls : (∀ g yeaVotes nayVotes, .voteEnded g yeaVotes nayVotes ∉ r.2) →
      calls' ≠ [] → calls ≠ [])
    (hen : byMod U "!enablegoto" e → p.voteTimers = []) (hlifts : lifts e → calls = []) :
    Calm r.1 calls' := by
  have hflagged : Flagged r.1 := h.toFlagged.step hr hen
  cases hr with
  | ballots hacts =>
    have hcalls := hcalls fun g yeaVotes nayVotes hmem => by
      obtain ⟨username, yea, heq⟩ := eq_counted_of_mem hacts hmem
      exact absurd heq (by simp)
    -- a ballot changes neither the timers nor the ban
    have hkept := ballots_invariant
      (P := fun p _ => (calls' ≠ [] → p.gotoUsed = true) ∧ (calls' ≠ [] → p.voteTimers = []))
      [] hacts ?_ ⟨fun hne => h.banned (hcalls hne), fun hne => h.idle (hcalls hne)⟩
    · exact ⟨hflagged, hkept.1, hkept.2⟩
    · rintro p log username yea - - ⟨hbanned, hidle⟩
      cases yea <;> exact ⟨hbanned, hidle⟩
  | disabled =>
    have hcalls := hcalls (by simp)
    exact ⟨hflagged, fun hne => h.banned (hcalls hne), fun hne => h.idle (hcalls hne)⟩
  | enabled he =>
    have hcalls := hcalls (by simp)
    exact ⟨hflagged, fun hne => h.banned (hcalls hne), fun hne => h.idle (hcalls hne)⟩
  | started hvoting hused =>
    have hnil : ∀ {P : Prop}, calls' ≠ [] → P := fun hne =>
      absurd (h.banned (hcalls (by simp) hne)) (by simp [hused])
    exact ⟨hflagged, hnil, hnil⟩
  | ended he hi => exact ⟨hflagged, fun _ => rfl, fun _ => h.eraseIdx_eq_nil hi⟩
  | reenabled he =>
    have hnil : ∀ {P : Prop}, calls' ≠ [] → P := fun hne =>
      absurd (hlifts (by rw [he]; rfl)) (hcalls (by simp) hne)
    exact ⟨hflagged, hnil, hnil⟩

theorem Calm.step (h : Calm c.poll c.calls) (he : Undisturbed U c e) :
    Calm (step U c e).1.poll (step U c e).1.calls := by
  refine h.voteStep (voteStep_step U c e) (fun hnone hne hnil => hne ?_) he.1 he.2
  rcases length_calls_step U c e with ⟨hwins, -⟩ | ⟨-, hlen⟩
  · obtain ⟨g, yeaVotes, nayVotes, hmem, -⟩ := (wins_iff (U := U)).mp hwins
    exact absurd hmem (hnone g yeaVotes nayVotes)
  · rwa [hnil, List.length_nil, Nat.le_zero, List.length_eq_zero_iff] at hlen

end

/-- **When there is one vote at a time.** At every moment of a run at most one vote is going on and
at most one `goto_game`, and every vote was decided on its own ballots, just when no vote starts
while another is going on and none is won while `goto_game` is still running. It is so when no
moderator's `!enablegoto` is handled while a vote is going on, and the ban that follows a vote
outlasts `goto_game`. -/
theorem one_vote_iff (U : Unicode) (pluslistPkl banlistPkl : Option (List Str))
    (es : List Event) :
    ((∀ pre, pre <+: es → OneVote (run U (Client.init pluslistPkl banlistPkl) pre).1
        (run U (Client.init pluslistPkl banlistPkl) pre).2) ↔
      Guarded (step U) (fun c _ e => Single U c e) (Client.init pluslistPkl banlistPkl) es) ∧
    (Guarded (step U) (fun c _ e => Undisturbed U c e) (Client.init pluslistPkl banlistPkl) es →
      Guarded (step U) (fun c _ e => Single U c e) (Client.init pluslistPkl banlistPkl) es) := by
  refine ⟨⟨fun h pre e he => ?_, fun h pre hpre => ?_⟩, fun h pre e he => ?_⟩
  · have hone := h (pre ++ [e]) he
    rw [run_concat] at hone
    exact Single.of_oneVote hone
  · have hown := runFrom_invariant_of_guard
      (P := fun (c : Client) log =>
        OwnBallots c.poll (log.filterMap Obs.poll?) ∧ c.calls.length ≤ 1)
      (s := Client.init pluslistPkl banlistPkl)
      ⟨⟨by simp [Client.init, Poll.init], by simp [Client.init, Poll.init], rfl, rfl,
        everywhere_nil _⟩, by simp [Client.init]⟩ ?_ (h.of_isPrefix hpre)
    · exact ⟨hown.1.timers, hown.1.decided, hown.2⟩
    · rintro c log e ⟨hown, hcalls⟩ ⟨hstarts, hwins⟩
      rw [List.filterMap_append]
      refine ⟨hown.step (voteStep_step U c e) fun g hg => hstarts (starts_iff.mpr ⟨g, hg⟩), ?_⟩
      rcases length_calls_step U c e with ⟨hwon, hlen⟩ | ⟨-, hlen⟩
      · rw [hlen, hwins hwon]
        exact le_rfl
      · exact hlen.trans hcalls
  · have hcalm := runFrom_invariant_of_guard
      (P := fun (c : Client) (_ : List Obs) => Calm c.poll c.calls)
      (s := Client.init pluslistPkl banlistPkl)
      ⟨flagged_init, by simp [Client.init], by simp [Client.init]⟩ (fun _ _ _ h he => h.step he)
      (h.of_isPrefix ((List.prefix_append pre [e]).trans he))
    exact hcalm.single

/-- A vote that is won, and the call of `goto_game` that follows. -/
theorem one_vote_sample :
    let es : List Event := [.chat "viewer" "!goto smo", .chat "viewer" "yea",
      .endGotoVote 0 fun _ => none]
    let r := run Unicode.ascii (Client.init none none) es
    r.1.calls.length = 1 ∧ OneVote r.1 r.2 := by
  intro es r
  have hcalm : GuardedFrom (step Unicode.ascii) (Undisturbed Unicode.ascii)
      (Client.init none none) es := by
    decide +kernel
  have hone := one_vote_iff Unicode.ascii none none es
  refine ⟨by decide +kernel, ?_⟩
  exact hone.1.mpr (hone.2 (guarded_of_guardedFrom hcalm)) es List.prefix_rfl

/-- **Two votes at once**: a moderator enables `!goto` while a vote is going on. Both timers are
pending, and the first of the votes is decided on the ballots for the second. -/
theorem two_votes :
    let es : List Event := [.chat "viewer" "!goto smo", .chat "alua2020" "!enablegoto",
      .chat "viewer" "!goto botw", .chat "viewer" "yea"]
    let c := (run Unicode.ascii (Client.init none none) es).1
    c.poll.voteTimers = [smo, botw] ∧
      (step Unicode.ascii c (.endGotoVote 0 fun _ => none)).2.filterMap Obs.poll? =
        [.voteEnded smo 1 0] := by
  decide +kernel

end Twitch

end SwitchController
