import SwitchController.Twitch.Loop
import SwitchController.Twitch.Persistence

/-!
# The lists on the server

It is the server that keeps banned users out, by a copy of `banlist` it has from the program, and
it has a copy of `pluslist` as well. Both are emitted when the program starts and every six seconds
after that. A moderator's `!ban` and `!unban` emit the new `banlist` at once, besides;
`!giveplus` and `!removeplus` do not emit anything.

So the two copies are not equally good. That of `pluslist` is what the list was some time ago, and
how long ago is a matter of the loop's stopwatch. That of `banlist` is right at all times, as long
as what is emitted for a ban gets to the server: where the emit raises, the exception is swallowed
and the list stays changed, until the next announcement says so
(`SwitchController.Twitch.server_follows`). `!unban` of a user who is not banned raises before it
emits, and leaves nothing behind.

An exception in an announcement itself is not caught: it ends the program, and with it the run.
-/

namespace SwitchController

namespace Twitch

open EventMachine Interruption

/-- **What the server has.** -/
structure Lists where
  banlist : List Str
  pluslist : List Str

/-- It is told something. -/
def Lists.hear (s : Lists) : LoopObs → Lists
  | .client (.io (.emit (.banlist users))) => { s with banlist := users }
  | .announced banlist pluslist => ⟨banlist, pluslist⟩
  | _ => s

/-- The lists of the program, which it emits when it starts. -/
def Client.lists (c : Client) : Lists := ⟨c.permissions.banlist, c.permissions.pluslist⟩

/-- **The lists on the server**, after what was observed of the program since it started. -/
def serverLists (c : Client) (log : List LoopObs) : Lists := log.foldl Lists.hear c.lists

/-! ### What an event emits -/

/-- What a statement tells the server. -/
def Lists.hearAct (s : Lists) : Act → Lists
  | .io (.emit (.banlist users)) => { s with banlist := users }
  | _ => s

theorem hear_exec (s : Lists) (c : Client) (a : Act) :
    ((c.exec a).2.map LoopObs.client).foldl Lists.hear s = s.hearAct a := by
  have hquiet : ∀ os : List Obs, (∀ o ∈ os, ∀ b, o ≠ .io b) →
      (os.map LoopObs.client).foldl Lists.hear s = s := by
    intro os hos
    induction os with
    | nil => rfl
    | cons o os ih =>
      obtain ⟨ho, hos⟩ := List.forall_mem_cons.mp hos
      have hone : s.hear (.client o) = s := by
        cases o with
        | io b => exact absurd rfl (ho b)
        | _ => rfl
      rw [List.map_cons, List.foldl_cons, hone, ih hos]
  cases a with
  | io b =>
    cases b with
    | emit e => cases e <;> rfl
    | _ => rfl
  | pad b | poll b | queue b =>
    refine hquiet _ fun o ho b => ?_
    obtain ⟨o', -, rfl⟩ := List.mem_map.mp ho
    simp
  | submit cmds =>
    rw [Client.exec]
    split
    · refine hquiet _ fun o ho b => ?_
      obtain ⟨q, -, rfl⟩ := List.mem_map.mp ho
      simp
    · rfl
  | _ => rfl

theorem hear_perform (s : Lists) (c : Client) (acts : List Act) :
    ((c.perform acts).2.map LoopObs.client).foldl Lists.hear s = acts.foldl Lists.hearAct s := by
  rw [Client.perform]
  induction acts generalizing c s with
  | nil => rfl
  | cons a acts ih =>
    rw [runFrom_cons, List.map_append, List.foldl_append, hear_exec, ih]
    rfl

/-- A statement that emits `banlist`. -/
def Act.emitsBanlist : Act → Bool
  | .io (.emit (.banlist _)) => true
  | _ => false

theorem hearAct_of_not_emits {acts : List Act} (h : ∀ a ∈ acts, a.emitsBanlist = false)
    (s : Lists) : acts.foldl Lists.hearAct s = s := by
  induction acts with
  | nil => rfl
  | cons a acts ih =>
    obtain ⟨ha, hacts⟩ := List.forall_mem_cons.mp h
    have hone : s.hearAct a = s := by
      cases a with
      | io b =>
        cases b with
        | emit e =>
          cases e with
          | banlist users => exact absurd ha (by simp [Act.emitsBanlist])
          | _ => rfl
        | _ => rfl
      | _ => rfl
    rw [List.foldl_cons, hone, ih hacts]

theorem not_emits_of_kind {a : Act} (h : a.kind ≠ .io) : a.emitsBanlist = false := by
  cases a with
  | io b => exact absurd rfl h
  | _ => rfl

theorem not_emits_search (g : Game) (find : ℕ → Option (ℕ × ℕ)) (left attempt : ℕ) :
    ∀ a ∈ search g find left attempt, a.emitsBanlist = false := by
  have hpads : ∀ as : List PadAct, ∀ a ∈ as.map Act.pad, a.emitsBanlist = false :=
    fun as => List.forall_mem_map.mpr fun _ _ => rfl
  have hstart : ∀ x y, ∀ a ∈ startGame g x y, a.emitsBanlist = false := fun x y =>
    List.forall_mem_append.mpr ⟨hpads _, by simp [Act.emitsBanlist]⟩
  induction left generalizing attempt with
  | zero =>
    rw [search]
    split
    · exact List.forall_mem_append.mpr ⟨hpads _, List.forall_mem_singleton.mpr rfl⟩
    · exact hstart _ _
  | succ left ih =>
    rw [search]
    split
    · exact List.forall_mem_append.mpr ⟨hpads _, ih (attempt + 1)⟩
    · exact hstart _ _

section

variable {U : Unicode} {c : Client} {username message : Str}

/-- Commands of two words that change no list emit none. -/
theorem not_emits_twoWords {cmd : Str} (p : Permissions) (user : Str)
    (h : cmd ∈ listCommands → username ∉ modlist) :
    ∀ a ∈ (twoWords p username cmd user).acts, a.emitsBanlist = false := by
  have hnot : ∀ s ∈ listCommands, ¬(cmd = s ∧ username ∈ modlist) := by
    rintro s hs ⟨rfl, hmod⟩
    exact h hs hmod
  simp only [listCommands, List.forall_mem_cons] at hnot
  obtain ⟨hgive, hremove, hban, hunban, -⟩ := hnot
  rw [twoWords, ifThen_neg hgive, ifThen_neg hremove, ifThen_neg hban, if_neg hunban]
  simp only [pure_andThen, List.flatten_cons, List.flatten_nil, List.nil_append, acts_pure,
    List.append_nil, List.forall_mem_append, forall_ifThen]
  simp [Act.emitsBanlist]

/-- **Nobody else emits `banlist`.** -/
theorem not_emits_script {e : Event}
    (he : ∀ username message cmd user, e = .chat username message → username ∈ modlist →
      U.commands message = [cmd, user] → cmd ∉ listCommands) :
    ∀ a ∈ script U c e, a.emitsBanlist = false := by
  cases e with
  | chat username message =>
    refine forall_handleChat (fun _ => rfl) ?_ ?_ ?_ (fun _ _ _ _ => rfl) rfl
    · intro cmd _
      simp only [loopActs, forall_flatten, List.forall_mem_cons, forall_ifThen]
      simp [Act.emitsBanlist]
    · intro cmd _
      have hfix : ∀ a ∈ fixControllers, a.emitsBanlist = false := by decide
      simp only [oneWord, forall_flatten, List.forall_mem_cons, forall_ifThen]
      simp [Act.emitsBanlist, -String.reduceToList]
      exact fun _ _ => hfix
    · intro cmd user hcmd
      exact not_emits_twoWords _ _ fun hlist hmod =>
        he username message cmd user rfl hmod hcmd hlist
  | tick =>
    intro a ha
    exact not_emits_of_kind (kind_decreaseQueue_ne U c (by decide) (by decide) a ha)
  | state n state =>
    intro a ha
    refine not_emits_of_kind ?_
    rw [kind_onControllerState U c n state a ha]
    decide
  | turns players => exact List.forall_mem_singleton.mpr rfl
  | endGotoVote i find =>
    change ∀ a ∈ endGotoVote c i find, a.emitsBanlist = false
    cases hi : c.poll.voteTimers[i]? with
    | none => simp [endGotoVote, hi]
    | some g =>
      rw [endGotoVote_eq c hi]
      split <;> simp [gotoStart, Act.emitsBanlist]
  | reenableGoto => exact List.forall_mem_singleton.mpr rfl
  | gotoStep i =>
    change ∀ a ∈ gotoStep c i, a.emitsBanlist = false
    rcases gotoStep_cases c i with h | ⟨b, acts, call, h, -, hacts⟩
    · rw [h]
      exact List.forall_mem_nil _
    · rw [h]
      refine List.forall_mem_cons.mpr ⟨rfl, fun a ha => ?_⟩
      rcases List.mem_append.mp (hacts ha) with hpad | hsearch
      · obtain ⟨b, -, rfl⟩ := List.mem_map.mp hpad
        rfl
      · exact not_emits_search _ _ _ _ a hsearch

end

/-! ### What the server is told -/

/-- **What becomes of a copy** when a list is changed: the change is lost where it is not told. -/
inductive Told (old new copy : List Str) : Bool → List Str → Prop
  | silent (h : new = old) : Told old new copy false copy
  | emitted : Told old new copy false new
  | lost (h : new ≠ old) : Told old new copy true copy

section

variable {old new copy copy' : List Str} {lost : Bool}

theorem Told.eq_or (h : Told old new copy lost copy') : copy' = copy ∨ copy' = new := by
  cases h with
  | silent _ => exact .inl rfl
  | emitted => exact .inr rfl
  | lost _ => exact .inl rfl

/-- A copy that is right stays so just when nothing is lost. -/
theorem Told.eq_iff (h : Told old new copy lost copy') (hcopy : copy = old) :
    copy' = new ↔ lost = false := by
  cases h with
  | silent h => exact iff_of_true (hcopy.trans h.symm) rfl
  | emitted => exact iff_of_true rfl rfl
  | lost h => exact iff_of_false (fun heq => h (heq.symm.trans hcopy)) (by decide)

end

theorem pluslist_hearAct (acts : List Act) (s : Lists) :
    (acts.foldl Lists.hearAct s).pluslist = s.pluslist := by
  refine foldl_frame Lists.pluslist (fun a _ s => ?_) s
  cases a with
  | io b =>
    cases b with
    | emit e => cases e <;> rfl
    | _ => rfl
  | _ => rfl

section

variable {raises : ℕ → Bool}

/-- A change of `pluslist` is not told, -/
theorem hear_write (msg : Str) (a b : PermAct) (cmds : List Queued) (s : Lists) :
    (upTo Act.mayRaise raises [.io (.chat msg), .permission a, .permission b,
      .submit cmds]).foldl Lists.hearAct s = s := by
  have hquiet : ∀ act ∈ [Act.io (.chat msg), .permission a, .permission b, .submit cmds],
      act.emitsBanlist = false := by simp [Act.emitsBanlist]
  exact hearAct_of_not_emits (fun act hact => hquiet act (upTo_isPrefix.subset hact)) s

/-- and one of `banlist` is, where the emit does not raise. -/
theorem hear_emit_write (msg : Str) (a b : PermAct) (users : List Str) (cmds : List Queued)
    (s : Lists) :
    (upTo Act.mayRaise raises [.io (.chat msg), .permission a, .io (.emit (.banlist users)),
      .permission b, .submit cmds]).foldl Lists.hearAct s =
        if raises 0 then s else if raises 1 then s else { s with banlist := users } := by
  cases h0 : raises 0 <;> cases h1 : raises 1 <;>
    simp [upTo, Act.mayRaise, h0, h1, Lists.hearAct]

variable {p : Permissions}

theorem told_write (msg : Str) {a : PermAct} (ha : (p.exec a).banlist = p.banlist)
    (cmds : List Queued) (s : Lists) {lost : Bool} (hlost : lost = false) :
    let acts := upTo Act.mayRaise raises [.io (.chat msg), .permission a,
      .permission .dumpPluslist, .submit cmds]
    Told p.banlist ((acts.filterMap Act.permission?).foldl Permissions.exec p).banlist s.banlist
      lost (acts.foldl Lists.hearAct s).banlist := by
  simp only [hear_write, permission_write, hlost]
  refine .silent ?_
  cases raises 0 with
  | true => rfl
  | false => exact ha

theorem told_emit_write (msg : Str) {a : PermAct} (ha : (p.exec a).banlist ≠ p.banlist)
    (cmds : List Queued) (s : Lists) {lost : Bool} (hlost : lost = (!raises 0 && raises 1)) :
    let acts := upTo Act.mayRaise raises [.io (.chat msg), .permission a,
      .io (.emit (.banlist (p.exec a).banlist)), .permission .dumpBanlist, .submit cmds]
    Told p.banlist ((acts.filterMap Act.permission?).foldl Permissions.exec p).banlist s.banlist
      lost (acts.foldl Lists.hearAct s).banlist := by
  simp only [hear_emit_write, permission_emit_write, hlost]
  cases raises 0 with
  | true => exact .silent rfl
  | false =>
    cases raises 1 with
    | true => exact .lost ha
    | false => exact .emitted

/-- **The commands that change the lists.** -/
theorem told_twoWords {username cmd : Str} (hmod : username ∈ modlist) (hcmd : cmd ∈ listCommands)
    (p : Permissions) (user : Str) (cmds : List Queued) (s : Lists) :
    let acts := upTo Act.mayRaise raises
      ((twoWords p username cmd user).andThen (.pure [.submit cmds])).acts
    Told p.banlist ((acts.filterMap Act.permission?).foldl Permissions.exec p).banlist s.banlist
      (!raises 0 && raises 1 && (cmd = "!ban" || (cmd = "!unban" && user ∈ p.banlist)))
      (acts.foldl Lists.hearAct s).banlist := by
  obtain ⟨hgive, hremove, hban, hunban⟩ := twoWords_listCommands hmod p user
  simp only [listCommands, List.mem_cons, List.not_mem_nil, or_false] at hcmd
  rcases hcmd with rfl | rfl | rfl | rfl
  · rw [hgive]
    exact told_write _ rfl _ s (Bool.and_false _)
  · rw [hremove]
    exact told_write _ rfl _ s (Bool.and_false _)
  · rw [hban]
    have hne : (p.exec (.ban user)).banlist ≠ p.banlist := by simp [Permissions.exec]
    exact told_emit_write _ hne _ s (Bool.and_true _)
  · rw [hunban, unban]
    by_cases huser : user ∈ p.banlist
    · have hne : (p.exec (.unban user)).banlist ≠ p.banlist :=
        mt List.erase_eq_self_iff.mp (not_not.mpr huser)
      rw [if_pos huser]
      exact told_emit_write _ hne _ s (by simp [huser])
    · -- `banlist.remove` raises, and nothing was changed
      have hlost : (!raises 0 && raises 1 && (("!unban" : Str) = "!ban" ||
          (("!unban" : Str) = "!unban" && user ∈ p.banlist))) = false := by simp [huser]
      rw [if_neg huser, hlost, raise_andThen]
      intro acts
      have hacts : ∀ a ∈ acts, a = .io (.chat ("Unbanning: " ++ user)) := fun a ha =>
        List.mem_singleton.mp (upTo_isPrefix.subset ha)
      rw [hearAct_of_not_emits (fun a ha => by rw [hacts a ha]; rfl),
        filterMap_permission?_eq_nil fun a ha => by rw [hacts a ha]; simp]
      exact .silent rfl

end

/-- **One event.** -/
theorem told_attempt (U : Unicode) (c : Client) (e : Attempt) (s : Lists) :
    let heard := ((attempt U c e).2.map LoopObs.client).foldl Lists.hear s
    heard.pluslist = s.pluslist ∧
      Told c.permissions.banlist (attempt U c e).1.permissions.banlist s.banlist (loses U c e)
        heard.banlist := by
  intro heard
  have hheard : heard = (e.script U c).foldl Lists.hearAct s := hear_perform s c _
  rw [hheard, permissions_attempt]
  refine ⟨pluslist_hearAct _ s, ?_⟩
  by_cases hlist : ∃ username message cmd user, e.event = .chat username message ∧
      username ∈ modlist ∧ U.commands message = [cmd, user] ∧ cmd ∈ listCommands
  · obtain ⟨username, message, cmd, user, hevent, hmod, hcmd, hmem⟩ := hlist
    have hloop : ∀ a ∈ [cmd, user].flatMap (loopActs username),
        a.mayRaise = false ∧ a.emitsBanlist = false := by
      intro a ha
      cases a with
      | io b => simpa using kind_flatMap_loopActs username _ _ ha
      | _ => exact ⟨rfl, rfl⟩
    simp only [Attempt.script, hevent, permission_upTo hcmd hmem,
      loses_listCommand hevent hmod hcmd]
    rw [handleChat_listCommand hcmd hmem, upTo_append fun a ha => (hloop a ha).1, List.foldl_append,
      hearAct_of_not_emits fun a ha => (hloop a ha).2]
    exact told_twoWords hmod hmem c.permissions user _ s
  · obtain ⟨hlost, hdump⟩ := dump_attempt (c := c) hlist
    have hquiet : ∀ a ∈ e.script U c, a.emitsBanlist = false := fun a ha =>
      not_emits_script (fun username message cmd user hchat hmod hcmd hmem =>
        hlist ⟨username, message, cmd, user, hchat, hmod, hcmd, hmem⟩) a
          ((e.script_isPrefix U c).subset ha)
    rw [hlost, hearAct_of_not_emits hquiet]
    exact .silent (foldl_dumpPluslist hdump _).2

/-! ### The loop -/

/-- **A part of the loop, and which calls raise** of the message it handles. -/
structure LoopAttempt where
  event : LoopEvent
  raises : ℕ → Bool

section

variable (U : Unicode) (x : MainLoop)

/-- **One part**, where calls may raise. -/
def MainLoop.attempt (a : LoopAttempt) : MainLoop × List LoopObs :=
  let after := runFrom (Twitch.attempt U) x.client ((x.events U a.event).map (⟨·, a.raises⟩))
  ({ x.restart a.event with client := after.1 }, x.besides U a.event ++ after.2.map .client)

/-- Where none raises, it is what it was before. -/
theorem attempt_eq_loopStep {a : LoopAttempt} (h : ∀ k, a.raises k = false) :
    x.attempt U a = x.step U a.event := by
  have hrun : ∀ (es : List Event) (c : Client),
      runFrom (Twitch.attempt U) c (es.map (⟨·, a.raises⟩)) = run U c es := by
    intro es
    induction es with
    | nil => exact fun _ => rfl
    | cons e es ih =>
      intro c
      rw [List.map_cons, runFrom_cons, attempt_eq_step U c h, ih, run, run, runFrom_cons]
  rw [MainLoop.attempt, hrun]
  rfl

/-- **A change of `banlist` that is not told**: a moderator bans a user, or unbans a user who is
banned, and the emit raises. -/
def LoopAttempt.loses (a : LoopAttempt) : Bool :=
  (x.events U a.event).any fun e => Twitch.loses U x.client ⟨e, a.raises⟩

/-- Whether the lists are announced. -/
def MainLoop.announces (x : MainLoop) : LoopEvent → Bool
  | .announce botend _ controllerEnd _ =>
      botend - x.botstart > advertGap || controllerEnd - x.controllerStart > announceGap
  | _ => false

theorem hear_besides (e : LoopEvent) (s : Lists) :
    (x.besides U e).foldl Lists.hear s = if x.announces e then x.client.lists else s := by
  cases e with
  | announce botend botstart controllerEnd controllerStart =>
    simp only [MainLoop.besides, MainLoop.announces, Bool.or_eq_true, decide_eq_true_eq]
    by_cases hadvert : botend - x.botstart > advertGap <;>
      by_cases hlists : controllerEnd - x.controllerStart > announceGap <;>
      simp [hadvert, hlists, Lists.hear, Client.lists]
  | receive chunk =>
    rw [MainLoop.besides]
    split <;> rfl
  | _ => rfl

/-- A part is one event at most, and none where the lists are announced. -/
theorem events_cases (e : LoopEvent) :
    x.events U e = [] ∨ ∃ e', x.events U e = [e'] ∧ x.announces e = false := by
  cases e with
  | announce => exact .inl rfl
  | receive chunk =>
    have hone := (List.length_filterMap_le IrcObs.event? _).trans (length_loop_le (U := U) chunk)
    rcases hevents : (U.loop chunk).filterMap IrcObs.event? with - | ⟨e, rest⟩
    · exact .inl hevents
    · rw [hevents, List.length_cons] at hone
      obtain rfl := List.length_eq_zero_iff.mp (by omega : rest.length = 0)
      exact .inr ⟨e, hevents, rfl⟩
  | decrease finish start =>
    rw [MainLoop.events]
    split
    · exact .inr ⟨_, rfl, rfl⟩
    · exact .inl rfl
  | other e he => exact .inr ⟨e, rfl, rfl⟩

/-- **A part of the loop**: an announcement brings both lists up to date, and whatever else happens
tells of `banlist` alone. -/
theorem told_loop (a : LoopAttempt) (s : Lists) :
    let heard := (x.attempt U a).2.foldl Lists.hear s
    (x.announces a.event = true → heard = (x.attempt U a).1.client.lists) ∧
      (x.announces a.event = false → heard.pluslist = s.pluslist) ∧
      Told x.client.permissions.banlist (x.attempt U a).1.client.permissions.banlist s.banlist
        (a.loses U x) heard.banlist := by
  intro heard
  have hheard : heard = ((x.attempt U a).2.foldl Lists.hear s) := rfl
  rcases events_cases U x a.event with hnone | ⟨e, hone, hsilent⟩
  · have hlost : a.loses U x = false := by rw [LoopAttempt.loses, hnone]; rfl
    have hclient : (x.attempt U a).1.client = x.client := by rw [MainLoop.attempt, hnone]; rfl
    have hsame : heard = if x.announces a.event then x.client.lists else s := by
      rw [hheard, MainLoop.attempt, hnone, List.foldl_append, hear_besides]
      rfl
    rw [hlost, hclient, hsame]
    cases x.announces a.event with
    | true => exact ⟨fun _ => rfl, fun h => absurd h.symm Bool.false_ne_true, .emitted⟩
    | false => exact ⟨fun h => absurd h Bool.false_ne_true, fun _ => rfl, .silent rfl⟩
  · have hlost : a.loses U x = Twitch.loses U x.client ⟨e, a.raises⟩ := by
      rw [LoopAttempt.loses, hone, List.any_cons, List.any_nil, Bool.or_false]
    have hclient : (x.attempt U a).1.client = (attempt U x.client ⟨e, a.raises⟩).1 := by
      rw [MainLoop.attempt, hone]
      rfl
    have hsame : heard =
        ((attempt U x.client ⟨e, a.raises⟩).2.map LoopObs.client).foldl Lists.hear s := by
      rw [hheard, MainLoop.attempt, hone, List.foldl_append, hear_besides, hsilent,
        if_neg Bool.false_ne_true, List.map_singleton, runFrom_cons, runFrom_nil, List.append_nil]
    obtain ⟨hplus, hban⟩ := told_attempt U x.client ⟨e, a.raises⟩ s
    rw [hlost, hclient, hsame]
    exact ⟨fun h => absurd (hsilent.symm.trans h) Bool.false_ne_true, fun _ => hplus, hban⟩

/-- Without an announcement the stopwatch goes on. -/
theorem controllerStart_attempt {a : LoopAttempt} (h : x.announces a.event = false) :
    (x.attempt U a).1.controllerStart = x.controllerStart := by
  obtain ⟨event, raises⟩ := a
  cases event with
  | announce botend botstart controllerEnd controllerStart =>
    simp only [MainLoop.announces, Bool.or_eq_false_iff, decide_eq_false_iff_not] at h
    exact if_neg h.2
  | _ => rfl

theorem serverLists_append (c : Client) (log log' : List LoopObs) :
    serverLists c (log ++ log') = log'.foldl Lists.hear (serverLists c log) :=
  List.foldl_append

/-- **Where a copy comes from**: a list that is announced, and that is told as it is or not at all
in between, is on the server as it was at some moment since the stopwatch was started. -/
theorem exists_moment (π : Lists → List Str)
    (hπ : ∀ (y : MainLoop) (a : LoopAttempt) (s : Lists), y.announces a.event = false →
      π ((y.attempt U a).2.foldl Lists.hear s) = π s ∨
        π ((y.attempt U a).2.foldl Lists.hear s) = π (y.attempt U a).1.client.lists)
    (as : List LoopAttempt) :
    let after := runFrom (MainLoop.attempt U) x
    ∃ pre, pre <+: as ∧
      π (serverLists x.client (after as).2) = π (after pre).1.client.lists ∧
      (after pre).1.controllerStart = (after as).1.controllerStart := by
  intro after
  induction as using List.reverseRecOn with
  | nil => exact ⟨[], List.prefix_rfl, rfl, rfl⟩
  | append_singleton as a ih =>
    obtain ⟨pre, hpre, hcopy, hstart⟩ := ih
    have hrun : after (as ++ [a]) = (((after as).1.attempt U a).1,
        (after as).2 ++ ((after as).1.attempt U a).2) := runFrom_concat _ x as a
    have hnow : π (serverLists x.client (after (as ++ [a])).2) =
        π (after (as ++ [a])).1.client.lists →
        ∃ pre, pre <+: as ++ [a] ∧ π (serverLists x.client (after (as ++ [a])).2) =
          π (after pre).1.client.lists ∧
          (after pre).1.controllerStart = (after (as ++ [a])).1.controllerStart :=
      fun h => ⟨as ++ [a], List.prefix_rfl, h, rfl⟩
    rw [hrun, serverLists_append] at hnow
    rw [hrun, serverLists_append]
    cases hannounces : (after as).1.announces a.event with
    | true => exact hnow (congrArg π ((told_loop U _ a _).1 hannounces))
    | false =>
      rcases hπ (after as).1 a (serverLists x.client (after as).2) hannounces with hkept | hnew
      · refine ⟨pre, hpre.trans (List.prefix_append _ _), hkept.trans hcopy, hstart.trans ?_⟩
        exact (controllerStart_attempt U _ hannounces).symm
      · exact hnow hnew

end

/-- **The lists on the server.** In every run of the loop, whichever calls raise in its messages,
the server has `banlist` as it is at every moment just when no moderator bans a user, or unbans a
banned one, with an emit that raises. In any case it has each of the lists as it was at some moment,
and whenever the loop looks at the clock that moment is at most six seconds ago. -/
theorem server_follows (U : Unicode) (x : MainLoop) (as : List LoopAttempt) (raises : ℕ → Bool)
    {botend botstart controllerEnd controllerStart : ℕ} (h : controllerEnd ≤ controllerStart) :
    let as' := as ++ [⟨.announce botend botstart controllerEnd controllerStart, raises⟩]
    let after := runFrom (MainLoop.attempt U) x
    ((∀ pre, pre <+: as' → (serverLists x.client (after pre).2).banlist =
        (after pre).1.client.permissions.banlist) ↔
      Guarded (MainLoop.attempt U) (fun x _ a => a.loses U x = false) x as') ∧
    (∃ pre, pre <+: as' ∧
      (serverLists x.client (after as').2).banlist = (after pre).1.client.permissions.banlist ∧
      controllerEnd ≤ (after pre).1.controllerStart + announceGap) ∧
    ∃ pre, pre <+: as' ∧
      (serverLists x.client (after as').2).pluslist = (after pre).1.client.permissions.pluslist ∧
      controllerEnd ≤ (after pre).1.controllerStart + announceGap := by
  intro as' after
  -- either the lists have just been announced, or it was not yet time to
  have hclock : controllerEnd ≤ (after as').1.controllerStart + announceGap := by
    have hrun : (after as').1 = ((after as).1.attempt U
        ⟨.announce botend botstart controllerEnd controllerStart, raises⟩).1 := by
      simp only [after, as', runFrom_concat]
    rw [hrun]
    change controllerEnd ≤ (if controllerEnd - (after as).1.controllerStart > announceGap then
      controllerStart else (after as).1.controllerStart) + announceGap
    split <;> omega
  refine ⟨?_, ?_, ?_⟩
  · refine forall_isPrefix_iff_guarded (P := fun (y : MainLoop) log =>
      (serverLists x.client log).banlist = y.client.permissions.banlist) rfl ?_
    intro y log a hcopy
    rw [serverLists_append]
    exact (told_loop U y a _).2.2.eq_iff hcopy
  · obtain ⟨pre, hpre, hcopy, hstart⟩ := exists_moment U x Lists.banlist
      (fun y a s _ => (told_loop U y a s).2.2.eq_or) as'
    exact ⟨pre, hpre, hcopy, hstart ▸ hclock⟩
  · obtain ⟨pre, hpre, hcopy, hstart⟩ := exists_moment U x Lists.pluslist
      (fun y a s hsilent => .inl ((told_loop U y a s).2.1 hsilent)) as'
    exact ⟨pre, hpre, hcopy, hstart ▸ hclock⟩

/-- What a moderator says. -/
def modLine (text : Str) (h : '\n' ∉ text) : PrivMsg Unicode.ascii :=
  { viewerMsg with
    nick := ⟨"alua2020", by decide, List.all_eq_true.mp (by decide)⟩, text := text, oneLine := h }

/-- **A ban that gets to the server, one that does not, and an announcement** that makes up for
it. -/
theorem server_follows_bans :
    let x : MainLoop := ⟨Client.init none none, 0, 0, 0⟩
    let first : LoopAttempt :=
      ⟨.receive (encode (Line.privmsg (modLine "!ban troll" (by decide))).text), fun _ => false⟩
    let second : LoopAttempt :=
      ⟨.receive (encode (Line.privmsg (modLine "!ban pest" (by decide))).text), fun k => k = 1⟩
    let clock : LoopAttempt := ⟨.announce 1 1 6000000001 6000000002, fun _ => false⟩
    let after := runFrom (MainLoop.attempt .ascii) x
    (∀ pre, pre <+: [first] ++ [clock] → (serverLists x.client (after pre).2).banlist =
        (after pre).1.client.permissions.banlist) ∧
      (serverLists x.client (after [first, second]).2).banlist = [("troll" : Str)] ∧
      (after [first, second]).1.client.permissions.banlist = [("troll" : Str), "pest"] ∧
      ∃ pre, pre <+: [first, second] ++ [clock] ∧
        (serverLists x.client (after ([first, second] ++ [clock])).2).banlist =
          (after pre).1.client.permissions.banlist ∧
        6000000001 ≤ (after pre).1.controllerStart + announceGap := by
  intro x first second clock after
  have hkept : GuardedFrom (MainLoop.attempt .ascii) (fun x a => a.loses .ascii x = false) x
      ([first] ++ [clock]) := by decide +kernel
  have hright := (@server_follows .ascii x [first] (fun _ => false) 1 1 6000000001 6000000002
    (by decide)).1.mpr (guarded_of_guardedFrom hkept)
  have hmoment := (@server_follows .ascii x [first, second] (fun _ => false) 1 1 6000000001
    6000000002 (by decide)).2.1
  exact ⟨hright, by decide +kernel, by decide +kernel, hmoment⟩

end Twitch

end SwitchController
