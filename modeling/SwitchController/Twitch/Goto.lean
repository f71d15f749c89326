import SwitchController.Twitch.Chat

/-!
# Going to another game

When a vote is won, `goto_game` steers the console to its menu, looks for the icon of the game
on the screen, scrolls and looks again up to three times, and then starts the game. What
`findImage` sees is not up to the program: it is a function from attempts to positions here.

The function runs in the thread of the timer that ended the vote, and takes minutes, most of
them asleep between two sends. The rest of the program goes on meanwhile, so a call is cut
into pieces, each up to the next send (`SwitchController.Twitch.pieces`).
-/

namespace SwitchController

namespace Twitch

/-! ### `goto_game` -/

/-- Three rows down and one up. -/
def scroll : List PadAct :=
  push .ly stickMax ++ push .ly stickMax ++ push .ly stickMax ++ push .ly stickMin

/-- **The icon was found** at a position of the screen: the cursor is moved there, `a` is pressed
thirteen times, and the controls are enabled again. -/
def startGame (g : Game) (x y : ℕ) : List Act :=
  ((List.replicate ((x + 10) / 185) (push .lx stickMax)).flatten ++
      (List.replicate ((y + 10) / 185 - 1) (push .ly stickMax)).flatten ++
      (List.replicate 13 (tap .one .a .gotoGame)).flatten).map .pad ++
    [.io (.chat ("!game " ++ g.nameofgame)), .switch (.controllerEnabled true),
      .switch (.chatEnabled true)]

/-- **The icon was not found**: back to the game. -/
def giveUp : List Act :=
  (push .ly stickMin ++ tap .one .a .gotoGame).map .pad ++ [.switch (.controllerEnabled true)]

/-- **The search**, with this many attempts left after the next. -/
def search (g : Game) (find : ℕ → Option (ℕ × ℕ)) : ℕ → ℕ → List Act
  | 0, attempt => match find attempt with
      | none => giveUp
      | some (x, y) => startGame g x y
  | left + 1, attempt => match find attempt with
      | none => scroll.map .pad ++ search g find left (attempt + 1)
      | some (x, y) => startGame g x y

/-- **`goto_game`**. -/
def gotoGame (g : Game) (find : ℕ → Option (ℕ × ℕ)) : List Act :=
  [.switch (.currentGame g.nameofgame), .switch (.controllerEnabled false),
      .switch (.chatEnabled false), .poll .clearVoted] ++
    (.reset .one :: (tap .one .home .gotoGame ++ push .lx stickMax ++
      tap .one .a .gotoGame)).map .pad ++
    search g find 3 0

/-! ### Its pieces -/

/-- A statement that sends. -/
def Act.sends : Act → Bool
  | .pad (.send _) => true
  | _ => false

/-- **The pieces of a script**, each up to the next send. -/
def pieces : List Act → List (List Act)
  | [] => []
  | a :: acts =>
      if a.sends then [a] :: pieces acts
      else match pieces acts with
        | [] => [[a]]
        | piece :: rest => (a :: piece) :: rest

/-- The pieces of a call, from its first send on. -/
def GotoCall.pieces (call : GotoCall) : List (List Act) :=
  (Twitch.pieces (gotoGame call.game call.find)).tail

/-- **A call goes on** to its next send, or returns. -/
def gotoStep (c : Client) (i : ℕ) : List Act :=
  match c.calls[i]? with
  | none => []
  | some call =>
      .call (if call.sends + 1 < call.pieces.length then .resume i else .leave i) ::
        call.pieces.getD call.sends []

/-! ### The end of a vote -/

/-- The answer of `end_goto_vote`. -/
def resultText (p : Poll) : Str :=
  "With " ++ natStr p.yeaVotes ++ " VoteYea and " ++ natStr p.nayVotes ++ " VoteNay" ++
    if p.yeaVotes > p.nayVotes then (" We will be LEAVING" : Str) else " We will be STAYING"

/-- **`end_goto_vote`**, called by one of the pending timers: the vote is over, and if it is won,
`goto_game` is called. -/
def endGotoVote (c : Client) (i : ℕ) (find : ℕ → Option (ℕ × ℕ)) : List Act :=
  match c.poll.voteTimers[i]? with
  | none => []
  | some g =>
      [.poll (.endGotoVote i), .io (.chat (resultText c.poll))] ++
        if c.poll.yeaVotes > c.poll.nayVotes then
          .call (.enter g find) :: (pieces (gotoGame g find)).headD []
        else []

/-! ### What `goto_game` does -/

/-- The pieces make up the script. -/
theorem flatten_pieces (acts : List Act) : (pieces acts).flatten = acts := by
  induction acts with
  | nil => rfl
  | cons a acts ih =>
    rw [pieces]
    split
    · rw [List.flatten_cons, ih]
      rfl
    · -- the statement joins the first piece, or is a piece by itself at the end
      generalize pieces acts = ps at ih
      rcases ps with - | ⟨piece, rest⟩
      · rw [← ih]
        rfl
      · rw [← ih, List.flatten_cons, List.flatten_cons]
        rfl

/-- A list of statements on controllers and switches, and of answers in the chat. -/
def Steering (acts : List Act) : Prop := ∀ a ∈ acts, a.kind = .pad ∨ a.kind = .switch ∨ a.kind = .io

theorem steering_pads (as : List PadAct) : Steering (as.map .pad) :=
  List.forall_mem_map.mpr fun _ _ => Or.inl rfl

theorem Steering.append {acts acts' : List Act} (h : Steering acts) (h' : Steering acts') :
    Steering (acts ++ acts') :=
  List.forall_mem_append.mpr ⟨h, h'⟩

theorem steering_startGame (g : Game) (x y : ℕ) : Steering (startGame g x y) :=
  (steering_pads _).append (by simp [Steering])

theorem steering_search (g : Game) (find : ℕ → Option (ℕ × ℕ)) (left attempt : ℕ) :
    Steering (search g find left attempt) := by
  induction left generalizing attempt with
  | zero =>
    rw [search]
    split
    · exact (steering_pads _).append (by simp [Steering])
    · exact steering_startGame g _ _
  | succ left ih =>
    rw [search]
    split
    · exact (steering_pads _).append (ih (attempt + 1))
    · exact steering_startGame g _ _

/-- `goto_game` up to its first send. -/
def gotoStart (g : Game) : List Act :=
  [.switch (.currentGame g.nameofgame), .switch (.controllerEnabled false),
    .switch (.chatEnabled false), .poll .clearVoted, .pad (.reset .one),
    .pad (.press .one .home .gotoGame), .pad (.send .one)]

/-- `goto_game` from its first send on. -/
def gotoRest (g : Game) (find : ℕ → Option (ℕ × ℕ)) : List Act :=
  (PadAct.reset .one :: .send .one :: (push .lx stickMax ++ tap .one .a .gotoGame)).map .pad ++
    search g find 3 0

theorem pieces_gotoGame (g : Game) (find : ℕ → Option (ℕ × ℕ)) :
    pieces (gotoGame g find) = gotoStart g :: pieces (gotoRest g find) := rfl

theorem steering_gotoRest (g : Game) (find : ℕ → Option (ℕ × ℕ)) : Steering (gotoRest g find) :=
  (steering_pads _).append (steering_search g find 3 0)

/-- What a call does after its first send. -/
theorem mem_gotoRest {call : GotoCall} {i : ℕ} {a : Act} (ha : a ∈ call.pieces.getD i []) :
    a ∈ gotoRest call.game call.find := by
  -- the pieces after the first make up what comes after the first send
  have hrest : call.pieces.flatten = gotoRest call.game call.find :=
    flatten_pieces (gotoRest call.game call.find)
  rw [← hrest]
  rw [List.getD_eq_getElem?_getD] at ha
  cases hp : call.pieces[i]? with
  | none => exact absurd ha (by simp [hp])
  | some piece =>
    rw [hp] at ha
    exact List.mem_flatten.mpr ⟨piece, List.mem_of_getElem? hp, ha⟩

/-- **A call that goes on** goes on with what is left of it. -/
theorem gotoStep_cases (c : Client) (i : ℕ) :
    gotoStep c i = [] ∨ ∃ (a : CallAct) (acts : List Act) (call : GotoCall),
      gotoStep c i = .call a :: acts ∧ (a = .resume i ∨ a = .leave i) ∧
        acts ⊆ gotoRest call.game call.find := by
  rw [gotoStep]
  split
  · exact Or.inl rfl
  · exact Or.inr ⟨_, _, _, rfl, ite_eq_or_eq .., fun a => mem_gotoRest⟩

/-- The end of a vote, and the start of `goto_game` if the vote is won. -/
theorem endGotoVote_eq (c : Client) {i : ℕ} {g : Game} (hi : c.poll.voteTimers[i]? = some g)
    (find : ℕ → Option (ℕ × ℕ)) :
    endGotoVote c i find =
      [.poll (.endGotoVote i), .io (.chat (resultText c.poll))] ++
        if c.poll.yeaVotes > c.poll.nayVotes then .call (.enter g find) :: gotoStart g else [] := by
  simp only [endGotoVote, hi, pieces_gotoGame]
  rfl

theorem kind_gotoStep (c : Client) (i : ℕ) :
    ∀ a ∈ gotoStep c i,
      a.kind ≠ .queue ∧ a.kind ≠ .permission ∧ a.kind ≠ .submit ∧ a.kind ≠ .poll := by
  rcases gotoStep_cases c i with h | ⟨b, acts, call, h, -, hacts⟩
  · rw [h]
    exact List.forall_mem_nil _
  · rw [h]
    refine List.forall_mem_cons.mpr ⟨by simp, fun a ha => ?_⟩
    rcases steering_gotoRest _ _ a (hacts ha) with hk | hk | hk <;> rw [hk] <;> decide

theorem kind_endGotoVote (c : Client) (i : ℕ) (find : ℕ → Option (ℕ × ℕ)) :
    ∀ a ∈ endGotoVote c i find, a.kind ≠ .queue ∧ a.kind ≠ .permission ∧ a.kind ≠ .submit := by
  cases hi : c.poll.voteTimers[i]? with
  | none => simp [endGotoVote, hi]
  | some g =>
    rw [endGotoVote_eq c hi]
    split <;> simp [gotoStart]

end Twitch

end SwitchController
