import SwitchController.Lib.Trace
import SwitchController.Twitch.Text

/-!
# Votes on the next game

`!goto` starts a vote, in which each user has one ballot, and twenty seconds later a timer
ends it. If the vote is won the program goes to the game; in any case `!goto` is disabled for
a while, until a second timer enables it again.

One flag, `voting`, tells whether a vote is going on. The moderators' `!disablegoto` and
`!enablegoto` set and clear the same flag: while it is set no vote can be started, and ballots
are counted. Nothing ever cancels a timer.
-/

namespace SwitchController

namespace Twitch

open EventMachine

/-- What a vote is about: the arguments of `goto_game_vote`. -/
structure Game where
  imagefile : Str
  delay : ℕ
  nameofgame : Str
  deriving DecidableEq

/-- **The votes**: the fields of `Client` they use, the list `voted`, and the timers that are
pending. -/
structure Poll where
  yeaVotes : ℕ
  nayVotes : ℕ
  voting : Bool
  gotoUsed : Bool
  voted : List Str
  /-- The pending calls of `end_goto_vote`. -/
  voteTimers : List Game
  /-- How many calls of `reenable_goto` are pending. -/
  gotoTimers : ℕ
  deriving DecidableEq

/-- The votes at the start of the program. -/
def Poll.init : Poll := ⟨0, 0, false, false, [], [], 0⟩

/-- What is done to the votes. -/
inductive PollAct where
  /-- A vote command in the chat. -/
  | ballot (username : Str) (yea : Bool)
  /-- `!disablegoto`. -/
  | disableGoto
  /-- `!enablegoto`. -/
  | enableGoto
  /-- `goto_game_vote`. -/
  | gotoGameVote (g : Game)
  /-- `end_goto_vote`, by one of the pending timers. -/
  | endGotoVote (i : ℕ)
  /-- `reenable_goto`, by a pending timer. -/
  | reenableGoto
  /-- `del voted[:]`, of `goto_game`. -/
  | clearVoted
  deriving DecidableEq

/-- What is observed of the votes. -/
inductive PollObs where
  /-- A ballot was counted. -/
  | counted (username : Str) (yea : Bool)
  | disabled
  | enabled
  | voteStarted (g : Game)
  /-- A vote was ended, with the numbers it was decided on. -/
  | voteEnded (g : Game) (yeaVotes nayVotes : ℕ)
  deriving DecidableEq

/-- **One statement**, or the call of one of the three functions. -/
def Poll.exec (p : Poll) : PollAct → Poll × List PollObs
  | .ballot username yea =>
      if p.voting && username ∉ p.voted then
        (if yea then { p with voted := p.voted ++ [username], yeaVotes := p.yeaVotes + 1 }
          else { p with voted := p.voted ++ [username], nayVotes := p.nayVotes + 1 },
          [.counted username yea])
      else (p, [])
  | .disableGoto => ({ p with voting := true }, [.disabled])
  | .enableGoto => ({ p with voting := false }, [.enabled])
  | .gotoGameVote g =>
      if p.voting then (p, [])
      else if p.gotoUsed then (p, [])
      else
        ({ p with yeaVotes := 0, nayVotes := 0, voting := true, voteTimers := p.voteTimers ++ [g] },
          [.voteStarted g])
  | .endGotoVote i => match p.voteTimers[i]? with
      | none => (p, [])
      | some g =>
          ({ p with gotoUsed := true, gotoTimers := p.gotoTimers + 1, voting := false, voted := [],
                    voteTimers := p.voteTimers.eraseIdx i },
            [.voteEnded g p.yeaVotes p.nayVotes])
  | .reenableGoto =>
      if p.gotoTimers = 0 then (p, [])
      else ({ p with gotoUsed := false, gotoTimers := p.gotoTimers - 1 }, [])
  | .clearVoted => ({ p with voted := [] }, [])

end Twitch

end SwitchController
