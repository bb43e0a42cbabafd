/-!
# Cancellation

A token is polled by a run at the top of every turn. It is set by its owner, or by its deadline once
a poll finds that the time has come; a deadline that was seen to pass stays passed, even if the
clock goes back.
-/

namespace RootFinding

/-- A flag, and the time from which it counts as set. -/
structure CancellationToken where
  isSet : Bool
  deadline : Option Float

namespace CancellationToken

/-- A fresh token, with a deadline `timeout` after `now` if one is given. -/
def start (now : Float) (timeout : Option Float) : CancellationToken where
  isSet := false
  deadline := timeout.map fun seconds => now + seconds

/-- The token set by its owner. -/
def cancel (token : CancellationToken) : CancellationToken :=
  { token with isSet := true }

/-- The deadline has come. -/
def isExpired (token : CancellationToken) (now : Float) : Bool :=
  match token.deadline with
  | some deadline => deadline.le now
  | none => false

/-- The token as it is after a look at it. -/
def observed (token : CancellationToken) (now : Float) : CancellationToken :=
  { token with isSet := token.isSet || token.isExpired now }

/-- Setting a token lasts through every later look. -/
theorem isSet_observed_of_isSet
    {token : CancellationToken}
    (alreadySet : token.isSet = true)
    (now : Float) :
    (token.observed now).isSet = true := by
  simp [observed, alreadySet]

end CancellationToken

/-- How the polls of a run are answered, by the number of the turn. -/
abbrev PollAnswers : Type :=
  Nat → Bool

namespace PollAnswers

/-- No poll cancels. -/
def never : PollAnswers :=
  fun _ => false

/-- The first poll cancels. -/
def always : PollAnswers :=
  fun _ => true

/-- The first `count` polls pass and the next one cancels. -/
def after (count : Nat) : PollAnswers :=
  fun turn => count ≤ turn

end PollAnswers

/-- What a cancelled run reports. -/
def cancelledMessage : String :=
  "Solve was cancelled before it finished."

end RootFinding
