import LoadRamp.Ledger
import LoadRamp.Schedule

/-!
# What happens in a run

A run keeps a history of its happenings.  Some of them are said in the log, and
`Happening.line?` has the words; the others are there because what a run counts
is a count of happenings.
-/

namespace LoadRamp

/-- The course of a run. -/
inductive Lifecycle
  | idle | running | draining | complete
  deriving DecidableEq

namespace Lifecycle

def name : Lifecycle → String
  | .idle => "Idle"
  | .running => "Running"
  | .draining => "Draining"
  | .complete => "Complete"

/-- Whether one state may follow another. -/
def canBecome : Lifecycle → Lifecycle → Bool
  | .idle, .running => true
  | .running, .draining => true
  | .draining, .complete => true
  | _, _ => false

end Lifecycle

/-- How a user came to its end. -/
inductive Ending
  /-- It was told to stop and did so. -/
  | finished
  /-- It broke down, perhaps with a message. -/
  | crashed (message? : Option String)
  /-- It was aborted; `midway` says whether that cut an iteration short. -/
  | aborted (midway : Bool)
  deriving DecidableEq

/-- One thing that happens in a run.  Users are known by their names. -/
inductive Happening
  /-- A user takes its first step. -/
  | begins (user : String)
  /-- A user starts an iteration. -/
  | opens (user : String)
  | sends (user : String) (request : Http.Request)
  /-- A reply to the request of a group has come. -/
  | answered (user group : String) (isError : Bool)
  | requestFailed (user group : String) (error : Http.TransportError)
  | checkFailed (user : String) (key : CheckKey) (reason : String)
  /-- The outcomes of an iteration are handed in. -/
  | commits (user : String) (tally : Tally)
  /-- A user breaks down in the middle of an iteration. -/
  | breaks (user : String) (message? : Option String)
  /-- A user is told to stop. -/
  | tells (user : String)
  /-- A user stops, having committed that many iterations. -/
  | ends (user : String) (iterations : Nat)
  /-- An abort takes effect. -/
  | aborts (user : String) (midway : Bool)
  | becomes (before after : Lifecycle)
  | refused (before after : Lifecycle)
  /-- A tick of the run finds what the schedule wants. -/
  | ticks (target : Schedule.Target)
  | scalesUp (active target : Nat)
  | scalesDown (active target : Nat)
  /-- That many users are running and not told to stop. -/
  | gauges (active : Nat)
  | interrupted
  /-- The run waits for users to finish. -/
  | waits (users : Nat)
  /-- A user has come to an end before it was told to stop. -/
  | lost (user : String) (iterations : Nat) (ending : Ending)
  /-- The end of a user that was told to stop is noticed. -/
  | joins (user : String) (iterations : Nat) (grace : Duration) (ending : Ending)
  deriving DecidableEq

/-- What is said of a user that did not stop in time. -/
def overdueText (user : String) (grace : Duration) : String :=
  "Virtual user " ++ user ++ " did not stop within " ++ grace.text ++
    ", its partial iteration was discarded"

namespace Happening

/-- What is said of a user that came to its end, after its name. -/
def endingText (iterations : Nat) : Ending → String
  | .finished =>
    "exited after " ++ Number.Decimal.write iterations ++ " iterations without being stopped"
  | .crashed message? => "panicked: " ++ breakdownText message?
  | .aborted _ => "was cancelled"

/-- The log line of the end of a user that was told to stop. -/
def joinLine (user : String) (iterations : Nat) (grace : Duration) : Ending → LogLine
  | .finished =>
    ⟨.trace, "Virtual user " ++ user ++ " stopped after " ++ Number.Decimal.write iterations ++
      " iterations"⟩
  | .crashed message? =>
    ⟨.error, "Virtual user " ++ user ++ " panicked: " ++ breakdownText message?⟩
  | .aborted true => ⟨.warn, overdueText user grace⟩
  | .aborted false => ⟨.debug, "Virtual user " ++ user ++ " aborted between iterations"⟩

/-- What is said when a happening is logged. -/
def line? : Happening → Option LogLine
  | .begins user => some ⟨.debug, "Starting virtual user " ++ user⟩
  | .sends user request =>
    some ⟨.trace, user ++ " sending " ++ request.method.name ++ " " ++ request.url⟩
  | .requestFailed user group error =>
    some ⟨.debug, user ++ " request for group '" ++ group ++ "' failed: " ++ error.message⟩
  | .checkFailed user key reason =>
    some ⟨.trace, user ++ " check failed [" ++ key.text ++ "]: " ++ reason⟩
  | .ends user iterations =>
    some ⟨.debug, "Stopping virtual user " ++ user ++ " after " ++
      Number.Decimal.write iterations ++ " iterations"⟩
  | .becomes before after =>
    some ⟨.info, "Run state " ++ before.name ++ " -> " ++ after.name⟩
  | .refused before after =>
    some ⟨.error, "Invalid run state transition " ++ before.name ++ " -> " ++ after.name⟩
  | .scalesUp active target =>
    some ⟨.debug, "Scaling up from " ++ Number.Decimal.write active ++ " to " ++
      Number.Decimal.write target ++ " virtual users"⟩
  | .scalesDown active target =>
    some ⟨.debug, "Scaling down from " ++ Number.Decimal.write active ++ " to " ++
      Number.Decimal.write target ++ " virtual users"⟩
  | .interrupted => some ⟨.info, "Shutdown requested, stopping the run early"⟩
  | .waits users =>
    some ⟨.info, "Waiting for " ++ Number.Decimal.write users ++
      " virtual users to finish their current iteration"⟩
  | .lost user iterations ending =>
    some ⟨.error, "Virtual user " ++ user ++ " " ++ endingText iterations ending ++
      ", it will be replaced"⟩
  | .joins user iterations grace ending => some (joinLine user iterations grace ending)
  | .opens _ | .answered _ _ _ | .commits _ _ | .breaks _ _ | .tells _ | .aborts _ _
  | .ticks _ | .gauges _ => none

/-- Whether a happening is the doing of a user and not of the run. -/
def isOfUser : Happening → Bool
  | .begins _ | .opens _ | .sends _ _ | .answered _ _ _ | .requestFailed _ _ _
  | .checkFailed _ _ _ | .commits _ _ | .breaks _ _ | .ends _ _ | .aborts _ _ => true
  | _ => false

end Happening
end LoadRamp
