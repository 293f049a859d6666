import LoadRamp.Duration
import LoadRamp.Number.Binary64

/-!
# Run configurations

A run configuration as it is written in a file, before anything in it has been
checked against anything else: durations are still phrases or numbers, methods
are names and header values may hold references to variables.
-/

namespace LoadRamp
namespace Config

/-- A duration as it is written. -/
inductive Span
  | seconds (value : Number.Binary64)
  | phrase (text : String)
  deriving DecidableEq

structure StageEntry where
  duration : Span := .phrase ""
  target : Int := 0

/-- An expectation about a response; exactly one of the last three fields must be
present. -/
structure CheckEntry where
  description? : Option String := none
  status? : Option Nat := none
  bodyContains? : Option String := none
  headerPresent? : Option String := none

structure GroupEntry where
  name : String := ""
  method : String := ""
  path : String := ""
  /-- Headers by name in ascending order. -/
  headers : List (String × String) := []
  body? : Option String := none
  checks : List CheckEntry := []

structure ScenarioEntry where
  name : String := ""
  groups : List GroupEntry := []

end Config

/-- A run configuration as it is written. -/
structure Config where
  baseUrl? : Option String := none
  stages : List Config.StageEntry := []
  startTarget : Int := 0
  iterationDelaySeconds : Number.Binary64 := .finite false 1
  tickIntervalMillis? : Option Nat := none
  gracePeriodSeconds? : Option Number.Binary64 := none
  requestTimeoutSeconds? : Option Number.Binary64 := none
  scenario : Config.ScenarioEntry := {}

end LoadRamp
