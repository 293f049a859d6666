import LoadRamp.Duration.Phrase
import LoadRamp.Http.Url
import LoadRamp.Number.Shortest
import LoadRamp.Reference
import LoadRamp.Scenario
import LoadRamp.Schedule

/-!
# Configuration errors

Everything that can keep a run from starting, with one text for each.  A
`Refusal` is either such an error or a sum of durations that does not fit, which
is no fault that a configuration is told about.
-/

namespace LoadRamp

/-- Why a run cannot start. -/
inductive ConfigError
  /-- Nothing is known about a document but the text of what is wrong. -/
  | document (text : String)
  | phrase (text : String) (error : Duration.Phrase.Error)
  | seconds (field : String) (value : Number.Binary64)
  | negative (field : String) (value : Int)
  | noStages
  | zeroDuration
  | scenario (error : Scenario.Error)
  | method (name : String)
  | reference (error : Reference.Error)
  /-- A check without exactly one expectation. -/
  | expectation
  | zeroTickField
  | zeroTick
  | noBaseUrl
  /-- A text that is no absolute URL, with what is wrong. -/
  | baseUrl (url cause : String)
  | scheme (url other : String)
  | noTransport
  /-- An error in the stage with that number. -/
  | inStage (number : Nat) (error : ConfigError)
  /-- An error in the group of that name. -/
  | inGroup (name : String) (error : ConfigError)
  deriving DecidableEq

namespace ConfigError

open Number

def message : ConfigError → String
  | .document text => text
  | .phrase text error => "invalid duration '" ++ text ++ "': " ++ error.message
  | .seconds field value =>
    field ++ " must be a non-negative number of seconds, got " ++ Shortest.text .plain value
  | .negative field value =>
    field ++ " must not be negative, got " ++ Decimal.writeInt value
  | .noStages => Schedule.Error.noStages.message
  | .zeroDuration => Schedule.Error.zeroDuration.message
  | .scenario error => error.message
  | .method name => "unsupported HTTP method '" ++ name ++ "'"
  | .reference error => error.message
  | .expectation => "a check needs exactly one of status, bodyContains or headerPresent"
  | .zeroTickField => "tickIntervalMillis must be greater than zero"
  | .zeroTick => "the tick interval must be greater than zero"
  | .noBaseUrl => "no base URL, set one with --base-url or in the scenario definition"
  | .baseUrl url cause => "invalid base URL '" ++ url ++ "': " ++ cause
  | .scheme url other => "base URL '" ++ url ++ "' must use http or https, not " ++ other
  | .noTransport => "no transport, set one with use_transport"
  | .inStage number error => "stage " ++ Decimal.write number ++ ": " ++ error.message
  | .inGroup name error => "group '" ++ name ++ "': " ++ error.message

/-- The text of an error on its own, with its kind. -/
def text (e : ConfigError) : String := "Configuration error: " ++ e.message

end ConfigError

/-- Why nothing came of a configuration. -/
inductive Refusal
  | invalid (error : ConfigError)
  /-- A sum of durations does not fit. -/
  | overflow (kind : Duration.Overflow)
  deriving DecidableEq

/-- A refusal with more context around its error. -/
def Refusal.within (context : ConfigError → ConfigError) : Refusal → Refusal
  | .invalid error => .invalid (context error)
  | other => other

/-- The schedule of some stages, or why there is none. -/
def scheduleOf (stages : List Stage) (startTarget : Nat) : Except Refusal Schedule :=
  match Schedule.make stages startTarget with
  | .ok schedule => .ok schedule
  | .error .noStages => .error (.invalid .noStages)
  | .error .zeroDuration => .error (.invalid .zeroDuration)
  | .error .overflow => .error (.overflow .ofList)

/-- The scenario of some groups, or why there is none. -/
def scenarioOf (name : String) (groups : List Group) : Except Refusal Scenario :=
  match Scenario.make name groups with
  | .ok scenario => .ok scenario
  | .error error => .error (.invalid (.scenario error))

/-- The method of that name, or the error that there is none. -/
def methodOf (name : String) : Except ConfigError Http.Method :=
  match Http.Method.parse? name with
  | some method => .ok method
  | none => .error (.method name)

end LoadRamp
