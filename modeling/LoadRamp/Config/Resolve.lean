import LoadRamp.Config
import LoadRamp.Config.Error
import LoadRamp.Settings

/-!
# Resolving run configurations

Resolving checks a configuration and turns it into a schedule, a scenario and
settings.  References to variables are expanded in header values and in the base
URL, and nowhere else.

The parts are resolved in a fixed order: stages, start target, schedule, groups,
scenario, the four times, base URL.  The first error is the one that counts.
-/

namespace LoadRamp
namespace Config

open Number

/-- What a configuration comes to. -/
structure Resolved where
  baseUrl? : Option String
  schedule : Schedule
  scenario : Scenario
  settings : Settings
  requestTimeout? : Option Duration

/-- The duration nearest to a number of seconds, a half to the even nanosecond,
unless the number is negative or too large. -/
def durationOf? (value : Binary64) : Option Duration :=
  match value with
  | .finite negative magnitude =>
    if negative && 0 < magnitude then none
    else Duration.ofNanos? (nearestEven (magnitude * 1000000000)).toNat
  | _ => none

def secondsOf (field : String) (value : Binary64) : Except ConfigError Duration :=
  match durationOf? value with
  | some d => .ok d
  | none => .error (.seconds field value)

/-- A number that must not be negative. -/
def natural (field : String) (value : Int) : Except ConfigError Nat :=
  if 0 ≤ value then .ok value.toNat else .error (.negative field value)

/-- The duration that a span names. -/
def Span.resolve : Span → Except Refusal Duration
  | .seconds value => (secondsOf "duration" value).mapError .invalid
  | .phrase text =>
    match Duration.Phrase.read text with
    | .ok d => .ok d
    | .error (.overflow kind) => .error (.overflow kind)
    | .error e => .error (.invalid (.phrase text e))

def StageEntry.resolve (s : StageEntry) : Except Refusal Stage := do
  let duration ← s.duration.resolve
  let target ← (natural "target" s.target).mapError .invalid
  .ok ⟨duration, target⟩

/-- The stages in order; an error names the number of its stage. -/
def resolveStages (entries : List StageEntry) : Except Refusal (List Stage) :=
  entries.zipIdx.mapM fun (entry, number) =>
    entry.resolve.mapError (Refusal.within (.inStage number))

/-- Whether a text occurs in another. -/
def occursIn (needle : List Char) : List Char → Bool
  | [] => needle.isEmpty
  | c :: rest => needle.isPrefixOf (c :: rest) || occursIn needle rest

/-- The check that a body contains a text. -/
def containsCheck (needle : String) : Check :=
  .deciding ("body contains '" ++ needle ++ "'") fun response =>
    occursIn needle.toList response.text.toList

/-- The check that a header is present. -/
def headerCheck (header : String) : Check :=
  .deciding ("has header '" ++ header ++ "'") fun response => (response.header? header).isSome

def CheckEntry.resolve (c : CheckEntry) : Except ConfigError Check := do
  let check ←
    match c.status?, c.bodyContains?, c.headerPresent? with
    | some status, none, none => Except.ok (Check.status status)
    | none, some needle, none => .ok (containsCheck needle)
    | none, none, some header => .ok (headerCheck header)
    | _, _, _ => .error .expectation
  match c.description? with
  | some description => .ok (check.withDescription description)
  | none => .ok check

/-- A text with its references expanded. -/
def expand (lookup : String → Option String) (template : String) : Except ConfigError String :=
  (Reference.expand template lookup).mapError .reference

/-- The group of an entry, without the context of its errors. -/
def GroupEntry.build (lookup : String → Option String) (g : GroupEntry) :
    Except ConfigError Group := do
  let method ← methodOf g.method
  let headers ← g.headers.mapM fun (name, value) => do
    let value ← expand lookup value
    .ok (name, value)
  let checks ← g.checks.mapM CheckEntry.resolve
  .ok ⟨g.name, method, g.path, headers, g.body?.map Text.Utf8.encode, checks⟩

def GroupEntry.resolve (lookup : String → Option String) (g : GroupEntry) :
    Except Refusal Group :=
  (g.build lookup).mapError fun error => .invalid (.inGroup g.name error)

/-- The tick interval, which is one second unless the configuration says more. -/
def tickInterval : Option Nat → Except ConfigError Duration
  | none => .ok Settings.default.tickInterval
  | some millis => if millis = 0 then .error .zeroTickField else .ok (Duration.ofMillis millis)

def optional {α β : Type} (f : α → Except ConfigError β) :
    Option α → Except ConfigError (Option β)
  | none => .ok none
  | some a => (f a).map some

/-- What a configuration comes to when `lookup` gives the values of variables. -/
def resolve (lookup : String → Option String) (c : Config) : Except Refusal Resolved := do
  let stages ← resolveStages c.stages
  let startTarget ← (natural "startTarget" c.startTarget).mapError .invalid
  let schedule ← scheduleOf stages startTarget
  let groups ← c.scenario.groups.mapM (GroupEntry.resolve lookup)
  let scenario ← scenarioOf c.scenario.name groups
  let delay ← (secondsOf "iterationDelaySeconds" c.iterationDelaySeconds).mapError .invalid
  let tick ← (tickInterval c.tickIntervalMillis?).mapError .invalid
  let grace? ← (optional (secondsOf "gracePeriodSeconds") c.gracePeriodSeconds?).mapError .invalid
  let timeout? ←
    (optional (secondsOf "requestTimeoutSeconds") c.requestTimeoutSeconds?).mapError .invalid
  let baseUrl? ← (optional (expand lookup) c.baseUrl?).mapError .invalid
  .ok ⟨baseUrl?, schedule, scenario,
    ⟨delay, tick, grace?.getD Settings.default.gracePeriod⟩, timeout?⟩

/-- The names of the variables whose values can matter to a configuration. -/
def mentioned (c : Config) : List String :=
  let templates := c.scenario.groups.flatMap fun g => g.headers.map (·.2)
  (c.baseUrl?.toList ++ templates).flatMap Reference.names

end Config
end LoadRamp
