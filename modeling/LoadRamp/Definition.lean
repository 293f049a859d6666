import LoadRamp.Config.Resolve
import LoadRamp.Run.Play
import LoadRamp.Summary

/-!
# Run definitions

A draft gathers what a run needs from code, from a configuration and from the
command line.  `Draft.build` checks it and makes it a definition, and a
definition can be run.

The parts are checked in a fixed order: base URL, tick interval, schedule,
scenario, transport.  The first fault is the one that is reported.
-/

namespace LoadRamp

/-- What the command line says about any run. -/
structure Options where
  /-- The root of the service; it goes before every other base URL. -/
  baseUrl? : Option String := none
  noProgress : Bool := false
  /-- The journal that takes the summary of the run. -/
  summaryPath? : Option String := none
  deriving DecidableEq

namespace Definition

/-- What the code that makes a transport is told about the run. -/
structure Context where
  baseUrl : String
  requestTimeout : Duration
  /-- What has been counted so far. -/
  ledger : Ledger := {}

/-- A transport, and whether the run is to be stopped before it starts. -/
structure Connection where
  transport : Transport
  stopped : Bool := false

/-- Makes a transport, or says why there is none. -/
abbrev Factory := Context → Except String Connection

end Definition

/-- The parts of a run, not yet checked. -/
structure Draft where
  name : String
  options : Options
  /-- The base URL that counts when the options name none. -/
  defaultBaseUrl? : Option String := none
  stages : List Stage := []
  startTarget : Nat := 0
  groups : List Group := []
  settings : Settings := Settings.default
  requestTimeout : Duration := Duration.ofSeconds 30
  factory? : Option Definition.Factory := none

/-- A run that can start. -/
structure Definition where
  name : String
  baseUrl : String
  schedule : Schedule
  scenario : Scenario
  settings : Settings
  requestTimeout : Duration
  options : Options
  factory : Definition.Factory
  tick_pos : 0 < settings.tickInterval.nanos

namespace Draft

/-- The draft of a configuration.  A base URL of the configuration is not even
looked at when the options name one. -/
def ofConfig (lookup : String → Option String) (options : Options) (config : Config) :
    Except Refusal Draft := do
  let config := if options.baseUrl?.isSome then { config with baseUrl? := none } else config
  let resolved ← config.resolve lookup
  .ok
    { name := resolved.scenario.name
      options
      defaultBaseUrl? := resolved.baseUrl?
      stages := resolved.schedule.stages
      startTarget := resolved.schedule.startTarget
      groups := resolved.scenario.groups
      settings := resolved.settings
      requestTimeout := resolved.requestTimeout?.getD (Duration.ofSeconds 30) }

def withTransport (d : Draft) (factory : Definition.Factory) : Draft :=
  { d with factory? := some factory }

/-- Whether requests can be sent below a base URL. -/
def checkBaseUrl (parse : Http.Url.Parser) (baseUrl : String) : Except ConfigError Unit :=
  match parse baseUrl with
  | .error cause => .error (.baseUrl baseUrl cause)
  | .ok scheme =>
    if scheme = "http" ∨ scheme = "https" then .ok () else .error (.scheme baseUrl scheme)

/-- The base URL of a draft: that of the options before its own. -/
def baseUrl? (d : Draft) : Option String := d.options.baseUrl? <|> d.defaultBaseUrl?

/-- The base URL of a draft if it can be used. -/
def checkedBaseUrl (parse : Http.Url.Parser) (d : Draft) : Except ConfigError String := do
  match d.baseUrl? with
  | none => .error .noBaseUrl
  | some baseUrl =>
    checkBaseUrl parse baseUrl
    .ok baseUrl

/-- The definition of a draft, or its first fault. -/
def build (d : Draft) (parse : Http.Url.Parser := Http.Url.parse) : Except Refusal Definition := do
  let baseUrl ← (d.checkedBaseUrl parse).mapError .invalid
  if h : 0 < d.settings.tickInterval.nanos then
    let schedule ← scheduleOf d.stages d.startTarget
    let scenario ← scenarioOf d.name d.groups
    match d.factory? with
    | none => .error (.invalid .noTransport)
    | some factory =>
      .ok
        { name := d.name, baseUrl, schedule, scenario, settings := d.settings
          requestTimeout := d.requestTimeout, options := d.options, factory, tick_pos := h }
  else .error (.invalid .zeroTick)

end Draft

namespace Definition

/-- Why a definition could not be run. -/
inductive Failure
  /-- There is no transport; the cause. -/
  | transport (cause : String)
  /-- The end of a grace period is no instant. -/
  | endless

def Failure.transportText : String := "Failed to create transport"

def Failure.endlessText : String := "overflow when adding duration to instant"

def context (d : Definition) : Context := ⟨d.baseUrl, d.requestTimeout, {}⟩

def plan (d : Definition) (transport : Transport) (startsAt : Nat) : Plan :=
  { schedule := d.schedule, scenario := d.scenario, baseUrl := d.baseUrl, transport
    settings := d.settings, startsAt, tick_pos := d.tick_pos }

/-- Run a definition, at most the given number of acts. -/
def run (acts : Nat) (d : Definition) (startsAt : Nat := 0) : Except Failure Run :=
  match d.factory d.context with
  | .error cause => .error (.transport cause)
  | .ok connection =>
    let stop : StopPlan := { atStart := connection.stopped }
    let r := Run.play (d.plan connection.transport startsAt) stop acts Run.start
    if r.broken then .error .endless else .ok r

/-- The version of the program. -/
def version : String := "0.1.0"

/-- A stage as a summary shows it; a summary has 64 bits for the milliseconds. -/
def stageSummary (stage : Stage) : StageSummary :=
  ⟨stage.duration.millis % 18446744073709551616, stage.target⟩

/-- The summary of a run that is over. -/
def summary (d : Definition) (r : Run) (runId : String) (startedAt : Int) : Summary :=
  let report := r.scene.ledger.report
  Summary.make runId d.name startedAt (d.schedule.stages.map stageSummary)
      d.schedule.startTarget version
    |>.withVariable "BASE_URL" d.baseUrl
    |>.withPeak r.peak
    |>.withTotals report.checksPassed report.checksFailed (report.completed + report.failed)

end Definition
end LoadRamp
