import LoadRamp.CommandLine
import LoadRamp.Config.Decode
import LoadRamp.FileError
import LoadRamp.Report.Print

/-!
# Programs

The two programs, as functions of what they find around them: one runs the
configuration of a file, the other runs the book access scenario.  A program
ends with an exit code, with what it printed, and perhaps with a summary for a
journal.
-/

namespace LoadRamp
namespace Program

/-- What a program finds around it. -/
structure Surroundings where
  /-- The values of the variables that are set. -/
  lookup : String → Option String
  /-- The content of a file. -/
  file : String → Except FileError (List UInt8)
  factory : Definition.Factory
  /-- The largest number of acts of a run. -/
  acts : Nat

/-- Why a program fails. -/
inductive Failure
  /-- It has something to say, and perhaps a cause for it. -/
  | complaint (reason : String) (cause? : Option String)
  /-- It breaks down. -/
  | breakdown (message : String)

/-- What is said of a failure. -/
def Failure.text : Failure → String
  | .complaint reason none => "Error: " ++ reason
  | .complaint reason (some cause) => "Error: " ++ reason ++ "\n\nCaused by:\n    " ++ cause
  | .breakdown message => message

/-- A failure that is a complaint exits with 1. -/
def Failure.code : Failure → Nat
  | .complaint _ _ => 1
  | .breakdown _ => 101

/-- How a program ends. -/
structure Outcome where
  code : Nat
  output : String := ""
  complaint : String := ""
  /-- The path of a journal and the summary for it, which still wants an identifier and a
  start time. -/
  journal? : Option (String × (String → Int → Summary)) := none

def refusal : Refusal → Failure
  | .invalid error => .complaint error.text none
  | .overflow kind => .breakdown kind.message

def failure : Definition.Failure → Failure
  | .transport cause => .complaint Definition.Failure.transportText (some cause)
  | .endless => .breakdown Definition.Failure.endlessText

/-- What is said of a document that cannot be read. -/
def readErrorText : Config.ReadError → String
  | .malformed => "TOML parse error"
  | .unfit problem => "TOML parse error\n    " ++ problem.message

/-- The configuration of a file. -/
def load (s : Surroundings) (path : String) : Except Failure Config :=
  let reading (error : FileError) : Failure :=
    .complaint ("Failed to read config file " ++ path) (some error.text)
  match s.file path with
  | .error error => .error (reading error)
  | .ok bytes =>
    match Text.Utf8.strict? bytes with
    | none => .error (reading .invalidData)
    | some text =>
      match Config.read text with
      | .ok config => .ok config
      | .error error =>
        .error (.complaint ("Failed to load config file " ++ path)
          (some (ConfigError.document (readErrorText error)).text))

/-- Run a draft at an instant and print its report.  Failed checks are a complaint. -/
def runDraft (s : Surroundings) (d : Draft) (startsAt : Nat) : Except Failure Outcome := do
  let definition ← (d.withTransport s.factory).build.mapError refusal
  let r ← (definition.run s.acts startsAt).mapError failure
  let report := r.scene.ledger.report
  let journal? := definition.options.summaryPath?.map fun path => (path, definition.summary r)
  let output := report.print ++ "\n"
  match report.failureText? with
  | none => .ok { code := 0, output, journal? }
  | some text =>
    .ok { code := 1, output, complaint := (Failure.complaint text none).text, journal? }

/-- The draft of the book access scenario. -/
def bookAccess (s : Surroundings) (variant : BookAccess.Variant) (options : Options) :
    Except ConfigError Draft := do
  let guestToken ← BookAccess.token s.lookup "GUEST_TOKEN"
  let adminToken? ←
    match variant with
    | .admin => (BookAccess.token s.lookup "ADMIN_TOKEN").map some
    | .guest => .ok none
  .ok
    { name := "book_access"
      options
      defaultBaseUrl? := some "http://192.168.49.2:31700"
      stages :=
        [⟨Duration.ofSeconds 30, 100⟩, ⟨Duration.ofSeconds 60, 100⟩, ⟨Duration.ofSeconds 30, 0⟩]
      groups := BookAccess.groups variant guestToken adminToken? }

/-- The outcome of a program that has its command line. -/
def finish : Except Failure Outcome → Outcome
  | .ok outcome => outcome
  | .error failure => { code := failure.code, complaint := failure.text }

/-- The outcome of a program that does not start. -/
def halt (switches : List CommandLine.Switch) : CommandLine.Stop → Outcome
  | .help => { code := 0, output := CommandLine.usage switches }
  | .version => { code := 0, output := Definition.version ++ "\n" }
  | stop => { code := 2, complaint := "error: " ++ stop.name }

/-- The program that runs the configuration of a file. -/
def configured (s : Surroundings) (arguments : List String) (startsAt : Nat := 0) : Outcome :=
  match CommandLine.readConfigured arguments with
  | .error stop => halt CommandLine.configuredSwitches stop
  | .ok (path, options) => finish do
    let config ← load s path
    let draft ← (Draft.ofConfig s.lookup options config).mapError refusal
    runDraft s draft startsAt

/-- The program that runs the book access scenario. -/
def bookAccessProgram (s : Surroundings) (arguments : List String) (startsAt : Nat := 0) :
    Outcome :=
  match CommandLine.readBookAccess arguments with
  | .error stop => halt CommandLine.bookAccessSwitches stop
  | .ok (variant, options) => finish do
    let draft ← (bookAccess s variant options).mapError fun e => refusal (.invalid e)
    runDraft s draft startsAt

end Program
end LoadRamp
