import LoadRamp.Digest.Sha3
import LoadRamp.Ordered
import LoadRamp.Text.Utf8

/-!
# Run summaries

A summary describes a run that is over: its configuration and its totals.  The
fingerprint is a digest of the configuration alone.

* `Summary.make` derives the planned duration from the stages.
* `Summary.Sound` says that every field is in its range.
* `Summary.fingerprintInput` is what the digest is taken of, once the variables
  are in order.
-/

namespace LoadRamp

/-- A stage as a summary shows it. -/
structure StageSummary where
  /-- The length of the stage in milliseconds. -/
  durationMs : Nat
  target : Nat
  deriving DecidableEq

/-- The description of a run. -/
structure Summary where
  runId : String
  scenarioName : String
  /-- Seconds since the beginning of 1970. -/
  startedAt : Int
  /-- The planned duration in seconds. -/
  runDuration : Nat
  stages : List StageSummary
  startTarget : Nat
  peakUsers : Nat
  checksPassed : Nat
  checksFailed : Nat
  iterations : Nat
  /-- Variables that belong to the configuration, by name in ascending order. -/
  env : List (String × String)
  version : String
  deriving DecidableEq

namespace Summary

/-- The first number that is no word of 64 bits. -/
def wordLimit : Nat := 18446744073709551616

/-- Every field is in its range: numbers are words of 64 bits, and variables have
different names in ascending order. -/
structure Sound (s : Summary) : Prop where
  startedAt : -9223372036854775808 ≤ s.startedAt ∧ s.startedAt < 9223372036854775808
  runDuration : s.runDuration < wordLimit
  stages : ∀ stage ∈ s.stages, stage.durationMs < wordLimit ∧ stage.target < wordLimit
  startTarget : s.startTarget < wordLimit
  peakUsers : s.peakUsers < wordLimit
  checksPassed : s.checksPassed < wordLimit
  checksFailed : s.checksFailed < wordLimit
  iterations : s.iterations < wordLimit
  env : s.env.Pairwise fun a b => Ordered.textBefore a.1 b.1 = true

/-- The planned duration of some stages in whole seconds. -/
def plannedSeconds (stages : List StageSummary) : Nat :=
  stages.foldl (fun sum stage => sum + stage.durationMs) 0 / 1000

/-- A summary without totals and variables. -/
def make (runId scenarioName : String) (startedAt : Int) (stages : List StageSummary)
    (startTarget : Nat) (version : String) : Summary where
  runId
  scenarioName
  startedAt
  runDuration := plannedSeconds stages
  stages
  startTarget
  peakUsers := 0
  checksPassed := 0
  checksFailed := 0
  iterations := 0
  env := []
  version

def withPeak (s : Summary) (peakUsers : Nat) : Summary := { s with peakUsers }

def withTotals (s : Summary) (checksPassed checksFailed iterations : Nat) : Summary :=
  { s with checksPassed, checksFailed, iterations }

def withVariable (s : Summary) (key value : String) : Summary :=
  { s with env := Ordered.insert Ordered.textBefore key value s.env }

/-- A word of 64 bits as bytes, the lowest first. -/
def wordBytes (n : Nat) : List UInt8 :=
  (List.range 8).map fun i => UInt8.ofNat (n / Nat.pow 256 i)

/-- What a fingerprint is meant to tell apart: name, start target, stages, variables
and version. -/
def configuration (s : Summary) :
    String × Nat × List StageSummary × List (String × String) × String :=
  (s.scenarioName, s.startTarget, s.stages, s.env, s.version)

/-- The bytes of the configuration: name, start target, stages, variables and
version, one after the other. -/
def fingerprintInput (s : Summary) : List UInt8 :=
  Text.Utf8.encode s.scenarioName ++ wordBytes s.startTarget ++
    (s.stages.flatMap fun stage => wordBytes stage.durationMs ++ wordBytes stage.target) ++
    (s.env.flatMap fun (key, value) => Text.Utf8.encode key ++ Text.Utf8.encode value) ++
    Text.Utf8.encode s.version

/-- The summary with its variables in ascending order, whatever order they are met in. -/
def arranged (s : Summary) : Summary :=
  { s with env := Ordered.arrange Ordered.textBefore s.env }

/-- The digest of the configuration in base sixteen. -/
def fingerprint (s : Summary) : String :=
  Digest.Sha3.hex (Digest.Sha3.digest s.arranged.fingerprintInput)

end Summary
end LoadRamp
