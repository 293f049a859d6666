import LoadRamp.Json.Reader
import LoadRamp.Json.Writer
import LoadRamp.Summary

/-!
# Summaries as JSON

A summary is an object with its fields in a fixed order.  Reading takes the fields
in any order, and an array of their values as well.
-/

namespace LoadRamp
namespace Summary

/-! ## Writing -/

def stageChars (stage : StageSummary) : List Char :=
  Json.Write.object
    [("duration_ms", Json.Write.natural stage.durationMs),
     ("target", Json.Write.natural stage.target)]

/-- The fields of a summary with the texts of their values. -/
def members (s : Summary) : List (String × List Char) :=
  [("run_id", Json.Write.text s.runId),
   ("scenario_name", Json.Write.text s.scenarioName),
   ("started_at", Json.Write.integer s.startedAt),
   ("run_duration", Json.Write.natural s.runDuration),
   ("stages", Json.Write.array (s.stages.map stageChars)),
   ("start_target", Json.Write.natural s.startTarget),
   ("peak_virtual_users", Json.Write.natural s.peakUsers),
   ("checks_passed", Json.Write.natural s.checksPassed),
   ("checks_failed", Json.Write.natural s.checksFailed),
   ("iterations", Json.Write.natural s.iterations),
   ("env", Json.Write.object (s.env.map fun (key, value) => (key, Json.Write.text value))),
   ("stampede_version", Json.Write.text s.version)]

/-- The text of a summary, as a list of characters. -/
def chars (s : Summary) : List Char := Json.Write.object s.members

/-- The text of a summary on one line. -/
def store (s : Summary) : String := String.ofList s.chars

/-! ## Reading -/

/-- The reader of a field that is put into a draft. -/
def field {α β : Type} (reader : Json.Reader α) (put : α → β) : Json.Reader β := fun input =>
  (reader input).map fun (a, rest) => (put a, rest)

/-- One field of a stage, put into a draft. -/
def readStageField (draft : StageSummary) (name : String) : Json.Reader StageSummary :=
  match name with
  | "duration_ms" => field (Json.natural "u64") fun v => { draft with durationMs := v }
  | _ => field (Json.natural "usize") fun v => { draft with target := v }

def readStage : Json.Reader StageSummary :=
  Json.record "StageSummary" ["duration_ms", "target"] ⟨0, 0⟩ readStageField

def fieldNames : List String :=
  ["run_id", "scenario_name", "started_at", "run_duration", "stages", "start_target",
   "peak_virtual_users", "checks_passed", "checks_failed", "iterations", "env",
   "stampede_version"]

/-- One field of a summary, put into a draft. -/
def readField (draft : Summary) (name : String) : Json.Reader Summary :=
  match name with
  | "run_id" => field Json.text fun v => { draft with runId := v }
  | "scenario_name" => field Json.text fun v => { draft with scenarioName := v }
  | "started_at" => field Json.integer fun v => { draft with startedAt := v }
  | "run_duration" => field (Json.natural "u64") fun v => { draft with runDuration := v }
  | "stages" => field (Json.list readStage) fun v => { draft with stages := v }
  | "start_target" => field (Json.natural "usize") fun v => { draft with startTarget := v }
  | "peak_virtual_users" => field (Json.natural "usize") fun v => { draft with peakUsers := v }
  | "checks_passed" => field (Json.natural "u64") fun v => { draft with checksPassed := v }
  | "checks_failed" => field (Json.natural "u64") fun v => { draft with checksFailed := v }
  | "iterations" => field (Json.natural "u64") fun v => { draft with iterations := v }
  | "env" => field Json.dictionary fun v => { draft with env := v }
  | _ => field Json.text fun v => { draft with version := v }

def reader : Json.Reader Summary :=
  Json.record "RunSummary" fieldNames (make "" "" 0 [] 0 "") readField

/-- The summary that some bytes hold. -/
def load (bytes : List UInt8) : Except Json.Error Summary :=
  Json.whole reader (Json.Input.ofBytes bytes)

/-- The summary that a text holds. -/
def ofText (text : String) : Except Json.Error Summary :=
  Json.whole reader (Json.Input.ofText text)

end Summary
end LoadRamp
