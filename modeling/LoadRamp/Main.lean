import LoadRamp.Program
import LoadRamp.Summary.Journal
import Std.Time.DateTime.Timestamp

/-!
# The command line

Reads what a program finds around it, lets the program decide, and writes what
comes of it.  Under the name `book_access` the executable runs that scenario, and
under any other name the configuration of a file.  It has no network.
-/

namespace LoadRamp
namespace CommandLine

/-- The content of a file. -/
def readFile (path : String) : IO (Except FileError (List UInt8)) := do
  try
    let bytes ← IO.FS.readBinFile path
    return .ok bytes.toList
  catch e =>
    match e with
    | .noFileOrDirectory _ _ _ => return .error .notFound
    | _ => return .error .isDirectory

/-- The values of those of some variables that are set. -/
def readVariables (names : List String) : IO (List (String × String)) :=
  names.filterMapM fun name => do
    let value? ← IO.getEnv name
    return value?.map fun value => (name, value)

/-- The surroundings with some variables and one file. -/
def surroundings (values : List (String × String)) (path : String)
    (content : Except FileError (List UInt8)) : Program.Surroundings where
  lookup := fun name => Ordered.find? name values
  file := fun name => if name = path then content else .error .notFound
  factory := fun _ => .ok ⟨Transport.disconnected, false⟩
  acts := 1000000000

/-- A name for a run that no other run has. -/
def freshName : IO String := do
  let alphabet := "_-0123456789abcdefghijklmnopqrstuvwxyzABCDEFGHIJKLMNOPQRSTUVWXYZ".toList
  let letters ← (List.range 21).mapM fun _ => do
    let place ← IO.rand 0 (alphabet.length - 1)
    return alphabet.getD place '_'
  return String.ofList letters

/-- Append a summary to a journal.  The run is over, so a failure is only told. -/
def writeJournal (path : String) (summary : String → Int → Summary) : IO Unit := do
  let now ← Std.Time.Timestamp.now
  let s := summary (← freshName) now.toSecondsSinceUnixEpoch.val
  try
    let handle ← IO.FS.Handle.mk path .append
    handle.write (ByteArray.mk (Journal.withLine [] s.store).toArray)
  catch e => IO.eprintln s!"Failed to write run summary to {path}: {e}"

/-- Write what a program leaves behind. -/
def deliver (outcome : Program.Outcome) : IO UInt32 := do
  IO.print outcome.output
  match outcome.journal? with
  | none => pure ()
  | some (path, summary) => writeJournal path summary
  if !outcome.complaint.isEmpty then IO.eprintln outcome.complaint
  return UInt32.ofNat outcome.code

/-- Run the configuration of a file. -/
def runConfigured (arguments : List String) : IO UInt32 := do
  let path :=
    match readConfigured arguments with
    | .ok (path, _) => path
    | .error _ => ""
  let content ← readFile path
  let text? := content.toOption.bind Text.Utf8.strict?
  let config? := text?.bind fun text => (Config.read text).toOption
  let values ← readVariables ((config?.map Config.mentioned).getD [])
  let startsAt ← IO.monoNanosNow
  deliver (Program.configured (surroundings values path content) arguments startsAt)

/-- Run the book access scenario. -/
def runBookAccess (arguments : List String) : IO UInt32 := do
  let values ← readVariables ["GUEST_TOKEN", "ADMIN_TOKEN"]
  let startsAt ← IO.monoNanosNow
  deliver
    (Program.bookAccessProgram (surroundings values "" (.error .notFound)) arguments startsAt)

end CommandLine
end LoadRamp

def main (arguments : List String) : IO UInt32 := do
  let program ← IO.appPath
  if program.fileName = some "book_access" then LoadRamp.CommandLine.runBookAccess arguments
  else LoadRamp.CommandLine.runConfigured arguments
