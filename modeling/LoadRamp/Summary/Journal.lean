import LoadRamp.FileError
import LoadRamp.Summary.Format
import LoadRamp.Text.Blank
import LoadRamp.Text.Lines

/-!
# Journals

A journal is a file with one summary per line.  Lines of blanks alone count for
nothing, and one line that cannot be read spoils the whole journal.
-/

namespace LoadRamp
namespace Journal

/-- Why a journal could not be read. -/
inductive Error
  | file (error : FileError)
  | line (error : Json.Error)
  deriving DecidableEq

/-- What is found where a journal should be. -/
inductive Place
  /-- Nothing yet. -/
  | vacant
  | file (content : List UInt8)
  | directory
  /-- Nothing, and nowhere to put it. -/
  | unreachable

/-- The content of a file with a line added at its end. -/
def withLine (content : List UInt8) (line : String) : List UInt8 :=
  content ++ Text.Utf8.encode line ++ [10]

/-- Write a line at the end of a file; a file is made if there is none. -/
def addLine (place : Place) (line : String) : Except FileError Place :=
  match place with
  | .vacant => .ok (.file (withLine [] line))
  | .file content => .ok (.file (withLine content line))
  | .directory => .error .isDirectory
  | .unreachable => .error .notFound

/-- Append a summary. -/
def append (place : Place) (s : Summary) : Except FileError Place := addLine place s.store

/-- The lines of some bytes, without their line ends. -/
def lines (content : List UInt8) : List (List UInt8) := Text.linesOf 10 13 content

/-- The summary of a line, or nothing for a line of blanks. -/
def readLine (line : List UInt8) : Except Error (Option Summary) :=
  match Text.Utf8.strict? line with
  | none => .error (.file .invalidData)
  | some text =>
    if Text.allBlank text.toList then .ok none
    else
      match Summary.ofText text with
      | .ok s => .ok (some s)
      | .error error => .error (.line error)

/-- The summaries of a file in order. -/
def read (content : List UInt8) : Except Error (List Summary) := do
  let entries ← (lines content).mapM readLine
  .ok (entries.filterMap id)

/-- The summaries found at a place. -/
def load : Place → Except Error (List Summary)
  | .file content => read content
  | .directory => .error (.file .isDirectory)
  | .vacant => .error (.file .notFound)
  | .unreachable => .error (.file .notFound)

end Journal
end LoadRamp
