/-!
# File errors

What can be wrong with a place where a file should be.
-/

namespace LoadRamp

inductive FileError
  | notFound
  | isDirectory
  /-- The file is no text in UTF-8. -/
  | invalidData
  deriving DecidableEq

namespace FileError

def name : FileError → String
  | .notFound => "NotFound"
  | .isDirectory => "IsADirectory"
  | .invalidData => "InvalidData"

def text : FileError → String
  | .notFound => "No such file or directory (os error 2)"
  | .isDirectory => "Is a directory (os error 21)"
  | .invalidData => "stream did not contain valid UTF-8"

end FileError
end LoadRamp
