/-!
# Log lines

What a run says while it goes on: a text with a level.
-/

namespace LoadRamp

inductive Level
  | trace | debug | info | warn | error
  deriving DecidableEq

def Level.name : Level → String
  | .trace => "trace"
  | .debug => "debug"
  | .info => "info"
  | .warn => "warn"
  | .error => "error"

/-- One line of a log. -/
structure LogLine where
  level : Level
  text : String
  deriving DecidableEq

end LoadRamp
