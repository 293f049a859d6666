import LoadRamp.Duration.Text
import LoadRamp.Http.Method
import LoadRamp.Ordered
import LoadRamp.Text.Utf8

/-!
# Requests and responses

A request is complete: it has a full URL.  A response keeps its headers by lower
case name in ascending order, so that looking one up ignores case and the last
value given to a name counts.
-/

namespace LoadRamp
namespace Http

/-- A request that is ready to be sent. -/
structure Request where
  method : Method
  url : String
  headers : List (String × String)
  body? : Option (List UInt8)
  deriving DecidableEq

/-- The parts of a response that checks look at. -/
structure Response where
  status : Nat
  headers : List (String × String)
  body : List UInt8
  deriving DecidableEq

namespace Response

/-- A response without headers or a body. -/
def ofStatus (status : Nat) : Response := ⟨status, [], []⟩

def withHeader (r : Response) (name value : String) : Response :=
  { r with headers := Ordered.insert Ordered.textBefore (Text.lower name) value r.headers }

def withBody (r : Response) (body : List UInt8) : Response := { r with body := body }

/-- The value of a header, whatever the case of its name. -/
def header? (r : Response) (name : String) : Option String :=
  Ordered.find? (Text.lower name) r.headers

/-- The body as text, every broken piece as U+FFFD. -/
def text (r : Response) : String := Text.Utf8.lossy r.body

end Response

/-- Why a request got no response. -/
inductive TransportError
  | timeout (after : Duration)
  | connect (detail : String)
  | request (detail : String)
  deriving DecidableEq

def TransportError.message : TransportError → String
  | .timeout after => "request timed out after " ++ after.text
  | .connect detail => "connection failed: " ++ detail
  | .request detail => "request failed: " ++ detail

/-- What comes back for a request. -/
abbrev Reply := Except TransportError Response

end Http
end LoadRamp
