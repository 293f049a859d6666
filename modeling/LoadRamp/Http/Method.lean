import LoadRamp.Text.Ascii

/-!
# Request methods

The seven methods a request can have.  `Method.parse?` takes a name in any case,
`Method.ofName?` only in capitals.
-/

namespace LoadRamp
namespace Http

inductive Method
  | get | post | put | patch | delete | head | options
  deriving DecidableEq

namespace Method

def all : List Method := [.get, .post, .put, .patch, .delete, .head, .options]

def name : Method → String
  | .get => "GET"
  | .post => "POST"
  | .put => "PUT"
  | .patch => "PATCH"
  | .delete => "DELETE"
  | .head => "HEAD"
  | .options => "OPTIONS"

/-- The method with that name in capitals. -/
def ofName? (text : String) : Option Method := all.find? fun m => m.name == text

/-- The method with that name in any case. -/
def parse? (text : String) : Option Method :=
  all.find? fun m => Text.sameIgnoringCase m.name text

theorem mem_all (m : Method) : m ∈ all := by cases m <;> decide

end Method
end Http
end LoadRamp
