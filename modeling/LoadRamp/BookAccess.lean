import LoadRamp.Config.Error

/-!
# The book access scenario

A load test of a service that keeps books: guests read the list, and admins read
it too, while a guest who adds a book is refused.
-/

namespace LoadRamp
namespace BookAccess

/-- Who uses the service. -/
inductive Variant
  | guest
  | admin
  deriving DecidableEq

def Variant.name : Variant → String
  | .guest => "Guest"
  | .admin => "Admin"

/-- The variant of that name on a command line. -/
def Variant.ofWord? (word : String) : Option Variant :=
  if word = "guest" then some .guest
  else if word = "admin" then some .admin
  else none

/-- What is said of a name that is no variant. -/
def Variant.unknownText (word : String) : String := "invalid variant: " ++ word

/-- The value of a variable that holds a token. -/
def token (lookup : String → Option String) (name : String) : Except ConfigError String :=
  match lookup name with
  | some value => .ok value
  | none => .error (.reference (.unset name))

def readGroup (name token : String) : Group :=
  let get : Group := { name, method := .get, path := "/book" }
  (get.withBearerToken token).withCheck (Check.status 200)

/-- The groups of a variant.  Without an admin token the admins stay away. -/
def groups (variant : Variant) (guestToken : String) (adminToken? : Option String) :
    List Group :=
  let guest := readGroup "GET /book with guest token" guestToken
  match variant, adminToken? with
  | .admin, some adminToken =>
    let post : Group :=
      { name := "POST /book with guest token", method := .post, path := "/book" }
    let book := "\x7b\"title\": \"The Left Hand of Darkness\"\x7d"
    [guest, readGroup "GET /book with admin token" adminToken,
      post.withBearerToken guestToken
        |>.withHeader "Content-Type" "application/json"
        |>.withBody (Text.Utf8.encode book)
        |>.withCheck (Check.status 403)]
  | _, _ => [guest]

end BookAccess
end LoadRamp
