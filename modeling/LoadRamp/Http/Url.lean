import LoadRamp.Http.Host

/-!
# Absolute URLs

Whether a text is an absolute URL, and with which scheme.  Only the scheme, the
host and the port can make a text unfit; a path, a query and a fragment never do.

* `Url.Parser` is what the rest of the library knows of this: it takes any parser.
* `Url.schemeOf` gives the scheme in lower case or says what is wrong.
* `Url.parse` is the parser of the programs.  It knows only a part of the standard for
  international domain names, the one in `Host`.
-/

namespace LoadRamp
namespace Http
namespace Url

/-- Why a text is no absolute URL. -/
inductive Error
  | relative
  | emptyHost
  | port
  | address4
  | address6
  | domain
  | character
  deriving DecidableEq

def Error.message : Error → String
  | .relative => "relative URL without a base"
  | .emptyHost => "empty host"
  | .port => "invalid port number"
  | .address4 => "invalid IPv4 address"
  | .address6 => "invalid IPv6 address"
  | .domain => "invalid international domain name"
  | .character => "invalid domain character"

def ofHost : Host.Error → Error
  | .empty => .emptyHost
  | .address4 => .address4
  | .address6 => .address6
  | .domain => .domain
  | .character => .character

/-- Schemes are told apart by how their hosts are read. -/
inductive SchemeKind
  | file
  | wellKnown
  | other
  deriving DecidableEq

def schemeKind (scheme : String) : SchemeKind :=
  if scheme = "file" then .file
  else if ["http", "https", "ws", "wss", "ftp"].contains scheme then .wellKnown
  else .other

/-- The characters that count: without control characters and blanks at the ends,
and without tabs and line ends anywhere. -/
def significant (text : String) : List Char :=
  let outer := fun (c : Char) => c.toNat ≤ 0x20
  let cs := ((text.toList.dropWhile outer).reverse.dropWhile outer).reverse
  cs.filter fun c => c != '\t' && c != '\n' && c != '\r'

def isSchemeChar (c : Char) : Bool :=
  Text.isLetter c || Text.isDigit c || c == '+' || c == '-' || c == '.'

/-- The scheme in lower case and what follows its colon. -/
def splitScheme? (cs : List Char) : Option (String × List Char) :=
  match cs with
  | c :: _ =>
    if Text.isLetter c then
      match cs.dropWhile isSchemeChar with
      | ':' :: rest =>
        some (String.ofList ((cs.takeWhile isSchemeChar).map Text.lowerChar), rest)
      | _ => none
    else none
  | [] => none

/-- Whether a character ends the part of a URL that names a user, host and port. -/
def endsAuthority (kind : SchemeKind) (c : Char) : Bool :=
  c == '/' || c == '?' || c == '#' || (kind != .other && c == '\\')

/-- What stands before the last `@`, if there is one, and what stands after it. -/
def splitUser (authority : List Char) : Option (List Char) × List Char :=
  let after := (authority.reverse.takeWhile (· != '@')).reverse
  if after.length < authority.length then
    (some (authority.take (authority.length - after.length - 1)), after)
  else (none, authority)

/-- The host up to the colon before a port; a colon in brackets belongs to the
host. -/
def splitPort : (inBrackets : Bool) → List Char → List Char × List Char
  | _, [] => ([], [])
  | inside, c :: rest =>
    if c = ':' ∧ !inside then ([], c :: rest)
    else
      let inside := if c = '[' then true else if c = ']' then false else inside
      let (host, port) := splitPort inside rest
      (c :: host, port)

/-- Whether a text is a port: digits, perhaps none, of a number below `2 ^ 16`. -/
def isPort (digits : List Char) : Bool :=
  match Host.based? 10 0 digits with
  | some port => port ≤ 65535
  | none => false

/-- Whether a user has a name or a password. -/
def namesUser (user : List Char) : Bool := !user.isEmpty && user != [':']

/-- Check the part of a URL after its slashes. -/
def checkAuthority (kind : SchemeKind) (cs : List Char) : Except Error Unit := do
  let authority := cs.takeWhile (!endsAuthority kind ·)
  let ended := authority.length < cs.length
  let (user?, address) := splitUser authority
  if user? = some [] ∧ address.isEmpty ∧ ended then .error .emptyHost
  else
    let (host, port) := splitPort false address
    if kind = .wellKnown ∧ host.isEmpty then .error .emptyHost
    else
      let parsed ← (if kind = .other then Host.parseOpaque host else Host.parse host).mapError
        ofHost
      if host.isEmpty ∧ !port.isEmpty then .error .emptyHost
      else if !isPort ((port.drop 1).takeWhile (· != '\\')) then .error .port
      else if parsed = .domain [] ∧ user?.any namesUser then .error .emptyHost
      else .ok ()

/-- Whether a text is the letter of a drive with its colon. -/
def isDrive : List Char → Bool
  | [letter, mark] => Text.isLetter letter && (mark == ':' || mark == '|')
  | _ => false

/-- Check the part of a `file` URL after its colon. -/
def checkFile (cs : List Char) : Except Error Unit :=
  let slash := fun (c : Char) => c == '/' || c == '\\'
  match cs with
  | a :: b :: rest =>
    if slash a && slash b then
      let host := rest.takeWhile (!endsAuthority .file ·)
      if host.isEmpty || isDrive host then .ok ()
      else (Host.parse host).mapError ofHost |>.map fun _ => ()
    else .ok ()
  | _ => .ok ()

/-- The scheme of an absolute URL in lower case. -/
def schemeOf (text : String) : Except Error String := do
  match splitScheme? (significant text) with
  | none => .error .relative
  | some (scheme, rest) =>
    match schemeKind scheme with
    | .file => checkFile rest
    | .wellKnown =>
      checkAuthority .wellKnown (rest.dropWhile fun c => c == '/' || c == '\\')
    | .other =>
      match rest with
      | '/' :: '/' :: rest => checkAuthority .other rest
      | _ => .ok ()
    .ok scheme

/-- Reads an absolute URL: gives its scheme in lower case, or the text of what is wrong. -/
abbrev Parser := String → Except String String

/-- The parser of the programs. -/
def parse : Parser := fun text => (schemeOf text).mapError Error.message

end Url
end Http
end LoadRamp
