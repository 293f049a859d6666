import LoadRamp.BookAccess
import LoadRamp.Definition

/-!
# Command lines

A command has options with a value and flags without one; there are no
arguments besides them.  Arguments are taken from the left, and a value is
looked at only when the next option or the end of the line is reached, so an
option that nobody knows is reported before a bad value in front of it.
-/

namespace LoadRamp
namespace CommandLine

/-- Why a command does not start. -/
inductive Stop
  | unknownArgument
  | argumentConflict
  | invalidValue
  | tooManyValues
  | missingRequired
  /-- Help was asked for. -/
  | help
  /-- The version was asked for. -/
  | version
  deriving DecidableEq

def Stop.name : Stop → String
  | .unknownArgument => "UnknownArgument"
  | .argumentConflict => "ArgumentConflict"
  | .invalidValue => "InvalidValue"
  | .tooManyValues => "TooManyValues"
  | .missingRequired => "MissingRequiredArgument"
  | .help => "DisplayHelp"
  | .version => "DisplayVersion"

/-- What an option of a command is for. -/
inductive Kind
  | flag
  /-- It takes any text. -/
  | text
  /-- It takes a path, which is not empty. -/
  | path
  /-- It takes one of some words. -/
  | word (allowed : List String)
  | help
  | version

def Kind.takesValue : Kind → Bool
  | .text | .path | .word _ => true
  | .flag | .help | .version => false

def Kind.accepts (value : String) : Kind → Bool
  | .path => !value.isEmpty
  | .word allowed => allowed.contains value
  | _ => true

/-- An option with its long name and perhaps a letter. -/
structure Switch where
  long : String
  letter? : Option Char := none
  kind : Kind

/-- What follows the name of an option in a list of options. -/
def Kind.hint : Kind → String
  | .text => " <text>"
  | .path => " <path>"
  | .word allowed => " <" ++ "|".intercalate allowed ++ ">"
  | .flag | .help | .version => ""

/-- A list of options, one to a line. -/
def usage (switches : List Switch) : String :=
  "Options:\n" ++ String.join (switches.map fun switch =>
    let letter :=
      match switch.letter? with
      | some letter => "-" ++ String.singleton letter ++ ", "
      | none => "    "
    "  " ++ letter ++ "--" ++ switch.long ++ switch.kind.hint ++ "\n")

/-- What has been read of a command line. -/
structure State where
  /-- Options with their values; the value of a flag is empty. -/
  found : List (String × String) := []
  /-- The option read last, if it takes a value, and its value if that has come. -/
  pending? : Option (Switch × Option String) := none
  /-- Whether options have come to their end. -/
  closed : Bool := false

namespace State

/-- An option with its value.  No option may come twice. -/
def record (s : State) (switch : Switch) (value : String) : Except Stop State :=
  if s.found.any fun entry => entry.1 == switch.long then .error .argumentConflict
  else if switch.kind.accepts value then
    .ok { s with found := s.found ++ [(switch.long, value)] }
  else .error .invalidValue

/-- Look at the value that has been waiting for it. -/
def settle (s : State) : Except Stop State :=
  match s.pending? with
  | none => .ok s
  | some (_, none) => .error .invalidValue
  | some (switch, some value) => { s with pending? := none }.record switch value

/-- Take an option that may have its value attached. -/
def takeOption (s : State) (switch : Switch) (attached? : Option String) :
    Except Stop State := do
  let s ← s.settle
  match attached? with
  | some value => s.record switch value
  | none => .ok { s with pending? := some (switch, none) }

/-- Take an option that has no value. -/
def takeFlag (s : State) (switch : Switch) : Except Stop State := do
  let s ← s.settle
  match switch.kind with
  | .help => .error .help
  | .version => .error .version
  | _ => s.record switch ""

/-- Take a long name, perhaps with a value behind an equals sign. -/
def takeLong (switches : List Switch) (s : State) (text : List Char) : Except Stop State :=
  let name := String.ofList (text.takeWhile (· != '='))
  let attached? :=
    match text.dropWhile (· != '=') with
    | _ :: value => some (String.ofList value)
    | [] => none
  match switches.find? fun switch => switch.long == name with
  | none => .error .unknownArgument
  | some switch =>
    if switch.kind.takesValue then s.takeOption switch attached?
    else if attached?.isSome then .error .tooManyValues
    else s.takeFlag switch

/-- Take some letters.  What stands behind the letter of an option is its value,
with or without an equals sign. -/
def takeLetters (switches : List Switch) (s : State) : List Char → Except Stop State
  | [] => .ok s
  | letter :: rest =>
    match switches.find? fun switch => switch.letter? == some letter with
    | none => .error .unknownArgument
    | some switch =>
      if switch.kind.takesValue then
        s.takeOption switch <|
          match rest with
          | [] => none
          | '=' :: value => some (String.ofList value)
          | value => some (String.ofList value)
      else
        match s.takeFlag switch with
        | .error stop => .error stop
        | .ok s => takeLetters switches s rest

/-- Take a value for the option before it. -/
def takeValue (s : State) (value : String) : Except Stop State :=
  match s.pending? with
  | some (switch, none) => .ok { s with pending? := some (switch, some value) }
  | _ => .error .unknownArgument

/-- Take an argument. -/
def take (switches : List Switch) (s : State) (argument : String) : Except Stop State :=
  if s.closed then .error .unknownArgument
  else
    match argument.toList with
    | ['-', '-'] => .ok { s with closed := true }
    | '-' :: '-' :: text => s.takeLong switches text
    | '-' :: letter :: rest => s.takeLetters switches (letter :: rest)
    | _ => s.takeValue argument

/-- The value of an option. -/
def value? (s : State) (long : String) : Option String :=
  (s.found.find? fun entry => entry.1 == long).map (·.2)

end State

/-- Read a command line. -/
def read (switches : List Switch) (arguments : List String) : Except Stop State := do
  let s ← arguments.foldlM (State.take switches) {}
  s.settle

/-- The options of every command. -/
def commonSwitches : List Switch :=
  [{ long := "base-url", kind := .text }, { long := "no-progress", kind := .flag },
    { long := "run-summary-path", kind := .path },
    { long := "help", letter? := some 'h', kind := .help }]

/-- What a command line says about any run. -/
def optionsOf (s : State) : Options where
  baseUrl? := s.value? "base-url"
  noProgress := (s.value? "no-progress").isSome
  summaryPath? := s.value? "run-summary-path"

/-- The command line of a scenario that needs nothing more. -/
def readScenario (arguments : List String) : Except Stop Options := do
  let s ← read commonSwitches arguments
  .ok (optionsOf s)

/-- The options of a configured run. -/
def configuredSwitches : List Switch :=
  { long := "config", letter? := some 'c', kind := .path } :: commonSwitches ++
    [{ long := "version", letter? := some 'V', kind := .version }]

/-- The command line of a configured run: the path of the configuration and the
options. -/
def readConfigured (arguments : List String) : Except Stop (String × Options) := do
  let s ← read configuredSwitches arguments
  match s.value? "config" with
  | none => .error .missingRequired
  | some path => .ok (path, optionsOf s)

/-- The options of the book access scenario. -/
def bookAccessSwitches : List Switch :=
  { long := "variant", kind := .word ["guest", "admin"] } :: commonSwitches

/-- The command line of the book access scenario; its variant is `guest` unless
the line says more. -/
def readBookAccess (arguments : List String) :
    Except Stop (BookAccess.Variant × Options) := do
  let s ← read bookAccessSwitches arguments
  let variant? := (s.value? "variant").bind BookAccess.Variant.ofWord?
  .ok (variant?.getD .guest, optionsOf s)

end CommandLine
end LoadRamp
