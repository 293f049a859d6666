import LoadRamp.Config
import LoadRamp.Number.Shortest
import LoadRamp.Ordered
import LoadRamp.Problem
import LoadRamp.Text.Quoted
import LoadRamp.Toml.Document

/-!
# Reading run configurations

The entries of a document are matched against the fields of a configuration.
`Problem` is what can be wrong, and the first problem in the order of the
document counts; fields that are missing are noticed at the end of their table.
A table of fields may also be written as an array of their values in order.
-/

namespace LoadRamp
namespace Config

open Toml (Value)

/-- The key under which a date shows when it is looked at as a table. -/
def datetimeKey : String := "$__toml_private_datetime"

/-- How a value is named in a problem. -/
def describe : Value → String
  | .string text => "string " ++ Text.quoted text
  | .integer value => "integer `" ++ Number.Decimal.writeInt value ++ "`"
  | .float value =>
    let style : Number.Shortest.Style := .pointed
    "floating point `" ++ Number.Shortest.text style value ++ "`"
  | .boolean value => "boolean `" ++ (if value then "true" else "false") ++ "`"
  | .datetime _ => "map"
  | .array _ => "sequence"
  | .table _ _ => "map"
  | .tables _ => "sequence"

/-- A reader of a value. -/
abbrev Decoder (α : Type) := Value → Except Problem α

def asString : Decoder String
  | .string text => .ok text
  | other => .error (.wrongType (describe other) "a string")

/-- A whole number of at most a given size. -/
def asNatural (most : Nat) (wanted : String) : Decoder Nat
  | .integer value =>
    if 0 ≤ value ∧ value.toNat ≤ most then .ok value.toNat
    else .error (.wrongValue (describe (.integer value)) wanted)
  | other => .error (.wrongType (describe other) wanted)

def asStatus : Decoder Nat := asNatural 65535 "u16"

def asMillis : Decoder Nat := asNatural 18446744073709551615 "u64"

def asInteger : Decoder Int
  | .integer value => .ok value
  | other => .error (.wrongType (describe other) "i64")

/-- A number; an integer is rounded to the nearest floating point value. -/
def asNumber : Decoder Number.Binary64
  | .float value => .ok value
  | .integer value => .ok (Number.Binary64.ofRat value)
  | other => .error (.wrongType (describe other) "f64")

/-- A number of seconds or a phrase. -/
def asSpan : Decoder Span
  | .float value => .ok (.seconds value)
  | .integer value => .ok (.seconds (Number.Binary64.ofRat value))
  | .string text => .ok (.phrase text)
  | _ => .error (.noVariant "DurationConfig")

/-- The items of an array. -/
def items? : Value → Option (List Value)
  | .array items => some items
  | .tables all => some (all.map (.table .header))
  | _ => none

/-- The entries of a table. -/
def entries? : Value → Option (List (String × Value))
  | .table _ entries => some entries
  | .datetime text => some [(datetimeKey, .string text)]
  | _ => none

def asList {α : Type} (item : Decoder α) : Decoder (List α) := fun value =>
  match items? value with
  | some items => items.mapM item
  | none => .error (.wrongType (describe value) "a sequence")

/-- Texts by name in ascending order. -/
def asTextMap : Decoder (List (String × String)) := fun value =>
  match entries? value with
  | some entries =>
    entries.foldlM (fun table (name, value) => do
      let text ← asString value
      .ok (Ordered.insert Ordered.textBefore name text table)) []
  | none => .error (.wrongType (describe value) "a map")

/-- What is done when a field is missing. -/
inductive Need
  /-- It is a problem. -/
  | required
  /-- The field has no value; an array must hold it all the same. -/
  | optional
  /-- The field has a value of its own. -/
  | defaulted
  deriving DecidableEq

/-- A table with a fixed set of fields. -/
structure Record where
  title : String
  fields : List (String × Need)

namespace Record

def names (r : Record) : List String := r.fields.map (·.1)

/-- The first field that a table must hold and does not. -/
def missing? (r : Record) (present : List String) : Option String :=
  (r.fields.find? fun (name, need) => need = .required && !present.contains name).map (·.1)

/-- The position of the first field that an array of `length` values must hold and
does not. -/
def short? (r : Record) (length : Nat) : Option Nat :=
  ((r.fields.zipIdx.drop length).find? fun ((_, need), _) => need ≠ .defaulted).map (·.2)

/-- Read the fields one after the other into a draft. -/
def read {α : Type} (r : Record) (draft : α)
    (put : α → String → Value → Except Problem α) : Decoder α := fun value =>
  match entries? value, items? value with
  | some entries, _ => do
    let result ← entries.foldlM (fun draft (name, value) =>
      if r.names.contains name then put draft name value
      else .error (.unknownField name r.names)) draft
    match r.missing? (entries.map (·.1)) with
    | some name => .error (.missingField name)
    | none => .ok result
  | none, some items => do
    let result ← (r.names.zip items).foldlM (fun draft (name, value) => put draft name value) draft
    match r.short? items.length with
    | some length =>
      .error (.wrongLength length (Problem.arrayTitle r.title r.fields.length))
    | none => .ok result
  | none, none => .error (.wrongType (describe value) ("struct " ++ r.title))

end Record

def stageRecord : Record := ⟨"StageConfig", [("duration", .required), ("target", .required)]⟩

def asStage : Decoder StageEntry :=
  stageRecord.read {} fun draft name value =>
    match name with
    | "duration" => return { draft with duration := ← asSpan value }
    | _ => return { draft with target := ← asInteger value }

def checkRecord : Record :=
  ⟨"CheckConfig", [("description", .optional), ("status", .optional),
    ("bodyContains", .optional), ("headerPresent", .optional)]⟩

def asCheck : Decoder CheckEntry :=
  checkRecord.read {} fun draft name value =>
    match name with
    | "description" => return { draft with description? := some (← asString value) }
    | "status" => return { draft with status? := some (← asStatus value) }
    | "bodyContains" => return { draft with bodyContains? := some (← asString value) }
    | _ => return { draft with headerPresent? := some (← asString value) }

def groupRecord : Record :=
  ⟨"GroupConfig", [("name", .required), ("method", .required), ("path", .required),
    ("headers", .defaulted), ("body", .optional), ("checks", .defaulted)]⟩

def asGroup : Decoder GroupEntry :=
  groupRecord.read {} fun draft name value =>
    match name with
    | "name" => return { draft with name := ← asString value }
    | "method" => return { draft with method := ← asString value }
    | "path" => return { draft with path := ← asString value }
    | "headers" => return { draft with headers := ← asTextMap value }
    | "body" => return { draft with body? := some (← asString value) }
    | _ => return { draft with checks := ← asList asCheck value }

def scenarioRecord : Record := ⟨"ScenarioConfig", [("name", .required), ("groups", .required)]⟩

def asScenario : Decoder ScenarioEntry :=
  scenarioRecord.read {} fun draft name value =>
    match name with
    | "name" => return { draft with name := ← asString value }
    | _ => return { draft with groups := ← asList asGroup value }

def configRecord : Record :=
  ⟨"RunConfig", [("baseUrl", .optional), ("stages", .required), ("startTarget", .defaulted),
    ("iterationDelaySeconds", .defaulted), ("tickIntervalMillis", .optional),
    ("gracePeriodSeconds", .optional), ("requestTimeoutSeconds", .optional),
    ("scenario", .required)]⟩

def asConfig : Decoder Config :=
  configRecord.read {} fun draft name value =>
    match name with
    | "baseUrl" => return { draft with baseUrl? := some (← asString value) }
    | "stages" => return { draft with stages := ← asList asStage value }
    | "startTarget" => return { draft with startTarget := ← asInteger value }
    | "iterationDelaySeconds" => return { draft with iterationDelaySeconds := ← asNumber value }
    | "tickIntervalMillis" => return { draft with tickIntervalMillis? := some (← asMillis value) }
    | "gracePeriodSeconds" =>
      return { draft with gracePeriodSeconds? := some (← asNumber value) }
    | "requestTimeoutSeconds" =>
      return { draft with requestTimeoutSeconds? := some (← asNumber value) }
    | _ => return { draft with scenario := ← asScenario value }

/-- What is wrong with the text of a configuration. -/
inductive ReadError
  /-- It is no document at all. -/
  | malformed
  /-- It is a document, but no configuration. -/
  | unfit (problem : Problem)
  deriving DecidableEq

/-- The configuration that a text holds. -/
def read (text : String) : Except ReadError Config :=
  match Toml.read? text with
  | none => .error .malformed
  | some entries =>
    match asConfig (.table .header entries) with
    | .ok config => .ok config
    | .error problem => .error (.unfit problem)

end Config
end LoadRamp
