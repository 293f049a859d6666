import LoadRamp.Json.Input
import LoadRamp.Ordered

/-!
# Reading JSON into data

A reader knows what it wants and goes through the text once.  It stops at the
first thing that is wrong, be it malformed text or text that does not fit.

* `Json.text`, `Json.natural` and `Json.integer` read single values.
* `Json.list`, `Json.dictionary` and `Json.record` read composite ones; a record
  may also be written as an array of its values in order.
* `Json.skipValue` reads over a value of any kind and depth.
* `Json.whole` reads a text of which nothing may be left.
-/

namespace LoadRamp
namespace Json

def isNumberStart (c : Char) : Bool := c == '-' || (Number.Decimal.digitValue? c).isSome

/-- How a numeral is named in a problem. -/
def describeNumeral : Numeral → String
  | .natural value => "integer `" ++ Number.Decimal.write value ++ "`"
  | .negative value => "integer `-" ++ Number.Decimal.write value ++ "`"
  | .float value =>
    let style : Number.Shortest.Style := .compact
    "floating point `" ++ Number.Shortest.text style value ++ "`"

/-- How the value that comes next is named in a problem.  A scalar is read to its
end for that. -/
def describeNext (input : Input) : Except Error String :=
  match input with
  | some 'n' :: rest => (expect ['u', 'l', 'l'] rest).map fun _ => "null"
  | some 't' :: rest => (expect ['r', 'u', 'e'] rest).map fun _ => "boolean `true`"
  | some 'f' :: rest => (expect ['a', 'l', 's', 'e'] rest).map fun _ => "boolean `false`"
  | some '"' :: rest => (quotedText rest).map fun (s, _) => "string " ++ Text.quoted s
  | some '[' :: _ => .ok "sequence"
  | some '\x7b' :: _ => .ok "map"
  | some c :: _ =>
    if isNumberStart c then (numeral input).map fun (n, _) => describeNumeral n
    else .error .malformed
  | _ => .error .malformed

/-- The error that the value that comes next is of the wrong type. -/
def mismatch {α : Type} (wanted : String) (input : Input) : Except Error α :=
  match describeNext input with
  | .ok found => .error (.unfit (.wrongType found wanted))
  | .error error => .error error

/-! ## Single values -/

def text : Reader String := fun input =>
  match skipBlanks input with
  | some '"' :: rest => quotedText rest
  | input => mismatch "a string" input

/-- A number that is read as such, if one comes next. -/
def numeralOr (wanted : String) : Reader Numeral := fun input =>
  match skipBlanks input with
  | some c :: rest =>
    if isNumberStart c then numeral (some c :: rest) else mismatch wanted (some c :: rest)
  | input => mismatch wanted input

/-- A number of a word of 64 bits, of a type with that name. -/
def natural (wanted : String) : Reader Nat := fun input => do
  let (n, rest) ← numeralOr wanted input
  match n with
  | .natural value => .ok (value, rest)
  | .negative _ => .error (.unfit (.wrongValue (describeNumeral n) wanted))
  | .float _ => .error (.unfit (.wrongType (describeNumeral n) wanted))

/-- A number of 64 bits with a sign. -/
def integer : Reader Int := fun input => do
  let (n, rest) ← numeralOr "i64" input
  match n with
  | .natural value =>
    if value < 9223372036854775808 then .ok ((value : Int), rest)
    else .error (.unfit (.wrongValue (describeNumeral n) "i64"))
  | .negative magnitude => .ok (-(magnitude : Int), rest)
  | .float _ => .error (.unfit (.wrongType (describeNumeral n) "i64"))

/-! ## Values that nobody looks at -/

/-- The key and the colon of a member, read over. -/
def skipKey (input : Input) : Except Error Input :=
  match skipBlanks input with
  | some '"' :: rest => do
    let rest ← skipString (rest.length + 1) rest
    match skipBlanks rest with
    | some ':' :: rest => .ok rest
    | _ => .error .malformed
  | _ => .error .malformed

/-- What is open around a value. -/
inductive Frame
  | array
  | object
  deriving DecidableEq

mutual

/-- The rest after a value and after everything that is open around it. -/
def skipInside : (fuel : Nat) → List Frame → Input → Except Error Input
  | 0, _, _ => .error .malformed
  | fuel + 1, frames, input =>
    match skipBlanks input with
    | some 'n' :: rest => do skipAfter fuel frames (← expect ['u', 'l', 'l'] rest)
    | some 't' :: rest => do skipAfter fuel frames (← expect ['r', 'u', 'e'] rest)
    | some 'f' :: rest => do skipAfter fuel frames (← expect ['a', 'l', 's', 'e'] rest)
    | some '"' :: rest => do skipAfter fuel frames (← skipString (rest.length + 1) rest)
    | some '[' :: rest =>
      match skipBlanks rest with
      | some ']' :: rest => skipAfter fuel frames rest
      | rest => skipInside fuel (.array :: frames) rest
    | some '\x7b' :: rest =>
      match skipBlanks rest with
      | some '\x7d' :: rest => skipAfter fuel frames rest
      | rest => do skipInside fuel (.object :: frames) (← skipKey rest)
    | some c :: rest =>
      if isNumberStart c then do skipAfter fuel frames (← skipNumber (some c :: rest))
      else .error .malformed
    | _ => .error .malformed

/-- The rest after everything that is open around a value already read. -/
def skipAfter : (fuel : Nat) → List Frame → Input → Except Error Input
  | 0, _, _ => .error .malformed
  | _ + 1, [], input => .ok input
  | fuel + 1, .array :: frames, input =>
    match skipBlanks input with
    | some ',' :: rest => skipInside fuel (.array :: frames) rest
    | some ']' :: rest => skipAfter fuel frames rest
    | _ => .error .malformed
  | fuel + 1, .object :: frames, input =>
    match skipBlanks input with
    | some ',' :: rest => do skipInside fuel (.object :: frames) (← skipKey rest)
    | some '\x7d' :: rest => skipAfter fuel frames rest
    | _ => .error .malformed

end

/-- The rest after one value.  Every step reads a character or ends the reading. -/
def skipValue (input : Input) : Except Error Input :=
  skipInside (2 * input.length + 2) [] input

/-! ## Composite values -/

/-- The rest after the colon of a member. -/
def colon (input : Input) : Except Error Input :=
  match skipBlanks input with
  | some ':' :: rest => .ok rest
  | _ => .error .malformed

/-- The items of an array after its opening bracket, or after an item. -/
def itemsRest {α : Type} (item : Reader α) : (fuel : Nat) → (first : Bool) → Reader (List α)
  | 0, _, _ => .error .malformed
  | fuel + 1, first, input => do
    match skipBlanks input with
    | some ']' :: rest => .ok ([], rest)
    | some ',' :: rest =>
      if first then .error .malformed
      else if (skipBlanks rest).head? = some (some ']') then .error .malformed
      else
        let (a, rest) ← item rest
        let (more, rest) ← itemsRest item fuel false rest
        .ok (a :: more, rest)
    | input =>
      if first then
        let (a, rest) ← item input
        let (more, rest) ← itemsRest item fuel false rest
        .ok (a :: more, rest)
      else .error .malformed

def list {α : Type} (item : Reader α) : Reader (List α) := fun input =>
  match skipBlanks input with
  | some '[' :: rest => itemsRest item (rest.length + 1) true rest
  | input => mismatch "a sequence" input

/-- The members of an object after its opening brace, or after a member.  A member
is read by `step` from the end of its key on. -/
def membersRest {α : Type} (step : α → String → Reader α) : (fuel : Nat) → (first : Bool) →
    α → Reader α
  | 0, _, _, _ => .error .malformed
  | fuel + 1, first, state, input => do
    let member (rest : Input) : Except Error (α × Input) := do
      let (key, rest) ← quotedText rest
      let (state, rest) ← step state key rest
      membersRest step fuel false state rest
    match skipBlanks input with
    | some '\x7d' :: rest => .ok (state, rest)
    | some '"' :: rest => if first then member rest else .error .malformed
    | some ',' :: rest =>
      if first then .error .malformed
      else
        match skipBlanks rest with
        | some '"' :: rest => member rest
        | _ => .error .malformed
    | _ => .error .malformed

/-- A member of a dictionary from the end of its key on, put into the table. -/
def entry (table : List (String × String)) (key : String) : Reader (List (String × String)) :=
  fun input => do
    let (value, rest) ← text (← colon input)
    .ok (Ordered.insert Ordered.textBefore key value table, rest)

/-- Texts by name, in ascending order of the names; of two texts with one name the
later one counts. -/
def dictionary : Reader (List (String × String)) := fun input =>
  match skipBlanks input with
  | some '\x7b' :: rest => membersRest entry (rest.length + 1) true [] rest
  | input => mismatch "a map" input

/-- The values of a record that is written as an array, read into a draft. -/
def valuesRest {α : Type} (title : String) (size : Nat) (put : α → String → Reader α) :
    (place : Nat) → List String → α → Reader α
  | _, [], draft, input =>
    match skipBlanks input with
    | some ']' :: rest => .ok (draft, rest)
    | _ => .error .malformed
  | place, name :: names, draft, input => do
    match skipBlanks input with
    | some ']' :: _ =>
      .error (.unfit (.wrongLength place (Problem.arrayTitle title size)))
    | some ',' :: rest =>
      if place = 0 then .error .malformed
      else if (skipBlanks rest).head? = some (some ']') then .error .malformed
      else
        let (draft, rest) ← put draft name rest
        valuesRest title size put (place + 1) names draft rest
    | input =>
      if place = 0 then
        let (draft, rest) ← put draft name input
        valuesRest title size put (place + 1) names draft rest
      else .error .malformed

/-- A member of a record from the end of its key on, put into the draft that comes with
the fields seen so far.  Members of other names are read over. -/
def fieldStep {α : Type} (names : List String) (put : α → String → Reader α)
    (state : α × List String) (key : String) : Reader (α × List String) := fun input => do
  if names.contains key then
    if state.2.contains key then .error (.unfit (.repeatedField key))
    else
      let (draft, rest) ← put state.1 key (← colon input)
      .ok ((draft, key :: state.2), rest)
  else
    let rest ← skipValue (← colon input)
    .ok (state, rest)

/-- A record with the given fields, all of which must be present. -/
def record {α : Type} (title : String) (names : List String) (draft : α)
    (put : α → String → Reader α) : Reader α := fun input =>
  match skipBlanks input with
  | some '[' :: rest => valuesRest title names.length put 0 names draft rest
  | some '\x7b' :: rest => do
    let ((draft, seen), rest) ←
      membersRest (fieldStep names put) (rest.length + 1) true (draft, []) rest
    match names.find? fun name => !seen.contains name with
    | some name => .error (.unfit (.missingField name))
    | none => .ok (draft, rest)
  | input => mismatch ("struct " ++ title) input

/-- What a reader makes of a text of which nothing but blanks may be left. -/
def whole {α : Type} (reader : Reader α) (input : Input) : Except Error α := do
  let (a, rest) ← reader input
  if (skipBlanks rest).isEmpty then .ok a else .error .malformed

end Json
end LoadRamp
