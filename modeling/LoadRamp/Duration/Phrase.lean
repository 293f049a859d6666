import LoadRamp.Duration
import LoadRamp.Number.Decimal
import LoadRamp.Text.Ascii
import LoadRamp.Text.Blank
import LoadRamp.Text.Quoted

/-!
# Durations in words

A phrase such as `1h 30min` or `1.5s` names a duration: numbers, each with an
optional decimal fraction and a unit, added up.  Blanks may stand anywhere but
inside a unit.  The reader goes through the characters once, and `Reading.step`
says what one character does.

* A number, and every product on the way to nanoseconds or seconds, stays below
  `2 ^ 64`.
* A fraction must come to a whole number of nanoseconds for the units up to the
  minute, and of seconds for the longer ones.
-/

namespace LoadRamp
namespace Duration
namespace Phrase

/-- Why a phrase names no duration.  Positions count bytes. -/
inductive Error
  | blank
  | numberExpected (position : Nat)
  | invalidCharacter (position : Nat)
  | unitNeeded (value : Nat)
  | unknownUnit (unit : String)
  | unrepresentable
  | overflow (kind : Overflow)
  deriving DecidableEq

def Error.message : Error → String
  | .blank => "value was empty"
  | .numberExpected position => "expected number at " ++ Number.Decimal.write position
  | .invalidCharacter position => "invalid character at " ++ Number.Decimal.write position
  | .unitNeeded value =>
    let n := Number.Decimal.write value
    "time unit needed, for example " ++ n ++ "sec or " ++ n ++ "ms"
  | .unknownUnit unit =>
    "unknown time unit " ++ Text.quoted unit ++ ", supported units: ns, us/µs, ms, sec, min, " ++
      "hours, days, weeks, months, years (and few variations)"
  | .unrepresentable =>
    "number is too large or cannot be represented without a lack of precision " ++
      "(values below 1ns are not supported)"
  | .overflow kind => kind.message

/-- A unit of time: how many nanoseconds or how many seconds it lasts. -/
inductive TimeUnit
  | ofNanos (nanos : Nat)
  | ofSeconds (seconds : Nat)
  deriving DecidableEq

/-- The units with all their spellings.  A month has 30.44 days and a year
365.25. -/
def TimeUnit.spellings : List (TimeUnit × List String) :=
  [(.ofNanos 1, ["nanos", "nsec", "ns"]),
   (.ofNanos 1000, ["usec", "us", "µs"]),
   (.ofNanos 1000000, ["millis", "msec", "ms"]),
   (.ofSeconds 1, ["seconds", "second", "secs", "sec", "s"]),
   (.ofSeconds 60, ["minutes", "minute", "min", "mins", "m"]),
   (.ofSeconds 3600, ["hours", "hour", "hrs", "hr", "h"]),
   (.ofSeconds 86400, ["days", "day", "d"]),
   (.ofSeconds 604800, ["weeks", "week", "wks", "wk", "w"]),
   (.ofSeconds 2630016, ["months", "month", "M"]),
   (.ofSeconds 31557600, ["years", "year", "yrs", "yr", "y"])]

def TimeUnit.ofName? (name : String) : Option TimeUnit :=
  (TimeUnit.spellings.find? fun entry => name ∈ entry.2).map (·.1)

/-- A decimal fraction `numerator / denominator`. -/
structure Fraction where
  numerator : Nat
  denominator : Nat
  deriving DecidableEq

/-- The first number that does not fit a 64 bit word. -/
def wordLimit : Nat := 18446744073709551616

def word? (n : Nat) : Except Error Nat :=
  if n < wordLimit then .ok n else .error .unrepresentable

/-- A product divided without a remainder. -/
def exactly (factor : Nat) (fraction : Fraction) : Except Error Nat := do
  let product ← word? (fraction.numerator * factor)
  if product % fraction.denominator = 0 then .ok (product / fraction.denominator)
  else .error .unrepresentable

/-- A total, in seconds and nanoseconds, with some more added.  Exactly one
second of nanoseconds is carried last. -/
def addParts (total : Duration) (seconds nanos : Nat) : Except Error Duration := do
  let nanos ← word? (total.subsecond + nanos)
  let seconds ← word? (total.seconds + seconds)
  let whole := seconds * 1000000000 + nanos
  match Duration.ofNanos? whole with
  | some sum => .ok sum
  | none => .error (if nanos = 1000000000 then .overflow .ofCarry else .unrepresentable)

/-- A total with a number of units and a fraction of one added. -/
def addUnits (total : Duration) (value : Nat) (fraction? : Option Fraction) :
    TimeUnit → Except Error Duration
  | .ofNanos size => do
    let total ← addParts total 0 (← word? (value * size))
    match fraction? with
    | none => .ok total
    | some fraction =>
      if size = 1 then .error .unrepresentable
      else addParts total 0 (← exactly size fraction)
  | .ofSeconds size => do
    let total ← addParts total (← word? (value * size)) 0
    match fraction? with
    | none => .ok total
    | some fraction =>
      if size ≤ 60 then addParts total 0 (← exactly (size * 1000000000) fraction)
      else addParts total (← exactly size fraction) 0

/-- Where the reader stands. -/
inductive Mode
  /-- Before a number. -/
  | gap
  /-- In a number. -/
  | whole (value : Nat)
  /-- In the decimals of a number; `mark` is the position of a possible error. -/
  | decimals (value : Nat) (fraction : Fraction) (mark : Nat)
  /-- In a unit, whose letters are kept last to first. -/
  | unit (value : Nat) (fraction? : Option Fraction) (letters : List Char)

/-- The state of the reader. -/
structure Reading where
  mode : Mode
  /-- What the complete parts add up to, if there is one. -/
  total? : Option Duration
  /-- The bytes read so far. -/
  position : Nat

def Reading.start : Reading := ⟨.gap, none, 0⟩

def isUnitLetter (c : Char) : Bool := Text.isLetter c || c = 'µ'

/-- The total with one more complete part. -/
def Reading.close (r : Reading) (value : Nat) (fraction? : Option Fraction)
    (letters : List Char) : Except Error Duration :=
  let name := String.ofList letters.reverse
  match TimeUnit.ofName? name with
  | some unit => addUnits (r.total?.getD Duration.zero) value fraction? unit
  | none => .error (if letters.isEmpty then .unitNeeded value else .unknownUnit name)

/-- A digit in the decimals; leading zeros only lengthen the denominator. -/
def Fraction.push (f : Fraction) (digit : Nat) : Except Error Fraction := do
  let denominator ← word? (f.denominator * 10)
  let numerator ← word? (f.numerator * 10 + digit)
  .ok ⟨numerator, denominator⟩

/-- What one character does. -/
def Reading.step (r : Reading) (c : Char) : Except Error Reading := do
  let next := r.position + c.utf8Size
  match r.mode, Number.Decimal.digitValue? c with
  | .gap, some digit => .ok { r with mode := .whole digit, position := next }
  | .gap, none =>
    if Text.isBlank c then .ok { r with position := next }
    else .error (.numberExpected r.position)
  | .whole value, some digit =>
    .ok { r with mode := .whole (← word? (value * 10 + digit)), position := next }
  | .whole value, none =>
    if Text.isBlank c then .ok { r with position := next }
    else if isUnitLetter c then
      .ok { r with mode := .unit value none [c], position := next }
    else if c = '.' then
      .ok { r with mode := .decimals value ⟨0, 1⟩ r.position, position := next }
    else .error (.invalidCharacter r.position)
  | .decimals value fraction _, some digit =>
    .ok { r with mode := .decimals value (← fraction.push digit) next, position := next }
  | .decimals value fraction mark, none =>
    if Text.isBlank c then
      .ok { r with mode := .decimals value fraction next, position := next }
    else if isUnitLetter c && fraction.denominator != 1 then
      .ok { r with mode := .unit value (some fraction) [c], position := next }
    else .error (.invalidCharacter mark)
  | .unit value fraction? letters, some digit =>
    let total ← r.close value fraction? letters
    .ok ⟨.whole digit, some total, next⟩
  | .unit value fraction? letters, none =>
    if Text.isBlank c then
      let total ← r.close value fraction? letters
      .ok ⟨.gap, some total, next⟩
    else if isUnitLetter c then
      .ok { r with mode := .unit value fraction? (c :: letters), position := next }
    else .error (.invalidCharacter r.position)

/-- The duration once all characters are read. -/
def Reading.finish (r : Reading) : Except Error Duration :=
  match r.mode with
  | .gap =>
    match r.total? with
    | some total => .ok total
    | none => .error .blank
  | .whole value => r.close value none []
  | .decimals value fraction mark =>
    if fraction.denominator = 1 then .error (.invalidCharacter mark)
    else r.close value (some fraction) []
  | .unit value fraction? letters => r.close value fraction? letters

/-- The duration that a phrase names.  The single character `0` is one, although
it has no unit. -/
def read (phrase : String) : Except Error Duration :=
  if phrase = "0" then .ok Duration.zero
  else do (← phrase.toList.foldlM Reading.step Reading.start).finish

end Phrase
end Duration
end LoadRamp
