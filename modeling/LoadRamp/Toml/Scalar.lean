import LoadRamp.Toml.Lexeme
import LoadRamp.Toml.Value

/-!
# Numbers, booleans and dates in TOML

Integers lie in the range of 64 bits with a sign.  A decimal number that is too
large for a floating point value is refused when it is positive.  Dates and times
are checked field by field and kept as text in one canonical spelling.
-/

namespace LoadRamp
namespace Toml

open Number

/-- More digits of some kind, each of them perhaps after an underscore. -/
def digitTail (isDigit : Char → Bool) : Reader (List Char)
  | '_' :: c :: rest =>
    if isDigit c then (digitTail isDigit rest).map fun (run, rest) => (c :: run, rest)
    else none
  | c :: rest =>
    if isDigit c then (digitTail isDigit rest).map fun (run, rest) => (c :: run, rest)
    else if c = '_' then none
    else some ([], c :: rest)
  | [] => some ([], [])

/-- Digits of some kind with single underscores between them, without the
underscores. -/
def digitRun (isDigit : Char → Bool) : Reader (List Char)
  | c :: rest =>
    if isDigit c then (digitTail isDigit rest).map fun (run, rest) => (c :: run, rest)
    else none
  | [] => none

/-- Decimal digits without a leading zero, unless the zero is all there is. -/
def wholeDigits : Reader (List Char)
  | '0' :: rest => some (['0'], rest)
  | cs => digitRun Text.isDigit cs

/-- A sign, which may be missing; true means minus. -/
def sign : List Char → Bool × List Char
  | '+' :: rest => (false, rest)
  | '-' :: rest => (true, rest)
  | cs => (false, cs)

/-- The value of digits in a base. -/
def digitsValue (base : Nat) (digits : List Char) : Nat :=
  digits.foldl (fun value c => value * base + (hexValue? c).getD 0) 0

/-- An integer that fits 64 bits with a sign. -/
def integer? (negative : Bool) (magnitude : Nat) : Option Value :=
  if negative then
    if magnitude ≤ 9223372036854775808 then some (.integer (-(magnitude : Int))) else none
  else if magnitude ≤ 9223372036854775807 then some (.integer (magnitude : Int)) else none

def isHexDigit (c : Char) : Bool := (hexValue? c).isSome

def isOctalDigit (c : Char) : Bool := 48 ≤ c.toNat && c.toNat ≤ 55

def isBinaryDigit (c : Char) : Bool := c == '0' || c == '1'

/-- An integer in base sixteen, eight, two or ten. -/
def integer : Reader Value := fun cs =>
  let based (base : Nat) (isDigit : Char → Bool) (cs : List Char) :=
    (digitRun isDigit cs).bind fun (digits, rest) =>
      (integer? false (digitsValue base digits)).map (·, rest)
  match cs with
  | '0' :: 'x' :: rest => based 16 isHexDigit rest
  | '0' :: 'o' :: rest => based 8 isOctalDigit rest
  | '0' :: 'b' :: rest => based 2 isBinaryDigit rest
  | _ =>
    let (negative, cs) := sign cs
    (wholeDigits cs).bind fun (digits, rest) =>
      (integer? negative (digitsValue 10 digits)).map (·, rest)

/-- The decimals of a number, after its whole part. -/
def fraction? : List Char → Option (List Char × List Char)
  | '.' :: rest => digitRun Text.isDigit rest
  | _ => none

/-- The exponent of a number. -/
def exponent? : List Char → Option (Int × List Char)
  | c :: rest =>
    if c == 'e' || c == 'E' then
      let (negative, rest) := sign rest
      (digitRun Text.isDigit rest).map fun (digits, rest) =>
        let value : Int := digitsValue 10 digits
        (if negative then -value else value, rest)
    else none
  | [] => none

/-- A decimal number with decimals or an exponent.  An infinite value is refused
unless it is negative. -/
def decimalFloat : Reader Value := fun cs =>
  let (negative, cs) := sign cs
  (wholeDigits cs).bind fun (whole, rest) =>
    let build (decimals : List Char) (exponent : Int) (rest : List Char) :=
      let value := Binary64.ofDecimal negative (digitsValue 10 (whole ++ decimals))
        (exponent - (decimals.length : Int))
      if value = .infinite false then none else some (Value.float value, rest)
    match fraction? rest with
    | some (decimals, rest) =>
      match exponent? rest with
      | some (exponent, rest) => build decimals exponent rest
      | none => build decimals 0 rest
    | none => (exponent? rest).bind fun (exponent, rest) => build [] exponent rest

/-- Infinity or not a number, with a sign or without. -/
def specialFloat : Reader Value := fun cs =>
  match sign cs with
  | (negative, 'i' :: 'n' :: 'f' :: rest) => some (.float (.infinite negative), rest)
  | (_, 'n' :: 'a' :: 'n' :: rest) => some (.float .nan, rest)
  | _ => none

/-- A number of exactly so many decimal digits that lies between two bounds. -/
def field (count low high : Nat) : Reader Nat := fun cs =>
  let digits := cs.take count
  if digits.length = count ∧ digits.all Text.isDigit then
    let value := digitsValue 10 digits
    if low ≤ value ∧ value ≤ high then some (value, cs.drop count) else none
  else none

/-- The rest after one given character. -/
def expect (wanted : Char) : List Char → Option (List Char)
  | c :: rest => if c = wanted then some rest else none
  | [] => none

def daysInMonth (year month : Nat) : Nat :=
  let leap := year % 4 = 0 ∧ (year % 100 ≠ 0 ∨ year % 400 = 0)
  if month = 2 then (if leap then 29 else 28)
  else if month = 4 ∨ month = 6 ∨ month = 9 ∨ month = 11 then 30
  else 31

def two (n : Nat) : String := String.ofList (Decimal.padded 2 n)

/-- A calendar date. -/
def date : Reader String := fun cs => do
  let (year, cs) ← field 4 0 9999 cs
  let cs ← expect '-' cs
  let (month, cs) ← field 2 1 12 cs
  let cs ← expect '-' cs
  let (day, cs) ← field 2 1 (daysInMonth year month) cs
  some (String.ofList (Decimal.padded 4 year) ++ "-" ++ two month ++ "-" ++ two day, cs)

/-- The decimals of a second, at most nine of them, without zeros at the end. -/
def secondFraction (cs : List Char) : String × List Char :=
  match cs with
  | '.' :: rest =>
    let digits := rest.takeWhile Text.isDigit
    let kept := ((digits.take 9).reverse.dropWhile (· == '0')).reverse
    if digits.isEmpty then ("", cs)
    else (if kept.isEmpty then "" else "." ++ String.ofList kept, rest.dropWhile Text.isDigit)
  | _ => ("", cs)

/-- A time of day. -/
def time : Reader String := fun cs => do
  let (hour, cs) ← field 2 0 23 cs
  let cs ← expect ':' cs
  let (minute, cs) ← field 2 0 59 cs
  let cs ← expect ':' cs
  let (second, cs) ← field 2 0 60 cs
  let (fraction, cs) := secondFraction cs
  some (two hour ++ ":" ++ two minute ++ ":" ++ two second ++ fraction, cs)

/-- A distance from universal time, empty if there is none. -/
def offset (cs : List Char) : Option (String × List Char) :=
  let signed (mark : String) (rest : List Char) : Option (String × List Char) := do
    let (hour, rest) ← field 2 0 23 rest
    let rest ← expect ':' rest
    let (minute, rest) ← field 2 0 59 rest
    some (mark ++ two hour ++ ":" ++ two minute, rest)
  match cs with
  | 'Z' :: rest => some ("Z", rest)
  | 'z' :: rest => some ("Z", rest)
  | '+' :: rest => signed "+" rest
  | '-' :: rest => signed "-" rest
  | _ => some ("", cs)

/-- The time after a date, empty if there is none. -/
def timeOfDate (cs : List Char) : Option (String × List Char) :=
  match cs with
  | c :: rest =>
    if c == 'T' || c == 't' || c == ' ' then
      match time rest with
      | some (time, rest) =>
        (offset rest).map fun (offset, rest) => ("T" ++ time ++ offset, rest)
      | none => some ("", cs)
    else some ("", cs)
  | [] => some ("", cs)

/-- A date, a time, or both. -/
def datetime : Reader Value := fun cs =>
  match date cs with
  | some (date, rest) =>
    (timeOfDate rest).map fun (time, rest) => (.datetime (date ++ time), rest)
  | none => (time cs).map fun (time, rest) => (.datetime time, rest)

/-- A date, a floating point number or an integer: the first of them that the
text begins with. -/
def number : Reader Value := fun cs =>
  match datetime cs with
  | some found => some found
  | none =>
    match decimalFloat cs with
    | some found => some found
    | none =>
      match specialFloat cs with
      | some found => some found
      | none => integer cs

def boolean : Reader Value
  | 't' :: 'r' :: 'u' :: 'e' :: rest => some (.boolean true, rest)
  | 'f' :: 'a' :: 'l' :: 's' :: 'e' :: rest => some (.boolean false, rest)
  | _ => none

end Toml
end LoadRamp
