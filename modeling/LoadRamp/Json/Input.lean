import LoadRamp.Number.Binary64
import LoadRamp.Number.Decimal
import LoadRamp.Number.Shortest
import LoadRamp.Problem
import LoadRamp.Text.Quoted
import LoadRamp.Text.Utf8

/-!
# Tokens of JSON text

Blanks, strings and numbers.  The input is a list of characters in which a broken
piece of UTF-8 is no character; such a piece is an error wherever it is looked at.

A reader either returns what it read with the rest of the input, or stops at the
first error: the text is malformed, or it is well formed so far and does not fit.
-/

namespace LoadRamp
namespace Json

abbrev Input := List (Option Char)

inductive Error
  | malformed
  | unfit (problem : Problem)
  deriving DecidableEq

abbrev Reader (α : Type) := Input → Except Error (α × Input)

/-- The input of a text. -/
def Input.ofText (text : String) : Input := text.toList.map some

/-- The input of some bytes. -/
def Input.ofBytes (bytes : List UInt8) : Input := Text.Utf8.pieces bytes

def isBlank (piece : Option Char) : Bool :=
  piece == some ' ' || piece == some '\n' || piece == some '\t' || piece == some '\r'

def skipBlanks (input : Input) : Input := input.dropWhile isBlank

/-- The rest after some fixed characters. -/
def expect : List Char → Input → Except Error Input
  | [], input => .ok input
  | c :: more, piece :: input => if piece = some c then expect more input else .error .malformed
  | _ :: _, [] => .error .malformed

/-! ## Strings -/

/-- The value of a digit in base sixteen. -/
def hexValue? (c : Char) : Option Nat :=
  let n := c.toNat
  if 48 ≤ n ∧ n ≤ 57 then some (n - 48)
  else if 65 ≤ n ∧ n ≤ 70 then some (n - 55)
  else if 97 ≤ n ∧ n ≤ 102 then some (n - 87)
  else none

/-- A number of exactly four digits in base sixteen. -/
def hexFour : Reader Nat
  | some a :: some b :: some c :: some d :: rest =>
    match hexValue? a, hexValue? b, hexValue? c, hexValue? d with
    | some a, some b, some c, some d => .ok (((a * 16 + b) * 16 + c) * 16 + d, rest)
    | _, _, _, _ => .error .malformed
  | _ => .error .malformed

/-- The character of an escape in base sixteen, which takes a second escape when
the first one is the first half of a pair. -/
def hexEscape : Reader Char := fun input => do
  let (code, rest) ← hexFour input
  if 0xDC00 ≤ code ∧ code ≤ 0xDFFF then .error .malformed
  else if 0xD800 ≤ code ∧ code ≤ 0xDBFF then
    let rest ← expect ['\\', 'u'] rest
    let (low, rest) ← hexFour rest
    if 0xDC00 ≤ low ∧ low ≤ 0xDFFF then
      .ok (Char.ofNat (0x10000 + (code - 0xD800) * 0x400 + (low - 0xDC00)), rest)
    else .error .malformed
  else .ok (Char.ofNat code, rest)

/-- The character that an escape of one letter stands for. -/
def plainEscape? (c : Char) : Option Char :=
  if c = '"' ∨ c = '\\' ∨ c = '/' then some c
  else if c = 'b' then some '\x08'
  else if c = 'f' then some '\x0c'
  else if c = 'n' then some '\n'
  else if c = 'r' then some '\r'
  else if c = 't' then some '\t'
  else none

/-- The character that an escape stands for, after its backslash. -/
def escape : Reader Char
  | some 'u' :: rest => hexEscape rest
  | some c :: rest =>
    match plainEscape? c with
    | some e => .ok (e, rest)
    | none => .error .malformed
  | _ => .error .malformed

/-- The rest of a string after its opening quote. -/
def stringRest : (fuel : Nat) → Reader (List Char)
  | fuel + 1, some c :: rest =>
    if c = '"' then .ok ([], rest)
    else if c = '\\' then do
      let (e, rest) ← escape rest
      let (text, rest) ← stringRest fuel rest
      .ok (e :: text, rest)
    else if c.toNat < 0x20 then .error .malformed
    else do
      let (text, rest) ← stringRest fuel rest
      .ok (c :: text, rest)
  | _, _ => .error .malformed

/-- A string after its opening quote. -/
def quotedText : Reader String := fun rest => do
  let (text, rest) ← stringRest (rest.length + 1) rest
  .ok (String.ofList text, rest)

/-- The rest after a string that nobody looks at.  Broken pieces and half pairs are
let through. -/
def skipString : (fuel : Nat) → Input → Except Error Input
  | fuel + 1, some c :: rest =>
    if c = '"' then .ok rest
    else if c = '\\' then
      match rest with
      | some 'u' :: rest => do
        let (_, rest) ← hexFour rest
        skipString fuel rest
      | some e :: rest =>
        if (plainEscape? e).isSome then skipString fuel rest else .error .malformed
      | _ => .error .malformed
    else if c.toNat < 0x20 then .error .malformed
    else skipString fuel rest
  | fuel + 1, none :: rest => skipString fuel rest
  | _, _ => .error .malformed

/-! ## Numbers -/

/-- A number as it is told apart: integers of 64 bits, and the rest. -/
inductive Numeral
  | natural (value : Nat)
  /-- The negative of a positive number. -/
  | negative (magnitude : Nat)
  | float (value : Number.Binary64)
  deriving DecidableEq

/-- The first number that does not fit a word of 64 bits. -/
def wordLimit : Nat := 18446744073709551616

def digitOf? : Option Char → Option Nat
  | some c => Number.Decimal.digitValue? c
  | none => none

/-- Digits read onto a significand as long as it fits a word; how many digits were
read comes with it. -/
def significand : (value count : Nat) → Input → Nat × Nat × Input
  | value, count, piece :: rest =>
    match digitOf? piece with
    | some digit =>
      if value * 10 + digit < wordLimit then significand (value * 10 + digit) (count + 1) rest
      else (value, count, piece :: rest)
    | none => (value, count, piece :: rest)
  | value, count, [] => (value, count, [])

/-- How many digits come next, and what comes after them. -/
def skipDigits : (count : Nat) → Input → Nat × Input
  | count, piece :: rest =>
    if (digitOf? piece).isSome then skipDigits (count + 1) rest else (count, piece :: rest)
  | count, [] => (count, [])

/-- A power of ten that floating point numbers are scaled with. -/
def scale (exponent : Nat) : Rat :=
  ((Number.Binary64.ofDecimal false 1 exponent).toRat?).getD 1

/-- A significand scaled by a power of ten, in floating point steps of at most
`10 ^ 308`.  A result that is too large is an error. -/
def scaled : (fuel : Nat) → Number.Binary64 → Int → Except Error Number.Binary64
  | 0, value, _ => .ok value
  | fuel + 1, value, exponent =>
    if exponent.natAbs ≤ 308 then
      if 0 ≤ exponent then
        match value.scaleBy (scale exponent.natAbs) with
        | .infinite _ => .error .malformed
        | result => .ok result
      else .ok (value.divideBy (scale exponent.natAbs))
    else if value = .finite false 0 then .ok value
    else if 0 ≤ exponent then .error .malformed
    else scaled fuel (value.divideBy (scale 308)) (exponent + 308)

def withSign (negative : Bool) : Number.Binary64 → Number.Binary64
  | .finite _ magnitude => .finite negative magnitude
  | .infinite _ => .infinite negative
  | .nan => .nan

def floatOf (negative : Bool) (significand : Nat) (exponent : Int) : Except Error Numeral := do
  let value ← scaled 4 (Number.Binary64.ofRat significand) exponent
  .ok (.float (withSign negative value))

/-- The largest exponent that is read digit by digit. -/
def mostExponent : Nat := 2147483647

/-- A decimal exponent after its letter, added to the exponent so far. -/
def exponentPart (negative : Bool) (digits : Nat) (start : Int) : Reader Numeral := fun input => do
  let (down, input) :=
    match input with
    | some '+' :: rest => (false, rest)
    | some '-' :: rest => (true, rest)
    | input => (false, input)
  let (count, rest) := skipDigits 0 input
  if count = 0 then .error .malformed
  else
    let value := (input.take count).foldl (fun v piece => v * 10 + (digitOf? piece).getD 0) 0
    if mostExponent < value then
      if digits ≠ 0 ∧ !down then .error .malformed
      else .ok (.float (.finite negative 0), rest)
    else
      let numeral ← floatOf negative digits (if down then start - value else start + value)
      .ok (numeral, rest)

/-- What follows the digits of a number that is no integer any more. -/
def floatRest (negative : Bool) (digits : Nat) (start : Int) : Reader Numeral
  | some 'e' :: rest => exponentPart negative digits start rest
  | some 'E' :: rest => exponentPart negative digits start rest
  | input => do
    let numeral ← floatOf negative digits start
    .ok (numeral, input)

/-- The decimals of a number, after its point. -/
def decimalPart (negative : Bool) (digits : Nat) (start : Int) : Reader Numeral := fun input =>
  let (digits, count, rest) := significand digits 0 input
  let (skipped, rest) := skipDigits 0 rest
  if count + skipped = 0 then .error .malformed
  else floatRest negative digits (start - count) rest

/-- What follows the whole part of a number. -/
def numberRest (negative : Bool) (digits : Nat) : Reader Numeral
  | some '.' :: rest => decimalPart negative digits 0 rest
  | some 'e' :: rest => exponentPart negative digits 0 rest
  | some 'E' :: rest => exponentPart negative digits 0 rest
  | input =>
    if !negative then .ok (.natural digits, input)
    else if 0 < digits ∧ digits ≤ 9223372036854775808 then .ok (.negative digits, input)
    else .ok (.float (.ofMagnitude true digits), input)

/-- A number after its sign. -/
def magnitude (negative : Bool) : Reader Numeral := fun input =>
  match input with
  | some '0' :: rest =>
    match rest with
    | next :: _ => if (digitOf? next).isSome then .error .malformed else numberRest negative 0 rest
    | [] => numberRest negative 0 rest
  | piece :: _ =>
    if (digitOf? piece).isNone then .error .malformed
    else
      let (digits, _, rest) := significand 0 0 input
      let (skipped, after) := skipDigits 0 rest
      if skipped = 0 then numberRest negative digits rest
      else
        match after with
        | some '.' :: after => decimalPart negative digits skipped after
        | after => floatRest negative digits skipped after
  | [] => .error .malformed

/-- A number. -/
def numeral : Reader Numeral
  | some '-' :: rest => magnitude true rest
  | input => magnitude false input

/-- The rest after a number that nobody looks at; its size does not matter. -/
def skipNumber (input : Input) : Except Error Input := do
  let input := if input.head? = some (some '-') then input.drop 1 else input
  let (count, rest) := skipDigits 0 input
  if count = 0 ∨ (1 < count ∧ input.head? = some (some '0')) then .error .malformed
  else
    let rest ←
      match rest with
      | some '.' :: rest =>
        let (count, rest) := skipDigits 0 rest
        if count = 0 then .error .malformed else Except.ok rest
      | rest => .ok rest
    match rest with
    | some c :: more =>
      if c = 'e' ∨ c = 'E' then
        let more :=
          match more with
          | some '+' :: more => more
          | some '-' :: more => more
          | more => more
        let (count, rest) := skipDigits 0 more
        if count = 0 then .error .malformed else .ok rest
      else .ok rest
    | rest => .ok rest

end Json
end LoadRamp
