/-!
# Punycode

The characters that an encoded label of a domain name stands for.  A label is
split at its last hyphen into plain characters and digits; the digits say where
the other characters go.
-/

namespace LoadRamp
namespace Http
namespace Punycode

/-- The value of a digit in base thirty-six: the letters, then the decimal digits. -/
def digitValue? (c : Char) : Option Nat :=
  let n := c.toNat
  if 97 ≤ n ∧ n ≤ 122 then some (n - 97)
  else if 65 ≤ n ∧ n ≤ 90 then some (n - 65)
  else if 48 ≤ n ∧ n ≤ 57 then some (n - 22)
  else none

/-- The largest digit that ends a number at a position. -/
def threshold (position bias : Nat) : Nat :=
  if position ≤ bias then 1 else if bias + 26 ≤ position then 26 else position - bias

/-- Divide by thirty-five until the number is small, counting by thirty-six. -/
def shrink : (fuel delta count : Nat) → Nat × Nat
  | 0, delta, count => (delta, count)
  | fuel + 1, delta, count =>
    if 455 < delta then shrink fuel (delta / 35) (count + 36) else (delta, count)

/-- The bias after a number, given how many characters there are now. -/
def adapt (delta characters : Nat) (first : Bool) : Nat :=
  let delta := if first then delta / 700 else delta / 2
  let (delta, count) := shrink 32 (delta + delta / characters) 0
  count + 36 * delta / (delta + 38)

/-- A number of variable length and the digits after it. -/
def readNumber (bias : Nat) : (position weight value : Nat) → List Char →
    Option (Nat × List Char)
  | _, _, _, [] => none
  | position, weight, value, c :: rest =>
    match digitValue? c with
    | none => none
    | some digit =>
      let value := value + digit * weight
      let limit := threshold position bias
      if 4294967295 < value then none
      else if digit < limit then some (value, rest)
      else readNumber bias (position + 36) (weight * (36 - limit)) value rest

/-- Insert the characters that the digits stand for; `index` is where the next one
goes at the earliest. -/
def insertAll : (fuel code index bias : Nat) → (first : Bool) → List Char → List Char →
    Option (List Char)
  | 0, _, _, _, _, _, _ => none
  | _ + 1, _, _, _, _, done, [] => some done
  | fuel + 1, code, index, bias, first, done, digits =>
    match readNumber bias 36 1 0 digits with
    | none => none
    | some (delta, rest) =>
      let size := done.length + 1
      let place := index + delta
      let code := code + place / size
      let index := place % size
      if 0x10FFFF < code ∨ (0xD800 ≤ code ∧ code ≤ 0xDFFF) then none
      else
        insertAll fuel code (index + 1) (adapt delta size first) false
          (done.take index ++ Char.ofNat code :: done.drop index) rest

/-- The characters of an encoded label, without its mark. -/
def decode? (label : List Char) : Option (List Char) :=
  let digits := (label.reverse.takeWhile (· != '-')).reverse
  let plain := label.take (label.length - digits.length - 1)
  insertAll (digits.length + 1) 128 0 72 true plain digits

end Punycode
end Http
end LoadRamp
