import LoadRamp.Number.Decimal
import LoadRamp.Text.Quoted

/-!
# Writing JSON

Compact JSON text, as lists of characters.  Control characters and the two
characters that end or escape a string are escaped, everything else stands as it
is.
-/

namespace LoadRamp
namespace Json
namespace Write

/-- The form of a character in a string. -/
def character (c : Char) : List Char :=
  if c = '"' then ['\\', '"']
  else if c = '\\' then ['\\', '\\']
  else if c = '\x08' then ['\\', 'b']
  else if c = '\t' then ['\\', 't']
  else if c = '\n' then ['\\', 'n']
  else if c = '\x0c' then ['\\', 'f']
  else if c = '\r' then ['\\', 'r']
  else if c.toNat < 0x20 then
    ['\\', 'u', '0', '0', Text.hexDigit (c.toNat / 16), Text.hexDigit (c.toNat % 16)]
  else [c]

def text (s : String) : List Char := '"' :: s.toList.flatMap character ++ ['"']

def natural (n : Nat) : List Char := Number.Decimal.digits n

def integer (z : Int) : List Char :=
  if z < 0 then '-' :: natural z.natAbs else natural z.natAbs

/-- Texts with commas between them. -/
def separated : List (List Char) → List Char
  | [] => []
  | [only] => only
  | first :: rest => first ++ ',' :: separated rest

def array (items : List (List Char)) : List Char := '[' :: separated items ++ [']']

/-- An object from its keys and the texts of its values. -/
def object (members : List (String × List Char)) : List Char :=
  '\x7b' :: separated (members.map fun (key, value) => text key ++ ':' :: value) ++ ['\x7d']

end Write
end Json
end LoadRamp
