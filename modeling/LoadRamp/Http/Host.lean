import LoadRamp.Http.Punycode
import LoadRamp.Text.Ascii
import LoadRamp.Text.Combining
import LoadRamp.Text.Unprintable
import LoadRamp.Text.Utf8

/-!
# Hosts of URLs

A host is an address of version 6 in brackets, an address of version 4, or a
domain name.  A domain name whose last label is a number must be an address.

Names outside ASCII are brought to their plain form in part: wide letters and dots
become plain ones, invisible characters vanish, and characters that no name may
hold are refused.  The other mappings of the standard for international domain
names, and its rules for joiners and for text from right to left, are left out.
-/

namespace LoadRamp
namespace Http
namespace Host

/-- Why a text is no host. -/
inductive Error
  | empty
  | address4
  | address6
  | domain
  | character
  deriving DecidableEq

/-- What a host turned out to be. -/
inductive Kind
  | domain (name : List Char)
  | address4
  | address6
  deriving DecidableEq

/-- A value of a digit in base sixteen. -/
def hexValue? (c : Char) : Option Nat :=
  let n := c.toNat
  if 48 ≤ n ∧ n ≤ 57 then some (n - 48)
  else if 65 ≤ n ∧ n ≤ 70 then some (n - 55)
  else if 97 ≤ n ∧ n ≤ 102 then some (n - 87)
  else none

/-- The value of digits in a base; nothing if one of them is too large. -/
def based? (base : Nat) : (value : Nat) → List Char → Option Nat
  | value, [] => some value
  | value, c :: rest =>
    match hexValue? c with
    | some digit => if digit < base then based? base (value * base + digit) rest else none
    | none => none

/-! ## Addresses of version 4 -/

/-- The number that a label stands for, in base ten, eight or sixteen. -/
def number? : List Char → Option Nat
  | [] => none
  | '0' :: 'x' :: rest => based? 16 0 rest
  | '0' :: 'X' :: rest => based? 16 0 rest
  | '0' :: c :: rest => based? 8 0 (c :: rest)
  | cs => based? 10 0 cs

/-- The labels of a name, without an empty one at the end. -/
def labels (name : List Char) : List (List Char) :=
  let all := name.splitOn '.'
  if all.getLast? = some [] then all.dropLast else all

/-- Whether the last label is a number. -/
def endsInNumber (name : List Char) : Bool :=
  match (labels name).getLast? with
  | none => false
  | some last => (!last.isEmpty && last.all Text.isDigit) || (number? last).isSome

/-- Whether a name is an address: at most four numbers, of which the last one fills
what the others leave. -/
def isAddress4 (name : List Char) : Bool :=
  let parts := labels name
  match parts.mapM number? with
  | none => false
  | some numbers =>
    match numbers.getLast? with
    | none => false
    | some last =>
      parts.length ≤ 4 && numbers.dropLast.all (· ≤ 255) &&
        last < Nat.pow 256 (5 - parts.length)

/-! ## Addresses of version 6 -/

/-- The value of a decimal number of an address: at most 255 and without leading
zeros. -/
def isByte (digits : List Char) : Bool :=
  match digits with
  | [] => false
  | '0' :: rest => rest.isEmpty
  | cs => cs.all Text.isDigit && cs.length ≤ 3 && ((based? 10 0 cs).getD 256) ≤ 255

/-- Whether the end of an address is a plain address of version 4. -/
def isDotted (cs : List Char) : Bool :=
  let parts := cs.splitOn '.'
  parts.length == 4 && parts.all isByte

/-- Whether the text from a piece on completes an address in which `pieces` pieces
stand already; `compressed` says whether a gap has been seen. -/
def piecesFit : (fuel pieces : Nat) → (compressed : Bool) → List Char → Bool
  | 0, _, _, _ => false
  | _ + 1, pieces, compressed, [] => compressed || pieces == 8
  | fuel + 1, pieces, compressed, cs =>
    if pieces == 8 then false
    else
      match cs with
      | ':' :: rest => !compressed && piecesFit fuel (pieces + 1) true rest
      | _ =>
        let digits := (cs.take 4).takeWhile fun c => (hexValue? c).isSome
        match cs.drop digits.length with
        | [] => piecesFit fuel (pieces + 1) compressed []
        | '.' :: _ =>
          !digits.isEmpty && pieces ≤ 6 && isDotted cs && (compressed || pieces == 6)
        | ':' :: rest => !rest.isEmpty && piecesFit fuel (pieces + 1) compressed rest
        | _ => false

def isAddress6 (cs : List Char) : Bool :=
  match cs with
  | ':' :: ':' :: rest => piecesFit (rest.length + 2) 1 true rest
  | ':' :: _ => false
  | [] => false
  | [_] => false
  | _ => piecesFit (cs.length + 2) 0 false cs

/-! ## Domain names -/

/-- ASCII characters that no domain name may hold. -/
def isForbidden (c : Char) : Bool :=
  c.toNat ≤ 0x20 || c.toNat == 0x7F ||
    ['%', '#', '/', ':', '<', '>', '?', '@', '[', '\\', ']', '^', '|'].contains c

/-- The bytes of a text with every `%` and two digits taken as one byte. -/
def percentDecode : List UInt8 → List UInt8
  | a :: b :: c :: rest =>
    match hexValue? (Char.ofNat b.toNat), hexValue? (Char.ofNat c.toNat) with
    | some high, some low =>
      if a.toNat = 0x25 then UInt8.ofNat (high * 16 + low) :: percentDecode rest
      else a :: percentDecode (b :: c :: rest)
    | _, _ => a :: percentDecode (b :: c :: rest)
  | a :: rest => a :: percentDecode rest
  | [] => []

/-- The plain form of a character of a name; characters that do not show vanish. -/
def plainForm (c : Char) : List Char :=
  let n := c.toNat
  if n < 0x80 then [Text.lowerChar c]
  else if n = 0x3002 ∨ n = 0xFF0E ∨ n = 0xFF61 then ['.']
  else if 0xFF01 ≤ n ∧ n ≤ 0xFF5E then [Text.lowerChar (Char.ofNat (n - 0xFEE0))]
  else if n = 0x3000 then [' ']
  else if n = 0xAD ∨ n = 0x34F ∨ (0x180B ≤ n ∧ n ≤ 0x180F) ∨ n = 0x200B ∨ n = 0x2060 ∨
      n = 0x2064 ∨ n = 0xFEFF ∨ (0xFE00 ≤ n ∧ n ≤ 0xFE0F) then []
  else [c]

/-- Whether a character may stand in a name besides ASCII. -/
def isNameChar (c : Char) : Bool :=
  c.toNat < 0x80 || (!Text.isUnprintable c && c.toNat != 0xFFFD)

/-- Whether a label is well formed once it is plain. -/
def isLabel (label : List Char) : Bool :=
  match label with
  | 'x' :: 'n' :: '-' :: '-' :: encoded =>
    match Punycode.decode? encoded with
    | some decoded =>
      decoded.any (0x80 ≤ ·.toNat) && decoded.all isNameChar &&
        !(decoded.head?.any Text.isCombining)
    | none => false
  | _ => label.all isNameChar && !(label.head?.any Text.isCombining)

/-- The plain form of a domain name in bytes, if it is one. -/
def domain? (bytes : List UInt8) : Option (List Char) :=
  match Text.Utf8.decode? (percentDecode bytes) with
  | none => none
  | some cs =>
    let plain := cs.flatMap plainForm
    if plain.any isForbidden || !(plain.splitOn '.').all isLabel then none else some plain

/-- The host that a text names in a URL of a well-known scheme. -/
def parse (cs : List Char) : Except Error Kind :=
  match cs with
  | '[' :: rest =>
    if rest.getLast? = some ']' && isAddress6 rest.dropLast then .ok .address6
    else .error .address6
  | _ =>
    match domain? (Text.Utf8.encode (String.ofList cs)) with
    | none => .error .domain
    | some name =>
      if name.isEmpty then .error .empty
      else if endsInNumber name then
        if isAddress4 name then .ok .address4 else .error .address4
      else .ok (.domain name)

/-- Characters that no host of an unknown scheme may hold. -/
def isForbiddenOpaque (c : Char) : Bool :=
  ['\x00', '\t', '\n', '\r', ' ', '#', '/', ':', '<', '>', '?', '@', '[', '\\', ']', '^',
    '|'].contains c

/-- The host that a text names in a URL of any other scheme. -/
def parseOpaque (cs : List Char) : Except Error Kind :=
  match cs with
  | '[' :: rest =>
    if rest.getLast? = some ']' && isAddress6 rest.dropLast then .ok .address6
    else .error .address6
  | _ => if cs.any isForbiddenOpaque then .error .character else .ok (.domain cs)

end Host
end Http
end LoadRamp
