/-!
# Text in bytes

Reading UTF-8, strictly or with every broken piece shown as U+FFFD.

* `Utf8.firstPiece` splits off one character or one broken piece: the longest
  start of a well-formed sequence, or else a single byte.
* `Utf8.pieces` splits a whole list of bytes; `Utf8.decodeLossy` never fails,
  `Utf8.decode?` fails at the first broken piece.
-/

namespace LoadRamp
namespace Text
namespace Utf8

/-- The bytes of a text. -/
def encode (s : String) : List UInt8 := s.toUTF8.data.toList

/-- What some bytes begin with, and how many of them it takes. -/
inductive Piece
  | character (c : Char) (size : Nat)
  | broken (size : Nat)

/-- How many bytes follow a first byte, the range of the second byte, and the
bits that the first byte contributes. -/
def leadOf? (first : Nat) : Option (Nat × Nat × Nat × Nat) :=
  if first < 0xC2 then none
  else if first < 0xE0 then some (1, 0x80, 0xBF, first - 0xC0)
  else if first = 0xE0 then some (2, 0xA0, 0xBF, 0)
  else if first = 0xED then some (2, 0x80, 0x9F, 0xD)
  else if first < 0xF0 then some (2, 0x80, 0xBF, first - 0xE0)
  else if first = 0xF0 then some (3, 0x90, 0xBF, 0)
  else if first < 0xF4 then some (3, 0x80, 0xBF, first - 0xF0)
  else if first = 0xF4 then some (3, 0x80, 0x8F, 4)
  else none

/-- Follow a sequence that still needs `missing` bytes, the next one between
`low` and `high`; `size` bytes are read and stand for `value`. -/
def follow : (missing low high value size : Nat) → List UInt8 → Piece
  | 0, _, _, value, size, _ => .character (Char.ofNat value) size
  | _ + 1, _, _, _, size, [] => .broken size
  | missing + 1, low, high, value, size, b :: rest =>
    if low ≤ b.toNat ∧ b.toNat ≤ high then
      follow missing 0x80 0xBF (value * 64 + (b.toNat - 0x80)) (size + 1) rest
    else .broken size

/-- The first character or broken piece of nonempty bytes. -/
def firstPiece (b : UInt8) (rest : List UInt8) : Piece :=
  if b.toNat < 0x80 then .character (Char.ofNat b.toNat) 1
  else
    match leadOf? b.toNat with
    | none => .broken 1
    | some (missing, low, high, value) => follow missing low high value 1 rest

/-- The characters of some bytes; a broken piece is no character. -/
def pieces : List UInt8 → List (Option Char)
  | [] => []
  | b :: rest =>
    match firstPiece b rest with
    | .character c size => some c :: pieces (rest.drop (size - 1))
    | .broken size => none :: pieces (rest.drop (size - 1))
termination_by bytes => bytes.length
decreasing_by all_goals simp only [List.length_drop, List.length_cons]; omega

/-- The characters of some bytes, every broken piece as U+FFFD. -/
def decodeLossy (bytes : List UInt8) : List Char :=
  (pieces bytes).map (·.getD (Char.ofNat 0xFFFD))

/-- The characters of some bytes, if they are well formed. -/
def decode? (bytes : List UInt8) : Option (List Char) := (pieces bytes).mapM id

/-- The text of some bytes, every broken piece as U+FFFD. -/
def lossy (bytes : List UInt8) : String := String.ofList (decodeLossy bytes)

/-- The text of some bytes, if they are well formed. -/
def strict? (bytes : List UInt8) : Option String := (decode? bytes).map String.ofList

end Utf8
end Text
end LoadRamp
