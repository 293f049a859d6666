import LoadRamp.Text.Quoted

/-!
# SHA3-256

The sponge of the Keccak permutation with a rate of 136 bytes and an output of
32 bytes.  A state is a list of 25 lanes of 64 bits; lane `x + 5 * y` stands in
column `x` and row `y`.
-/

namespace LoadRamp
namespace Digest

abbrev Lanes := Array UInt64

namespace Keccak

def lane (s : Lanes) (i : Nat) : UInt64 := s.getD i 0

/-- The state whose lanes are given by their places. -/
def build (f : Nat → UInt64) : Lanes := ((List.range 25).map f).toArray

def rotate (word : UInt64) (amount : Nat) : UInt64 :=
  if amount = 0 then word
  else (word <<< UInt64.ofNat amount) ||| (word >>> UInt64.ofNat (64 - amount))

/-- By how much each lane is rotated. -/
def rotations : Array Nat :=
  #[0, 1, 62, 28, 27, 36, 44, 6, 55, 20, 3, 10, 43, 25, 39, 41, 45, 15, 21, 8, 18, 2, 61, 56, 14]

/-- The constants of the twenty-four rounds. -/
def roundConstants : List UInt64 :=
  [0x0000000000000001, 0x0000000000008082, 0x800000000000808A, 0x8000000080008000,
   0x000000000000808B, 0x0000000080000001, 0x8000000080008081, 0x8000000000008009,
   0x000000000000008A, 0x0000000000000088, 0x0000000080008009, 0x000000008000000A,
   0x000000008000808B, 0x800000000000008B, 0x8000000000008089, 0x8000000000008003,
   0x8000000000008002, 0x8000000000000080, 0x000000000000800A, 0x800000008000000A,
   0x8000000080008081, 0x8000000000008080, 0x0000000080000001, 0x8000000080008008]

/-- The parity of a column. -/
def parity (s : Lanes) (x : Nat) : UInt64 :=
  lane s x ^^^ lane s (x + 5) ^^^ lane s (x + 10) ^^^ lane s (x + 15) ^^^ lane s (x + 20)

/-- Add to every lane the parities of two neighbouring columns. -/
def mixColumns (s : Lanes) : Lanes :=
  let parities := (List.range 5).map (parity s) |>.toArray
  build fun i =>
    lane s i ^^^ parities.getD ((i + 4) % 5) 0 ^^^ rotate (parities.getD ((i + 1) % 5) 0) 1

/-- Rotate the lanes and move them to other places: column `x` and row `y` go to
column `y` and row `2 * x + 3 * y`. -/
def scatter (s : Lanes) : Lanes :=
  build fun i =>
    let y := i % 5
    let x := (i / 5 + 2 * y) * 3 % 5
    let source := x + 5 * y
    rotate (lane s source) (rotations.getD source 0)

/-- Combine every lane with the next two in its row. -/
def mixRows (s : Lanes) : Lanes :=
  build fun i =>
    let row := i / 5 * 5
    lane s i ^^^ ((~~~ lane s (row + (i + 1) % 5)) &&& lane s (row + (i + 2) % 5))

def round (s : Lanes) (constant : UInt64) : Lanes :=
  let mixed := mixRows (scatter (mixColumns s))
  build fun i => if i = 0 then lane mixed 0 ^^^ constant else lane mixed i

def permute (s : Lanes) : Lanes := roundConstants.foldl round s

end Keccak

namespace Sha3

/-- The number of bytes that enter the state at once. -/
def rate : Nat := 136

/-- A message filled up to a multiple of the rate. -/
def pad (message : List UInt8) : List UInt8 :=
  let missing := rate - message.length % rate
  if missing = 1 then message ++ [0x86]
  else message ++ 0x06 :: List.replicate (missing - 2) 0 ++ [0x80]

/-- A lane from its bytes, the lowest first. -/
def laneOf (bytes : List UInt8) : UInt64 :=
  bytes.foldr (fun b word => word * 256 + b.toUInt64) 0

/-- Pieces of a given length. -/
def pieces (size : Nat) : (fuel : Nat) → List UInt8 → List (List UInt8)
  | 0, _ => []
  | fuel + 1, bytes =>
    if bytes.isEmpty then [] else bytes.take size :: pieces size fuel (bytes.drop size)

/-- The state after a block. -/
def absorb (s : Lanes) (block : List UInt8) : Lanes :=
  let lanes := (pieces 8 17 block).map laneOf |>.toArray
  Keccak.permute (Keccak.build fun i => Keccak.lane s i ^^^ lanes.getD i 0)

/-- The bytes of a lane, the lowest first. -/
def laneBytes (word : UInt64) : List UInt8 :=
  (List.range 8).map fun i => (word >>> UInt64.ofNat (8 * i)).toUInt8

/-- The digest of a message. -/
def digest (message : List UInt8) : List UInt8 :=
  let padded := pad message
  let s := (pieces rate (padded.length / rate) padded).foldl absorb (Keccak.build fun _ => 0)
  (List.range 4).flatMap fun i => laneBytes (Keccak.lane s i)

/-- A digest in base sixteen. -/
def hex (bytes : List UInt8) : String :=
  String.ofList <| bytes.flatMap fun b =>
    [Text.hexDigit (b.toNat / 16), Text.hexDigit (b.toNat % 16)]

end Sha3
end Digest
end LoadRamp
