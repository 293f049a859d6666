import LoadRamp.Number.Binary64
import LoadRamp.Number.Decimal

/-!
# The shortest decimal text of a floating point value

Of the decimal numbers that round to a given value, the text shows one with the
fewest digits, and of those the nearest one.  A `Style` decides where positional
notation ends and how a whole number is marked.
-/

namespace LoadRamp
namespace Number
namespace Shortest

/-- The rationals that round to a value: the open interval between the two
halfway points, with its ends when the significand is even. -/
structure Window where
  low : Rat
  high : Rat
  closed : Bool

namespace Window

def holds (w : Window) (q : Rat) : Bool :=
  if w.closed then w.low ≤ q && q ≤ w.high else w.low < q && q < w.high

/-- The window of a positive finite value. -/
def of (value : Rat) : Window :=
  let step := significandStep value
  let step := if step < Binary64.finestStep then Binary64.finestStep else step
  let significand := (value / step).floor
  let narrow := significand == 4503599627370496 && Binary64.finestStep < step
  ⟨value - step / (if narrow then 4 else 2), value + step / 2, significand % 2 == 0⟩

end Window

/-- The exponent of the largest power of ten that is at most a positive
rational. -/
def decimalExponent (q : Rat) : Int :=
  let guess := binaryExponent q * 30103 / 100000
  if tenTo (guess + 1) ≤ q then guess + 1
  else if tenTo guess ≤ q then guess
  else guess - 1

/-- A positive decimal number, `digits * 10 ^ exponent`. -/
structure Scientific where
  digits : Nat
  exponent : Int
  deriving DecidableEq

/-- The neighbour of `value` on the grid of multiples of `10 ^ exponent` that lies
in the window; of two the nearer, of two equally near the even one. -/
def onGrid? (w : Window) (value : Rat) (exponent : Int) : Option Scientific :=
  let unit := tenTo exponent
  let below := (value / unit).floor
  let above := below + 1
  let lowHit := 0 < below && w.holds ((below : Rat) * unit)
  let highHit := w.holds ((above : Rat) * unit)
  let lowGap := value - (below : Rat) * unit
  let highGap := (above : Rat) * unit - value
  if lowHit && (!highHit || lowGap < highGap || (lowGap == highGap && below % 2 == 0)) then
    some ⟨below.toNat, exponent⟩
  else if highHit then some ⟨above.toNat, exponent⟩
  else none

/-- The same number with no zero at the end of its digits; the number of digits
bounds the work. -/
def trim : Nat → Scientific → Scientific
  | 0, s => s
  | fuel + 1, s =>
    if s.digits % 10 = 0 ∧ s.digits ≠ 0 then trim fuel ⟨s.digits / 10, s.exponent + 1⟩ else s

/-- The decimal number with the fewest digits that rounds to a positive finite
value; seventeen digits always suffice. -/
def fewest (value : Rat) : Scientific :=
  let w := Window.of value
  let top := decimalExponent value
  let grids := (List.range 17).map fun (n : Nat) => top - Int.ofNat n
  match grids.findSome? (onGrid? w value) with
  | some s => trim 20 s
  | none => ⟨(value / tenTo (top - 16)).floor.toNat, top - 16⟩

/-- How the text of a finite value is laid out. -/
structure Style where
  /-- Whether a number with this decimal exponent is written without one. -/
  positional : Int → Bool
  /-- What follows a positional number that has no point. -/
  wholeMark : String

namespace Style

/-- All digits, and whole numbers without a mark. -/
def plain : Style := ⟨fun _ => true, ""⟩

/-- All digits, and whole numbers with a point and a zero. -/
def pointed : Style := ⟨fun _ => true, ".0"⟩

/-- An exponent below `10 ^ -5` and from `10 ^ 16` on. -/
def compact : Style := ⟨fun e => -5 ≤ e && e < 16, ".0"⟩

end Style

/-- A positional number from its digits and the exponent of their unit. -/
def positionalText (style : Style) (digits : List Char) (exponent : Int) : String :=
  if 0 ≤ exponent then
    String.ofList (digits ++ List.replicate exponent.toNat '0') ++ style.wholeMark
  else
    let places := (-exponent).toNat
    let padded := List.replicate (places + 1 - digits.length) '0' ++ digits
    let whole := padded.length - places
    String.ofList (padded.take whole) ++ "." ++ String.ofList (padded.drop whole)

/-- A number with an exponent of at least two digits and always a sign. -/
def scientificText (digits : List Char) (top : Int) : String :=
  let fraction := digits.drop 1
  String.ofList (digits.take 1) ++
    (if fraction.isEmpty then "" else "." ++ String.ofList fraction) ++
    (if top < 0 then "e-" else "e+") ++ String.ofList (Decimal.padded 2 top.natAbs)

def magnitudeText (style : Style) (magnitude : Rat) : String :=
  if magnitude ≤ 0 then positionalText style ['0'] 0
  else
    let s := fewest magnitude
    let digits := Decimal.digits s.digits
    let top := s.exponent + (digits.length : Int) - 1
    if style.positional top then positionalText style digits s.exponent
    else scientificText digits top

/-- The text of a floating point value. -/
def text (style : Style) : Binary64 → String
  | .nan => "NaN"
  | .infinite sign => if sign then "-inf" else "inf"
  | .finite sign magnitude => (if sign then "-" else "") ++ magnitudeText style magnitude

end Shortest
end Number
end LoadRamp
