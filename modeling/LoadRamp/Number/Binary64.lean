import LoadRamp.Number.Rounding

/-!
# Binary floating point with 53 significant bits

Values are exact: a finite value is a sign and a rational magnitude, and every
operation is the exact operation followed by one rounding to nearest with ties
to even.

* `roundSignificand` rounds a rational to 53 significant bits, with no bound on
  the exponent.  It is what arithmetic far from both ends of the range does.
* `Binary64.ofRat` adds the two ends: no step finer than `2 ^ -1074`, and
  infinity above the largest finite value.
-/

namespace LoadRamp
namespace Number

/-- The distance between neighbours with 53 significant bits around a positive
rational. -/
def significandStep (q : Rat) : Rat := twoTo (binaryExponent q - 52)

/-- A positive rational rounded to a multiple of a step. -/
def roundToStep (step q : Rat) : Rat := (nearestEven (q / step) : Rat) * step

/-- A rational rounded to 53 significant bits, ties to even. -/
def roundSignificand (q : Rat) : Rat :=
  if q = 0 then 0
  else if 0 < q then roundToStep (significandStep q) q
  else -roundToStep (significandStep (-q)) (-q)

/-- A binary floating point value.  The sign of a zero counts. -/
inductive Binary64
  | nan
  | infinite (negative : Bool)
  | finite (negative : Bool) (magnitude : Rat)
  deriving DecidableEq

namespace Binary64

/-- The finest step of the format. -/
def finestStep : Rat := twoTo (-1074)

/-- The first magnitude that is too large to be finite. -/
def overflowBound : Rat := twoTo 1024

/-- The value nearest to a magnitude that is not negative, with a given sign. -/
def ofMagnitude (negative : Bool) (magnitude : Rat) : Binary64 :=
  if magnitude ≤ 0 then .finite negative 0
  else
    let step := significandStep magnitude
    let rounded := roundToStep (if step < finestStep then finestStep else step) magnitude
    if overflowBound ≤ rounded then .infinite negative else .finite negative rounded

/-- The value nearest to a rational; zero is positive. -/
def ofRat (q : Rat) : Binary64 :=
  if q < 0 then ofMagnitude true (-q) else ofMagnitude false q

/-- The value nearest to `digits * 10 ^ exponent` with a given sign.  Exponents
far outside the range are cut first, which cannot change the value and keeps the
powers of ten small. -/
def ofDecimal (negative : Bool) (digits : Nat) (exponent : Int) : Binary64 :=
  if digits = 0 then .finite negative 0
  else
    let top : Int := exponent + (digits.log2 : Int) / 3
    if top + 1 < -400 then .finite negative 0
    else if 400 < exponent then .infinite negative
    else ofMagnitude negative ((digits : Rat) * tenTo exponent)

/-- The exact value of a finite number. -/
def toRat? : Binary64 → Option Rat
  | .finite sign magnitude => some (if sign then -magnitude else magnitude)
  | _ => none

/-- The product of a value with a positive finite rational of the format. -/
def scaleBy (factor : Rat) : Binary64 → Binary64
  | .finite sign magnitude => ofMagnitude sign (magnitude * factor)
  | other => other

/-- The quotient of a value and a positive finite rational of the format. -/
def divideBy (divisor : Rat) : Binary64 → Binary64
  | .finite sign magnitude => ofMagnitude sign (magnitude / divisor)
  | other => other

end Binary64
end Number
end LoadRamp
