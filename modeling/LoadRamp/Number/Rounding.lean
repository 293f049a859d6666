/-!
# Rounding rationals to integers

The two roundings to a nearest integer that the library uses differ only in
where a half goes: `nearestEven` sends it to the even neighbour and
`nearestAway` away from zero.
-/

namespace LoadRamp
namespace Number

/-- The nearest integer; a half goes to the even neighbour. -/
def nearestEven (q : Rat) : Int :=
  let low := q.floor
  let rest := q - low
  if rest < 1 / 2 then low
  else if 1 / 2 < rest then low + 1
  else if low % 2 = 0 then low else low + 1

/-- The nearest integer; a half goes to the neighbour farther from zero. -/
def nearestAway (q : Rat) : Int :=
  if 0 ≤ q then (q + 1 / 2).floor else -((-q + 1 / 2).floor)

/-- A power of two with an integer exponent. -/
def twoTo (exponent : Int) : Rat :=
  if 0 ≤ exponent then ((Nat.pow 2 exponent.toNat : Nat) : Rat)
  else 1 / ((Nat.pow 2 (-exponent).toNat : Nat) : Rat)

/-- A power of ten with an integer exponent. -/
def tenTo (exponent : Int) : Rat :=
  if 0 ≤ exponent then ((Nat.pow 10 exponent.toNat : Nat) : Rat)
  else 1 / ((Nat.pow 10 (-exponent).toNat : Nat) : Rat)

/-- The exponent of the largest power of two that is at most the positive
rational `q`. -/
def binaryExponent (q : Rat) : Int :=
  let guess : Int := (q.num.natAbs.log2 : Int) - (q.den.log2 : Int)
  if twoTo guess ≤ q then guess else guess - 1

end Number
end LoadRamp
