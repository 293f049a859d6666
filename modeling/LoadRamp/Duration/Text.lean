import LoadRamp.Duration
import LoadRamp.Number.Decimal

/-!
# Durations as text

A duration is written in the largest of the units s, ms, µs and ns in which it is
at least one, with as many decimals as it needs.
-/

namespace LoadRamp
namespace Duration

/-- Decimals of a fraction `part / 10 ^ places`, without zeros at the end. -/
def decimals : (places part : Nat) → List Char
  | 0, _ => []
  | places + 1, part =>
    if part = 0 then []
    else
      let unit := Nat.pow 10 places
      Number.Decimal.digitChar (part / unit) :: decimals places (part % unit)

/-- A number of units and the rest of a unit with so many decimals. -/
def inUnit (whole places part : Nat) (unit : String) : String :=
  let fraction := decimals places part
  Number.Decimal.write whole ++
    (if fraction.isEmpty then "" else "." ++ String.ofList fraction) ++ unit

/-- The text of a duration, such as `1.5s` or `20ms`. -/
def text (d : Duration) : String :=
  let n := d.nanos
  if 1000000000 ≤ n then inUnit (n / 1000000000) 9 (n % 1000000000) "s"
  else if 1000000 ≤ n then inUnit (n / 1000000) 6 (n % 1000000) "ms"
  else if 1000 ≤ n then inUnit (n / 1000) 3 (n % 1000) "µs"
  else inUnit n 0 0 "ns"

end Duration
end LoadRamp
