/-!
# Sets of characters as ascending ranges

A character property is a list of ranges of code points, ascending and with both
ends included.
-/

namespace LoadRamp
namespace Text

/-- Whether a code point lies in one of the ascending ranges. -/
def inRanges : List (Nat × Nat) → Nat → Bool
  | [], _ => false
  | (low, high) :: rest, code =>
    if code < low then false else code ≤ high || inRanges rest code

end Text
end LoadRamp
