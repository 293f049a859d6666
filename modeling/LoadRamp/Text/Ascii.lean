/-!
# Letter case in ASCII

Lower case and comparison without case for the letters `A` to `Z` alone; every
other character stands for itself.
-/

namespace LoadRamp
namespace Text

/-- The small letter of a capital ASCII letter, any other character unchanged. -/
def lowerChar (c : Char) : Char :=
  if 65 ≤ c.toNat ∧ c.toNat ≤ 90 then Char.ofNat (c.toNat + 32) else c

/-- A text with its ASCII letters in lower case. -/
def lower (s : String) : String := String.ofList (s.toList.map lowerChar)

/-- Whether two texts are equal but for the case of ASCII letters. -/
def sameIgnoringCase (s t : String) : Bool := lower s == lower t

theorem sameIgnoringCase_iff {s t : String} :
    sameIgnoringCase s t = true ↔ lower s = lower t := by
  simp [sameIgnoringCase]

def isLetter (c : Char) : Bool :=
  (65 ≤ c.toNat && c.toNat ≤ 90) || (97 ≤ c.toNat && c.toNat ≤ 122)

def isDigit (c : Char) : Bool := 48 ≤ c.toNat && c.toNat ≤ 57

end Text
end LoadRamp
