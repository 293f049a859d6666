/-!
# Decimal digits of natural numbers

Writing and reading natural numbers in decimal, over lists of characters.

* `Decimal.read?_digits` says that a written number reads back;
* `Decimal.digits_ne_nil` says that something is always written.
-/

namespace LoadRamp
namespace Number
namespace Decimal

/-- The character of a decimal digit. -/
def digitChar (digit : Nat) : Char := Char.ofNat (48 + digit)

/-- The value of a decimal digit, if the character is one. -/
def digitValue? (c : Char) : Option Nat :=
  if 48 ≤ c.toNat ∧ c.toNat ≤ 57 then some (c.toNat - 48) else none

def isDigit (c : Char) : Bool := (digitValue? c).isSome

/-- The digits of a number, most significant first, without leading zeros. -/
def digits (n : Nat) : List Char :=
  if n < 10 then [digitChar n] else digits (n / 10) ++ [digitChar (n % 10)]

/-- Digits read from the left onto a number already read. -/
def readFrom? : Nat → List Char → Option Nat
  | value, [] => some value
  | value, c :: rest =>
    match digitValue? c with
    | some digit => readFrom? (value * 10 + digit) rest
    | none => none

/-- The number that a nonempty list of digits stands for. -/
def read? : List Char → Option Nat
  | [] => none
  | c :: rest => readFrom? 0 (c :: rest)

/-- The decimal text of a natural number. -/
def write (n : Nat) : String := String.ofList (digits n)

/-- The decimal text of an integer, with a minus sign when it is negative. -/
def writeInt (z : Int) : String :=
  if z < 0 then "-" ++ write z.natAbs else write z.natAbs

/-- The text of a number, with zeros in front up to a width. -/
def padded (width n : Nat) : List Char :=
  let cs := digits n
  List.replicate (width - cs.length) '0' ++ cs

theorem digitValue?_digitChar {digit : Nat} (h : digit < 10) :
    digitValue? (digitChar digit) = some digit := by
  have hall : ∀ d : Fin 10, digitValue? (digitChar d.val) = some d.val := by decide
  exact hall ⟨digit, h⟩

theorem digits_ne_nil (n : Nat) : digits n ≠ [] := by
  unfold digits; split <;> simp

theorem readFrom?_append (value : Nat) (front back : List Char) :
    readFrom? value (front ++ back) = (readFrom? value front).bind (readFrom? · back) := by
  induction front generalizing value with
  | nil => rfl
  | cons c rest ih =>
    cases h : digitValue? c with
    | none => simp [readFrom?, h]
    | some digit => simp [readFrom?, h, ih]

theorem readFrom?_digits (n : Nat) : readFrom? 0 (digits n) = some n := by
  induction n using digits.induct with
  | case1 n h => simp [digits, h, readFrom?, digitValue?_digitChar h]
  | case2 n h ih =>
    have hlast := digitValue?_digitChar (Nat.mod_lt n (by decide : 0 < 10))
    rw [digits, if_neg h, readFrom?_append, ih]
    simp [readFrom?, hlast]
    omega

/-- A written number reads back. -/
theorem read?_digits (n : Nat) : read? (digits n) = some n := by
  have h := readFrom?_digits n
  cases hd : digits n with
  | nil => exact absurd hd (digits_ne_nil n)
  | cons c rest => rw [hd] at h; exact h

end Decimal
end Number
end LoadRamp
