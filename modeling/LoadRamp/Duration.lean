/-!
# Durations

A duration is a whole number of nanoseconds below `2 ^ 64` seconds.  The bound
is part of the type, so that a sum of durations is a partial operation:

* `Duration.add?` gives the sum, or nothing when it does not fit;
* `Duration.sum?` adds a list from the left;
* `Duration.clamp` cuts a number of nanoseconds to the longest duration;
* `Duration.divide` shares a duration out, the seconds first.
-/

namespace LoadRamp

/-- The number of nanoseconds at which durations end: `2 ^ 64` seconds. -/
def Duration.limit : Nat := 18446744073709551616 * 1000000000

/-- A span of time, in whole nanoseconds. -/
structure Duration where
  nanos : Nat
  bounded : nanos < Duration.limit
  deriving DecidableEq

namespace Duration

theorem ext {a b : Duration} (h : a.nanos = b.nanos) : a = b := by
  cases a; cases b; cases h; rfl

/-- The duration of that many nanoseconds, if there is one. -/
def ofNanos? (nanos : Nat) : Option Duration :=
  if h : nanos < limit then some ⟨nanos, h⟩ else none

/-- That many nanoseconds, or the longest duration when they are too many. -/
def clamp (nanos : Nat) : Duration :=
  if h : nanos < limit then ⟨nanos, h⟩ else ⟨limit - 1, by decide⟩

@[simp] theorem nanos_clamp {nanos : Nat} (h : nanos < limit) :
    (clamp nanos).nanos = nanos := by
  simp [clamp, h]

def zero : Duration := ⟨0, by decide⟩

instance : Inhabited Duration := ⟨zero⟩

@[simp] theorem nanos_zero : zero.nanos = 0 := rfl

def ofMillis (millis : Nat) : Duration := clamp (millis * 1000000)

def ofSeconds (seconds : Nat) : Duration := clamp (seconds * 1000000000)

/-- The whole seconds of a duration. -/
def seconds (d : Duration) : Nat := d.nanos / 1000000000

/-- The nanoseconds after the whole seconds. -/
def subsecond (d : Duration) : Nat := d.nanos % 1000000000

theorem subsecond_lt (d : Duration) : d.subsecond < 1000000000 :=
  Nat.mod_lt _ (by decide)

theorem seconds_subsecond (d : Duration) :
    d.seconds * 1000000000 + d.subsecond = d.nanos := by
  unfold seconds subsecond; omega

/-- The whole milliseconds of a duration. -/
def millis (d : Duration) : Nat := d.nanos / 1000000

/-- The whole microseconds of a duration. -/
def micros (d : Duration) : Nat := d.nanos / 1000

/-- What is left over, in nanoseconds, when the whole seconds of a duration and the
nanoseconds after them are each shared out among `n`. -/
def leftOver (d : Duration) (n : Nat) : Nat := d.seconds % n * 1000000000 + d.subsecond % n

/-- The shares of the seconds, of the nanoseconds after them and of what these two leave
over make up a share of the whole. -/
theorem shares (d : Duration) (n : Nat) :
    d.seconds / n * 1000000000 + (d.subsecond / n + d.leftOver n / n) = d.nanos / n := by
  rcases Nat.eq_zero_or_pos n with rfl | hn
  · simp
  have hsplit : d.nanos =
      d.leftOver n + n * (d.seconds / n * 1000000000 + d.subsecond / n) := by
    have hseconds := Nat.div_add_mod d.seconds n
    have hsubsecond := Nat.div_add_mod d.subsecond n
    have hwhole := d.seconds_subsecond
    rw [leftOver, Nat.mul_add, ← Nat.mul_assoc]
    omega
  rw [hsplit, Nat.add_mul_div_left _ _ hn]
  omega

/-- A duration divided by a number: the seconds are divided first, and what is left over
is carried into the nanoseconds. -/
def divide (d : Duration) (n : Nat) : Duration where
  nanos := d.seconds / n * 1000000000 + (d.subsecond / n + d.leftOver n / n)
  bounded := by
    rw [shares]
    exact Nat.lt_of_le_of_lt (Nat.div_le_self _ _) d.bounded

theorem nanos_divide (d : Duration) (n : Nat) : (d.divide n).nanos = d.nanos / n := d.shares n

/-- The kinds of sum that can be too long for a duration. -/
inductive Overflow
  /-- A list of durations was added up. -/
  | ofList
  /-- Two durations were added. -/
  | ofTwo
  /-- Nanoseconds were carried into the seconds. -/
  | ofCarry
  deriving DecidableEq

/-- What is said when a sum does not fit. -/
def Overflow.message : Overflow → String
  | .ofList => "overflow in iter::sum over durations"
  | .ofTwo => "overflow when adding durations"
  | .ofCarry => "overflow in Duration::new"

/-- The sum of two durations, if it fits. -/
def add? (a b : Duration) : Option Duration := ofNanos? (a.nanos + b.nanos)

theorem add?_eq_some {a b c : Duration} :
    a.add? b = some c ↔ a.nanos + b.nanos = c.nanos := by
  constructor
  · intro h
    unfold add? ofNanos? at h
    split at h
    · cases h; rfl
    · cases h
  · intro h
    have hb : a.nanos + b.nanos < limit := h ▸ c.bounded
    unfold add? ofNanos?
    rw [dif_pos hb]
    exact congrArg some (ext h)

theorem add?_eq_none {a b : Duration} :
    a.add? b = none ↔ limit ≤ a.nanos + b.nanos := by
  unfold add? ofNanos?
  split <;> simp <;> omega

/-- The durations of a list added from the left, if every partial sum fits. -/
def sum? (durations : List Duration) : Option Duration :=
  durations.foldlM add? zero

end Duration
end LoadRamp
