import LoadRamp.Duration
import LoadRamp.Number.Binary64

/-!
# Ramp schedules

A schedule is a list of stages.  During a stage the wanted number of users moves
in a straight line from the target of the stage before it to its own target.

* `Schedule.make` accepts a list of stages whose durations add up to a positive
  duration, and the type keeps that fact.
* `Schedule.targetAt` is the number of users wanted at an instant: the line is
  computed with 53 significant bits at every step and rounded to a whole number.
-/

namespace LoadRamp

/-- A leg of a schedule. -/
structure Stage where
  duration : Duration
  target : Nat
  deriving DecidableEq

/-- A sequence of stages with a positive total duration. -/
structure Schedule where
  stages : List Stage
  /-- The number of users wanted at the very start. -/
  startTarget : Nat
  total : Duration
  total_eq : Duration.sum? (stages.map Stage.duration) = some total
  total_pos : 0 < total.nanos

namespace Schedule

/-- Why a list of stages is no schedule. -/
inductive Error
  | noStages
  | zeroDuration
  | overflow
  deriving DecidableEq

def Error.message : Error → String
  | .noStages => "at least one stage is required"
  | .zeroDuration => "stage durations must add up to more than zero"
  | .overflow => Duration.Overflow.ofList.message

/-- The schedule of some stages, if they make one. -/
def make (stages : List Stage) (startTarget : Nat) : Except Error Schedule :=
  if stages.isEmpty then .error .noStages
  else
    match h : Duration.sum? (stages.map Stage.duration) with
    | none => .error .overflow
    | some total =>
      if pos : 0 < total.nanos then .ok ⟨stages, startTarget, total, h, pos⟩
      else .error .zeroDuration

/-- The largest number of users that a schedule names. -/
def peakTarget (s : Schedule) : Nat :=
  (s.stages.map Stage.target).foldl max s.startTarget

/-- What a schedule wants at an instant. -/
inductive Target
  | active (users : Nat)
  | complete
  deriving DecidableEq

/-- The length of a span of nanoseconds in seconds: the whole seconds and the
fraction are rounded, and then their sum. -/
def inSeconds (nanos : Nat) : Rat :=
  Number.roundSignificand
    (Number.roundSignificand (nanos / 1000000000 : Nat) +
      Number.roundSignificand (((nanos % 1000000000 : Nat) : Rat) / 1000000000))

/-- The largest number of users. -/
def mostUsers : Nat := 18446744073709551615

/-- The number of users `part` nanoseconds into a stage of `whole` nanoseconds
that leads from one target to another. -/
def ramp (start finish part whole : Nat) : Nat :=
  let progress := Number.roundSignificand (inSeconds part / inSeconds whole)
  let low := Number.roundSignificand start
  let rise := Number.roundSignificand (Number.roundSignificand finish - low)
  let value := Number.roundSignificand (low + Number.roundSignificand (rise * progress))
  min (Number.nearestAway value).toNat mostUsers

/-- The target of the first of some consecutive stages that ends after the
instant `elapsed`, when the first of them starts at `start`. -/
def targetFrom (elapsed : Nat) : (start current : Nat) → List Stage → Target
  | _, _, [] => .complete
  | start, current, stage :: rest =>
    let finish := start + stage.duration.nanos
    if elapsed < finish then
      .active (ramp current stage.target (elapsed - start) stage.duration.nanos)
    else targetFrom elapsed finish stage.target rest

/-- What the schedule wants `elapsed` nanoseconds after its start. -/
def targetAt (s : Schedule) (elapsed : Nat) : Target :=
  if s.total.nanos ≤ elapsed then .complete
  else targetFrom elapsed 0 s.startTarget s.stages

end Schedule
end LoadRamp
