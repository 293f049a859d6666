import LoadRamp.Scene

/-!
# Stop plans

When somebody outside asks to stop: before the start, at an instant or as soon
as a number of requests is sent.  A plan may name none of them.
-/

namespace LoadRamp

structure StopPlan where
  atStart : Bool := false
  atTime? : Option Nat := none
  atRequest? : Option Nat := none

namespace StopPlan

def never : StopPlan := {}

/-- Whether a plan asks to stop before anything else happens in a scene. -/
def isUrgent (p : StopPlan) (scene : Scene) : Bool :=
  p.atStart ||
    match p.atRequest? with
    | none => false
    | some ordinal => ordinal ≤ scene.sent

/-- Whether the instant of a plan has come. -/
def isDue (p : StopPlan) (scene : Scene) : Bool :=
  match p.atTime? with
  | none => false
  | some time => time ≤ scene.clock

end StopPlan
end LoadRamp
