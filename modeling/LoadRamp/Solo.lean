import LoadRamp.StopPlan
import LoadRamp.User

/-!
# Users on their own

A single user outside a run, until it is told to stop or for a number of
iterations.  As with a run, `Solo.perform` says what each act does at whatever
moment it comes, and `Solo.play` picks one history: every step as soon as it is
possible, and time passes only while the user waits.
-/

namespace LoadRamp

/-- A user with the scene it has to itself. -/
structure Solo where
  scene : Scene
  user : User

namespace Solo

/-- A user that has not taken its first step. -/
def ready (name : String) : Solo := ⟨{}, { name }⟩

/-- What can happen next to a user on its own. -/
inductive Act
  | step
  /-- The user is told to stop. -/
  | tell
  /-- Time passes. -/
  | wait (time : Nat)
  deriving DecidableEq

/-- What an act does.  A user is told to stop only once. -/
def perform (w : Workload) (s : Solo) : Act → Solo
  | .step =>
    let (scene, user) := s.user.step w s.scene
    ⟨scene, user⟩
  | .tell =>
    if s.user.told then s
    else
      let (scene, user) := s.user.tell s.scene
      ⟨scene, user⟩
  | .wait time => { s with scene := s.scene.waitUntil time }

/-- What a list of acts does. -/
def performAll (w : Workload) (s : Solo) (acts : List Act) : Solo := acts.foldl (perform w) s

/-- The next instant at which something can happen, if there is one. -/
def nextInstant? (stop : StopPlan) (s : Solo) : Option Nat :=
  let ahead := if s.user.told then [] else stop.atTime?.toList
  (ahead ++ s.user.wakes?.toList).min?

/-- The act that is played next.  A user that can take a step does so before the instant
of a stop counts. -/
def nextAct? (stop : StopPlan) (s : Solo) : Option Act :=
  if s.user.isEnded then none
  else if !s.user.told && stop.isUrgent s.scene then some .tell
  else if s.user.isDue s.scene.clock then some .step
  else if !s.user.told && stop.isDue s.scene then some .tell
  else (nextInstant? stop s).map .wait

/-- Play a user until it has ended, at most the given number of acts. -/
def play (w : Workload) (stop : StopPlan) : Nat → Solo → Solo
  | 0, s => s
  | acts + 1, s =>
    match s.nextAct? stop with
    | none => s
    | some act => play w stop acts (s.perform w act)

/-- The scenes after each of some iterations without a pause, as far as they are
committed, and where the last one stands. -/
def iterate (w : Workload) (user : String) : Nat → Scene → List Scene × Scene × Progress
  | 0, scene => ([], scene, .committed)
  | n + 1, scene =>
    match Iteration.run w user scene with
    | (scene, .committed) =>
      let (later, outcome) := iterate w user n scene
      (scene :: later, outcome)
    | outcome => ([], outcome)

end Solo
end LoadRamp
