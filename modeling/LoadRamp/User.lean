import LoadRamp.Iteration

/-!
# Users

A user runs one iteration after the other, with a pause between two of them,
until it is told to stop.  It looks for the word to stop before an iteration,
after one and during the pause, so an iteration under way is always finished.

`User.step` takes a user from one wait to the next; what it does to the rest of
the run is in the scene it returns.
-/

namespace LoadRamp

/-- What a user is doing between two of its steps. -/
inductive User.Phase
  /-- It has not taken its first step. -/
  | ready
  | busy (iteration : Iteration)
  /-- It pauses until an instant. -/
  | resting (wakes : Nat)
  | ended (ending : Ending)

/-- A user of a run. -/
structure User where
  name : String
  phase : User.Phase := .ready
  /-- Whether it was told to stop. -/
  told : Bool := false
  /-- The number of iterations it has committed. -/
  committed : Nat := 0
  /-- Its place among those who wait, in the order in which they began to. -/
  turn : Nat := 0

namespace User

def ending? (u : User) : Option Ending :=
  match u.phase with
  | .ended ending => some ending
  | _ => none

def isEnded (u : User) : Bool := u.ending?.isSome

/-- Whether an iteration of the user was opened and not committed. -/
def inIteration (u : User) : Bool :=
  match u.phase with
  | .busy _ | .ended (.crashed _) | .ended (.aborted true) => true
  | _ => false

/-- Whether a user can take a step at an instant. -/
def isDue (u : User) (clock : Nat) : Bool :=
  match u.phase with
  | .ready => true
  | .busy it => it.isDue clock
  | .resting wakes => u.told || wakes ≤ clock
  | .ended _ => false

/-- The instant at which the wait of a user will be over, if time alone ends it. -/
def wakes? (u : User) : Option Nat :=
  match u.phase with
  | .busy it => it.arrival?.map Arrival.time
  | .resting wakes => some wakes
  | .ready | .ended _ => none

/-- Tell a user to stop.  One that rests waits no longer, and takes its turn after those
who began to wait before it was told. -/
def tell (u : User) (scene : Scene) : Scene × User :=
  let after := (scene.note (.tells u.name)).countWait
  match u.phase with
  | .resting _ => (after, { u with told := true, turn := scene.waits })
  | _ => (after, { u with told := true })

/-- The end of a user that was told to stop. -/
def finish (u : User) (scene : Scene) : Scene × User :=
  (scene.note (.ends u.name u.committed), { u with phase := .ended .finished })

/-- Go on from where an iteration stands. -/
def proceed (w : Workload) (u : User) : Scene × Progress → Scene × User
  | (scene, .waiting it) =>
    (scene.countWait, { u with phase := .busy it, turn := scene.waits })
  | (scene, .broken message?) => (scene, { u with phase := .ended (.crashed message?) })
  | (scene, .committed) =>
    let u := { u with committed := u.committed + 1 }
    if u.told then u.finish scene
    else
      (scene.countWait,
        { u with phase := .resting (scene.clock + w.delay.nanos), turn := scene.waits })

/-- Start an iteration, unless told to stop. -/
def next (w : Workload) (u : User) (scene : Scene) : Scene × User :=
  if u.told then u.finish scene else u.proceed w (Iteration.start w u.name scene)

/-- The step of a user whose wait is over; other users stay where they are. -/
def step (w : Workload) (u : User) (scene : Scene) : Scene × User :=
  match u.phase with
  | .ready => u.next w (scene.note (.begins u.name))
  | .busy it =>
    if it.isDue scene.clock then u.proceed w (it.resume w u.name scene) else (scene, u)
  | .resting wakes =>
    if wakes ≤ scene.clock then u.next w scene
    else if u.told then u.finish scene
    else (scene, u)
  | .ended _ => (scene, u)

/-- The word to stop and the end of the pause may come at once: whichever is
seen first, the user does the same. -/
theorem next_of_told {w : Workload} {u : User} (h : u.told = true) (scene : Scene) :
    u.next w scene = u.finish scene := by
  simp [next, h]

/-- The end of a user that is aborted. -/
def abort (u : User) (scene : Scene) : Scene × User :=
  match u.phase with
  | .ended _ => (scene, u)
  | .busy _ =>
    (scene.note (.aborts u.name true), { u with phase := .ended (.aborted true) })
  | .ready | .resting _ =>
    (scene.note (.aborts u.name false), { u with phase := .ended (.aborted false) })

end User
end LoadRamp
