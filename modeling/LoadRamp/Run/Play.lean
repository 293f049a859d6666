import LoadRamp.Run
import LoadRamp.StopPlan

/-!
# Playing a run

Of all the histories of a run, the one that is played takes every act as soon as
it is possible, and time passes only while everybody waits.  Of several acts at
one instant, a user that can go on without a pause does so; then aborts take
effect, users take their turns in the order in which they began to wait, and the
run itself comes last.
-/

namespace LoadRamp
namespace Run

/-- The user that took the latest step, if it can go on at once. -/
def continuing? (r : Run) : Option Nat :=
  r.latest?.filter fun user =>
    match r.users[user]? with
    | none => false
    | some u => u.isDue r.scene.clock

/-- The number and the turn of the first user to take a step, among some users
numbered from `number`. -/
def firstDue? (clock : Nat) : (number : Nat) → List User → Option (Nat × Nat)
  | _, [] => none
  | number, u :: rest =>
    match firstDue? clock (number + 1) rest with
    | none => if u.isDue clock then some (number, u.turn) else none
    | some (other, turn) =>
      if u.isDue clock && decide (u.turn ≤ turn) then some (number, u.turn)
      else some (other, turn)

/-- The act of the run itself that is possible now. -/
def ownAct? (r : Run) : Option Act :=
  match r.lifecycle with
  | .running =>
    if r.stopRequested then some .interrupt
    else if r.nextTick ≤ r.scene.clock then some .tick
    else none
  | .draining =>
    match r.stopping, r.aborting with
    | s :: _, _ =>
      if r.isEnded s.user || s.deadline ≤ r.scene.clock then some .drain else none
    | [], user :: _ => if r.isEnded user then some .drain else none
    | [], [] => some .drain
  | .idle | .complete => none

/-- The instants that the run itself waits for. -/
def ownInstants (r : Run) : List Nat :=
  match r.lifecycle with
  | .running => [r.nextTick]
  | .draining => (r.stopping.take 1).map Stopping.deadline
  | .idle | .complete => []

/-- The next instant at which something can happen, if there is one. -/
def nextInstant? (stop : StopPlan) (r : Run) : Option Nat :=
  let ahead := if r.stopRequested then [] else stop.atTime?.toList
  (ahead ++ r.ownInstants ++ r.users.filterMap User.wakes?).min?

/-- The act that is played next. -/
def nextAct? (stop : StopPlan) (r : Run) : Option Act :=
  if r.lifecycle = .complete ∨ r.broken then none
  else if !r.stopRequested && stop.isUrgent r.scene then some .stop
  else
    match r.continuing? with
    | some user => some (.step user)
    | none =>
      match r.aborting.find? fun user => !r.isEnded user with
      | some user => some (.land user)
      | none =>
        match firstDue? r.scene.clock 0 r.users with
        | some (user, _) => some (.step user)
        | none =>
          match r.ownAct? with
          | some act => some act
          | none =>
            if !r.stopRequested && stop.isDue r.scene then some .stop
            else (nextInstant? stop r).map .wait

/-- Play a run, at most the given number of acts. -/
def play (p : Plan) (stop : StopPlan) : Nat → Run → Run
  | 0, r => r
  | acts + 1, r =>
    match r.nextAct? stop with
    | none => r
    | some act => play p stop acts (r.perform p act)

end Run
end LoadRamp
