import LoadRamp.Settings
import LoadRamp.User

/-!
# Runs

A run starts and stops users so that their number follows a schedule.

* A user is in exactly one of four places: `active`, `stopping`, `aborting` or
  `joined`.  `Run.reap`, `Run.scaleTo` and `Run.drain` move users from one to the
  next and never back.
* A user that is told to stop gets the grace period to finish its iteration and
  is aborted after that.  Its iteration is discarded only if the abort cut it
  short.
* A grace period has to end at an instant.  Where it does not, the run breaks down
  before it tells anybody to stop, and is over.
* `Run.perform` says what each act does, at whatever moment it comes.  An act
  that is not possible leaves a run as it is, so that every list of acts is a
  history.
-/

namespace LoadRamp

/-- What a run is asked to do.  Its ticks are some time apart. -/
structure Plan where
  schedule : Schedule
  scenario : Scenario
  baseUrl : String
  transport : Transport
  settings : Settings
  /-- What the clock of the machine shows when the run starts, in nanoseconds. -/
  startsAt : Nat := 0
  tick_pos : 0 < settings.tickInterval.nanos

namespace Plan

/-- Why there is no plan. -/
inductive Error
  /-- There is no time between two ticks. -/
  | zeroTick
  deriving DecidableEq

def Error.message : Error → String
  | .zeroTick => "`period` must be non-zero."

/-- The plan of some parts, if ticks are some time apart. -/
def make (schedule : Schedule) (scenario : Scenario) (baseUrl : String)
    (transport : Transport) (settings : Settings) (startsAt : Nat := 0) : Except Error Plan :=
  if h : 0 < settings.tickInterval.nanos then
    .ok ⟨schedule, scenario, baseUrl, transport, settings, startsAt, h⟩
  else .error .zeroTick

/-- What every user of a plan does. -/
def workload (p : Plan) : Workload :=
  ⟨p.scenario, p.baseUrl, p.transport, p.settings.iterationDelay⟩

/-- The number of nanoseconds at which the clock of a machine ends: `2 ^ 63` seconds. -/
def lastInstant : Nat := 9223372036854775808 * 1000000000

/-- The end of a grace period that begins at an instant of the run, if the clock of the
machine gets there. -/
def deadline? (p : Plan) (clock : Nat) : Option Nat :=
  let deadline := clock + p.settings.gracePeriod.nanos
  if p.startsAt + deadline < lastInstant then some deadline else none

theorem deadline?_eq_some {p : Plan} {clock deadline : Nat}
    (h : p.deadline? clock = some deadline) :
    deadline = clock + p.settings.gracePeriod.nanos := by
  unfold deadline? at h
  dsimp only at h
  split at h
  · exact (Option.some.inj h).symm
  · cases h

theorem deadline?_eq_none_iff {p : Plan} {clock : Nat} :
    p.deadline? clock = none ↔
      lastInstant ≤ p.startsAt + (clock + p.settings.gracePeriod.nanos) := by
  unfold deadline?
  simp

/-- A grace period that begins later does not end earlier. -/
theorem deadline?_eq_none_of_le {p : Plan} {clock later : Nat} (h : p.deadline? clock = none)
    (hle : clock ≤ later) : p.deadline? later = none := by
  rw [deadline?_eq_none_iff] at h ⊢
  omega

end Plan

/-- A user that was told to stop, with the end of its grace period. -/
structure Stopping where
  user : Nat
  deadline : Nat
  deriving DecidableEq

/-- A run under way.  Users are known by their numbers, which are their places
in `users`. -/
structure Run where
  scene : Scene := {}
  users : List User := []
  /-- Running and not told to stop, the longest running first. -/
  active : List Nat := []
  /-- Told to stop, and not yet noticed to have done so. -/
  stopping : List Stopping := []
  /-- Aborted, and not yet noticed to have ended. -/
  aborting : List Nat := []
  /-- Noticed to have ended. -/
  joined : List Nat := []
  lifecycle : Lifecycle := .idle
  /-- The instant of the next tick. -/
  nextTick : Nat := 0
  /-- The number of active users after the latest tick. -/
  gauge : Nat := 0
  /-- The largest number of active users after a tick. -/
  peak : Nat := 0
  /-- Whether somebody outside asked to stop. -/
  stopRequested : Bool := false
  /-- Whether the run was left because of that. -/
  interrupted : Bool := false
  /-- Whether the run broke down. -/
  broken : Bool := false
  /-- The user that took the latest step, if a user took it. -/
  latest? : Option Nat := none

namespace Run

/-- A run that has not started. -/
def idle : Run := {}

def note (r : Run) (what : Happening) : Run := { r with scene := r.scene.note what }

def ending? (r : Run) (user : Nat) : Option Ending := r.users[user]?.bind User.ending?

def isEnded (r : Run) (user : Nat) : Bool := (r.ending? user).isSome

/-- Move on to another state, if it may follow. -/
def become (r : Run) (after : Lifecycle) : Run :=
  if r.lifecycle.canBecome after then
    { r.note (.becomes r.lifecycle after) with lifecycle := after }
  else r.note (.refused r.lifecycle after)

/-- Start a run. -/
def start : Run := idle.become .running

/-! ## The end of users -/

/-- Give up an active user that has ended. -/
def lose (r : Run) (user : Nat) : Run :=
  match r.users[user]? with
  | none => r
  | some u =>
    match u.ending? with
    | none => r
    | some ending => r.note (.lost u.name u.committed ending)

/-- Account for a user that has ended after it was told to stop. -/
def join (p : Plan) (r : Run) (user : Nat) : Run :=
  match r.users[user]? with
  | none => r
  | some u =>
    match u.ending? with
    | none => r
    | some ending =>
      let scene :=
        match ending with
        | .aborted true => r.scene.discard
        | _ => r.scene
      let scene := scene.note (.joins u.name u.committed p.settings.gracePeriod ending)
      { r with scene, joined := r.joined ++ [user] }

/-- Give up the active users that have ended; they will be replaced. -/
def reapActive (r : Run) : Run :=
  let gone := r.active.filter r.isEnded
  let kept := r.active.filter fun user => !r.isEnded user
  { gone.foldl lose r with active := kept, joined := r.joined ++ gone }

/-- Join the stopping users that have ended, and abort those whose grace period
is over. -/
def reapStopping (p : Plan) (r : Run) : Run :=
  let gone := (r.stopping.filter fun s => r.isEnded s.user).map Stopping.user
  let kept := r.stopping.filter fun s => !r.isEnded s.user
  let late := kept.filter fun s => s.deadline ≤ r.scene.clock
  let early := kept.filter fun s => !decide (s.deadline ≤ r.scene.clock)
  { gone.foldl (join p) r with
    stopping := early, aborting := r.aborting ++ late.map Stopping.user }

/-- Join the aborted users whose abort has taken effect. -/
def reapAborting (p : Plan) (r : Run) : Run :=
  let gone := r.aborting.filter r.isEnded
  let kept := r.aborting.filter fun user => !r.isEnded user
  { gone.foldl (join p) r with aborting := kept }

/-- Notice which users have ended. -/
def reap (p : Plan) (r : Run) : Run := ((r.reapActive).reapStopping p).reapAborting p

/-! ## The number of users -/

/-- The name of a user. -/
def userName (user : Nat) : String := "vu-" ++ Number.Decimal.write user

/-- Start one more user. -/
def spawn (r : Run) : Run :=
  let user := r.users.length
  { r with
    users := r.users ++ [{ name := userName user, turn := r.scene.waits }]
    active := r.active ++ [user]
    scene := r.scene.countWait }

/-- Start that many users. -/
def spawnMany : Nat → Run → Run
  | 0, r => r
  | n + 1, r => spawnMany n r.spawn

/-- Tell a user to stop. -/
def tell (r : Run) (user : Nat) : Run :=
  match r.users[user]? with
  | none => r
  | some u =>
    let (scene, u) := u.tell r.scene
    { r with scene, users := r.users.set user u }

/-- Tell some users to stop, one after the other.  All of them have the same
time for it. -/
def tellAll (deadline : Nat) (r : Run) (users : List Nat) : Run :=
  { users.foldl tell r with
    stopping := r.stopping ++ users.map fun user => ⟨user, deadline⟩ }

/-- Give up: what was to come next is not done. -/
def breakDown (r : Run) : Run := { r with broken := true }

/-- Take down how many users are active. -/
def measure (r : Run) : Run :=
  { r with peak := max r.peak r.active.length, gauge := r.active.length }.note
    (.gauges r.active.length)

/-- Start or stop users so that `target` of them are active.  The users that
have run the shortest are the first to stop. -/
def scaleTo (p : Plan) (r : Run) (target : Nat) : Run :=
  let count := r.active.length
  if count < target then
    (spawnMany (target - count) (r.note (.scalesUp count target))).measure
  else if target < count then
    let r := r.note (.scalesDown count target)
    match p.deadline? r.scene.clock with
    | none => r.breakDown
    | some deadline =>
      { r.tellAll deadline (r.active.drop target).reverse with
        active := r.active.take target }.measure
  else r.measure

/-! ## The end of a run -/

/-- Join the first stopping users that have ended, and abort the first whose
grace period is over; wait for the one after them. -/
def drainStopping (p : Plan) (r : Run) : List Stopping → Run
  | [] => { r with stopping := [] }
  | s :: rest =>
    if r.isEnded s.user then drainStopping p (r.join p s.user) rest
    else if s.deadline ≤ r.scene.clock then
      drainStopping p { r with aborting := r.aborting ++ [s.user] } rest
    else { r with stopping := s :: rest }

/-- Join the first aborted users whose abort has taken effect, and wait for the
one after them. -/
def drainAborting (p : Plan) (r : Run) : List Nat → Run
  | [] => { r with aborting := [] }
  | user :: rest =>
    if r.isEnded user then drainAborting p (r.join p user) rest
    else { r with aborting := user :: rest }

/-- Complete a run: nothing is counted after that. -/
def finish (r : Run) : Run :=
  let r := r.become .complete
  { r with scene := { r.scene with ledger := r.scene.ledger.close } }

/-- Go on with the end of a run: first the stopping users, then the aborted
ones, and when there are none the run is complete. -/
def drain (p : Plan) (r : Run) : Run :=
  let r := r.drainStopping p r.stopping
  if r.stopping.isEmpty then
    let r := r.drainAborting p r.aborting
    if r.aborting.isEmpty then r.finish else r
  else r

/-- Tell every active user to stop. -/
def tellActive (deadline : Nat) (r : Run) : Run :=
  let r := { r.tellAll deadline r.active with active := [], gauge := 0 }
  let r := r.note (.gauges 0)
  r.note (.waits (r.stopping.length + r.aborting.length))

/-- Begin the end of a run. -/
def beginDrain (p : Plan) (r : Run) : Run :=
  let r := r.become .draining
  match p.deadline? r.scene.clock with
  | none => r.breakDown
  | some deadline => (r.tellActive deadline).drain p

/-! ## Acts -/

/-- What can happen next in a run. -/
inductive Act
  /-- A user takes its step. -/
  | step (user : Nat)
  /-- The abort of a user takes effect. -/
  | land (user : Nat)
  /-- The run compares its users with the schedule. -/
  | tick
  /-- The run sees that somebody outside asked to stop. -/
  | interrupt
  /-- The run sees that a user it waits for has ended, or is too late. -/
  | drain
  /-- Somebody outside asks to stop. -/
  | stop
  /-- Time passes. -/
  | wait (time : Nat)
  deriving DecidableEq

/-- Put a user in place of the one with its number, after what it did. -/
def update (r : Run) (user : Nat) (outcome : Scene × User) : Run :=
  { r with scene := outcome.1, users := r.users.set user outcome.2 }

/-- How late a tick may be, in nanoseconds, before it puts off the ticks after it. -/
def slack : Nat := 5000000

/-- The instant of the tick after one that is handled now. -/
def tickAfter (p : Plan) (r : Run) : Nat :=
  let late := r.scene.clock - r.nextTick
  let latest := if late ≤ slack then r.nextTick else r.scene.clock
  latest + p.settings.tickInterval.nanos

/-- Compare the users with the schedule. -/
def tick (p : Plan) (r : Run) : Run :=
  let r := { r with nextTick := r.tickAfter p }
  let r := r.reap p
  let target := p.schedule.targetAt r.scene.clock
  let r := r.note (.ticks target)
  match target with
  | .active users => r.scaleTo p users
  | .complete => r.beginDrain p

/-- Leave the run early. -/
def interrupt (p : Plan) (r : Run) : Run :=
  { r.note .interrupted with interrupted := true }.beginDrain p

/-- What an act does to a run that has not broken down.  When ticks come is the business of
a ticker: the run handles each that comes while it is under way. -/
def handle (p : Plan) (r : Run) : Act → Run
  | .step user =>
    match r.users[user]? with
    | none => r
    | some u => { r.update user (u.step p.workload r.scene) with latest? := some user }
  | .land user =>
    if user ∈ r.aborting then
      match r.users[user]? with
      | none => r
      | some u => { r.update user (u.abort r.scene) with latest? := none }
    else r
  | .tick => if r.lifecycle = .running then { r.tick p with latest? := none } else r
  | .interrupt =>
    if r.lifecycle = .running ∧ r.stopRequested then { r.interrupt p with latest? := none } else r
  | .drain =>
    if r.lifecycle = .draining then { r.drain p with latest? := none } else r
  | .stop => { r with stopRequested := true, latest? := none }
  | .wait time => { r with scene := r.scene.waitUntil time, latest? := none }

/-- What an act does to a run.  One that has broken down is over, for its users, too. -/
def perform (p : Plan) (r : Run) (act : Act) : Run := if r.broken then r else r.handle p act

/-- What a list of acts does to a run. -/
def performAll (p : Plan) (r : Run) (acts : List Act) : Run := acts.foldl (perform p) r

end Run
end LoadRamp
