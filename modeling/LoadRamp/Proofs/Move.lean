import LoadRamp.Proofs.Deed
import LoadRamp.Run

/-!
# The moves of a run

An act such as a tick goes through all users of a run.  This module takes the
acts apart into moves that concern one user, or none, and says once what a run
can do:

* `Move` lists the moves with everything that makes them possible;
* `Reaches.keeps` is the principle for invariants: what holds at the start and is
  kept by every move holds wherever moves lead;
* the lemmas after it say what the functions of a run leave as it is.

The moves keep the order of happenings, so nothing about a history is lost.  A run that
breaks down in an act does so in the first move of it: what comes after that in the act
is done as before, but the peak and the gauge are left as they are.
-/

namespace LoadRamp

/-- Whether a happening is a remark of a run on its course that concerns no user. -/
def Happening.isRemark : Happening → Bool
  | .scalesUp _ _ | .scalesDown _ _ | .gauges _ | .interrupted | .waits _ => true
  | _ => false

/-- A remark is of no other kind. -/
theorem Happening.kinds_of_remark {what : Happening} (h : what.isRemark = true) :
    what.told? = none ∧ what.noticed? = none ∧ what.wanted? = none ∧ what.mark? = none := by
  cases what <;> first | exact ⟨rfl, rfl, rfl, rfl⟩ | cases h

/-- The number of users that a target asks for. -/
def Schedule.Target.users : Schedule.Target → Nat
  | .active users => users
  | .complete => 0

namespace Run

/-- The scene once an ended user is joined: an iteration that was cut short is
discarded. -/
def settled (p : Plan) (scene : Scene) (u : User) (ending : Ending) : Scene :=
  (match ending with
    | .aborted true => scene.discard
    | _ => scene).note (.joins u.name u.committed p.settings.gracePeriod ending)

/-- The scene and the users once one of them is told to stop. -/
def tellIn (state : Scene × List User) (user : Nat) : Scene × List User :=
  match state.2[user]? with
  | none => state
  | some u => ((u.tell state.1).1, state.2.set user (u.tell state.1).2)

/-- One thing that a run or one of its users does. -/
inductive Move (p : Plan) : Run → Run → Prop
  /-- A user does something by itself. -/
  | deed {r : Run} {user : Nat} {u : User} {outcome : Scene × User}
      (hu : r.users[user]? = some u)
      (hdeed : User.Deed p.workload (r.scene, u) outcome) :
      Move p r (r.update user outcome)
  /-- An abort takes effect. -/
  | land {r : Run} {user : Nat} {u : User} (haborting : user ∈ r.aborting)
      (hu : r.users[user]? = some u) :
      Move p r (r.update user (u.abort r.scene))
  /-- An active user that has ended is given up. -/
  | lose {r : Run} {front back : List Nat} {user : Nat} {u : User} {ending : Ending}
      (hactive : r.active = front ++ user :: back) (hu : r.users[user]? = some u)
      (hending : u.ending? = some ending) :
      Move p r
        { r.note (.lost u.name u.committed ending) with
          active := front ++ back, joined := r.joined ++ [user] }
  /-- A stopping user that has ended is joined. -/
  | joinStopping {r : Run} {front back : List Stopping} {s : Stopping} {u : User}
      {ending : Ending} (hstopping : r.stopping = front ++ s :: back)
      (hu : r.users[s.user]? = some u) (hending : u.ending? = some ending) :
      Move p r
        { r with
          scene := settled p r.scene u ending
          stopping := front ++ back, joined := r.joined ++ [s.user] }
  /-- A stopping user is out of time. -/
  | expire {r : Run} {front back : List Stopping} {s : Stopping}
      (hstopping : r.stopping = front ++ s :: back) (hgoing : r.isEnded s.user = false)
      (hlate : s.deadline ≤ r.scene.clock) :
      Move p r { r with stopping := front ++ back, aborting := r.aborting ++ [s.user] }
  /-- An aborted user that has ended is joined. -/
  | joinAborting {r : Run} {front back : List Nat} {user : Nat} {u : User} {ending : Ending}
      (haborting : r.aborting = front ++ user :: back) (hu : r.users[user]? = some u)
      (hending : u.ending? = some ending) :
      Move p r
        { r with
          scene := settled p r.scene u ending
          aborting := front ++ back, joined := r.joined ++ [user] }
  /-- A user is started. -/
  | spawn {r : Run} (hrunning : r.lifecycle = .running) : Move p r r.spawn
  /-- An active user is told to stop. -/
  | tell {r : Run} {front back : List Nat} {user : Nat}
      (hactive : r.active = front ++ user :: back) :
      Move p r
        { r with
          scene := (tellIn (r.scene, r.users) user).1
          users := (tellIn (r.scene, r.users) user).2
          active := front ++ back
          stopping := r.stopping ++ [⟨user, r.scene.clock + p.settings.gracePeriod.nanos⟩] }
  /-- A tick finds what the schedule wants. -/
  | tick {r : Run} (hrunning : r.lifecycle = .running) :
      Move p r
        { r.note (.ticks (p.schedule.targetAt r.scene.clock)) with
          peak := if r.broken then r.peak
            else max r.peak (p.schedule.targetAt r.scene.clock).users }
  /-- The gauge is set. -/
  | gauge {r : Run} (hrunning : r.lifecycle = .running) (users : Nat) :
      Move p r { r with gauge := users }
  /-- The run says something about its course. -/
  | remark {r : Run} {what : Happening} (hgoing : r.lifecycle ≠ .complete)
      (hremark : what.isRemark = true) :
      Move p r (r.note what)
  /-- Time passes. -/
  | wait {r : Run} (time : Nat) : Move p r { r with scene := r.scene.waitUntil time }
  /-- The run notes when its next tick is due, who moved last and who wants it to stop. -/
  | adjust {r : Run} (nextTick : Nat) (stopRequested interrupted : Bool)
      (latest? : Option Nat) :
      Move p r { r with nextTick, stopRequested, interrupted, latest? }
  /-- The grace period of somebody who is to stop now has no end. -/
  | breakDown {r : Run} (hrunning : r.lifecycle = .running)
      (hendless : p.deadline? r.scene.clock = none) :
      Move p r r.breakDown
  /-- The end of the run begins. -/
  | drain {r : Run} (hrunning : r.lifecycle = .running) :
      Move p r
        { r.note (.becomes .running .draining) with
          lifecycle := .draining, gauge := if r.broken then r.gauge else 0 }
  /-- The run is complete: nobody is left. -/
  | finish {r : Run} (hdraining : r.lifecycle = .draining) (hactive : r.active = [])
      (hstopping : r.stopping = []) (haborting : r.aborting = [])
      (hwhole : r.broken = false) :
      Move p r r.finish

/-- One move after the other. -/
abbrev Moves (p : Plan) : Run → Run → Prop := Relation.ReflTransGen (Move p)

/-- Whether moves lead from the start to a run. -/
def Reaches (p : Plan) (r : Run) : Prop := Moves p start r

/-- A run starts without users. -/
theorem getElem?_start (user : Nat) : start.users[user]? = none := rfl

/-- What holds at the start and is kept by every move holds of every run that is
reached.  The run before the move is one that is reached, too. -/
theorem Reaches.keeps {p : Plan} {P : Run → Prop} (hstart : P start)
    (hmove : ∀ r r', Reaches p r → Move p r r' → P r → P r') {r : Run} (hr : Reaches p r) :
    P r := by
  induction hr with
  | refl => exact hstart
  | tail hbefore hlast ih => exact hmove _ _ hbefore hlast ih

/-! ## What the functions of a run leave as it is -/

theorem isEnded_iff {r : Run} {user : Nat} :
    r.isEnded user = true ↔
      ∃ u ending, r.users[user]? = some u ∧ u.ending? = some ending := by
  unfold isEnded ending?
  cases hu : r.users[user]? with
  | none => simp
  | some u => simp [Option.isSome_iff_exists]

@[simp] theorem history_settled (p : Plan) (scene : Scene) (u : User) (ending : Ending) :
    (settled p scene u ending).history =
      ⟨scene.clock, .joins u.name u.committed p.settings.gracePeriod ending⟩ ::
        scene.history := by
  unfold settled
  split <;> simp

@[simp] theorem clock_settled (p : Plan) (scene : Scene) (u : User) (ending : Ending) :
    (settled p scene u ending).clock = scene.clock := by
  unfold settled
  split <;> simp

theorem pick_settled {α : Type} (f : Happening → Option α) (p : Plan) (scene : Scene) (u : User)
    (ending : Ending) :
    (settled p scene u ending).pick f =
      scene.pick f ++ (f (.joins u.name u.committed p.settings.gracePeriod ending)).toList := by
  rw [← Scene.pick_note]
  apply Scene.pick_of_history
  rw [history_settled, Scene.history_note]

theorem pick_settled_none {α : Type} (f : Happening → Option α) {p : Plan} {scene : Scene}
    {u : User} {ending : Ending}
    (hnone : f (.joins u.name u.committed p.settings.gracePeriod ending) = none) :
    (settled p scene u ending).pick f = scene.pick f := by
  rw [pick_settled, hnone]
  exact List.append_nil _

/-- Telling a user to stop is heard by that user only. -/
theorem tellIn_eq {state : Scene × List User} {user : Nat} {u : User}
    (hu : state.2[user]? = some u) :
    tellIn state user = ((u.tell state.1).1, state.2.set user (u.tell state.1).2) := by
  simp only [tellIn, hu]

theorem pick_tell {α : Type} (f : Happening → Option α) (scene : Scene) (u : User) :
    (u.tell scene).1.pick f = scene.pick f ++ (f (.tells u.name)).toList := by
  rw [← Scene.pick_note]
  apply Scene.pick_of_history
  rw [User.history_tell, Scene.history_note]

theorem pick_tell_none {α : Type} (f : Happening → Option α) {scene : Scene} {u : User}
    (hnone : f (.tells u.name) = none) : (u.tell scene).1.pick f = scene.pick f := by
  rw [pick_tell, hnone]
  exact List.append_nil _

theorem finish_eq {r : Run} (hdraining : r.lifecycle = .draining) :
    r.finish =
      { r with
        lifecycle := .complete
        scene :=
          { r.scene.note (.becomes .draining .complete) with
            ledger := r.scene.ledger.close } } := by
  simp [Run.finish, become, hdraining, Lifecycle.canBecome, note]

/-- Giving up a user changes nothing but the scene. -/
theorem lose_eq {r : Run} {user : Nat} {u : User} {ending : Ending}
    (hu : r.users[user]? = some u) (hending : u.ending? = some ending) :
    r.lose user = r.note (.lost u.name u.committed ending) := by
  simp [lose, hu, hending]

theorem join_eq {p : Plan} {r : Run} {user : Nat} {u : User} {ending : Ending}
    (hu : r.users[user]? = some u) (hending : u.ending? = some ending) :
    r.join p user =
      { r with scene := settled p r.scene u ending, joined := r.joined ++ [user] } := by
  simp only [join, hu, hending]
  rfl

theorem tell_eq (r : Run) (user : Nat) :
    r.tell user =
      { r with
        scene := (tellIn (r.scene, r.users) user).1
        users := (tellIn (r.scene, r.users) user).2 } := by
  unfold tell tellIn
  dsimp only
  cases r.users[user]? <;> rfl

/-- The scene once an active user is given up. -/
def dismiss (users : List User) (scene : Scene) (user : Nat) : Scene :=
  match users[user]?.bind fun u => u.ending?.map (u, ·) with
  | none => scene
  | some (u, ending) => scene.note (.lost u.name u.committed ending)

/-- The scene once a user is joined. -/
def settle (p : Plan) (users : List User) (scene : Scene) (user : Nat) : Scene :=
  match users[user]?.bind fun u => u.ending?.map (u, ·) with
  | none => scene
  | some (u, ending) => settled p scene u ending

section Ended

variable {users : List User} {user : Nat} {u : User} {ending : Ending}

theorem dismiss_eq (hu : users[user]? = some u) (hending : u.ending? = some ending)
    (scene : Scene) :
    dismiss users scene user = scene.note (.lost u.name u.committed ending) := by
  simp [dismiss, hu, hending]

theorem settle_eq {p : Plan} (hu : users[user]? = some u) (hending : u.ending? = some ending)
    (scene : Scene) : settle p users scene user = settled p scene u ending := by
  simp [settle, hu, hending]

end Ended

theorem foldl_lose (l : List Nat) (r : Run) (hended : ∀ user ∈ l, r.isEnded user = true) :
    l.foldl lose r = { r with scene := l.foldl (dismiss r.users) r.scene } := by
  induction l generalizing r with
  | nil => rfl
  | cons user rest ih =>
    obtain ⟨u, ending, hu, hending⟩ := isEnded_iff.1 (hended user List.mem_cons_self)
    rw [List.foldl_cons, lose_eq hu hending, ih]
    · rw [List.foldl_cons, dismiss_eq hu hending]
      rfl
    · exact fun other hother => hended other (List.mem_cons_of_mem _ hother)

theorem foldl_join (p : Plan) (l : List Nat) (r : Run)
    (hended : ∀ user ∈ l, r.isEnded user = true) :
    l.foldl (join p) r =
      { r with scene := l.foldl (settle p r.users) r.scene, joined := r.joined ++ l } := by
  induction l generalizing r with
  | nil => simp
  | cons user rest ih =>
    obtain ⟨u, ending, hu, hending⟩ := isEnded_iff.1 (hended user List.mem_cons_self)
    rw [List.foldl_cons, join_eq hu hending, ih]
    · simp [settle_eq hu hending]
    · exact fun other hother => hended other (List.mem_cons_of_mem _ hother)

theorem foldl_tell (l : List Nat) (r : Run) :
    l.foldl tell r =
      { r with
        scene := (l.foldl tellIn (r.scene, r.users)).1
        users := (l.foldl tellIn (r.scene, r.users)).2 } := by
  induction l generalizing r with
  | nil => rfl
  | cons user rest ih => rw [List.foldl_cons, tell_eq, ih]; rfl

@[simp] theorem clock_tellIn (state : Scene × List User) (user : Nat) :
    (tellIn state user).1.clock = state.1.clock := by
  unfold tellIn
  cases state.2[user]? with
  | none => rfl
  | some u =>
    dsimp only [User.tell]
    cases u.phase <;> rfl

@[simp] theorem clock_foldl_settle (p : Plan) (users : List User) (l : List Nat) (scene : Scene) :
    (l.foldl (settle p users) scene).clock = scene.clock := by
  induction l generalizing scene with
  | nil => rfl
  | cons user rest ih =>
    rw [List.foldl_cons, ih, settle]
    split <;> simp

@[simp] theorem clock_foldl_dismiss (users : List User) (l : List Nat) (scene : Scene) :
    (l.foldl (dismiss users) scene).clock = scene.clock := by
  induction l generalizing scene with
  | nil => rfl
  | cons user rest ih =>
    rw [List.foldl_cons, ih, dismiss]
    split <;> rfl

end Run
end LoadRamp
