import LoadRamp.Proofs.Accounts
import LoadRamp.Proofs.Instants
import LoadRamp.Run.Play

/-!
# Punctual histories

In a history time may pass while the wait of a user is over, and then the user takes
its step late.  In a punctual one time passes no further than to the end of the next
wait.

* `Run.isPunctual` says so of a list of acts, and `exists_punctual_play` that the
  history that is played is punctual.
* `User.Timely` is the invariant: no wait of a user has been over for longer than an
  instant.
* `Run.Turn` lists what an act comes to: a user moves (`User.Follows`), time passes, or
  the run does something by itself, which moves no user (`Run.Still`).
-/

namespace LoadRamp

theorem Scene.AtOnce.mono {kind wider : Happening → Prop} {before after : Scene}
    (h : Scene.AtOnce kind before after) (hwider : ∀ what, kind what → wider what) :
    Scene.AtOnce wider before after := by
  obtain ⟨hclock, entries, hhistory, hall⟩ := h
  exact ⟨hclock, entries, hhistory, fun e he => ⟨(hall e he).1, hwider _ (hall e he).2⟩⟩

namespace User

/-- Whether the wait of a user is not over, or over just now. -/
def Timely (clock : Nat) (u : User) : Prop := ∀ wakes, u.wakes? = some wakes → clock ≤ wakes

theorem timely_of_not_waiting {clock : Nat} {u : User} (hnone : u.wakes? = none) :
    u.Timely clock := fun _ hwakes => by cases hnone.symm.trans hwakes

theorem timely_of_isEnded {clock : Nat} {u : User} (hended : u.isEnded = true) :
    u.Timely clock := by
  unfold isEnded ending? at hended
  split at hended
  · next hphase => exact timely_of_not_waiting (by rw [wakes?, hphase])
  · cases hended

theorem timely_of_phase {clock : Nat} {u v : User} (hphase : v.phase = u.phase)
    (h : u.Timely clock) : v.Timely clock := by
  unfold Timely wakes? at h ⊢
  rw [hphase]
  exact h

/-- Whether a happening is no end of an iteration, or the end of one that the user was in; only
a user that was not told to stop also ends one that it has only begun. -/
def EndsOwn (u : User) (what : Happening) : Prop :=
  what.told? = none ∧ ∀ name fate, what.mark? = some (name, .meets fate) →
    name = u.name ∧ (u.told = true → u.isBusy = true)

section Deed

variable {w : Workload} {u : User} {scene : Scene} {outcome : Scene × User}

theorem Sent.timely {group : Group} {later : List Group} {tally : Tally}
    (h : Sent w u group later tally scene outcome) : outcome.2.Timely scene.clock := by
  intro wakes hwakes
  cases h with
  | waits hanswer =>
    cases hreply : w.transport (scene.sent + 1) (group.request w.baseUrl) <;>
      simp only [wakes?, hreply, Answer.arrival?, Option.map_none, Option.map_some,
        Option.some.injEq, reduceCtorEq] at hwakes
    all_goals exact hwakes ▸ Nat.le_add_right _ _
  | breaks => cases hwakes

theorem clock_received {user : String} {it : Iteration} {reply : Http.Reply} :
    (it.received w user scene reply).clock = scene.clock :=
  (atOnce_received fun (what : Happening) (hnone : what.ending? = none) _ _ => hnone).1

/-- Whoever begins to wait waits for an instant that is still to come. -/
theorem Deed.timely (h : Deed w (scene, u) outcome) (htimely : u.Timely scene.clock) :
    outcome.2.Timely scene.clock := by
  cases h with
  | begin => exact htimely
  | leave => exact timely_of_not_waiting rfl
  | start hfree htold hgroups hsent => exact hsent.timely
  | advance hbusy harrival hdue hlater hsent => exact clock_received (w := w) ▸ hsent.timely
  | commit =>
    intro wakes hwakes
    obtain rfl := Option.some.inj hwakes
    rw [clock_received]
    exact Nat.le_add_right _ _
  | overflow | crash => exact timely_of_not_waiting rfl
  | queue => exact timely_of_phase rfl htimely

/-- What lies between a user and what becomes of it in a step: it takes no time, and the end of
an iteration in it is that of one which was under way, if the user was told to stop. -/
structure Follows (before after : Scene × User) : Prop where
  name_eq : after.2.name = before.2.name
  told_eq : after.2.told = before.2.told
  isBusy_of : before.2.told = true → after.2.isBusy = true → before.2.isBusy = true
  timely : before.2.Timely before.1.clock → after.2.Timely after.1.clock
  atOnce : Scene.AtOnce before.2.EndsOwn before.1 after.1

theorem endsOwn_of_none {u : User} {what : Happening} (htold : what.told? = none)
    (hmark : what.mark? = none) : u.EndsOwn what :=
  ⟨htold, fun _ _ hfate => by cases hmark.symm.trans hfate⟩

/-- The end of an iteration of the user itself. -/
theorem endsOwn_of_meets {u : User} {what : Happening} {fate : Fate} (htold : what.told? = none)
    (hmark : what.mark? = some (u.name, .meets fate))
    (hbusy : u.told = true → u.isBusy = true) : u.EndsOwn what := by
  refine ⟨htold, fun name other hother => ⟨?_, hbusy⟩⟩
  exact (Prod.mk.inj (Option.some.inj (hmark.symm.trans hother))).1.symm

theorem Sent.follows {group : Group} {later : List Group} {tally : Tally}
    (h : Sent w u group later tally scene outcome)
    (hbusy : u.told = true → u.isBusy = true) : Scene.AtOnce u.EndsOwn scene outcome.1 := by
  have hsends : Scene.AtOnce u.EndsOwn scene
      (scene.note (.sends u.name (group.request w.baseUrl))).countRequest :=
    ((Scene.AtOnce.of_history rfl rfl).note (endsOwn_of_none rfl rfl)).trans (.of_history rfl rfl)
  cases h with
  | waits => exact hsends
  | breaks => exact hsends.note (endsOwn_of_meets rfl rfl hbusy)

theorem Deed.follows (h : Deed w (scene, u) outcome) : Follows (scene, u) outcome := by
  have hsame (v : User) : Scene.AtOnce v.EndsOwn scene scene := .of_history rfl rfl
  have hreceived (it : Iteration) (reply : Http.Reply) :
      Scene.AtOnce u.EndsOwn scene (it.received w u.name scene reply) :=
    atOnce_received fun _ _ htold hmark => endsOwn_of_none htold hmark
  suffices hends : (u.told = true → outcome.2.isBusy = true → u.isBusy = true) ∧
      Scene.AtOnce u.EndsOwn scene outcome.1 by
    refine ⟨h.name_eq, h.told_eq, hends.1, ?_, hends.2⟩
    intro htimely
    exact hends.2.1.symm ▸ h.timely htimely
  cases h with
  | begin => exact ⟨fun _ hbusy => hbusy, (hsame u).note (endsOwn_of_none rfl rfl)⟩
  | leave => exact ⟨fun _ hbusy => (by cases hbusy), (hsame u).note (endsOwn_of_none rfl rfl)⟩
  | start hfree htold hgroups hsent =>
    have hnot : u.told ≠ true := by simp [htold]
    have hopens : u.EndsOwn (.opens u.name) := ⟨rfl, fun _ _ hmark => by cases hmark⟩
    exact ⟨fun htrue => absurd htrue hnot,
      ((hsame u).note hopens).trans (hsent.follows fun htrue => absurd htrue hnot)⟩
  | advance hphase harrival hdue hlater hsent =>
    exact ⟨fun _ _ => isBusy_of_busy hphase,
      (hreceived _ _).trans (hsent.follows fun _ => isBusy_of_busy hphase)⟩
  | commit hphase =>
    exact ⟨fun _ _ => isBusy_of_busy hphase, ((hreceived _ _).trans (.of_history rfl rfl)).note
      (endsOwn_of_meets rfl rfl fun _ => isBusy_of_busy hphase)⟩
  | overflow hphase =>
    exact ⟨fun _ _ => isBusy_of_busy hphase,
      (atOnce_timed fun _ _ htold hmark => endsOwn_of_none htold hmark).note
        (endsOwn_of_meets rfl rfl fun _ => isBusy_of_busy hphase)⟩
  | crash hphase =>
    exact ⟨fun _ _ => isBusy_of_busy hphase,
      (hsame u).note (endsOwn_of_meets rfl rfl fun _ => isBusy_of_busy hphase)⟩
  | queue => exact ⟨fun _ hbusy => hbusy, .of_history rfl rfl⟩

theorem Follows.trans {before middle after : Scene × User} (h : Follows before middle)
    (hlast : Follows middle after) : Follows before after where
  name_eq := hlast.name_eq.trans h.name_eq
  told_eq := hlast.told_eq.trans h.told_eq
  isBusy_of := fun htold hbusy =>
    h.isBusy_of htold (hlast.isBusy_of (h.told_eq.trans htold) hbusy)
  timely := fun htimely => hlast.timely (h.timely htimely)
  atOnce := by
    refine h.atOnce.trans (hlast.atOnce.mono fun what hends => ⟨hends.1, ?_⟩)
    intro name fate hmark
    obtain ⟨hname, hbusy⟩ := hends.2 name fate hmark
    exact ⟨hname.trans h.name_eq, fun htold => h.isBusy_of htold (hbusy (h.told_eq.trans htold))⟩

theorem step_follows (w : Workload) (u : User) (scene : Scene) :
    Follows (scene, u) (u.step w scene) := by
  refine Relation.ReflTransGen.head_induction_on (step_deeds w u scene) ?_ ?_
  · exact ⟨rfl, rfl, fun _ hbusy => hbusy, fun htimely => htimely, .of_history rfl rfl⟩
  · exact fun hdeed _ hrest => hdeed.follows.trans hrest

end Deed

/-- An abort in the middle of an iteration is its end, too. -/
theorem abort_follows (u : User) (scene : Scene) : Follows (scene, u) (u.abort scene) where
  name_eq := name_abort u scene
  told_eq := told_abort u scene
  isBusy_of := by
    intro _ hbusy
    obtain ⟨ending, hending⟩ := Option.isSome_iff_exists.1 (isEnded_abort u scene)
    rw [isBusy_of_ended hending] at hbusy
    cases hbusy
  timely := fun _ => timely_of_isEnded (isEnded_abort u scene)
  atOnce := by
    have hsame : Scene.AtOnce u.EndsOwn scene scene := .of_history rfl rfl
    unfold abort
    split
    · exact hsame
    · next it hphase =>
      exact hsame.note (endsOwn_of_meets rfl rfl fun _ => isBusy_of_busy hphase)
    · exact hsame.note (endsOwn_of_none rfl rfl)
    · exact hsame.note (endsOwn_of_none rfl rfl)

end User

namespace Run

/-! ## What a run does by itself -/

/-- Whether what lies between two moments of a run takes no time, moves no user and is the end of
no iteration. -/
structure Still (before after : Run) : Prop where
  atOnce : Scene.AtOnce (fun what => what.mark? = none) before.scene after.scene
  phases : ∀ v ∈ after.users, v.phase = .ready ∨ ∃ u ∈ before.users, v.phase = u.phase

section Still

variable (p : Plan) (r : Run)

theorem Still.refl : Still r r := ⟨.of_history rfl rfl, fun u hu => .inr ⟨u, hu, rfl⟩⟩

variable {r} {r' r'' : Run}

theorem Still.trans (h : Still r r') (hlast : Still r' r'') : Still r r'' where
  atOnce := h.atOnce.trans hlast.atOnce
  phases := by
    intro v hv
    rcases hlast.phases v hv with hready | ⟨u, hu, hphase⟩
    · exact .inl hready
    · rw [hphase]
      exact h.phases u hu

/-- What a run keeps in mind besides its scene and its users makes no difference. -/
theorem Still.congr (h : Still r r') (hscene : r''.scene = r'.scene)
    (husers : r''.users = r'.users) : Still r r'' where
  atOnce := by rw [hscene]; exact h.atOnce
  phases := by rw [husers]; exact h.phases

theorem Still.foldl {α : Type} {f : Run → α → Run} (hf : ∀ r a, Still r (f r a)) (l : List α)
    (h : Still r r') : Still r (l.foldl f r') := by
  induction l generalizing r' with
  | nil => exact h
  | cons a rest ih => exact ih (h.trans (hf r' a))

theorem Still.note (h : Still r r') {what : Happening} (hnone : what.mark? = none) :
    Still r (r'.note what) := ⟨h.atOnce.note hnone, h.phases⟩

theorem Still.become (h : Still r r') (after : Lifecycle) : Still r (r'.become after) := by
  unfold Run.become
  split
  · exact ⟨h.atOnce.note rfl, h.phases⟩
  · exact h.note rfl

theorem still_lose (r : Run) (user : Nat) : Still r (r.lose user) := by
  unfold lose
  split
  · exact .refl r
  · split
    · exact .refl r
    · exact (Still.refl r).note rfl

theorem still_join (r : Run) (user : Nat) : Still r (r.join p user) := by
  unfold join
  split
  · exact .refl r
  · split
    · exact .refl r
    · next ending _ =>
      refine ⟨Scene.AtOnce.note ?_ rfl, (Still.refl r).phases⟩
      cases ending with
      | aborted midway => cases midway <;> exact .of_history rfl rfl
      | finished | crashed => exact .of_history rfl rfl

theorem still_tell (r : Run) (user : Nat) : Still r (r.tell user) := by
  unfold tell
  split
  · exact .refl r
  · next u hu =>
    refine ⟨?_, ?_⟩
    · refine ⟨User.clock_tell u r.scene, [_], User.history_tell u r.scene, ?_⟩
      intro e he
      rw [List.mem_singleton.1 he]
      exact ⟨rfl, rfl⟩
    · intro v hv
      rcases List.mem_or_eq_of_mem_set hv with hold | rfl
      · exact .inr ⟨v, hold, rfl⟩
      · exact .inr ⟨u, List.mem_of_getElem? hu, User.phase_tell u r.scene⟩

theorem still_tellAll (deadline : Nat) (r : Run) (users : List Nat) :
    Still r (r.tellAll deadline users) :=
  (Still.foldl still_tell users (.refl r)).congr rfl rfl

theorem still_spawn (r : Run) : Still r r.spawn where
  atOnce := .of_history rfl rfl
  phases := by
    intro v hv
    rcases List.mem_append.1 hv with hold | hnew
    · exact .inr ⟨v, hold, rfl⟩
    · rw [List.mem_singleton.1 hnew]
      exact .inl rfl

theorem still_spawnMany (n : Nat) (r : Run) : Still r (spawnMany n r) := by
  induction n generalizing r with
  | zero => exact .refl r
  | succ n ih => exact (still_spawn r).trans (ih r.spawn)

theorem still_reap (r : Run) : Still r (r.reap p) := by
  have hjoins (r : Run) (gone : List Nat) : Still r (gone.foldl (join p) r) :=
    .foldl (still_join p) gone (.refl r)
  have hactive (r : Run) : Still r r.reapActive :=
    (Still.foldl still_lose (r.active.filter r.isEnded) (.refl r)).congr rfl rfl
  have hstopping (r : Run) : Still r (r.reapStopping p) := (hjoins r _).congr rfl rfl
  have haborting (r : Run) : Still r (r.reapAborting p) := (hjoins r _).congr rfl rfl
  exact ((hactive r).trans (hstopping _)).trans (haborting _)

theorem Still.measure (h : Still r r') : Still r r'.measure := by
  have hmeasured : Still r
      { r' with peak := max r'.peak r'.active.length, gauge := r'.active.length } :=
    h.congr rfl rfl
  exact hmeasured.note rfl

theorem Still.breakDown (h : Still r r') : Still r r'.breakDown := h.congr rfl rfl

theorem still_scaleTo (r : Run) (target : Nat) : Still r (r.scaleTo p target) := by
  have hup : Still r (r.note (.scalesUp r.active.length target)) := (Still.refl r).note rfl
  have hdown : Still r (r.note (.scalesDown r.active.length target)) := (Still.refl r).note rfl
  unfold scaleTo
  dsimp only
  split
  · exact (hup.trans (still_spawnMany _ _)).measure
  · split
    · split
      · exact hdown.breakDown
      · next deadline _ =>
        have htold := hdown.trans (still_tellAll deadline
          (r.note (.scalesDown r.active.length target)) (r.active.drop target).reverse)
        have hleft : Still r { (r.note (.scalesDown r.active.length target)).tellAll deadline
            (r.active.drop target).reverse with active := r.active.take target } :=
          htold.congr rfl rfl
        exact hleft.measure
    · exact (Still.refl r).measure

theorem still_drainStopping (l : List Stopping) (r : Run) : Still r (r.drainStopping p l) := by
  induction l generalizing r with
  | nil => exact (Still.refl r).congr rfl rfl
  | cons s rest ih =>
    unfold drainStopping
    split
    · exact (still_join p r s.user).trans (ih _)
    · split
      · have hlate : Still r { r with aborting := r.aborting ++ [s.user] } :=
          (Still.refl r).congr rfl rfl
        exact hlate.trans (ih _)
      · exact (Still.refl r).congr rfl rfl

theorem still_drainAborting (l : List Nat) (r : Run) : Still r (r.drainAborting p l) := by
  induction l generalizing r with
  | nil => exact (Still.refl r).congr rfl rfl
  | cons user rest ih =>
    unfold drainAborting
    split
    · exact (still_join p r user).trans (ih _)
    · exact (Still.refl r).congr rfl rfl

theorem still_drain (r : Run) : Still r (r.drain p) := by
  have hstopping := still_drainStopping p r.stopping r
  unfold drain
  dsimp only
  split
  · have haborting := hstopping.trans
      (still_drainAborting p (r.drainStopping p r.stopping).aborting _)
    split
    · have hcomplete := haborting.become .complete
      exact ⟨hcomplete.atOnce.trans (.of_history rfl rfl), hcomplete.phases⟩
    · exact haborting
  · exact hstopping

theorem still_tellActive (deadline : Nat) (r : Run) : Still r (r.tellActive deadline) := by
  have hgauge : Still r { r.tellAll deadline r.active with active := [], gauge := 0 } :=
    (still_tellAll deadline r r.active).congr rfl rfl
  exact (hgauge.note rfl).note rfl

theorem still_beginDrain (r : Run) : Still r (r.beginDrain p) := by
  have hleft := (Still.refl r).become .draining
  unfold beginDrain
  dsimp only
  split
  · exact hleft.breakDown
  · exact (hleft.trans (still_tellActive _ _)).trans (still_drain p _)

theorem still_tick (r : Run) : Still r (r.tick p) := by
  have hnext : Still r { r with nextTick := r.tickAfter p } := (Still.refl r).congr rfl rfl
  have hreaped : Still r (reaped p r) := hnext.trans (still_reap p _)
  cases htarget : p.schedule.targetAt r.scene.clock with
  | active users =>
    rw [tick_of_active htarget]
    exact (hreaped.note rfl).trans (still_scaleTo p _ users)
  | complete =>
    rw [tick_of_complete htarget]
    exact (hreaped.note rfl).trans (still_beginDrain p _)

end Still

/-- What an act comes to. -/
inductive Turn (r : Run) : Act → Run → Prop
  /-- No user moves and no time passes. -/
  | still {act : Act} {r' : Run} (h : Still r r') : Turn r act r'
  /-- A user takes its step, or its abort takes effect. -/
  | user {act : Act} {r' : Run} {user : Nat} {u : User} {outcome : Scene × User}
      (hu : r.users[user]? = some u) (hfollows : User.Follows (r.scene, u) outcome)
      (hscene : r'.scene = outcome.1) (husers : r'.users = r.users.set user outcome.2) :
      Turn r act r'
  /-- Time passes. -/
  | wait {time : Nat} {r' : Run} (hscene : r'.scene = r.scene.waitUntil time)
      (husers : r'.users = r.users) : Turn r (.wait time) r'

theorem handle_turn (p : Plan) (r : Run) (act : Act) : Turn r act (r.handle p act) := by
  cases act with
  | step user =>
    unfold handle
    dsimp only
    split
    · exact .still (.refl r)
    · next u hu => exact .user hu (User.step_follows p.workload u r.scene) rfl rfl
  | land user =>
    unfold handle
    dsimp only
    split
    · split
      · exact .still (.refl r)
      · next u hu => exact .user hu (User.abort_follows u r.scene) rfl rfl
    · exact .still (.refl r)
  | tick =>
    unfold handle
    dsimp only
    split
    · exact .still ((still_tick p r).congr rfl rfl)
    · exact .still (.refl r)
  | interrupt =>
    unfold handle
    dsimp only
    split
    · have hremark : Still r { r.note .interrupted with interrupted := true } :=
        ((Still.refl r).note rfl).congr rfl rfl
      exact .still ((hremark.trans (still_beginDrain p _)).congr rfl rfl)
    · exact .still (.refl r)
  | drain =>
    unfold handle
    dsimp only
    split
    · exact .still ((still_drain p r).congr rfl rfl)
    · exact .still (.refl r)
  | stop => exact .still ((Still.refl r).congr rfl rfl)
  | wait time => exact .wait rfl rfl

theorem perform_turn (p : Plan) (r : Run) (act : Act) : Turn r act (r.perform p act) := by
  unfold perform
  split
  · exact .still (.refl r)
  · exact handle_turn p r act

/-! ## Punctual histories -/

/-- Whether an act is punctual: time passes no further than to the end of the next wait of a
user, and not at all while one is over. -/
def isPunctual (r : Run) : Act → Bool
  | .wait time => r.users.all fun u => u.wakes?.all fun wakes => decide (time ≤ wakes)
  | _ => true

/-- Whether every act of a list is punctual when it comes. -/
def isPunctualAll (p : Plan) : Run → List Act → Bool
  | _, [] => true
  | r, act :: rest => r.isPunctual act && isPunctualAll p (r.perform p act) rest

/-- No user takes its step late in a punctual history. -/
theorem Turn.timely {r r' : Run} {act : Act} (hturn : Turn r act r')
    (h : ∀ u ∈ r.users, u.Timely r.scene.clock) (hpunctual : r.isPunctual act = true) :
    ∀ u ∈ r'.users, u.Timely r'.scene.clock := by
  cases hturn with
  | still hstill =>
    intro v hv
    rw [hstill.atOnce.1]
    rcases hstill.phases v hv with hready | ⟨u, hu, hphase⟩
    · exact User.timely_of_not_waiting (by rw [User.wakes?, hready])
    · exact User.timely_of_phase hphase (h u hu)
  | user hu hfollows hscene husers =>
    have hafter := hfollows.timely (h _ (List.mem_of_getElem? hu))
    rw [hscene, husers]
    rw [hfollows.atOnce.1] at hafter ⊢
    exact forall_mem_set h _ hafter
  | wait hscene husers =>
    intro u hu wakes hwakes
    rw [husers] at hu
    rw [hscene]
    have hlater := List.all_eq_true.1 hpunctual u hu
    rw [hwakes] at hlater
    exact Nat.max_le.2 ⟨h u hu wakes hwakes, of_decide_eq_true hlater⟩

theorem ownAct?_ne_wait (r : Run) (time : Nat) : r.ownAct? ≠ some (.wait time) := by
  unfold ownAct?
  repeat' split
  all_goals simp

/-- Time passes in a history that is played only when there is nothing else to do. -/
theorem nextInstant?_of_nextAct? {stop : StopPlan} {r : Run} {time : Nat}
    (hnext : r.nextAct? stop = some (.wait time)) :
    r.nextInstant? stop = some time := by
  unfold nextAct? at hnext
  split at hnext
  · cases hnext
  split at hnext
  · cases hnext
  split at hnext
  · cases hnext
  split at hnext
  · cases hnext
  split at hnext
  · cases hnext
  split at hnext
  · next act hown =>
    obtain rfl := Option.some.inj hnext
    exact absurd hown (ownAct?_ne_wait r time)
  split at hnext
  · cases hnext
  · obtain ⟨instant, hinstant, hwait⟩ := Option.map_eq_some_iff.1 hnext
    obtain rfl := Act.wait.inj hwait
    exact hinstant

/-- Time passes in a history that is played no further than to the end of a wait. -/
theorem le_of_nextInstant? {stop : StopPlan} {r : Run} {time wakes : Nat} {u : User}
    (hnext : r.nextInstant? stop = some time) (hu : u ∈ r.users)
    (hwakes : u.wakes? = some wakes) : time ≤ wakes := by
  unfold nextInstant? at hnext
  refine (List.min?_eq_some_iff.1 hnext).2 wakes (List.mem_append_right _ ?_)
  exact List.mem_filterMap.2 ⟨u, hu, hwakes⟩

theorem isPunctual_of_nextAct? {stop : StopPlan} {r : Run} {act : Act}
    (hnext : r.nextAct? stop = some act) : r.isPunctual act = true := by
  cases act with
  | wait time =>
    refine List.all_eq_true.2 fun u hu => ?_
    cases hwakes : u.wakes? with
    | none => rfl
    | some wakes =>
      exact decide_eq_true (le_of_nextInstant? (nextInstant?_of_nextAct? hnext) hu hwakes)
  | _ => rfl

/-- The history that is played is punctual. -/
theorem exists_punctual_play (p : Plan) (stop : StopPlan) (n : Nat) (r : Run) :
    ∃ acts, play p stop n r = performAll p r acts ∧ isPunctualAll p r acts = true := by
  induction n generalizing r with
  | zero => exact ⟨[], rfl, rfl⟩
  | succ n ih =>
    unfold play
    split
    · exact ⟨[], rfl, rfl⟩
    · next act hnext =>
      obtain ⟨acts, hplay, hpunctual⟩ := ih (r.perform p act)
      exact ⟨act :: acts, hplay,
        Bool.and_eq_true_iff.2 ⟨isPunctual_of_nextAct? hnext, hpunctual⟩⟩

end Run
end LoadRamp
