import LoadRamp.Proofs.Drain

/-!
# The loop of a run

A run is a loop around its ticks, and it leaves the loop when a tick finds the schedule
complete or when it sees that somebody outside asked to stop.

* `Scene.loop` is what a history says of the loop: how the run moved from state to state,
  what the ticks found, and whether it was interrupted.
* `Run.Aside` says that nothing of this kind happens, and `Run.LoopAct` what an act does to
  the loop.  `perform_loop` is the only place where the functions of a run are looked into.
* `Run.tickTimes` are the instants of the ticks that were handled.
-/

namespace LoadRamp

namespace Happening

/-- Whether a happening concerns the loop of a run. -/
def isOfLoop : Happening → Bool
  | .becomes _ _ | .refused _ _ | .ticks _ | .interrupted => true
  | _ => false

theorem isOfLoop_of_doer {what : Happening} {user : String} (h : what.doer? = some user) :
    what.isOfLoop = false := by
  cases what <;> first | rfl | cases h

end Happening

namespace Scene

/-- What happened to the loop of a run, in order. -/
def loop (s : Scene) : List Entry := (s.history.filter fun e => e.what.isOfLoop).reverse

theorem loop_of_history {s t : Scene} (h : t.history = s.history) : t.loop = s.loop := by
  rw [loop, h, loop]

theorem loop_note (s : Scene) {what : Happening} (h : what.isOfLoop = true) :
    (s.note what).loop = s.loop ++ [⟨s.clock, what⟩] := by
  unfold loop
  rw [history_note, List.filter_cons_of_pos (p := fun e : Entry => e.what.isOfLoop) h,
    List.reverse_cons]

theorem loop_note_of_not (s : Scene) {what : Happening} (h : what.isOfLoop = false) :
    (s.note what).loop = s.loop := by
  unfold loop
  rw [history_note, List.filter_cons_of_neg (by simp [h])]

/-- Users do nothing to the loop. -/
theorem Continues.loop_eq {user : String} {before after : Scene}
    (h : Continues user before after) : after.loop = before.loop := by
  obtain ⟨entries, hhistory, hall⟩ := h
  have hnone : (entries.filter fun e => e.what.isOfLoop) = [] := by
    rw [List.filter_eq_nil_iff]
    intro e he
    simp [Happening.isOfLoop_of_doer (hall e he)]
  unfold loop
  rw [hhistory, List.filter_append, hnone, List.nil_append]

end Scene

/-- The instant of a tick. -/
def Entry.tick? (e : Entry) : Option Nat :=
  match e.what with
  | .ticks _ => some e.time
  | _ => none

namespace User

theorem step_continues (w : Workload) (u : User) (scene : Scene) :
    scene.Continues u.name (u.step w scene).1 := by
  have hchain {before after : Scene × User} (hdeeds : Deeds w before after) :
      before.1.Continues before.2.name after.1 ∧ after.2.name = before.2.name := by
    induction hdeeds with
    | refl => exact ⟨.of_history rfl, rfl⟩
    | tail _ hdeed ih =>
      exact ⟨ih.1.trans (ih.2 ▸ hdeed.continues), hdeed.name_eq.trans ih.2⟩
  exact (hchain (step_deeds w u scene)).1

end User

namespace Run

variable {p : Plan}

/-! ## What does not concern the loop -/

/-- Whether nothing that lies between two moments of a run concerns its loop. -/
structure Aside (before after : Run) : Prop where
  clock_eq : after.scene.clock = before.scene.clock
  loop_eq : after.scene.loop = before.scene.loop
  lifecycle_eq : after.lifecycle = before.lifecycle
  nextTick_eq : after.nextTick = before.nextTick
  stopRequested_eq : after.stopRequested = before.stopRequested
  interrupted_eq : after.interrupted = before.interrupted

namespace Aside

variable {before middle after : Run}

theorem refl (r : Run) : Aside r r := ⟨rfl, rfl, rfl, rfl, rfl, rfl⟩

theorem trans (h : Aside before middle) (hlast : Aside middle after) : Aside before after where
  clock_eq := hlast.clock_eq.trans h.clock_eq
  loop_eq := hlast.loop_eq.trans h.loop_eq
  lifecycle_eq := hlast.lifecycle_eq.trans h.lifecycle_eq
  nextTick_eq := hlast.nextTick_eq.trans h.nextTick_eq
  stopRequested_eq := hlast.stopRequested_eq.trans h.stopRequested_eq
  interrupted_eq := hlast.interrupted_eq.trans h.interrupted_eq

/-- Users and their places, and what is counted of them, do not belong to the loop. -/
theorem rest (h : Aside before middle) (hscene : after.scene = middle.scene)
    (hlifecycle : after.lifecycle = middle.lifecycle) (hnextTick : after.nextTick = middle.nextTick)
    (hasked : after.stopRequested = middle.stopRequested)
    (hinterrupted : after.interrupted = middle.interrupted) : Aside before after :=
  h.trans ⟨by rw [hscene], by rw [hscene], hlifecycle, hnextTick, hasked, hinterrupted⟩

theorem note (h : Aside before after) {what : Happening} (hnot : what.isOfLoop = false) :
    Aside before (after.note what) :=
  h.trans ⟨rfl, Scene.loop_note_of_not _ hnot, rfl, rfl, rfl, rfl⟩

/-- What concerns the loop may be said before or after what does not. -/
theorem note_both (h : Aside before after) {what : Happening} (hof : what.isOfLoop = true) :
    Aside (before.note what) (after.note what) where
  clock_eq := h.clock_eq
  loop_eq := by
    show (after.scene.note what).loop = (before.scene.note what).loop
    rw [Scene.loop_note _ hof, Scene.loop_note _ hof, h.loop_eq, h.clock_eq]
  lifecycle_eq := h.lifecycle_eq
  nextTick_eq := h.nextTick_eq
  stopRequested_eq := h.stopRequested_eq
  interrupted_eq := h.interrupted_eq

theorem foldl {α : Type} {f : Run → α → Run} (hf : ∀ r a, Aside r (f r a)) (l : List α)
    (h : Aside before after) : Aside before (l.foldl f after) := by
  induction l generalizing after with
  | nil => exact h
  | cons a rest ih => exact ih (h.trans (hf after a))

end Aside

section Aside

variable (r : Run)

theorem aside_lose (user : Nat) : Aside r (r.lose user) := by
  unfold lose
  split
  · exact .refl r
  · split
    · exact .refl r
    · exact (Aside.refl r).note rfl

theorem aside_join (p : Plan) (user : Nat) : Aside r (r.join p user) := by
  unfold join
  split
  · exact .refl r
  · next u hu =>
    split
    · exact .refl r
    · next ending hending =>
      have hjoins : (Happening.joins u.name u.committed p.settings.gracePeriod ending).isOfLoop =
          false := rfl
      refine ⟨clock_settled p r.scene u ending, ?_, rfl, rfl, rfl, rfl⟩
      show (settled p r.scene u ending).loop = r.scene.loop
      rw [← r.scene.loop_note_of_not hjoins]
      exact Scene.loop_of_history (history_settled p r.scene u ending)

theorem aside_tell (user : Nat) : Aside r (r.tell user) := by
  unfold tell
  split
  · exact .refl r
  · next u hu =>
    have htells : (Happening.tells u.name).isOfLoop = false := rfl
    refine ⟨User.clock_tell u r.scene, ?_, rfl, rfl, rfl, rfl⟩
    show (u.tell r.scene).1.loop = r.scene.loop
    rw [← r.scene.loop_note_of_not htells]
    exact Scene.loop_of_history (User.history_tell u r.scene)

theorem aside_tellAll (deadline : Nat) (users : List Nat) : Aside r (r.tellAll deadline users) :=
  (Aside.foldl aside_tell users (.refl r)).rest rfl rfl rfl rfl rfl

theorem aside_spawnMany (n : Nat) : Aside r (spawnMany n r) := by
  induction n generalizing r with
  | zero => exact .refl r
  | succ n ih =>
    have hspawn : Aside r r.spawn := ⟨rfl, Scene.loop_of_history rfl, rfl, rfl, rfl, rfl⟩
    exact hspawn.trans (ih r.spawn)

theorem aside_reap (p : Plan) : Aside r (r.reap p) := by
  have hactive (r : Run) : Aside r r.reapActive :=
    (Aside.foldl aside_lose _ (.refl r)).rest rfl rfl rfl rfl rfl
  have hstopping (r : Run) : Aside r (r.reapStopping p) :=
    (Aside.foldl (fun r => aside_join r p) _ (.refl r)).rest rfl rfl rfl rfl rfl
  have haborting (r : Run) : Aside r (r.reapAborting p) :=
    (Aside.foldl (fun r => aside_join r p) _ (.refl r)).rest rfl rfl rfl rfl rfl
  exact ((hactive r).trans (hstopping _)).trans (haborting _)

theorem aside_measure : Aside r r.measure := by
  have hmeasured : Aside r { r with
      peak := max r.peak r.active.length, gauge := r.active.length } :=
    (Aside.refl r).rest rfl rfl rfl rfl rfl
  exact hmeasured.note rfl

theorem aside_scaleTo (p : Plan) (target : Nat) : Aside r (r.scaleTo p target) := by
  by_cases hends : p.deadline? r.scene.clock = none → r.active.length ≤ target
  · have hresized : Aside r (resized p r target) := by
      unfold resized
      split
      · exact ((Aside.refl r).note rfl).trans (aside_spawnMany _ _)
      · split
        · have htold := ((Aside.refl r).note rfl).trans (aside_tellAll
            (r.note (.scalesDown r.active.length target))
            (r.scene.clock + p.settings.gracePeriod.nanos) (r.active.drop target).reverse)
          exact htold.rest rfl rfl rfl rfl rfl
        · exact .refl r
    rw [scaleTo_eq hends]
    exact hresized.trans (aside_measure _)
  · obtain ⟨hendless, hless⟩ := Classical.not_imp.1 hends
    rw [scaleTo_of_endless (Nat.lt_of_not_le hless) hendless]
    exact ((Aside.refl r).note rfl).rest rfl rfl rfl rfl rfl

theorem aside_drainStopping (p : Plan) (l : List Stopping) : Aside r (r.drainStopping p l) := by
  induction l generalizing r with
  | nil => exact (Aside.refl r).rest rfl rfl rfl rfl rfl
  | cons s rest ih =>
    unfold drainStopping
    split
    · exact (aside_join r p s.user).trans (ih _)
    · split
      · have hlate : Aside r { r with aborting := r.aborting ++ [s.user] } :=
          (Aside.refl r).rest rfl rfl rfl rfl rfl
        exact hlate.trans (ih _)
      · exact (Aside.refl r).rest rfl rfl rfl rfl rfl

theorem aside_drainAborting (p : Plan) (l : List Nat) : Aside r (r.drainAborting p l) := by
  induction l generalizing r with
  | nil => exact (Aside.refl r).rest rfl rfl rfl rfl rfl
  | cons user rest ih =>
    unfold drainAborting
    split
    · exact (aside_join r p user).trans (ih _)
    · exact (Aside.refl r).rest rfl rfl rfl rfl rfl

end Aside

/-! ## What an act does to the loop -/

/-- A run that is over. -/
def concluded (r : Run) : Run :=
  { r.note (.becomes .draining .complete) with lifecycle := .complete }

theorem Aside.left {before after : Run} (h : Aside before after) :
    Aside before.left after.left := by
  have hnote := h.note_both (rfl : (Happening.becomes .running .draining).isOfLoop = true)
  exact ⟨hnote.clock_eq, hnote.loop_eq, rfl, hnote.nextTick_eq, hnote.stopRequested_eq,
    hnote.interrupted_eq⟩

theorem Aside.concluded {before after : Run} (h : Aside before after) :
    Aside before.concluded after.concluded := by
  have hnote := h.note_both (rfl : (Happening.becomes .draining .complete).isOfLoop = true)
  exact ⟨hnote.clock_eq, hnote.loop_eq, rfl, hnote.nextTick_eq, hnote.stopRequested_eq,
    hnote.interrupted_eq⟩

/-- What an act does to the loop of a run. -/
inductive LoopAct (p : Plan) (r : Run) : Act → Run → Prop
  /-- Nothing, since the run broke down before. -/
  | broken {act : Act} (hbroken : r.broken = true) : LoopAct p r act r
  /-- Nothing.  A tick of a run that goes on is not handled only when the loop was left before. -/
  | aside {act : Act} {r' : Run} (hnot : act = .tick → r.lifecycle ≠ .running)
      (hother : act ≠ .stop) (h : Aside r r') : LoopAct p r act r'
  /-- Time passes. -/
  | wait (time : Nat) :
      LoopAct p r (.wait time) { r with scene := r.scene.waitUntil time, latest? := none }
  /-- Somebody outside asks to stop. -/
  | stop : LoopAct p r .stop { r with stopRequested := true, latest? := none }
  /-- A tick finds a number of users. -/
  | tick {n : Nat} {r' : Run} (hrunning : r.lifecycle = .running)
      (htarget : p.schedule.targetAt r.scene.clock = .active n)
      (hwhole : r.broken = false)
      (h : Aside { r.note (.ticks (.active n)) with nextTick := r.tickAfter p } r') :
      LoopAct p r .tick r'
  /-- A tick finds that the schedule is complete. -/
  | complete {r' : Run} (hrunning : r.lifecycle = .running)
      (htarget : p.schedule.targetAt r.scene.clock = .complete)
      (hwhole : r.broken = false)
      (h : let q := { r.note (.ticks .complete) with nextTick := r.tickAfter p }
        Aside q.left r' ∨ Aside q.left.concluded r') : LoopAct p r .tick r'
  /-- The run sees that somebody outside asked to stop. -/
  | interrupt {r' : Run} (hrunning : r.lifecycle = .running) (hasked : r.stopRequested = true)
      (h : let q := { r.note .interrupted with interrupted := true }
        Aside q.left r' ∨ Aside q.left.concluded r') : LoopAct p r .interrupt r'
  /-- Nobody is left to wait for. -/
  | finish {r' : Run} (hdraining : r.lifecycle = .draining) (h : Aside r.concluded r') :
      LoopAct p r .drain r'

/-- Going on with the end of a run concerns the loop only when the run is complete. -/
theorem drain_loop {r : Run} (hdraining : r.lifecycle = .draining) :
    Aside r (r.drain p) ∨ Aside r.concluded (r.drain p) := by
  have hfirst := aside_drainStopping r p r.stopping
  unfold drain
  dsimp only
  split
  · have hboth := hfirst.trans (aside_drainAborting _ p (r.drainStopping p r.stopping).aborting)
    split
    · rw [finish_eq (hboth.lifecycle_eq.trans hdraining)]
      exact .inr (hboth.concluded.trans ⟨rfl, Scene.loop_of_history rfl, rfl, rfl, rfl, rfl⟩)
    · exact .inl hboth
  · exact .inl hfirst

/-- The loop is left at once, and if there is nobody to wait for, the run is complete. -/
theorem beginDrain_loop {q r : Run} (h : Aside q r) (hrunning : r.lifecycle = .running) :
    Aside q.left (r.beginDrain p) ∨ Aside q.left.concluded (r.beginDrain p) := by
  cases hdeadline : p.deadline? r.scene.clock with
  | none =>
    rw [beginDrain_of_endless hrunning hdeadline]
    exact .inl (h.left.rest rfl rfl rfl rfl rfl)
  | some deadline =>
    have hcall (deadline : Nat) : Aside q.left (r.left.tellActive deadline) := by
      have htold : Aside q.left
          { r.left.tellAll deadline r.left.active with active := [], gauge := 0 } :=
        (h.left.trans (aside_tellAll r.left deadline r.left.active)).rest rfl rfl rfl rfl rfl
      exact (htold.note rfl).note rfl
    rw [beginDrain_eq hrunning hdeadline]
    exact (drain_loop (lifecycle_tellActive _ _)).imp (hcall _).trans (hcall _).concluded.trans

theorem tick_loop {r : Run} (hwhole : r.broken = false) :
    LoopAct p r .tick (r.handle p .tick) := by
  unfold handle
  dsimp only
  by_cases hrunning : r.lifecycle = .running
  · rw [if_pos hrunning]
    have hreaped : Aside { r with nextTick := r.tickAfter p } (reaped p r) := aside_reap _ p
    cases htarget : p.schedule.targetAt r.scene.clock with
    | active n =>
      have hnote : (Happening.ticks (.active n)).isOfLoop = true := rfl
      have hticked := (hreaped.note_both hnote).trans (aside_scaleTo _ p n)
      rw [tick_of_active htarget]
      exact .tick hrunning htarget hwhole (hticked.rest rfl rfl rfl rfl rfl)
    | complete =>
      have hnote : (Happening.ticks .complete).isOfLoop = true := rfl
      have hleft := beginDrain_loop (p := p) (hreaped.note_both hnote)
        ((lifecycle_reaped p r).trans hrunning)
      rw [tick_of_complete htarget]
      exact .complete hrunning htarget hwhole
        (hleft.imp (·.rest rfl rfl rfl rfl rfl) (·.rest rfl rfl rfl rfl rfl))
  · rw [if_neg hrunning]
    exact .aside (fun _ => hrunning) nofun (.refl r)

theorem handle_loop {r : Run} (hwhole : r.broken = false) (act : Act) :
    LoopAct p r act (r.handle p act) := by
  have hnothing (act : Act) (hact : act ≠ .tick) (hother : act ≠ .stop) : LoopAct p r act r :=
    .aside (fun htick => absurd htick hact) hother (.refl r)
  cases act with
  | tick => exact tick_loop hwhole
  | step user =>
    unfold handle
    dsimp only
    split
    · exact hnothing _ nofun nofun
    · next u hu =>
      refine .aside nofun nofun
        ⟨(User.step_follows p.workload u r.scene).atOnce.1, ?_, rfl, rfl, rfl, rfl⟩
      exact (User.step_continues p.workload u r.scene).loop_eq
  | land user =>
    unfold handle
    dsimp only
    split
    · split
      · exact hnothing _ nofun nofun
      · next u hu =>
        refine .aside nofun nofun
          ⟨(User.abort_follows u r.scene).atOnce.1, ?_, rfl, rfl, rfl, rfl⟩
        exact (User.continues_abort u r.scene).loop_eq
    · exact hnothing _ nofun nofun
  | interrupt =>
    unfold handle
    dsimp only
    split
    · next hasked =>
      have hleft := beginDrain_loop (p := p)
        (.refl { r.note .interrupted with interrupted := true }) hasked.1
      exact .interrupt hasked.1 hasked.2
        (hleft.imp (·.rest rfl rfl rfl rfl rfl) (·.rest rfl rfl rfl rfl rfl))
    · exact hnothing _ nofun nofun
  | drain =>
    unfold handle
    dsimp only
    split
    · next hdraining =>
      rcases drain_loop (p := p) hdraining with haside | hover
      · exact .aside nofun nofun (haside.rest rfl rfl rfl rfl rfl)
      · exact .finish hdraining (hover.rest rfl rfl rfl rfl rfl)
    · exact hnothing _ nofun nofun
  | stop => exact .stop
  | wait time => exact .wait time

/-- What an act does to the loop, at whatever moment it comes. -/
theorem perform_loop (r : Run) (act : Act) : LoopAct p r act (r.perform p act) := by
  cases hbroken : r.broken with
  | true =>
    rw [perform_of_broken hbroken]
    exact .broken hbroken
  | false =>
    rw [perform_of_whole hbroken]
    exact handle_loop hbroken act

/-! ## The instants of ticks -/

/-- The instants of the ticks that were handled, in order. -/
def tickTimes (r : Run) : List Nat := r.scene.loop.filterMap Entry.tick?

theorem loop_left (r : Run) :
    r.left.scene.loop = r.scene.loop ++ [⟨r.scene.clock, .becomes .running .draining⟩] :=
  Scene.loop_note _ rfl

theorem loop_concluded (r : Run) :
    r.concluded.scene.loop = r.scene.loop ++ [⟨r.scene.clock, .becomes .draining .complete⟩] :=
  Scene.loop_note _ rfl

theorem tickTimes_aside {r r' : Run} (h : Aside r r') : r'.tickTimes = r.tickTimes := by
  rw [tickTimes, h.loop_eq, tickTimes]

theorem tickTimes_left (r : Run) : r.left.tickTimes = r.tickTimes := by
  rw [tickTimes, loop_left, List.filterMap_append]
  exact List.append_nil _

theorem tickTimes_concluded (r : Run) : r.concluded.tickTimes = r.tickTimes := by
  rw [tickTimes, loop_concluded, List.filterMap_append]
  exact List.append_nil _

/-- However the loop is left, leaving it is no tick. -/
theorem tickTimes_of_left {q r : Run} (h : Aside q.left r ∨ Aside q.left.concluded r) :
    r.tickTimes = q.tickTimes := by
  rcases h with haside | haside
  · rw [tickTimes_aside haside, tickTimes_left]
  · rw [tickTimes_aside haside, tickTimes_concluded, tickTimes_left]

theorem tickTimes_note_tick (r : Run) (target : Schedule.Target) (nextTick : Nat) :
    tickTimes { r.note (.ticks target) with nextTick } = r.tickTimes ++ [r.scene.clock] := by
  show (r.scene.note (.ticks target)).loop.filterMap Entry.tick? = _
  rw [Scene.loop_note _ rfl, List.filterMap_append]
  rfl

theorem tickTimes_note_interrupted (r : Run) (interrupted : Bool) :
    tickTimes { r.note .interrupted with interrupted } = r.tickTimes := by
  show (r.scene.note .interrupted).loop.filterMap Entry.tick? = _
  rw [Scene.loop_note _ rfl, List.filterMap_append]
  exact List.append_nil _

section Acts

variable (p : Plan) (r : Run) (act : Act)

/-- A tick that comes while the run is in its loop is handled at once, and nothing else is a
tick. -/
theorem tickTimes_perform :
    (r.perform p act).tickTimes = r.tickTimes ++
      if act = .tick ∧ r.lifecycle = .running ∧ r.broken = false then [r.scene.clock] else [] := by
  have hloop := perform_loop (p := p) r act
  generalize r.perform p act = r' at hloop ⊢
  cases hloop with
  | broken hbroken => simp [hbroken]
  | aside hnot hother h =>
    rw [if_neg fun hall => hnot hall.1 hall.2.1, List.append_nil, tickTimes_aside h]
  | wait | stop => exact (List.append_nil _).symm
  | tick hrunning htarget hwhole h =>
    rw [if_pos ⟨rfl, hrunning, hwhole⟩, tickTimes_aside h, tickTimes_note_tick]
  | complete hrunning htarget hwhole h =>
    rw [if_pos ⟨rfl, hrunning, hwhole⟩, tickTimes_of_left h, tickTimes_note_tick]
  | interrupt hrunning hasked h =>
    rw [tickTimes_of_left h, tickTimes_note_interrupted]
    exact (List.append_nil _).symm
  | finish hdraining h =>
    rw [tickTimes_aside h, tickTimes_concluded]
    exact (List.append_nil _).symm

/-- Only a wait takes time. -/
theorem clock_perform (hact : ∀ time, act ≠ .wait time) :
    (r.perform p act).scene.clock = r.scene.clock := by
  have hloop := perform_loop (p := p) r act
  generalize r.perform p act = r' at hloop ⊢
  cases hloop with
  | broken hbroken => rfl
  | aside hnot hother h => exact h.clock_eq
  | wait time => exact absurd rfl (hact time)
  | stop => rfl
  | tick hrunning htarget hwhole h => exact h.clock_eq
  | complete hrunning htarget hwhole h => exact h.elim Aside.clock_eq Aside.clock_eq
  | interrupt hrunning hasked h => exact h.elim Aside.clock_eq Aside.clock_eq
  | finish hdraining h => exact h.clock_eq

/-- Only somebody outside asks to stop, and nobody takes that back. -/
theorem stopRequested_perform (hwhole : r.broken = false) :
    (r.perform p act).stopRequested = (r.stopRequested || decide (act = .stop)) := by
  have hloop := perform_loop (p := p) r act
  generalize r.perform p act = r' at hloop ⊢
  cases hloop with
  | broken hbroken => cases hwhole.symm.trans hbroken
  | aside hnot hother h => rw [h.stopRequested_eq, decide_eq_false hother, Bool.or_false]
  | wait => exact (Bool.or_false _).symm
  | stop => exact (Bool.or_true _).symm
  | tick hrunning htarget hwhole h => exact h.stopRequested_eq.trans (Bool.or_false _).symm
  | complete hrunning htarget hwhole h =>
    exact (h.elim Aside.stopRequested_eq Aside.stopRequested_eq).trans (Bool.or_false _).symm
  | interrupt hrunning hasked h =>
    exact (h.elim Aside.stopRequested_eq Aside.stopRequested_eq).trans (Bool.or_false _).symm
  | finish hdraining h => exact h.stopRequested_eq.trans (Bool.or_false _).symm

/-- A run that has left its loop does not come back to it. -/
theorem left_perform (hleft : r.lifecycle ≠ .running) :
    (r.perform p act).lifecycle ≠ .running := by
  have hloop := perform_loop (p := p) r act
  generalize r.perform p act = r' at hloop ⊢
  cases hloop with
  | broken hbroken => exact hleft
  | aside hnot hother h => exact h.lifecycle_eq ▸ hleft
  | wait | stop => exact hleft
  | tick hrunning => exact absurd hrunning hleft
  | complete hrunning => exact absurd hrunning hleft
  | interrupt hrunning => exact absurd hrunning hleft
  | finish hdraining h =>
    rw [h.lifecycle_eq]
    exact nofun

end Acts

end Run
end LoadRamp
