import LoadRamp.Proofs.Draining
import LoadRamp.Proofs.Stopping

/-!
# The end of a run takes one grace period

A run that drains comes to its end, and it does so within one grace period, however many
users it has and whatever they do.

* `Run.Played` lists the acts that are played, with everything that leads to them.
* `Run.toil` is the measure: every act that is played and is no wait makes it smaller
  (`Drains.toil_lt`), and no wait comes after another (`not_wait_twice`).
* `Drains.exists_play_complete` is the run from there, and `drain_within_grace` puts it
  together with what is so while a run drains.
-/

namespace LoadRamp

namespace User

variable {w : Workload} {u : User}

/-- An abort takes a user nearer to its end, as its steps do. -/
theorem stepsLeft_abort_lt (hgoing : u.ending? = none) (scene : Scene) :
    (u.abort scene).2.stepsLeft < u.stepsLeft := by
  obtain ⟨midway, habort⟩ := abort_of_going hgoing scene
  rw [habort]
  refine Nat.pos_of_ne_zero fun hnone => ?_
  have hended := Solo.isEnded_of_stepsLeft hnone
  rw [isEnded, hgoing] at hended
  cases hended

/-- Whoever waits for an instant is due from then on. -/
theorem isDue_of_wakes {clock wakes : Nat} (hwakes : u.wakes? = some wakes)
    (hover : wakes ≤ clock) : u.isDue clock = true := by
  unfold wakes? at hwakes
  unfold isDue
  cases hphase : u.phase with
  | ready => rfl
  | ended ending => rw [hphase] at hwakes; cases hwakes
  | resting time =>
    rw [hphase] at hwakes
    obtain rfl := Option.some.inj hwakes
    simp [hover]
  | busy it =>
    rw [hphase] at hwakes
    obtain ⟨arrival, harrival, rfl⟩ := Option.map_eq_some_iff.1 hwakes
    exact Iteration.isDue_iff.2 ⟨arrival, harrival, hover⟩

end User

namespace Run

variable {p : Plan} {stop : StopPlan} {r : Run}

/-! ## The acts that are played -/

theorem firstDue?_eq_none {clock : Nat} {users : List User} {number : Nat}
    (hnone : firstDue? clock number users = none) : ∀ u ∈ users, u.isDue clock = false := by
  induction users generalizing number with
  | nil => exact fun _ hu => absurd hu List.not_mem_nil
  | cons u rest ih =>
    rw [firstDue?] at hnone
    split at hnone
    · next hrest =>
      split at hnone
      · cases hnone
      · next hwaits => exact List.forall_mem_cons.2 ⟨Bool.eq_false_iff.2 hwaits, ih hrest⟩
    · split at hnone <;> cases hnone

theorem firstDue?_eq_some {clock : Nat} {users : List User} {number user turn : Nat}
    (hsome : firstDue? clock number users = some (user, turn)) :
    ∃ place u, user = number + place ∧ users[place]? = some u ∧ u.isDue clock = true := by
  induction users generalizing number user turn with
  | nil => cases hsome
  | cons u rest ih =>
    have hfirst (hdue : u.isDue clock = true) : ∃ place v, number = number + place ∧
        (u :: rest)[place]? = some v ∧ v.isDue clock = true := ⟨0, u, rfl, rfl, hdue⟩
    rw [firstDue?] at hsome
    split at hsome
    · split at hsome
      · next hdue =>
        obtain ⟨rfl, -⟩ := Prod.mk.inj (Option.some.inj hsome)
        exact hfirst hdue
      · cases hsome
    · next other turn' hrest =>
      split at hsome
      · next hboth =>
        obtain ⟨rfl, -⟩ := Prod.mk.inj (Option.some.inj hsome)
        exact hfirst (Bool.and_eq_true_iff.1 hboth).1
      · obtain ⟨rfl, -⟩ := Prod.mk.inj (Option.some.inj hsome)
        obtain ⟨place, v, rfl, hv, hdue⟩ := ih hrest
        exact ⟨place + 1, v, by omega, hv, hdue⟩

/-- What leads to an act that is played. -/
inductive Played (stop : StopPlan) (r : Run) : Act → Prop
  /-- Somebody outside asks to stop for the first time. -/
  | stop (hfirst : r.stopRequested = false) : Played stop r .stop
  /-- A user is due, and it took the latest step, or all aborts have taken effect. -/
  | step {user : Nat} {u : User} (hu : r.users[user]? = some u)
      (hdue : u.isDue r.scene.clock = true)
      (hspared : r.latest? = some user ∨ r.aborting.all r.isEnded = true) :
      Played stop r (.step user)
  | land {user : Nat} (haborting : user ∈ r.aborting) (hgoing : r.isEnded user = false) :
      Played stop r (.land user)
  | own {act : Act} (hown : r.ownAct? = some act) : Played stop r act
  /-- Nobody has anything to do. -/
  | wait {time : Nat} (hlanded : r.aborting.all r.isEnded = true) (hidle : r.ownAct? = none)
      (hrest : ∀ u ∈ r.users, u.isDue r.scene.clock = false)
      (hasked : r.stopRequested = false → stop.isDue r.scene = false)
      (htime : r.nextInstant? stop = some time) : Played stop r (.wait time)

theorem continuing?_eq_some {user : Nat} (hsome : r.continuing? = some user) :
    r.latest? = some user ∧ ∃ u, r.users[user]? = some u ∧ u.isDue r.scene.clock = true := by
  obtain ⟨hlatest, hdue⟩ := Option.filter_eq_some_iff.1 hsome
  refine ⟨hlatest, ?_⟩
  split at hdue
  · cases hdue
  · next u hu => exact ⟨u, hu, hdue⟩

theorem all_isEnded_of_find? (hnone : (r.aborting.find? fun user => !r.isEnded user) = none) :
    r.aborting.all r.isEnded = true := by
  refine List.all_eq_true.2 fun user huser => ?_
  simpa using List.find?_eq_none.1 hnone user huser

theorem played_of_nextAct? {act : Act} (hnext : r.nextAct? stop = some act) :
    Played stop r act := by
  unfold nextAct? at hnext
  split at hnext
  · cases hnext
  split at hnext
  · next hurgent =>
    obtain rfl := Option.some.inj hnext
    exact .stop (by simpa using (Bool.and_eq_true_iff.1 hurgent).1)
  split at hnext
  · next user hcontinuing =>
    obtain rfl := Option.some.inj hnext
    obtain ⟨hlatest, u, hu, hdue⟩ := continuing?_eq_some hcontinuing
    exact .step hu hdue (.inl hlatest)
  split at hnext
  · next user hfind =>
    obtain rfl := Option.some.inj hnext
    have hgoing := List.find?_some hfind
    exact .land (List.mem_of_find?_eq_some hfind) (by simpa using hgoing)
  next hfind =>
  have hlanded := all_isEnded_of_find? hfind
  split at hnext
  · next user turn hfirst =>
    obtain rfl := Option.some.inj hnext
    obtain ⟨place, u, rfl, hu, hdue⟩ := firstDue?_eq_some hfirst
    exact .step (by rwa [Nat.zero_add]) hdue (.inr hlanded)
  next hnobody =>
  split at hnext
  · next act' hown =>
    obtain rfl := Option.some.inj hnext
    exact .own hown
  next hidle =>
  split at hnext
  · next hdue =>
    obtain rfl := Option.some.inj hnext
    exact .stop (by simpa using (Bool.and_eq_true_iff.1 hdue).1)
  · next hnever =>
    obtain ⟨time, htime, rfl⟩ := Option.map_eq_some_iff.1 hnext
    refine .wait hlanded hidle (firstDue?_eq_none hnobody) (fun hasked => ?_) htime
    simpa [hasked] using hnever

/-- An act of the run itself is attentive whenever it comes. -/
theorem isAttentive_of_ownAct? {act : Act} (hown : r.ownAct? = some act) :
    r.isAttentive act = true := by
  have hcases : act = .interrupt ∨ act = .tick ∨ act = .drain := by
    unfold ownAct? at hown
    repeat' split at hown
    all_goals simp_all
  rcases hcases with rfl | rfl | rfl <;> rfl

/-- Time passes in a history that is played no further than to an instant for which the run
waits. -/
theorem le_ownInstants_of_nextInstant? {time : Nat} (hnext : r.nextInstant? stop = some time) :
    r.ownInstants.all (fun instant => decide (time ≤ instant)) = true := by
  unfold nextInstant? at hnext
  refine List.all_eq_true.2 fun instant hinstant => decide_eq_true ?_
  refine (List.min?_eq_some_iff.1 hnext).2 instant (List.mem_append_left _ ?_)
  exact List.mem_append_right _ hinstant

/-- In a run that drains there is always an act to play. -/
theorem nextAct?_ne_none (hdraining : r.lifecycle = .draining) (hwhole : r.broken = false) :
    r.nextAct? stop ≠ none := by
  unfold nextAct?
  split
  · next hover => simp [hdraining, hwhole] at hover
  split
  · simp
  split
  · simp
  split
  · simp
  next hfind =>
  split
  · simp
  split
  · simp
  next hidle =>
  split
  · simp
  · -- The run waits for a stopping user, and has an instant for it.
    rw [ne_eq, Option.map_eq_none_iff, nextInstant?, List.min?_eq_none_iff]
    intro hnone
    have hinstants := (List.append_eq_nil_iff.1 (List.append_eq_nil_iff.1 hnone).1).2
    rw [ownAct?, hdraining] at hidle
    rw [ownInstants, hdraining] at hinstants
    cases hstopping : r.stopping with
    | cons s rest => simp [hstopping] at hinstants
    | nil =>
      cases haborting : r.aborting with
      | nil => simp [hstopping, haborting] at hidle
      | cons user rest =>
        have hended := all_isEnded_of_find? hfind
        rw [haborting, List.all_cons] at hended
        simp [hstopping, haborting, (Bool.and_eq_true_iff.1 hended).1] at hidle

/-- There is none in one that has broken down. -/
theorem play_of_broken (hbroken : r.broken = true) (n : Nat) : play p stop n r = r := by
  cases n with
  | zero => rfl
  | succ n => simp [play, nextAct?, hbroken]

/-- After a wait there is something to do. -/
theorem not_wait_twice {time again : Nat} (hdraining : r.lifecycle = .draining)
    (hwhole : r.broken = false) (hfirst : Played stop r (.wait time)) :
    ¬ Played stop (r.perform p (.wait time)) (.wait again) := by
  rw [perform_of_whole hwhole]
  intro hsecond
  cases hsecond with
  | own hown => exact ownAct?_ne_wait _ _ hown
  | wait hlanded hidle hrest hasked htime =>
    have hover : time ≤ (r.handle p (.wait time)).scene.clock := Nat.le_max_right _ _
    cases hfirst with
    | own hown => exact ownAct?_ne_wait _ _ hown
    | wait _ _ _ _ hnext =>
      -- The instant that was waited for is that of the plan, of a deadline or of a user.
      unfold nextInstant? at hnext
      rcases List.mem_append.1 (List.min?_eq_some_iff.1 hnext).1 with hmem | hmem
      · rcases List.mem_append.1 hmem with hmem | hmem
        · split at hmem
          · cases hmem
          · next hfirst =>
            have hdue := hasked (Bool.eq_false_iff.2 hfirst)
            rw [StopPlan.isDue, Option.mem_toList.1 hmem] at hdue
            exact absurd hover (of_decide_eq_false hdue)
        · rw [ownInstants, hdraining] at hmem
          have hdue : (r.handle p (.wait time)).ownAct? = some .drain := by
            cases hstopping : r.stopping with
            | nil => simp [hstopping] at hmem
            | cons s rest =>
              obtain rfl : time = s.deadline := by simpa [hstopping] using hmem
              have hlate : decide (s.deadline ≤ max r.scene.clock s.deadline) = true :=
                decide_eq_true (Nat.le_max_right _ _)
              simp only [ownAct?, handle, hdraining, hstopping, Scene.waitUntil, hlate,
                Bool.or_true, if_true]
          rw [hdue] at hidle
          cases hidle
      · obtain ⟨u, hu, hwakes⟩ := List.mem_filterMap.1 hmem
        have hdue := User.isDue_of_wakes hwakes hover
        rw [hrest u hu] at hdue
        cases hdue

/-! ## Coming to an end -/

/-- What is left to do until a run that drains is complete, waits not counted. -/
def toil (r : Run) : Nat :=
  (r.users.map User.stepsLeft).sum + r.load + if r.stopRequested then 0 else 1

namespace Drains

variable {begun : Run}

theorem isAttentive_of_played (h : Drains p begun r) {act : Act} (hplayed : Played stop r act) :
    r.isAttentive act = true := by
  cases hplayed with
  | stop => rfl
  | land => rfl
  | own hown => exact isAttentive_of_ownAct? hown
  | @step user u hu hdue hspared =>
    rw [isAttentive, Bool.or_eq_true, decide_eq_true_eq]
    by_cases haborting : user ∈ r.aborting
    · refine .inr (hspared.elim (h.latest user haborting) fun hlanded => ?_)
      exact List.all_eq_true.1 hlanded user haborting
    · exact .inl haborting
  | wait hlanded hidle hrest hasked htime =>
    simp only [isAttentive, hlanded, hidle, Option.isNone_none,
      le_ownInstants_of_nextInstant? htime, Bool.and_self]

/-- Whoever is due was told to stop. -/
theorem told_of_due (h : Drains p begun r) {user : Nat} {u : User}
    (hu : r.users[user]? = some u) (hdue : u.isDue r.scene.clock = true) : u.told = true := by
  have hgoing : u.ending? = none := by
    unfold User.isDue at hdue
    unfold User.ending?
    split at hdue <;> simp_all
  have hplaced := (roster_of_reaches h.reaches).placed user u hu
  rcases place_of_going (roster_of_reaches h.reaches) h.active_eq hu hgoing with
      ⟨s, hs, rfl⟩ | haborting
  · exact hplaced.told_stopping (List.mem_map_of_mem hs)
  · exact hplaced.told_aborting haborting

theorem toil_drain_lt (hdraining : r.lifecycle = .draining) (hown : r.ownAct? = some .drain) :
    (r.drain p).lifecycle = .complete ∨ (r.drain p).toil < r.toil := by
  obtain ⟨husers, hasked⟩ := users_drain (p := p) r
  refine (load_drain_lt hdraining hown).imp_right fun hstill => ?_
  have hless := hstill.2
  rw [toil, toil, husers, hasked]
  omega

/-- Every act that is played and is no wait brings the run nearer to its end. -/
theorem toil_lt (h : Drains p begun r) (hdraining : r.lifecycle = .draining) {act : Act}
    (hplayed : Played stop r act) (hact : ∀ time, act ≠ .wait time) :
    (r.perform p act).lifecycle = .complete ∨ (r.perform p act).toil < r.toil := by
  rw [perform_of_whole h.whole]
  cases hplayed with
  | stop hfirst =>
    refine .inr ?_
    simp [handle, toil, load, hfirst]
  | @step user u hu hdue =>
    have hless := User.stepsLeft_step_lt (w := p.workload) (h.told_of_due hu hdue) hdue
    have hsum := sum_set_add (f := User.stepsLeft) (u.step p.workload r.scene).2 hu
    refine .inr ?_
    simp only [handle, hu, toil, load, update]
    omega
  | @land user haborting hgoing =>
    obtain ⟨u, hu⟩ := (roster_of_reaches h.reaches).exists_of_mem
      (mem_places.2 (.inr (.inr (.inl haborting))))
    rw [isEnded, Run.ending?, hu, Option.bind_some, Option.isSome_eq_false_iff,
      Option.isNone_iff_eq_none] at hgoing
    have hless := User.stepsLeft_abort_lt hgoing r.scene
    have hsum := sum_set_add (f := User.stepsLeft) (u.abort r.scene).2 hu
    refine .inr ?_
    simp only [handle, haborting, if_true, hu, toil, load, update]
    omega
  | own hown =>
    obtain rfl : act = .drain := by
      have hdrain := hown
      unfold ownAct? at hdrain
      rw [hdraining] at hdrain
      repeat' split at hdrain
      all_goals simp_all
    have hdrains : r.handle p .drain = { r.drain p with latest? := none } := if_pos hdraining
    rw [hdrains]
    exact toil_drain_lt hdraining hown
  | wait => exact absurd rfl (hact _)

/-- Played on, a run that drains is complete after some acts. -/
theorem exists_play_complete (h : Drains p begun r) (stop : StopPlan) :
    ∃ n, (play p stop n r).lifecycle = .complete := by
  -- Induction on what is left to do: the next act is of use, or the one after a wait is.
  induction htoil : r.toil using Nat.strongRecOn generalizing r with
  | ind toil ih =>
    rcases h.closing with hdraining | hcomplete
    · have hplay (r : Run) (act : Act) (hnext : r.nextAct? stop = some act) (n : Nat) :
          play p stop (n + 1) r = play p stop n (r.perform p act) := by
        simp only [play, hnext]
      -- What comes of an act that is no wait.
      have hgoesOn {r' : Run} (h' : Drains p begun r') (hdraining' : r'.lifecycle = .draining)
          (hsame : r'.toil = toil) {act : Act} (hnext : r'.nextAct? stop = some act)
          (hact : ∀ time, act ≠ .wait time) :
          ∃ n, (play p stop n r').lifecycle = .complete := by
        have hplayed := played_of_nextAct? hnext
        have hafter := h'.perform (h'.isAttentive_of_played hplayed)
        rcases h'.toil_lt hdraining' hplayed hact with hcomplete | hless
        · exact ⟨1, by rw [hplay r' act hnext]; exact hcomplete⟩
        · obtain ⟨n, hcomplete⟩ := ih _ (hsame ▸ hless) hafter rfl
          exact ⟨n + 1, by rw [hplay r' act hnext]; exact hcomplete⟩
      have hsome : r.nextAct? stop ≠ none := nextAct?_ne_none hdraining h.whole
      obtain ⟨act, hnext⟩ := Option.ne_none_iff_exists'.1 hsome
      by_cases hwait : ∃ time, act = .wait time
      · obtain ⟨time, rfl⟩ := hwait
        have hplayed := played_of_nextAct? hnext
        have hafter := h.perform (h.isAttentive_of_played hplayed)
        have hwaited : r.perform p (.wait time) = r.handle p (.wait time) :=
          perform_of_whole h.whole _
        have hstill : (r.perform p (.wait time)).lifecycle = .draining := hwaited ▸ hdraining
        have hsame : (r.perform p (.wait time)).toil = toil := hwaited ▸ htoil
        have hsome : (r.perform p (.wait time)).nextAct? stop ≠ none :=
          nextAct?_ne_none hstill hafter.whole
        obtain ⟨act, hthen⟩ := Option.ne_none_iff_exists'.1 hsome
        obtain ⟨n, hcomplete⟩ := hgoesOn hafter hstill hsame hthen (by
          rintro again rfl
          exact not_wait_twice hdraining h.whole hplayed (played_of_nextAct? hthen))
        exact ⟨n + 1, by rw [hplay r _ hnext]; exact hcomplete⟩
      · exact hgoesOn h hdraining htoil hnext fun time hsame => hwait ⟨time, hsame⟩
    · exact ⟨0, hcomplete⟩

/-- What is played of the end of a run is attentive. -/
theorem exists_attentive_play (h : Drains p begun r) (stop : StopPlan) (n : Nat) :
    ∃ acts, play p stop n r = Run.performAll p r acts ∧ isAttentiveAll p r acts = true := by
  induction n generalizing r with
  | zero => exact ⟨[], rfl, rfl⟩
  | succ n ih =>
    unfold play
    split
    · exact ⟨[], rfl, rfl⟩
    · next act hnext =>
      have hattentive := h.isAttentive_of_played (played_of_nextAct? hnext)
      obtain ⟨acts, hplay, hall⟩ := ih (h.perform hattentive)
      exact ⟨act :: acts, hplay, Bool.and_eq_true_iff.2 ⟨hattentive, hall⟩⟩

end Drains

/-! ## When users leave -/

/-- Whether a user leaves in time, seen from the instant at which the end of its run began: it
comes to its end as its deadline says, and it has come to it once that is over. -/
structure Leaves (r : Run) (user since deadline : Nat) : Prop where
  meets : ∀ ending time, r.EndsAt user ending time → Meets since deadline ending time
  gone : r.lifecycle = .complete ∨ max since deadline < r.scene.clock →
    ∃ ending time, r.EndsAt user ending time

/-- A deadline that was over when the end began is as good as that instant. -/
theorem Leaves.of_late {user since deadline : Nat} (h : r.Leaves user since deadline)
    (hlate : deadline ≤ since) : r.Leaves user since since where
  meets := by
    intro ending time hend
    rcases h.meets ending time hend with ⟨haborted, htime⟩ | ⟨-, hopen, -⟩
    · refine .inl ⟨haborted, ?_⟩
      rw [htime, Nat.max_eq_left hlate, Nat.max_self]
    · omega
  gone := by
    intro hover
    refine h.gone (hover.imp_right fun hlater => ?_)
    rwa [Nat.max_eq_left hlate, ← Nat.max_self since]

theorem Drains.leaves {begun : Run} (h : Drains p begun r) {user told : Nat}
    (htold : r.ToldAt user told) (hgoing : begun.ending? user = none) :
    r.Leaves user begun.scene.clock (told + p.settings.gracePeriod.nanos) where
  meets := by
    intro ending time hend
    obtain ⟨told', htold', hmeets⟩ := h.ends user hgoing ending time hend
    rwa [toldAt_unique (chronicle_of_reaches h.reaches) htold htold']
  gone := by
    intro hover
    cases hending : r.ending? user with
    | some ending => exact ⟨ending, exists_endsAt h.reaches hending⟩
    | none =>
      -- A user that goes on is stopping or aborted, and either of them has time left.
      have hchronicle := chronicle_of_reaches h.reaches
      refine absurd hover (not_or.2 ⟨fun hcomplete => ?_, fun hlater => ?_⟩)
      · exact ending?_ne_none_of_complete h.reaches hcomplete htold hending
      · obtain ⟨u, hu, -⟩ := (Option.any_eq_true _ _).1 (isTold_of_toldAt hchronicle htold)
        have hopen : u.ending? = none := by rwa [Run.ending?, hu] at hending
        rcases place_of_going (roster_of_reaches h.reaches) h.active_eq hu hopen with
            ⟨s, hs, rfl⟩ | haborting
        · obtain ⟨told', htold', hdeadline⟩ := (grace_of_reaches h.reaches).deadline_eq s hs
          have hsame := toldAt_unique hchronicle htold htold'
          have hearly := (h.stopping s hs).2.1
          omega
        · obtain ⟨told', htold', hdue⟩ := h.aborting user haborting hending
          have hsame := toldAt_unique hchronicle htold htold'
          omega

/-- The end of a run takes one grace period, however many users it has.  Whatever led to the
moment at which the end begins, at an instant `t`, and whatever the users do after it, as long as
the run and its aborts are not late and a grace period that begins at `t` has an end:

* as long as the run is not complete, no more than a grace period has passed since `t`;
* it is complete by then, at the instant at which the last user has come to its end, or at `t`,
  so that those who end earlier make no difference;
* whoever was active has a grace period from `t` on, whoever was stopping has what is left until
  its own deadline, and whoever was aborted has nothing: a user that goes on until its deadline
  is aborted at that instant, or at `t` if that is later;
* played on, the run is complete after some acts, which are attentive.

If a grace period that begins at `t` has no end, the run breaks down at `t`: its users are as
they were, nobody is aborted, and it is never complete. -/
theorem drain_within_grace (p : Plan) (before : List Act) (act : Act)
    (hrunning : (performAll p start before).lifecycle = .running)
    (hbegins : ((performAll p start before).perform p act).lifecycle ≠ .running) :
    let r := performAll p start before
    let begun := r.perform p act
    let t := r.scene.clock
    let grace := p.settings.gracePeriod.nanos
    begun.scene.clock = t ∧
      (p.deadline? t = none → begun.broken = true ∧ begun.lifecycle = .draining ∧
        begun.users = r.users ∧ ∀ more, performAll p begun more = begun) ∧
      (p.deadline? t ≠ none → ∀ more, isAttentiveAll p begun more = true →
        let last := performAll p begun more
        (last.lifecycle ≠ .complete → last.scene.clock ≤ t + grace) ∧
          (last.lifecycle = .complete → ∃ time, last.CompletesAt time ∧ time ≤ t + grace ∧
            (time = t ∨ ∃ user ending, last.EndsAt user ending time) ∧
            ∀ user ending ended, last.EndsAt user ending ended → ended ≤ time) ∧
          (∀ user ∈ r.active, r.isEnded user = false → last.Leaves user t (t + grace)) ∧
          (∀ s ∈ r.stopping, r.isEnded s.user = false → last.Leaves s.user t s.deadline) ∧
          (∀ user ∈ r.aborting, r.isEnded user = false → last.Leaves user t t) ∧
          ∀ stop, ∃ n, (play p stop n last).lifecycle = .complete ∧
            ∃ rest, play p stop n last = performAll p last rest ∧
              isAttentiveAll p last rest = true) := by
  intro r begun t grace
  have hr : Reaches p r := performAll_reaches p before
  have hclock : begun.scene.clock = t := clock_begins hrunning hbegins
  refine ⟨hclock, fun hendless => ?_, fun hends more hattentive => ?_⟩
  · obtain ⟨hbroken, hdraining, husers⟩ := begins_of_endless hrunning hbegins hendless
    exact ⟨hbroken, hdraining, husers, performAll_of_broken hbroken⟩
  obtain ⟨deadline, hends⟩ := Option.ne_none_iff_exists'.1 hends
  have hroster := roster_of_reaches hr
  have hbegun : Drains p begun begun := drains_begun hr hrunning hbegins hends
  intro last
  have hlast : Drains p begun last := hbegun.performAll hattentive
  have hmoves := performAll_moves (p := p) more begun fun _ _ => hbegun.active_eq
  have hextends : Extends r last :=
    Moves.extends hr ((perform_moves r act (emptied_of_running hrunning)).trans hmoves)
  -- Whoever was told to stop by then and has not ended leaves in time.
  have hleaves {user told : Nat} (htold : last.ToldAt user told) (hgoing : r.isEnded user = false) :
      last.Leaves user t (told + grace) := by
    have hopen : begun.ending? user = none := by
      rw [ending?_begins hrunning hbegins]
      exact Option.not_isSome_iff_eq_none.1 (Bool.eq_false_iff.1 hgoing)
    exact hclock ▸ hlast.leaves htold hopen
  refine ⟨fun hgoing => ?_, fun hcomplete => ?_, ?_, ?_, ?_, fun stop => ?_⟩
  · exact hclock ▸ hlast.clock_le (hlast.closing.resolve_right hgoing)
  · obtain ⟨time, htime⟩ := (completesAt_iff hlast.reaches).2 hcomplete
    exact ⟨time, htime, hclock ▸ hlast.completes time htime⟩
  · intro user huser hgoing
    have htold := toldAt_begins hrunning hbegins hends hroster huser hgoing
    exact hleaves ((Moves.extends hbegun.reaches hmoves).toldAt htold) hgoing
  · intro s hs hgoing
    obtain ⟨told, htold, hdeadline⟩ := (grace_of_reaches hr).deadline_eq s hs
    exact hdeadline ▸ hleaves (hextends.toldAt htold) hgoing
  · intro user huser hgoing
    obtain ⟨told, htold, hlate, -⟩ := (grace_of_reaches hr).aborting_late user huser
    exact (hleaves (hextends.toldAt htold) hgoing).of_late hlate
  · obtain ⟨n, hcomplete⟩ := hlast.exists_play_complete stop
    exact ⟨n, hcomplete, hlast.exists_attentive_play stop n⟩

/-- No request is ever answered.  One user was told to stop a second before the run is left, and
one goes on until then: both are aborted three seconds after the word, and the run is complete
with the second of them. -/
theorem drain_within_grace_unanswered :
    ∃ (p : Plan) (before more : List Act),
      let r := performAll p start before
      let begun := r.perform p .interrupt
      let last := performAll p begun more
      r.lifecycle = .running ∧ begun.lifecycle ≠ .running ∧ r.scene.clock = 6000000000 ∧
        r.active = [0] ∧ r.stopping = [⟨1, 8000000000⟩] ∧
        p.deadline? 6000000000 = some 9000000000 ∧
        isAttentiveAll p begun more = true ∧ last.lifecycle = .complete ∧
        (∃ time, last.CompletesAt time ∧ time ≤ 9000000000) ∧
        last.Leaves 0 6000000000 9000000000 ∧ last.Leaves 1 6000000000 8000000000 := by
  let p : Plan :=
    { schedule := ⟨[⟨Duration.ofSeconds 5, 2⟩, ⟨Duration.zero, 1⟩, ⟨Duration.ofSeconds 4, 1⟩], 2,
        Duration.ofSeconds 9, by decide +kernel, by decide +kernel⟩
      scenario := browsing
      baseUrl := "http://localhost"
      transport := fun _ _ => .never
      settings := ⟨Duration.zero, Duration.ofSeconds 5, Duration.ofSeconds 3⟩
      tick_pos := by decide +kernel }
  let before : List Act :=
    [.tick, .step 0, .step 1, .wait 5000000000, .tick, .wait 6000000000, .stop]
  let more : List Act :=
    [.wait 8000000000, .drain, .land 1, .wait 9000000000, .drain, .land 0, .drain]
  have hrunning : (performAll p start before).lifecycle = .running := by decide +kernel
  have hbegins : ((performAll p start before).perform p .interrupt).lifecycle ≠ .running := by
    decide +kernel
  have hclock : (performAll p start before).scene.clock = 6000000000 := by decide +kernel
  have hactive : (performAll p start before).active = [0] := by decide +kernel
  have hstopping : (performAll p start before).stopping = [⟨1, 8000000000⟩] := by decide +kernel
  have hgoing : (performAll p start before).isEnded 0 = false ∧
      (performAll p start before).isEnded 1 = false := by decide +kernel
  have hgrace : p.settings.gracePeriod.nanos = 3000000000 := by decide +kernel
  have hends : p.deadline? 6000000000 = some 9000000000 := by decide +kernel
  have hattentive :
      isAttentiveAll p ((performAll p start before).perform p .interrupt) more = true := by
    decide +kernel
  have hcomplete : (performAll p ((performAll p start before).perform p .interrupt)
      more).lifecycle = .complete := by decide +kernel
  obtain ⟨-, -, hall⟩ := drain_within_grace p before .interrupt hrunning hbegins
  rw [hclock, hends] at hall
  obtain ⟨-, hover, hfirst, hsecond, -⟩ := hall nofun more hattentive
  obtain ⟨time, htime, hle, -⟩ := hover hcomplete
  rw [hgrace] at hle hfirst
  refine ⟨p, before, more, hrunning, hbegins, hclock, hactive, hstopping, hends, hattentive,
    hcomplete, ⟨time, htime, hle⟩, ?_, ?_⟩
  · have hmem : 0 ∈ (performAll p start before).active := by
      rw [hactive]
      exact List.mem_singleton_self 0
    exact hfirst 0 hmem hgoing.1
  · have hmem : ⟨1, 8000000000⟩ ∈ (performAll p start before).stopping := by
      rw [hstopping]
      exact List.mem_singleton_self _
    exact hsecond _ hmem hgoing.2

/-- The end of a run may take more than a grace period: a user waits for its reply when the
schedule is complete, and its grace period, of more seconds than there are instants, has no
end. -/
theorem not_drain_within_grace :
    ¬ ∀ (p : Plan) (before : List Act) (act : Act),
      let r := performAll p start before
      let begun := r.perform p act
      r.lifecycle = .running → begun.lifecycle ≠ .running →
        ∀ stop, ∃ n, (play p stop n begun).lifecycle = .complete := by
  intro hends
  let p : Plan :=
    { schedule := ⟨[⟨Duration.zero, 1⟩, ⟨Duration.ofMillis 150, 1⟩], 0, Duration.ofMillis 150,
        by decide +kernel, by decide +kernel⟩
      scenario := browsing
      baseUrl := "http://localhost"
      transport := fun _ _ => .never
      settings := ⟨Duration.zero, Duration.ofMillis 50, Duration.ofSeconds 10000000000000000000⟩
      tick_pos := by decide +kernel }
  let before : List Act := [.tick, .step 0, .wait 150000000]
  have hrunning : (performAll p start before).lifecycle = .running := by decide +kernel
  have hbegins : ((performAll p start before).perform p .tick).lifecycle = .draining := by
    decide +kernel
  have hbroken : ((performAll p start before).perform p .tick).broken = true := by decide +kernel
  obtain ⟨n, hcomplete⟩ := hends p before .tick hrunning (by rw [hbegins]; exact nofun) .never
  rw [play_of_broken hbroken, hbegins] at hcomplete
  cases hcomplete

end Run
end LoadRamp
