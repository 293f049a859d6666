import LoadRamp.Proofs.Chronicle
import LoadRamp.Proofs.Instants
import LoadRamp.Proofs.Ramp

/-!
# The pool follows the schedule

* `Pool` is the invariant of moves: active users stand in the order in which they
  were started, the gauge is at zero once the run is no longer under way, and the
  peak is the largest number that a tick has asked for.
* `tick_follows` says what one tick does with a target: of the active users that
  have not ended the longest running stay, as many as are wanted; the others are
  told to stop, the latest first; and new users fill up what is missing.
* `tick_breaks` is about users that are to stop when no grace period has an end.
* `pool_follows_schedule` puts them together for every list of acts, with the bound
  of `Schedule.targetAt_le_peakTarget` on the peak.
-/

namespace LoadRamp
namespace Run

/-- The largest number that a tick has asked for. -/
def mostWanted (r : Run) : Nat := (r.scene.pick Happening.wanted?).foldl max 0

/-- What a run has kept of its targets. -/
structure Pool (p : Plan) (r : Run) : Prop where
  ordered : r.active.Pairwise (· < ·)
  gauge_eq : r.broken = false → r.lifecycle ≠ .running → r.gauge = 0
  peak_le : r.peak ≤ r.mostWanted
  peak_eq : r.broken = false → r.peak = r.mostWanted
  wanted : ∀ n ∈ r.scene.pick Happening.wanted?,
    ∃ elapsed, p.schedule.targetAt elapsed = .active n

/-- The pool is as it was when no user is started and no tick is handled. -/
theorem pool_quiet {p : Plan} {r r' : Run} (h : Pool p r)
    (hactive : r'.active.Sublist r.active)
    (hgauge : r'.broken = false → r'.lifecycle ≠ .running → r'.gauge = 0)
    (hpeak : r'.peak = r.peak) (hwhole : r'.broken = false → r.broken = false)
    (hwanted : r'.scene.pick Happening.wanted? = r.scene.pick Happening.wanted?) : Pool p r' where
  ordered := h.ordered.sublist hactive
  gauge_eq := hgauge
  peak_le := by
    rw [mostWanted, hpeak, hwanted]
    exact h.peak_le
  peak_eq := by
    intro hbroken
    rw [mostWanted, hpeak, hwanted]
    exact h.peak_eq (hwhole hbroken)
  wanted := by
    rw [hwanted]
    exact h.wanted

/-- A user that is started has the largest number so far. -/
theorem pool_spawn {p : Plan} {r : Run} (hroster : Roster r) (h : Pool p r)
    (hrunning : r.lifecycle = .running) : Pool p r.spawn where
  ordered := by
    refine List.pairwise_append.2 ⟨h.ordered, List.pairwise_singleton _ _, ?_⟩
    intro user huser last hlast
    rw [List.mem_singleton.1 hlast]
    exact List.mem_range.1 (hroster.places_perm.mem_iff.1 (mem_places.2 (.inl huser)))
  gauge_eq := fun _ hover => absurd hrunning hover
  peak_le := h.peak_le
  peak_eq := h.peak_eq
  wanted := h.wanted

theorem mostWanted_note_tick (r : Run) (target : Schedule.Target) :
    (r.note (.ticks target)).mostWanted = max r.mostWanted target.users := by
  have hpick := Scene.pick_note Happening.wanted? r.scene (.ticks target)
  show ((r.scene.note _).pick Happening.wanted?).foldl max 0 = _
  rw [hpick, List.foldl_append]
  cases target with
  | complete => exact (Nat.max_eq_left (Nat.zero_le _)).symm
  | active n => rfl

/-- A tick raises the peak to what it asks for, unless the run breaks down. -/
theorem pool_tick {p : Plan} {r : Run} (h : Pool p r) (hrunning : r.lifecycle = .running) :
    Pool p
      { r.note (.ticks (p.schedule.targetAt r.scene.clock)) with
        peak := if r.broken then r.peak
          else max r.peak (p.schedule.targetAt r.scene.clock).users } where
  ordered := h.ordered
  gauge_eq := fun _ hover => absurd hrunning hover
  peak_le := by
    change _ ≤ (r.note (.ticks (p.schedule.targetAt r.scene.clock))).mostWanted
    have hbefore := h.peak_le
    rw [mostWanted_note_tick]
    dsimp only
    split <;> omega
  peak_eq := by
    intro hbroken
    change r.broken = false at hbroken
    change _ = (r.note (.ticks (p.schedule.targetAt r.scene.clock))).mostWanted
    rw [mostWanted_note_tick, ← h.peak_eq hbroken]
    exact if_neg (by simp [hbroken])
  wanted := by
    intro n hn
    change n ∈ (r.scene.note _).pick Happening.wanted? at hn
    rw [Scene.pick_note] at hn
    rcases List.mem_append.1 hn with hold | hnew
    · exact h.wanted n hold
    · refine ⟨r.scene.clock, ?_⟩
      cases htarget : p.schedule.targetAt r.scene.clock with
      | complete =>
        rw [htarget] at hnew
        cases hnew
      | active m =>
        rw [htarget] at hnew
        exact congrArg _ (List.mem_singleton.1 hnew).symm

theorem pool_move {p : Plan} {r r' : Run} (hroster : Roster r) (hmove : Move p r r')
    (h : Pool p r) : Pool p r' := by
  have hsame := List.Sublist.refl r.active
  have hrest {front back : List Nat} {user : Nat} (hactive : r.active = front ++ user :: back) :
      (front ++ back).Sublist r.active := by
    rw [hactive]
    exact (List.sublist_cons_self user back).append_left front
  cases hmove with
  | deed hu hdeed =>
    exact pool_quiet h hsame h.gauge_eq rfl id
      (hdeed.continues.pick_eq fun _ => Happening.wanted?_of_doer)
  | @land user u haborting hu =>
    exact pool_quiet h hsame h.gauge_eq rfl id
      ((User.continues_abort u r.scene).pick_eq fun _ => Happening.wanted?_of_doer)
  | lose hactive hu hending =>
    exact pool_quiet h (hrest hactive) h.gauge_eq rfl id (Scene.pick_note_none _ rfl)
  | joinStopping => exact pool_quiet h hsame h.gauge_eq rfl id (pick_settled_none _ rfl)
  | expire => exact pool_quiet h hsame h.gauge_eq rfl id rfl
  | joinAborting => exact pool_quiet h hsame h.gauge_eq rfl id (pick_settled_none _ rfl)
  | spawn hrunning => exact pool_spawn hroster h hrunning
  | @tell front back user hactive =>
    have hmem : user ∈ r.active := by simp [hactive]
    obtain ⟨u, hu⟩ := hroster.exists_of_active hmem
    rw [tellIn_eq hu]
    exact pool_quiet h (hrest hactive) h.gauge_eq rfl id (pick_tell_none _ rfl)
  | tick hrunning => exact pool_tick h hrunning
  | gauge hrunning =>
    exact pool_quiet h hsame (fun _ hover => absurd hrunning hover) rfl id rfl
  | remark hgoing hremark =>
    obtain ⟨_, _, hwanted, _⟩ := Happening.kinds_of_remark hremark
    exact pool_quiet h hsame h.gauge_eq rfl id (Scene.pick_note_none _ hwanted)
  | wait => exact pool_quiet h hsame h.gauge_eq rfl id rfl
  | adjust => exact pool_quiet h hsame h.gauge_eq rfl id rfl
  | breakDown => exact pool_quiet h hsame nofun rfl nofun rfl
  | drain =>
    exact pool_quiet h hsame (fun hwhole _ => if_neg (Bool.eq_false_iff.1 hwhole)) rfl id
      (Scene.pick_note_none _ rfl)
  | finish hdraining hactive hstopping haborting hwhole =>
    rw [finish_eq hdraining]
    -- The gauge went to zero when the end began.
    refine pool_quiet h hsame (fun _ _ => h.gauge_eq hwhole ?_) rfl id
      (Scene.pick_note_none _ rfl)
    simp [hdraining]

theorem pool_of_reaches {p : Plan} {r : Run} (hr : Reaches p r) : Pool p r :=
  hr.keeps ⟨.nil, fun _ _ => rfl, Nat.le_refl _, fun _ => rfl, nofun⟩
    fun _ _ hbefore hmove => pool_move (roster_of_reaches hbefore) hmove

/-! ## One tick -/

/-- Ends that are noticed leave all happenings of other kinds as they are. -/
theorem pick_reaped {α : Type} (f : Happening → Option α)
    (hlost : ∀ name n ending, f (.lost name n ending) = none)
    (hjoins : ∀ name n grace ending, f (.joins name n grace ending) = none) (p : Plan) (r : Run) :
    (reaped p r).scene.pick f = r.scene.pick f := by
  have hdismiss (users : List User) (l : List Nat) (scene : Scene) :
      (l.foldl (dismiss users) scene).pick f = scene.pick f := by
    induction l generalizing scene with
    | nil => rfl
    | cons user rest ih =>
      rw [List.foldl_cons, ih, dismiss]
      split
      · rfl
      · rw [Scene.pick_note, hlost]
        exact List.append_nil _
  have hsettle (users : List User) (l : List Nat) (scene : Scene) :
      (l.foldl (settle p users) scene).pick f = scene.pick f := by
    induction l generalizing scene with
    | nil => rfl
    | cons user rest ih =>
      rw [List.foldl_cons, ih, settle]
      split
      · rfl
      · rw [pick_settled, hjoins]
        exact List.append_nil _
  simp only [reaped, reap, reapActive_eq, reapStopping_eq, reapAborting_eq, hdismiss, hsettle]

/-- Users that are told to stop one after the other are told in that order. -/
theorem pick_tellAll {α : Type} (f : Happening → Option α) (l : List Nat)
    (state : Scene × List User)
    (hnames : ∀ user ∈ l, ∃ u, state.2[user]? = some u ∧ u.name = userName user) :
    (l.foldl tellIn state).1.pick f =
      state.1.pick f ++ l.filterMap fun user => f (.tells (userName user)) := by
  induction l generalizing state with
  | nil => exact (List.append_nil _).symm
  | cons user rest ih =>
    obtain ⟨u, hu, hname⟩ := hnames user List.mem_cons_self
    have hlength := (List.getElem?_eq_some_iff.1 hu).1
    rw [List.foldl_cons, tellIn_eq hu, ih, pick_tell, hname, List.filterMap_cons,
      List.append_assoc]
    · cases f (.tells (userName user)) <;> rfl
    · intro other hother
      by_cases hsame : other = user
      · subst hsame
        exact ⟨_, List.getElem?_set_self hlength, (User.name_tell u _).trans hname⟩
      · rw [List.getElem?_set_ne (Ne.symm hsame)]
        exact hnames other (List.mem_cons_of_mem _ hother)

/-- Scaling tells the users beyond the target to stop, the latest first, and nobody else. -/
theorem pick_resized {α : Type} (f : Happening → Option α)
    (hup : ∀ active target, f (.scalesUp active target) = none)
    (hdown : ∀ active target, f (.scalesDown active target) = none) {p : Plan} {r : Run}
    (hroster : Roster r) (target : Nat) :
    (resized p r target).scene.pick f =
      r.scene.pick f ++
        (r.active.drop target).reverse.filterMap fun user => f (.tells (userName user)) := by
  have hspawn (n : Nat) (r : Run) : (spawnMany n r).scene.pick f = r.scene.pick f := by
    induction n generalizing r with
    | zero => rfl
    | succ n ih => exact (ih r.spawn).trans (Scene.pick_of_history _ rfl)
  unfold resized
  split
  · next hmore =>
    rw [hspawn, List.drop_eq_nil_of_le (Nat.le_of_lt hmore)]
    show (r.scene.note _).pick f = _
    rw [Scene.pick_note, hup]
    rfl
  · split
    · simp only [tellAll, foldl_tell]
      rw [pick_tellAll]
      · show (r.scene.note _).pick f ++ _ = _
        rw [Scene.pick_note, hdown]
        simp
      · intro user huser
        have hmem : user ∈ r.active := List.mem_of_mem_drop (List.mem_reverse.1 huser)
        obtain ⟨u, hu⟩ := hroster.exists_of_active hmem
        exact ⟨u, hu, (hroster.placed user u hu).name_eq⟩
    · next hmore hless =>
      rw [List.drop_eq_nil_of_le (Nat.not_lt.1 hless)]
      exact (List.append_nil _).symm

/-- The active users that have not ended, the longest running first. -/
def alive (r : Run) : List Nat := r.active.filter fun user => !r.isEnded user

/-- A tick that asks for `n` users, if there is an end to the grace period of those who are to
stop, leaves the `n` longest running of those that have not ended,
tells the others to stop, the latest first, and starts as many users as are missing. -/
theorem tick_follows {p : Plan} {r : Run} (hr : Reaches p r) {n : Nat}
    (htarget : p.schedule.targetAt r.scene.clock = .active n)
    (hends : p.deadline? r.scene.clock = none → r.alive.length ≤ n) :
    (r.tick p).active = r.alive.take n ++ List.range' r.users.length (n - r.alive.length) ∧
      (r.tick p).active.length = n ∧ (r.tick p).gauge = n ∧
      (r.tick p).scene.pick Happening.told? =
        r.scene.pick Happening.told? ++ (r.alive.drop n).reverse.map userName ∧
      (r.tick p).scene.pick Happening.wanted? = r.scene.pick Happening.wanted? ++ [n] := by
  have hreached : Reaches p (reaped p r) := Relation.ReflTransGen.trans hr (reaped_moves r)
  -- The note of the tick changes neither users nor places.
  have hroster : Roster ((reaped p r).note (.ticks (.active n))) :=
    (roster_of_reaches hreached).of_places rfl rfl rfl rfl rfl
  have hactive : ((reaped p r).note (.ticks (.active n))).active = r.alive := active_reaped p r
  have husers : ((reaped p r).note (.ticks (.active n))).users = r.users := users_reaped p r
  have hlength := length_active_resized p ((reaped p r).note (.ticks (.active n))) n
  have hends' : p.deadline? ((reaped p r).note (.ticks (.active n))).scene.clock = none →
      ((reaped p r).note (.ticks (.active n))).active.length ≤ n := by
    rw [hactive]
    exact clock_reaped p r ▸ hends
  rw [tick_of_active htarget, scaleTo_eq hends']
  refine ⟨?_, hlength, hlength, ?_, ?_⟩
  · show (resized p ((reaped p r).note (.ticks (.active n))) n).active = _
    rw [active_resized, hactive, husers]
  · show ((resized p ((reaped p r).note (.ticks (.active n))) n).scene.note _).pick _ = _
    rw [Scene.pick_note, pick_resized Happening.told? (fun _ _ => rfl) (fun _ _ => rfl) hroster,
      hactive]
    show ((reaped p r).scene.note _).pick _ ++ _ ++ [] = _
    rw [Scene.pick_note, pick_reaped Happening.told? (fun _ _ _ => rfl) (fun _ _ _ _ => rfl)]
    simp [Happening.told?]
  · show ((resized p ((reaped p r).note (.ticks (.active n))) n).scene.note _).pick _ = _
    rw [Scene.pick_note, pick_resized Happening.wanted? (fun _ _ => rfl) (fun _ _ => rfl) hroster]
    show ((reaped p r).scene.note _).pick _ ++ _ ++ [] = _
    rw [Scene.pick_note, pick_reaped Happening.wanted? (fun _ _ _ => rfl) (fun _ _ _ _ => rfl)]
    simp [Happening.wanted?]

/-- A tick that asks for fewer users than there are breaks the run down if there is no end to
their grace period: nobody is told to stop, and gauge and peak are as they were. -/
theorem tick_breaks {p : Plan} {r : Run} {n : Nat}
    (htarget : p.schedule.targetAt r.scene.clock = .active n)
    (hendless : p.deadline? r.scene.clock = none) (hless : n < r.alive.length) :
    (r.tick p).broken = true ∧ (r.tick p).active = r.alive ∧ (r.tick p).gauge = r.gauge ∧
      (r.tick p).peak = r.peak ∧
      (r.tick p).scene.pick Happening.told? = r.scene.pick Happening.told? := by
  have hactive : ((reaped p r).note (.ticks (.active n))).active = r.alive := active_reaped p r
  have hendless' : p.deadline? ((reaped p r).note (.ticks (.active n))).scene.clock = none :=
    (clock_reaped p r).symm ▸ hendless
  have hkept : (reaped p r).gauge = r.gauge ∧ (reaped p r).peak = r.peak := by
    simp only [reaped, reap, reapActive_eq, reapStopping_eq, reapAborting_eq, and_self]
  rw [tick_of_active htarget, scaleTo_of_endless (hactive.symm ▸ hless) hendless']
  refine ⟨rfl, hactive, hkept.1, hkept.2, ?_⟩
  refine (Scene.pick_note_none _ rfl).trans ((Scene.pick_note_none _ rfl).trans ?_)
  exact pick_reaped Happening.told? (fun _ _ _ => rfl) (fun _ _ _ _ => rfl) p r

/-- The pool follows the schedule, whatever happened before.  Every tick that is handled and
asks for `n` users leaves exactly `n` of them active, and the gauge says so: the longest
running ones stay, the others are told to stop, the latest first, and the missing ones are
started.  If there are others and their grace period has no end, the run breaks down instead:
nobody is told, and nothing happens to it any more.

Active users always stand in the order of their start, and nobody is told twice.  The peak is the
largest number that a tick has asked for, and at most the peak target of the schedule if its
targets are at most `2 ^ 53`; at the end the gauge is at zero. -/
theorem pool_follows_schedule (p : Plan) (acts : List Act) :
    let r := performAll p start acts
    (∀ n, r.lifecycle = .running → r.broken = false →
        p.schedule.targetAt r.scene.clock = .active n →
        let after := r.perform p .tick
        ((p.deadline? r.scene.clock = none → r.alive.length ≤ n) →
          after.active.length = n ∧ after.gauge = n ∧
            after.active =
              r.alive.take n ++ List.range' r.users.length (n - r.alive.length) ∧
            after.scene.pick Happening.told? =
              r.scene.pick Happening.told? ++ (r.alive.drop n).reverse.map userName ∧
            after.scene.pick Happening.wanted? = r.scene.pick Happening.wanted? ++ [n]) ∧
          (p.deadline? r.scene.clock = none → n < r.alive.length →
            after.broken = true ∧ after.active = r.alive ∧ after.gauge = r.gauge ∧
              after.peak = r.peak ∧
              after.scene.pick Happening.told? = r.scene.pick Happening.told? ∧
              ∀ more, performAll p after more = after)) ∧
      r.active.Pairwise (· < ·) ∧
      (r.scene.pick Happening.told?).Nodup ∧
      (r.broken = false → r.peak = (r.scene.pick Happening.wanted?).foldl max 0) ∧
      (p.schedule.startTarget ≤ 2 ^ 53 → (∀ stage ∈ p.schedule.stages, stage.target ≤ 2 ^ 53) →
        r.peak ≤ p.schedule.peakTarget) ∧
      (r.lifecycle = .complete → r.broken = false ∧ r.gauge = 0) := by
  intro r
  have hr : Reaches p r := performAll_reaches p acts
  have hpool := pool_of_reaches hr
  refine ⟨?_, hpool.ordered, ?_, hpool.peak_eq, ?_, ?_⟩
  · intro n hrunning hwhole htarget
    rw [perform_tick hrunning hwhole]
    refine ⟨fun hends => ?_, fun hendless hless => ?_⟩
    · obtain ⟨hactive, hlength, hgauge, htold, hwanted⟩ := tick_follows hr htarget hends
      exact ⟨hlength, hgauge, hactive, htold, hwanted⟩
    · obtain ⟨hbroken, hactive, hgauge, hpeak, htold⟩ := tick_breaks htarget hendless hless
      exact ⟨hbroken, hactive, hgauge, hpeak, htold, performAll_of_broken hbroken⟩
  · obtain ⟨told, hpick, hnodup, _⟩ := (chronicle_of_reaches hr).told_eq
    rw [hpick]
    exact hnodup.map fun i j hname => userName_injective hname
  · intro hstart hstages
    have hbound : ∀ n ∈ r.scene.pick Happening.wanted?, n ≤ p.schedule.peakTarget := by
      intro n hn
      obtain ⟨elapsed, htarget⟩ := hpool.wanted n hn
      exact Schedule.targetAt_le_peakTarget htarget hstart hstages
    exact Nat.le_trans hpool.peak_le (Schedule.foldl_max_le hbound (Nat.zero_le _))
  · intro hcomplete
    have hwhole := whole_of_complete hr hcomplete
    exact ⟨hwhole, hpool.gauge_eq hwhole (by simp [hcomplete])⟩

/-- The pool does not always follow the schedule: the second of two users is to stop, and its
grace period, of more seconds than there are instants, has no end. -/
theorem not_pool_follows_schedule :
    ¬ ∀ (p : Plan) (acts : List Act) (n : Nat),
      let r := performAll p start acts
      r.lifecycle = .running → r.broken = false →
        p.schedule.targetAt r.scene.clock = .active n →
        (r.perform p .tick).active.length = n := by
  intro h
  let p : Plan :=
    { schedule := ⟨[⟨Duration.zero, 2⟩, ⟨Duration.ofMillis 150, 2⟩, ⟨Duration.zero, 1⟩,
          ⟨Duration.ofMillis 150, 1⟩], 0, Duration.ofMillis 300, by decide +kernel,
        by decide +kernel⟩
      scenario := browsing
      baseUrl := "http://localhost"
      transport := fun _ _ => .never
      settings := ⟨Duration.zero, Duration.ofMillis 50, Duration.ofSeconds 10000000000000000000⟩
      tick_pos := by decide +kernel }
  let acts : List Act := [.tick, .step 0, .step 1, .wait 150000000]
  have hrunning : (performAll p start acts).lifecycle = .running := by decide +kernel
  have hwhole : (performAll p start acts).broken = false := by decide +kernel
  have htarget : p.schedule.targetAt (performAll p start acts).scene.clock = .active 1 := by
    decide +kernel
  have hboth : ((performAll p start acts).perform p .tick).active.length = 2 := by
    decide +kernel
  have hone := h p acts 1 hrunning hwhole htarget
  rw [hboth] at hone
  cases hone

end Run
end LoadRamp
