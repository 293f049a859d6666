import LoadRamp.Proofs.Drain

/-!
# What is so while a run drains

A run that drains waits for one stopping user after the other, and each wait may be as
long as a grace period.  The waits do not add up, because the deadlines ascend and the
last of them is one grace period after the end began.

* `Run.isAttentive` says of an act that the run and its aborts are not late, and nothing of
  the users: each may take its steps late or never.
* `Drains` is the invariant of a run that drains, and `drains_begun` the moment at which its
  end begins.
* `Drains.quiet` is the step of an act that takes no time and `Drains.wait` that of a wait;
  `Drains.performAll` is the run.
-/

namespace LoadRamp
namespace Run

variable {p : Plan}

/-! ## Attentive histories -/

/-- Whether an act is attentive: an aborted user takes no step, and time passes no further than
to an instant for which the run waits, and not at all while the run has something to do or an
abort is on its way. -/
def isAttentive (r : Run) : Act → Bool
  | .step user => decide (user ∉ r.aborting) || r.isEnded user
  | .wait time =>
    r.ownAct?.isNone && r.aborting.all r.isEnded &&
      r.ownInstants.all fun instant => decide (time ≤ instant)
  | _ => true

/-- Whether every act of a list is attentive when it comes. -/
def isAttentiveAll (p : Plan) : Run → List Act → Bool
  | _, [] => true
  | r, act :: rest => r.isAttentive act && isAttentiveAll p (r.perform p act) rest

/-! ## What is so while a run drains -/

/-- How a user that has a deadline comes to its end, seen from an instant on: by its abort, as
soon as the deadline is over, or by itself before. -/
def Meets (since deadline : Nat) (ending : Ending) (time : Nat) : Prop :=
  (∃ midway, ending = .aborted midway) ∧ time = max since deadline ∨
    (∀ midway, ending ≠ .aborted midway) ∧ since < deadline ∧ since ≤ time ∧ time ≤ deadline

/-- A run that drains attentively since the moment at which its end began. -/
structure Drains (p : Plan) (begun r : Run) : Prop where
  reaches : Reaches p r
  whole : r.broken = false
  closing : r.lifecycle = .draining ∨ r.lifecycle = .complete
  active_eq : r.active = []
  clock_ge : begun.scene.clock ≤ r.scene.clock
  clock_le : r.lifecycle = .draining →
    r.scene.clock ≤ begun.scene.clock + p.settings.gracePeriod.nanos
  /-- Whoever is stopping has time left, and no more than a grace period in all. -/
  stopping : ∀ s ∈ r.stopping, begun.scene.clock < s.deadline ∧ r.scene.clock ≤ s.deadline ∧
    s.deadline ≤ begun.scene.clock + p.settings.gracePeriod.nanos
  /-- Whoever is aborted has run out of time just now. -/
  aborting : ∀ user ∈ r.aborting, r.ending? user = none → ∃ told, r.ToldAt user told ∧
    r.scene.clock = max begun.scene.clock (told + p.settings.gracePeriod.nanos)
  latest : ∀ user ∈ r.aborting, r.latest? = some user → r.isEnded user = true
  ends : ∀ user, begun.ending? user = none → ∀ ending time, r.EndsAt user ending time →
    ∃ told, r.ToldAt user told ∧
      Meets begun.scene.clock (told + p.settings.gracePeriod.nanos) ending time
  /-- No time has passed since all users have ended. -/
  awaited : r.lifecycle = .draining → r.scene.clock = begun.scene.clock ∨
    (∃ user ending, r.EndsAt user ending r.scene.clock) ∨
      ∃ user told, r.ToldAt user told ∧ r.ending? user = none
  completes : ∀ time, r.CompletesAt time →
    time ≤ begun.scene.clock + p.settings.gracePeriod.nanos ∧
      (time = begun.scene.clock ∨ ∃ user ending, r.EndsAt user ending time) ∧
      ∀ user ending ended, r.EndsAt user ending ended → ended ≤ time

/-- A run that waits for a stopping user has time for all of them. -/
theorem lt_deadline_of_idle {r : Run} (hgrace : Grace p r) (hdraining : r.lifecycle = .draining)
    (hidle : r.ownAct? = none) : ∀ s ∈ r.stopping, r.scene.clock < s.deadline := by
  intro s hs
  obtain ⟨first, rest, hstopping⟩ := List.exists_cons_of_ne_nil (List.ne_nil_of_mem hs)
  have hfirst : r.scene.clock < first.deadline := by
    rw [ownAct?, hdraining, hstopping] at hidle
    simp at hidle
    exact hidle.2
  have hsorted := hgrace.sorted
  rw [hstopping] at hsorted hs
  rcases List.mem_cons.1 hs with rfl | hlater
  · exact hfirst
  · exact Nat.lt_of_lt_of_le hfirst ((List.pairwise_cons.1 hsorted).1 s hlater)

/-- Nothing is late at the moment at which the end begins. -/
theorem drains_begun {r : Run} {act : Act} {deadline : Nat} (hr : Reaches p r)
    (hrunning : r.lifecycle = .running)
    (hbegins : (r.perform p act).lifecycle ≠ .running)
    (hends : p.deadline? r.scene.clock = some deadline) :
    Drains p (r.perform p act) (r.perform p act) := by
  have hmoves := perform_moves (p := p) r act (emptied_of_running hrunning)
  have hreaches : Reaches p (r.perform p act) := hr.trans hmoves
  have hextends := Moves.extends hr hmoves
  have hgrace := grace_of_reaches hreaches
  obtain ⟨hactive, hlatest, hidle⟩ := idle_begins hrunning hbegins hends
  have hnow := clock_begins hrunning hbegins
  have hwhole : (r.perform p act).broken = false := by
    rw [Bool.eq_false_iff]
    intro hbroken
    have hendless := (endless_of_broken hreaches hbroken).1
    rw [hnow, hends] at hendless
    cases hendless
  refine ⟨hreaches, hwhole, hidle.symm.imp_left And.left, hactive, Nat.le_refl _,
    fun _ => Nat.le_add_right _ _, ?_, ?_, ?_, ?_, fun _ => .inl rfl, ?_⟩
  · intro s hs
    obtain ⟨told, htold, hdeadline⟩ := hgrace.deadline_eq s hs
    have hbefore := hgrace.times_le _ htold
    have hlast : s.deadline ≤
        (r.perform p act).scene.clock + p.settings.gracePeriod.nanos := by
      rw [hdeadline]
      exact Nat.add_le_add_right hbefore _
    rcases hidle with hcomplete | ⟨hdraining, hnone⟩
    · rw [((seal_of_reaches hreaches).empty hcomplete).2.1] at hs
      cases hs
    · have hlt := lt_deadline_of_idle hgrace hdraining hnone s hs
      exact ⟨hlt, Nat.le_of_lt hlt, hlast⟩
  · intro user huser _
    obtain ⟨told, htold, hlate, -⟩ := hgrace.aborting_late user huser
    exact ⟨told, htold, (Nat.max_eq_left hlate).symm⟩
  · intro user _ hlast
    cases hlatest.symm.trans hlast
  · rintro user hgoing ending time ⟨what, he, hwhat⟩
    rw [hgrace.ended _ he user ending hwhat] at hgoing
    cases hgoing
  · intro time htime
    rcases hextends.times _ htime with hold | ⟨hfrom, hto⟩
    · have hcomplete := (completesAt_iff hr).1 ⟨time, hold⟩
      rw [hrunning] at hcomplete
      cases hcomplete
    · have hsame : time = (r.perform p act).scene.clock := by
        dsimp only at hfrom hto
        omega
      refine ⟨hsame ▸ Nat.le_add_right _ _, .inl hsame, ?_⟩
      rintro user ending ended ⟨what, he, -⟩
      exact hsame ▸ hgrace.times_le _ he

/-- Whoever has not ended is stopping or aborted when nobody is active. -/
theorem place_of_going {r : Run} (hroster : Roster r) (hactive : r.active = []) {user : Nat}
    {u : User} (hu : r.users[user]? = some u) (hgoing : u.ending? = none) :
    (∃ s ∈ r.stopping, s.user = user) ∨ user ∈ r.aborting := by
  have hlength := (List.getElem?_eq_some_iff.1 hu).1
  have hplace := mem_places.1 (hroster.places_perm.mem_iff.2 (List.mem_range.2 hlength))
  rcases hplace with hmem | hmem | hmem | hmem
  · rw [hactive] at hmem
    cases hmem
  · exact .inl (List.mem_map.1 hmem)
  · exact .inr hmem
  · have hended := (hroster.placed user u hu).ended hmem
    rw [User.isEnded, hgoing] at hended
    cases hended

/-- In a run that is complete whoever was told to stop has ended. -/
theorem ending?_ne_none_of_complete {r : Run} (hr : Reaches p r)
    (hcomplete : r.lifecycle = .complete) {user told : Nat} (htold : r.ToldAt user told) :
    r.ending? user ≠ none := by
  have hheard := isTold_of_toldAt (chronicle_of_reaches hr) htold
  obtain ⟨u, hu, -⟩ := (Option.any_eq_true _ _).1 hheard
  have hended := isEnded_of_complete (roster_of_reaches hr) (seal_of_reaches hr) hcomplete hu
  rw [Run.ending?, hu, Option.bind_some]
  exact Option.isSome_iff_ne_none.1 hended

/-! ## An act that takes no time -/

/-- What an act comes to that lets no time pass.  Whoever comes to its end does so by itself if
it is stopping, and by an abort if it is aborted. -/
structure Quiet (p : Plan) (before after : Run) : Prop where
  moves : Moves p before after
  passes : Passes before after
  broken_eq : after.broken = before.broken
  closing : after.lifecycle = .draining ∨ after.lifecycle = .complete
  latest : ∀ user ∈ after.aborting, after.latest? = some user → after.isEnded user = true
  ends : ∀ user ending, before.ending? user = none → after.ending? user = some ending →
    user ∈ before.aborting ∧ (∃ midway, ending = .aborted midway) ∨
      (∃ s ∈ before.stopping, s.user = user) ∧ ∀ midway, ending ≠ .aborted midway

namespace Drains

variable {begun r r' : Run}

section Quiet

variable (h : Drains p begun r) (hquiet : Quiet p r r')

include h hquiet

theorem reaches_quiet : Reaches p r' := h.reaches.trans hquiet.moves

theorem extends_quiet : Extends r r' := Moves.extends h.reaches hquiet.moves

/-- A run that drains now was draining before. -/
theorem draining_quiet (hdraining : r'.lifecycle = .draining) : r.lifecycle = .draining := by
  refine h.closing.resolve_right fun hcomplete => ?_
  obtain ⟨time, htime⟩ := (completesAt_iff h.reaches).2 hcomplete
  have hafter := (completesAt_iff (h.reaches_quiet hquiet)).1
    ⟨time, (h.extends_quiet hquiet).kept _ htime⟩
  rw [hdraining] at hafter
  cases hafter

/-- An end is on record before, or comes now. -/
theorem ends_now {user : Nat} {ending : Ending} {time : Nat} (hend : r'.EndsAt user ending time) :
    r.EndsAt user ending time ∨
      time = r.scene.clock ∧ r.ending? user = none ∧ r'.ending? user = some ending := by
  have hnow := hquiet.passes.clock_eq
  refine ((h.extends_quiet hquiet).ends user ending time hend).imp_right ?_
  rintro ⟨hfrom, hto, hgoing, hended⟩
  exact ⟨by omega, hgoing, hended⟩

/-- Whoever was waited for goes on, or has come to its end just now. -/
theorem gone_now {user : Nat} (hgoing : r.ending? user = none) :
    (∃ ending, r'.EndsAt user ending r'.scene.clock) ∨ r'.ending? user = none := by
  cases hending : r'.ending? user with
  | none => exact .inr rfl
  | some ending =>
    obtain ⟨time, hend⟩ := exists_endsAt (h.reaches_quiet hquiet) hending
    rcases h.ends_now hquiet hend with ⟨what, he, hwhat⟩ | ⟨rfl, -, -⟩
    · rw [(grace_of_reaches h.reaches).ended _ he user ending hwhat] at hgoing
      cases hgoing
    · exact .inl ⟨ending, hquiet.passes.clock_eq ▸ hend⟩

/-- Whoever is aborted now is aborted at its deadline, since nobody is stopping beyond it. -/
theorem aborting_quiet : ∀ user ∈ r'.aborting, r'.ending? user = none → ∃ told,
    r'.ToldAt user told ∧
      r'.scene.clock = max begun.scene.clock (told + p.settings.gracePeriod.nanos) := by
  intro user huser hgoing
  have hextends := h.extends_quiet hquiet
  rw [hquiet.passes.clock_eq]
  rcases hquiet.passes.aborting_cases user huser with hold | ⟨s, hs, rfl, hlate⟩
  · obtain ⟨told, htold, hdue⟩ := h.aborting user hold (hextends.ending?_eq_none hgoing)
    exact ⟨told, hextends.toldAt htold, hdue⟩
  · obtain ⟨told, htold, hdeadline⟩ := (grace_of_reaches h.reaches).deadline_eq s hs
    obtain ⟨hsince, hearly, -⟩ := h.stopping s hs
    refine ⟨told, hextends.toldAt htold, ?_⟩
    omega

theorem ends_quiet : ∀ user, begun.ending? user = none → ∀ ending time,
    r'.EndsAt user ending time → ∃ told, r'.ToldAt user told ∧
      Meets begun.scene.clock (told + p.settings.gracePeriod.nanos) ending time := by
  intro user hgoing ending time hend
  have hextends := h.extends_quiet hquiet
  have hsince := h.clock_ge
  rcases h.ends_now hquiet hend with hold | ⟨hnow, hbefore, hafter⟩
  · obtain ⟨told, htold, hmeets⟩ := h.ends user hgoing ending time hold
    exact ⟨told, hextends.toldAt htold, hmeets⟩
  · rcases hquiet.ends user ending hbefore hafter with
        ⟨haborting, haborted⟩ | ⟨⟨s, hs, rfl⟩, hself⟩
    · obtain ⟨told, htold, hdue⟩ := h.aborting user haborting hbefore
      exact ⟨told, hextends.toldAt htold, .inl ⟨haborted, hnow.trans hdue⟩⟩
    · obtain ⟨told, htold, hdeadline⟩ := (grace_of_reaches h.reaches).deadline_eq s hs
      obtain ⟨hopen, hearly, -⟩ := h.stopping s hs
      refine ⟨told, hextends.toldAt htold, .inr ⟨hself, ?_, ?_, ?_⟩⟩ <;> omega

/-- As long as time stands still, so does what was waited for, unless its end comes now. -/
theorem awaited_quiet (hdraining : r.lifecycle = .draining) :
    r'.scene.clock = begun.scene.clock ∨
      (∃ user ending, r'.EndsAt user ending r'.scene.clock) ∨
        ∃ user told, r'.ToldAt user told ∧ r'.ending? user = none := by
  have hextends := h.extends_quiet hquiet
  have hnow := hquiet.passes.clock_eq
  rcases h.awaited hdraining with hstart | ⟨user, ending, hend⟩ | ⟨user, told, htold, hgoing⟩
  · exact .inl (hnow.trans hstart)
  · exact .inr (.inl ⟨user, ending, hnow ▸ hextends.endsAt hend⟩)
  · rcases h.gone_now hquiet hgoing with ⟨ending, hend⟩ | hstill
    · exact .inr (.inl ⟨user, ending, hend⟩)
    · exact .inr (.inr ⟨user, told, hextends.toldAt htold, hstill⟩)

/-- Nobody comes to an end in a run that is complete. -/
theorem endsAt_of_complete (hcomplete : r.lifecycle = .complete) {user : Nat} {ending : Ending}
    {time : Nat} (hend : r'.EndsAt user ending time) : r.EndsAt user ending time := by
  refine (h.ends_now hquiet hend).resolve_right fun ⟨_, hgoing, hafter⟩ => ?_
  obtain ⟨-, hstopping, haborting⟩ := (seal_of_reaches h.reaches).empty hcomplete
  rcases hquiet.ends user ending hgoing hafter with ⟨hmem, -⟩ | ⟨⟨s, hs, -⟩, -⟩
  · rw [haborting] at hmem
    cases hmem
  · rw [hstopping] at hs
    cases hs

theorem completes_quiet : ∀ time, r'.CompletesAt time →
    time ≤ begun.scene.clock + p.settings.gracePeriod.nanos ∧
      (time = begun.scene.clock ∨ ∃ user ending, r'.EndsAt user ending time) ∧
      ∀ user ending ended, r'.EndsAt user ending ended → ended ≤ time := by
  intro time htime
  have hreaches := h.reaches_quiet hquiet
  have hextends := h.extends_quiet hquiet
  have hnow := hquiet.passes.clock_eq
  rcases h.closing with hdraining | hcomplete
  · -- The run is completed just now, and whoever was waited for has ended.
    have hsame : time = r'.scene.clock := by
      rcases hextends.times _ htime with hold | ⟨hfrom, hto⟩
      · have hover := (completesAt_iff h.reaches).1 ⟨time, hold⟩
        rw [hdraining] at hover
        cases hover
      · dsimp only at hfrom hto
        omega
    rw [hsame]
    refine ⟨hnow ▸ h.clock_le hdraining, ?_, ?_⟩
    · refine (h.awaited_quiet hquiet hdraining).imp_right fun hafter => hafter.resolve_right ?_
      rintro ⟨user, told, htold, hgoing⟩
      exact ending?_ne_none_of_complete hreaches ((completesAt_iff hreaches).1 ⟨time, htime⟩)
        htold hgoing
    · rintro user ending ended ⟨what, he, -⟩
      exact (grace_of_reaches hreaches).times_le _ he
  · obtain ⟨completed, hcompleted⟩ := (completesAt_iff h.reaches).2 hcomplete
    obtain rfl := completesAt_unique hreaches htime (hextends.kept _ hcompleted)
    obtain ⟨hle, hlast, hall⟩ := h.completes time hcompleted
    refine ⟨hle, ?_, fun user ending ended hend => ?_⟩
    · exact hlast.imp_right fun ⟨user, ending, hend⟩ => ⟨user, ending, hextends.endsAt hend⟩
    · exact hall user ending ended (h.endsAt_of_complete hquiet hcomplete hend)

/-- An act that takes no time. -/
theorem quiet : Drains p begun r' where
  reaches := h.reaches_quiet hquiet
  whole := hquiet.broken_eq.trans h.whole
  closing := hquiet.closing
  active_eq := hquiet.passes.active_eq.trans h.active_eq
  clock_ge := Nat.le_trans h.clock_ge (h.extends_quiet hquiet).clock_le
  clock_le := by
    intro hdraining
    rw [hquiet.passes.clock_eq]
    exact h.clock_le (h.draining_quiet hquiet hdraining)
  stopping := by
    intro s hs
    rw [hquiet.passes.clock_eq]
    exact h.stopping s (hquiet.passes.stopping_suffix.subset hs)
  aborting := h.aborting_quiet hquiet
  latest := hquiet.latest
  ends := h.ends_quiet hquiet
  awaited := fun hdraining => h.awaited_quiet hquiet (h.draining_quiet hquiet hdraining)
  completes := h.completes_quiet hquiet

end Quiet

/-- A run that drains and has nothing to do itself waits for a stopping user, and for no other
one longer than for that. -/
theorem exists_stopping_of_idle (h : Drains p begun r) (hdraining : r.lifecycle = .draining)
    (hidle : r.ownAct? = none) (hlanded : r.aborting.all r.isEnded = true) :
    ∃ s rest, r.stopping = s :: rest ∧ r.isEnded s.user = false ∧
      ∀ other ∈ r.stopping, s.deadline ≤ other.deadline := by
  rw [ownAct?, hdraining] at hidle
  cases hstopping : r.stopping with
  | nil =>
    cases haborting : r.aborting with
    | nil => simp [hstopping, haborting] at hidle
    | cons user rest =>
      rw [haborting, List.all_cons] at hlanded
      simp [hstopping, haborting, (Bool.and_eq_true_iff.1 hlanded).1] at hidle
  | cons s rest =>
    have hsorted := (grace_of_reaches h.reaches).sorted
    rw [hstopping] at hsorted
    refine ⟨s, rest, rfl, ?_, fun other hother => ?_⟩
    · simp [hstopping] at hidle
      exact hidle.1
    · rcases List.mem_cons.1 hother with rfl | hlater
      · exact Nat.le_refl _
      · exact (List.pairwise_cons.1 hsorted).1 other hlater

/-- Time passes: no further than to the first deadline of all. -/
theorem wait (h : Drains p begun r) {time : Nat} (hattentive : r.isAttentive (.wait time) = true) :
    Drains p begun (r.perform p (.wait time)) := by
  have hmoves := perform_moves (p := p) r (.wait time) fun _ _ => h.active_eq
  rw [perform_of_whole h.whole] at hmoves ⊢
  obtain ⟨hboth, hinstants⟩ := Bool.and_eq_true_iff.1 hattentive
  obtain ⟨hidle, hlanded⟩ := Bool.and_eq_true_iff.1 hboth
  have hwaits (hdraining : r.lifecycle = .draining) := h.exists_stopping_of_idle hdraining
    (Option.isNone_iff_eq_none.1 hidle) hlanded
  have htime (hdraining : r.lifecycle = .draining) : ∀ s ∈ r.stopping, time ≤ s.deadline := by
    obtain ⟨first, rest, hstopping, -, hfirst⟩ := hwaits hdraining
    rw [ownInstants, hdraining, hstopping] at hinstants
    have hnext : time ≤ first.deadline := by simpa using hinstants
    exact fun s hs => Nat.le_trans hnext (hfirst s hs)
  have hcomplete (hcomplete : r.lifecycle = .complete) :=
    (seal_of_reaches h.reaches).empty hcomplete
  refine ⟨h.reaches.trans hmoves, h.whole, h.closing, h.active_eq,
    Nat.le_trans h.clock_ge (Nat.le_max_left _ _), ?_, ?_, ?_, ?_, h.ends, ?_, h.completes⟩
  · intro hdraining
    obtain ⟨first, rest, hstopping, -⟩ := hwaits hdraining
    have hmem : first ∈ r.stopping := hstopping ▸ List.mem_cons_self
    exact Nat.max_le.2 ⟨h.clock_le hdraining,
      Nat.le_trans (htime hdraining first hmem) (h.stopping first hmem).2.2⟩
  · intro s hs
    obtain ⟨hsince, hearly, hlast⟩ := h.stopping s hs
    rcases h.closing with hdraining | hover
    · exact ⟨hsince, Nat.max_le.2 ⟨hearly, htime hdraining s hs⟩, hlast⟩
    · have hnone : r.stopping = [] := (hcomplete hover).2.1
      exact absurd (hnone ▸ hs) List.not_mem_nil
  · intro user huser hgoing
    have hended := List.all_eq_true.1 hlanded user huser
    rw [isEnded, show r.ending? user = none from hgoing] at hended
    cases hended
  · intro user _ hlatest
    cases hlatest
  · intro hdraining
    obtain ⟨first, rest, hstopping, hgoing, -⟩ := hwaits hdraining
    obtain ⟨told, htold, -⟩ := (grace_of_reaches h.reaches).deadline_eq first
      (hstopping ▸ List.mem_cons_self)
    refine .inr (.inr ⟨first.user, told, htold, ?_⟩)
    exact Option.not_isSome_iff_eq_none.1 (Bool.eq_false_iff.1 hgoing)

/-- An act that changes nothing. -/
theorem quiet_refl (h : Drains p begun r) : Quiet p r r := by
  refine ⟨.refl, .of_lists rfl rfl rfl rfl, rfl, h.closing, h.latest, fun _ _ hgoing hended => ?_⟩
  cases hgoing.symm.trans hended

/-- An act that moves one user. -/
theorem quiet_update (h : Drains p begun r) {user : Nat} {u : User} {outcome : Scene × User}
    {latest? : Option Nat} (hu : r.users[user]? = some u)
    (hmoves : Moves p r { r.update user outcome with latest? })
    (hclock : outcome.1.clock = r.scene.clock)
    (hlatest : ∀ user ∈ r.aborting, latest? = some user → r.isEnded user = true)
    (hends : ∀ ending, u.ending? = none → outcome.2.ending? = some ending →
      user ∈ r.aborting ∧ (∃ midway, ending = .aborted midway) ∨
        (∃ s ∈ r.stopping, s.user = user) ∧ ∀ midway, ending ≠ .aborted midway) :
    Quiet p r { r.update user outcome with latest? } where
  moves := hmoves
  passes := .of_lists hclock rfl rfl rfl
  broken_eq := rfl
  closing := h.closing
  latest := fun other hother hlast =>
    (Moves.extends h.reaches hmoves).isEnded (hlatest other hother hlast)
  ends := by
    intro other ending hgoing hended
    obtain rfl := eq_of_ending?_update hgoing hended
    refine hends ending ?_ ((ending?_update_self hu outcome).symm.trans hended)
    rwa [Run.ending?, hu] at hgoing

/-- A user that takes its step ends by itself, if it does. -/
theorem not_aborted_of_step {w : Workload} {u : User} {scene : Scene} (hgoing : u.ending? = none)
    (midway : Bool) : (u.step w scene).2.ending? ≠ some (.aborted midway) := by
  have hchain := User.step_deeds w u scene
  generalize u.step w scene = outcome at hchain ⊢
  induction hchain with
  | refl => simp [hgoing]
  | tail _ hdeed ih =>
    rcases hdeed.ending_cases with hsame | ⟨-, ⟨-, hfinished⟩ | ⟨message?, hcrashed⟩⟩
    · rwa [hsame]
    · simp [hfinished]
    · simp [hcrashed]

theorem quiet_step (h : Drains p begun r) {user : Nat}
    (hattentive : r.isAttentive (.step user) = true) : Quiet p r (r.perform p (.step user)) := by
  have hmoves := perform_moves (p := p) r (.step user) fun _ _ => h.active_eq
  have hspared : user ∈ r.aborting → r.isEnded user = true := by
    intro haborting
    simpa [isAttentive, haborting] using hattentive
  rw [perform_of_whole h.whole] at hmoves ⊢
  unfold handle at hmoves ⊢
  dsimp only at hmoves ⊢
  cases hu : r.users[user]? with
  | none => exact h.quiet_refl
  | some u =>
    rw [hu] at hmoves
    refine h.quiet_update hu hmoves (User.step_follows p.workload u r.scene).atOnce.1 ?_ ?_
    · intro other hother hlatest
      obtain rfl := Option.some.inj hlatest
      exact hspared hother
    · intro ending hgoing hended
      refine .inr ⟨?_, fun midway haborted =>
        not_aborted_of_step hgoing midway (haborted ▸ hended)⟩
      refine (place_of_going (roster_of_reaches h.reaches) h.active_eq hu hgoing).resolve_right
        fun haborting => ?_
      have hover := hspared haborting
      rw [isEnded, Run.ending?, hu, Option.bind_some, hgoing] at hover
      cases hover

theorem quiet_land (h : Drains p begun r) (user : Nat) :
    Quiet p r (r.perform p (.land user)) := by
  have hmoves := perform_moves (p := p) r (.land user) fun _ _ => h.active_eq
  rw [perform_of_whole h.whole] at hmoves ⊢
  unfold handle at hmoves ⊢
  dsimp only at hmoves ⊢
  split at hmoves
  · next haborting =>
    rw [if_pos haborting]
    cases hu : r.users[user]? with
    | none => exact h.quiet_refl
    | some u =>
      rw [hu] at hmoves
      refine h.quiet_update hu hmoves (User.abort_follows u r.scene).atOnce.1
        (fun _ _ => nofun) fun ending hgoing hended => ?_
      obtain ⟨midway, habort⟩ := User.abort_of_going hgoing r.scene
      rw [habort] at hended
      exact .inl ⟨haborting, midway, (Option.some.inj hended).symm⟩
  · next haborting =>
    rw [if_neg haborting]
    exact h.quiet_refl

theorem quiet_drain (h : Drains p begun r) : Quiet p r (r.perform p .drain) := by
  have hmoves := perform_moves (p := p) r .drain fun _ _ => h.active_eq
  rw [perform_of_whole h.whole] at hmoves ⊢
  unfold handle at hmoves ⊢
  dsimp only at hmoves ⊢
  split at hmoves
  · next hdraining =>
    rw [if_pos hdraining]
    refine ⟨hmoves, (passes_drain r hdraining).trans (.of_lists rfl rfl rfl rfl),
      broken_drain r, (idle_drain r hdraining).symm.imp_left And.left, fun _ _ => nofun,
      fun user ending hgoing hended => ?_⟩
    have hsame : (r.drain p).ending? user = r.ending? user :=
      ending?_of_users (users_drain r).1 user
    cases hgoing.symm.trans (hsame.symm.trans hended)
  · next hdraining =>
    rw [if_neg hdraining]
    exact h.quiet_refl

theorem quiet_stop (h : Drains p begun r) : Quiet p r (r.perform p .stop) := by
  have hmoves := perform_moves (p := p) r .stop fun _ _ => h.active_eq
  rw [perform_of_whole h.whole] at hmoves ⊢
  refine ⟨hmoves, .of_lists rfl rfl rfl rfl, rfl, h.closing, fun _ _ => nofun,
    fun _ _ hgoing hended => ?_⟩
  cases hgoing.symm.trans hended

/-- Every attentive act leaves a run that drains in time. -/
theorem perform (h : Drains p begun r) {act : Act} (hattentive : r.isAttentive act = true) :
    Drains p begun (r.perform p act) := by
  have hover : r.lifecycle ≠ .running := by
    rcases h.closing with hdraining | hcomplete
    · simp [hdraining]
    · simp [hcomplete]
  cases act with
  | step user => exact h.quiet (h.quiet_step hattentive)
  | land user => exact h.quiet (h.quiet_land user)
  | tick =>
    rw [perform_of_whole h.whole]
    simpa only [handle, hover, if_false] using h
  | interrupt =>
    rw [perform_of_whole h.whole]
    simpa only [handle, hover, false_and, if_false] using h
  | drain => exact h.quiet h.quiet_drain
  | stop => exact h.quiet h.quiet_stop
  | wait time => exact h.wait hattentive

theorem performAll (h : Drains p begun r) {acts : List Act}
    (hattentive : isAttentiveAll p r acts = true) : Drains p begun (performAll p r acts) := by
  induction acts generalizing r with
  | nil => exact h
  | cons act rest ih =>
    obtain ⟨hact, hrest⟩ := Bool.and_eq_true_iff.1 hattentive
    exact ih (h.perform hact) hrest

end Drains

end Run
end LoadRamp
