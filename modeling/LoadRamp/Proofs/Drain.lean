import LoadRamp.Proofs.Endings
import LoadRamp.Proofs.Punctual

/-!
# Going on with the end of a run

`Run.drain` looks at the stopping users and then at the aborted ones, in their order, and
stops at the first for which it has to wait.

* `Run.Passes` says how users go from list to list on the way, and `idle_drain` that the run
  has nothing left to do after it.
* `Run.lastCall` is the run when its end begins and every active user was told to stop;
  `exists_beginDrain` says that no act but a tick or an interruption brings it there.
* `Run.load` is what the end of a run has still to do.
-/

namespace LoadRamp
namespace Run

variable {p : Plan}

/-- What the end of a run has still to do: a stopping user may have to be aborted before it is
joined. -/
def load (r : Run) : Nat := 2 * r.stopping.length + r.aborting.length

/-- What lies between two moments of a run that drains when no time passes: stopping users go
from the front of their list, and none is aborted before its deadline. -/
structure Passes (before after : Run) : Prop where
  clock_eq : after.scene.clock = before.scene.clock
  active_eq : after.active = before.active
  stopping_suffix : after.stopping <:+ before.stopping
  aborting_cases : ∀ user ∈ after.aborting, user ∈ before.aborting ∨
    ∃ s ∈ before.stopping, s.user = user ∧ s.deadline ≤ before.scene.clock
  load_cases : after.load < before.load ∨
    after.stopping = before.stopping ∧ after.aborting = before.aborting

namespace Passes

variable {before middle after : Run}

/-- The lists of a run may be as they are. -/
theorem of_lists (hclock : after.scene.clock = before.scene.clock)
    (hactive : after.active = before.active) (hstopping : after.stopping = before.stopping)
    (haborting : after.aborting = before.aborting) : Passes before after where
  clock_eq := hclock
  active_eq := hactive
  stopping_suffix := hstopping ▸ List.suffix_refl _
  aborting_cases := by
    rw [haborting]
    exact fun user huser => .inl huser
  load_cases := .inr ⟨hstopping, haborting⟩

theorem trans (h : Passes before middle) (hlast : Passes middle after) :
    Passes before after where
  clock_eq := hlast.clock_eq.trans h.clock_eq
  active_eq := hlast.active_eq.trans h.active_eq
  stopping_suffix := hlast.stopping_suffix.trans h.stopping_suffix
  aborting_cases := by
    intro user huser
    rcases hlast.aborting_cases user huser with hold | ⟨s, hs, hsame, hlate⟩
    · exact h.aborting_cases user hold
    · exact .inr ⟨s, h.stopping_suffix.subset hs, hsame, h.clock_eq ▸ hlate⟩
  load_cases := by
    rcases hlast.load_cases with hless | ⟨hstopping, haborting⟩
    · refine .inl (Nat.lt_of_lt_of_le hless ?_)
      rcases h.load_cases with hless | ⟨hstopping, haborting⟩
      · exact Nat.le_of_lt hless
      · exact Nat.le_of_eq (by rw [load, hstopping, haborting, load])
    · rcases h.load_cases with hless | ⟨hstopping', haborting'⟩
      · refine .inl ?_
        rw [load, hstopping, haborting]
        exact hless
      · exact .inr ⟨hstopping.trans hstopping', haborting.trans haborting'⟩

/-- The first stopping user is joined. -/
theorem joinStopping {r : Run} {s : Stopping} {rest : List Stopping}
    (hstopping : r.stopping = s :: rest) (u : User) (ending : Ending) :
    Passes r
      { r with
        scene := settled p r.scene u ending
        stopping := rest, joined := r.joined ++ [s.user] } where
  clock_eq := clock_settled _ _ _ _
  active_eq := rfl
  stopping_suffix := hstopping ▸ List.suffix_cons _ _
  aborting_cases := fun _ huser => .inl huser
  load_cases := by
    refine .inl ?_
    simp only [load, hstopping, List.length_cons]
    omega

/-- The first stopping user is aborted. -/
theorem expire {r : Run} {s : Stopping} {rest : List Stopping}
    (hstopping : r.stopping = s :: rest) (hlate : s.deadline ≤ r.scene.clock) :
    Passes r { r with stopping := rest, aborting := r.aborting ++ [s.user] } where
  clock_eq := rfl
  active_eq := rfl
  stopping_suffix := hstopping ▸ List.suffix_cons _ _
  aborting_cases := by
    intro user huser
    refine (List.mem_append.1 huser).imp_right fun hnew => ?_
    exact ⟨s, hstopping ▸ List.mem_cons_self, (List.mem_singleton.1 hnew).symm, hlate⟩
  load_cases := by
    refine .inl ?_
    simp only [load, hstopping, List.length_cons, List.length_append, List.length_nil]
    omega

/-- The first aborted user is joined. -/
theorem joinAborting {r : Run} {user : Nat} {rest : List Nat}
    (haborting : r.aborting = user :: rest) (u : User) (ending : Ending) :
    Passes r
      { r with
        scene := settled p r.scene u ending
        aborting := rest, joined := r.joined ++ [user] } where
  clock_eq := clock_settled _ _ _ _
  active_eq := rfl
  stopping_suffix := List.suffix_refl _
  aborting_cases := fun _ huser => .inl (haborting ▸ List.mem_cons_of_mem _ huser)
  load_cases := by
    refine .inl ?_
    simp only [load, haborting, List.length_cons]
    omega

end Passes

theorem passes_drainStopping (l : List Stopping) (r : Run) (hstopping : r.stopping = l) :
    Passes r (drainStopping p r l) := by
  induction l generalizing r with
  | nil =>
    unfold drainStopping
    exact .of_lists rfl rfl hstopping.symm rfl
  | cons s rest ih =>
    unfold drainStopping
    split
    · next hended =>
      obtain ⟨u, ending, hu, hending⟩ := isEnded_iff.1 hended
      rw [join_eq hu hending, ← drainStopping_with_stopping _ _ rest]
      exact (Passes.joinStopping hstopping u ending).trans (ih _ rfl)
    · split
      · next hlate =>
        rw [← drainStopping_with_stopping _ _ rest]
        exact (Passes.expire hstopping hlate).trans (ih _ rfl)
      · exact .of_lists rfl rfl hstopping.symm rfl

theorem passes_drainAborting (l : List Nat) (r : Run) (haborting : r.aborting = l) :
    Passes r (drainAborting p r l) := by
  induction l generalizing r with
  | nil =>
    unfold drainAborting
    exact .of_lists rfl rfl rfl haborting.symm
  | cons user rest ih =>
    unfold drainAborting
    split
    · next hended =>
      obtain ⟨u, ending, hu, hending⟩ := isEnded_iff.1 hended
      rw [join_eq hu hending, ← drainAborting_with_aborting _ _ rest]
      exact (Passes.joinAborting haborting u ending).trans (ih _ rfl)
    · exact .of_lists rfl rfl rfl haborting.symm

theorem passes_drain (r : Run) (hdraining : r.lifecycle = .draining) : Passes r (r.drain p) := by
  have hfirst := passes_drainStopping (p := p) r.stopping r rfl
  unfold drain
  dsimp only
  split
  · have hboth := hfirst.trans (passes_drainAborting (p := p) _ _ rfl)
    obtain ⟨-, hdraining₁, -⟩ := active_drainStopping (p := p) r.stopping r
    obtain ⟨-, hdraining₂, -⟩ := active_drainAborting (p := p)
      (r.drainStopping p r.stopping).aborting (r.drainStopping p r.stopping)
    split
    · rw [finish_eq (hdraining₂.trans (hdraining₁.trans hdraining))]
      exact hboth.trans (.of_lists rfl rfl rfl rfl)
    · exact hboth
  · exact hfirst

/-- The first stopping user that is left has time left. -/
theorem awaits_drainStopping (l : List Stopping) (r : Run) {s : Stopping} {rest : List Stopping}
    (hleft : (drainStopping p r l).stopping = s :: rest) :
    (drainStopping p r l).isEnded s.user = false ∧
      (drainStopping p r l).scene.clock < s.deadline := by
  induction l generalizing r with
  | nil => cases hleft
  | cons first later ih =>
    unfold drainStopping at hleft ⊢
    split at hleft
    · next hended =>
      simp only [hended, if_true]
      exact ih _ hleft
    · next hgoing =>
      split at hleft
      · next hlate =>
        simp only [hgoing, hlate, if_true]
        exact ih _ hleft
      · next hearly =>
        obtain ⟨rfl, rfl⟩ := List.cons.inj hleft
        simp only [hgoing, hearly]
        exact ⟨Bool.eq_false_iff.2 hgoing, Nat.lt_of_not_le hearly⟩

/-- The first aborted user that is left has not ended. -/
theorem awaits_drainAborting (l : List Nat) (r : Run) {user : Nat} {rest : List Nat}
    (hleft : (drainAborting p r l).aborting = user :: rest) :
    (drainAborting p r l).isEnded user = false := by
  induction l generalizing r with
  | nil => cases hleft
  | cons first later ih =>
    unfold drainAborting at hleft ⊢
    split at hleft
    · next hended =>
      simp only [hended, if_true]
      exact ih _ hleft
    · next hgoing =>
      obtain ⟨rfl, rfl⟩ := List.cons.inj hleft
      simp only [hgoing]
      exact Bool.eq_false_iff.2 hgoing

/-- Once a run has gone on with its end, it is complete, or it waits for a user. -/
theorem idle_drain (r : Run) (hdraining : r.lifecycle = .draining) :
    (r.drain p).lifecycle = .complete ∨
      (r.drain p).lifecycle = .draining ∧ (r.drain p).ownAct? = none := by
  obtain ⟨-, hdraining₁, -⟩ := active_drainStopping (p := p) r.stopping r
  unfold drain
  dsimp only
  split
  · next hempty =>
    obtain ⟨-, hdraining₂, hstopping₂, -⟩ := active_drainAborting (p := p)
      (r.drainStopping p r.stopping).aborting (r.drainStopping p r.stopping)
    have hstill := hdraining₂.trans (hdraining₁.trans hdraining)
    split
    · rw [finish_eq hstill]
      exact .inl rfl
    · next haborting =>
      obtain ⟨user, rest, hleft⟩ := List.exists_cons_of_ne_nil (mt List.isEmpty_iff.2 haborting)
      have hgoing := awaits_drainAborting _ _ hleft
      refine .inr ⟨hstill, ?_⟩
      rw [ownAct?, hstill, hstopping₂, List.isEmpty_iff.1 hempty, hleft]
      simp [hgoing]
  · next hstopping =>
    obtain ⟨s, rest, hleft⟩ := List.exists_cons_of_ne_nil (mt List.isEmpty_iff.2 hstopping)
    obtain ⟨hgoing, hearly⟩ := awaits_drainStopping _ _ hleft
    have hstill := hdraining₁.trans hdraining
    refine .inr ⟨hstill, ?_⟩
    rw [ownAct?, hstill, hleft]
    simp [hgoing, hearly]

/-- No user moves when a run goes on with its end. -/
theorem users_drain (r : Run) :
    (r.drain p).users = r.users ∧ (r.drain p).stopRequested = r.stopRequested := by
  obtain ⟨scene, joined, stopping, aborting, lifecycle, hdrain⟩ := exists_drain (p := p) r
  rw [hdrain]
  exact ⟨rfl, rfl⟩

/-- Going on with the end of a run is of use when it is the run's turn. -/
theorem load_drain_lt {r : Run} (hdraining : r.lifecycle = .draining)
    (hown : r.ownAct? = some .drain) :
    (r.drain p).lifecycle = .complete ∨
      (r.drain p).lifecycle = .draining ∧ (r.drain p).load < r.load := by
  have hpasses := passes_drain (p := p) r hdraining
  refine (idle_drain r hdraining).imp_right fun ⟨hstill, hidle⟩ => ⟨hstill, ?_⟩
  refine hpasses.load_cases.resolve_right fun ⟨hstopping, haborting⟩ => ?_
  -- If nobody had gone on, the run would have as much to do as before.
  have hsame : (r.drain p).ownAct? = r.ownAct? := by
    unfold ownAct? isEnded Run.ending?
    rw [hstill, hdraining, hstopping, haborting, (users_drain r).1, hpasses.clock_eq]
  rw [hsame, hown] at hidle
  cases hidle

/-! ## The moment at which the end begins -/

/-- A run whose end begins, once every active user was told to stop. -/
def lastCall (p : Plan) (r : Run) : Run :=
  r.left.tellActive (r.scene.clock + p.settings.gracePeriod.nanos)

/-- A run whose end has begun was told to by an act, be it a tick or an interruption. -/
theorem exists_beginDrain {r : Run} {act : Act} (hrunning : r.lifecycle = .running)
    (hbegins : (r.perform p act).lifecycle ≠ .running) :
    ∃ q : Run, q.lifecycle = .running ∧ q.scene.clock = r.scene.clock ∧ q.users = r.users ∧
      (∀ user ∈ r.active, r.isEnded user = false → user ∈ q.active) ∧
      r.perform p act = { q.beginDrain p with latest? := none } := by
  have hwhole : r.broken = false := by
    rw [Bool.eq_false_iff]
    intro hbroken
    rw [perform_of_broken hbroken] at hbegins
    exact hbegins hrunning
  rw [perform_of_whole hwhole] at hbegins ⊢
  cases act with
  | step user =>
    unfold handle at hbegins
    dsimp only at hbegins
    split at hbegins
    · exact absurd hrunning hbegins
    · exact absurd hrunning hbegins
  | land user =>
    unfold handle at hbegins
    dsimp only at hbegins
    split at hbegins
    · split at hbegins
      · exact absurd hrunning hbegins
      · exact absurd hrunning hbegins
    · exact absurd hrunning hbegins
  | tick =>
    unfold handle at hbegins ⊢
    dsimp only at hbegins ⊢
    rw [if_pos hrunning] at hbegins ⊢
    cases htarget : p.schedule.targetAt r.scene.clock with
    | active users =>
      rw [tick_of_active htarget] at hbegins
      refine absurd ?_ hbegins
      dsimp only
      rw [lifecycle_scaleTo]
      exact (lifecycle_reaped p r).trans hrunning
    | complete =>
      rw [tick_of_complete htarget]
      refine ⟨(reaped p r).note (.ticks .complete), ?_, clock_reaped p r, users_reaped p r,
        ?_, rfl⟩
      · exact (lifecycle_reaped p r).trans hrunning
      · intro user huser hgoing
        change user ∈ (reaped p r).active
        rw [active_reaped]
        exact List.mem_filter.2 ⟨huser, by simp [hgoing]⟩
  | interrupt =>
    unfold handle at hbegins ⊢
    dsimp only at hbegins ⊢
    split at hbegins
    · next hasked =>
      rw [if_pos hasked]
      exact ⟨{ r.note .interrupted with interrupted := true }, hrunning, rfl, rfl,
        fun _ huser _ => huser, rfl⟩
    · exact absurd hrunning hbegins
  | drain =>
    unfold handle at hbegins
    simp [hrunning] at hbegins
  | stop => exact absurd hrunning hbegins
  | wait time => exact absurd hrunning hbegins

/-- Whoever is among those that are told one after the other was told now. -/
theorem mem_history_foldl_tellIn (l : List Nat) (state : Scene × List User) {user : Nat} {u : User}
    (huser : user ∈ l) (hu : state.2[user]? = some u) :
    ⟨state.1.clock, .tells u.name⟩ ∈ (l.foldl tellIn state).1.history := by
  have hkept (l : List Nat) (state : Scene × List User) :
      ∀ e ∈ state.1.history, e ∈ (l.foldl tellIn state).1.history := by
    induction l generalizing state with
    | nil => exact fun _ he => he
    | cons first rest ih =>
      intro e he
      refine ih _ e ?_
      cases hfirst : state.2[first]? with
      | none => simpa only [tellIn, hfirst] using he
      | some v =>
        rw [tellIn_eq hfirst, User.history_tell]
        exact List.mem_cons_of_mem _ he
  induction l generalizing state u with
  | nil => cases huser
  | cons first rest ih =>
    by_cases hsame : user = first
    · subst hsame
      refine hkept rest _ _ ?_
      rw [tellIn_eq hu, User.history_tell]
      exact List.mem_cons_self
    · have hrest := (List.mem_cons.1 huser).resolve_left hsame
      have hlater : (tellIn state first).2[user]? = some u := by
        cases hfirst : state.2[first]? with
        | none => simpa only [tellIn, hfirst] using hu
        | some v =>
          rw [tellIn_eq hfirst, List.getElem?_set_ne (Ne.symm hsame)]
          exact hu
      rw [← clock_tellIn state first]
      exact ih _ hrest hlater

theorem ending?_foldl_tellIn (l : List Nat) (state : Scene × List User) (user : Nat) :
    (l.foldl tellIn state).2[user]?.bind User.ending? = state.2[user]?.bind User.ending? := by
  induction l generalizing state with
  | nil => rfl
  | cons first rest ih =>
    rw [List.foldl_cons, ih]
    exact ending?_tellIn state first user

section LastCall

variable {q : Run} (hrunning : q.lifecycle = .running)

theorem lastCall_eq (p : Plan) (q : Run) :
    ∃ scene : Scene, lastCall p q =
        { q with
          lifecycle := .draining
          scene
          users := (q.active.foldl tellIn (q.scene.note (.becomes .running .draining), q.users)).2
          active := []
          stopping := q.stopping ++
            q.active.map fun user => ⟨user, q.scene.clock + p.settings.gracePeriod.nanos⟩
          gauge := 0 } ∧
      ∀ e ∈ (q.active.foldl tellIn
          (q.scene.note (.becomes .running .draining), q.users)).1.history,
        e ∈ scene.history := by
  unfold lastCall tellActive
  simp only [tellAll, foldl_tell]
  refine ⟨_, rfl, fun e he => ?_⟩
  exact List.mem_cons_of_mem _ (List.mem_cons_of_mem _ he)

include hrunning

/-- The word to stop for all users is the end of none. -/
theorem ending?_beginDrain (user : Nat) : (q.beginDrain p).ending? user = q.ending? user := by
  cases hdeadline : p.deadline? q.scene.clock with
  | none =>
    rw [beginDrain_of_endless hrunning hdeadline]
    rfl
  | some deadline =>
    obtain ⟨scene, hcall, -⟩ := lastCall_eq p q
    rw [beginDrain_eq hrunning hdeadline, Run.ending?, (users_drain _).1]
    change (lastCall p q).users[user]?.bind User.ending? = _
    rw [hcall]
    exact ending?_foldl_tellIn _ _ user

section Ends

variable {deadline : Nat} (hends : p.deadline? q.scene.clock = some deadline)

include hends

/-- Every active user is told to stop now, if there is an end to its grace period. -/
theorem toldAt_beginDrain {user : Nat} {u : User} (huser : user ∈ q.active)
    (hu : q.users[user]? = some u) (hname : u.name = userName user) :
    (q.beginDrain p).ToldAt user q.scene.clock := by
  obtain ⟨scene, hcall, hkept⟩ := lastCall_eq p q
  have htold := hkept _ (mem_history_foldl_tellIn q.active
    (q.scene.note (.becomes .running .draining), q.users) huser hu)
  obtain ⟨-, entries, hhistory, -⟩ := (still_drain p (lastCall p q)).atOnce
  have hbegins : q.beginDrain p = (lastCall p q).drain p := beginDrain_eq hrunning hends
  rw [hbegins, ToldAt, hhistory, hcall, ← hname]
  exact List.mem_append_right _ htold

theorem idle_beginDrain :
    (q.beginDrain p).active = [] ∧ ((q.beginDrain p).lifecycle = .complete ∨
      (q.beginDrain p).lifecycle = .draining ∧ (q.beginDrain p).ownAct? = none) := by
  rw [beginDrain_eq hrunning hends]
  exact ⟨(active_drain _).trans (active_tellActive _ _),
    idle_drain _ (lifecycle_tellActive _ _)⟩

end Ends

end LastCall

section Begins

variable {r : Run} {act : Act} (hrunning : r.lifecycle = .running)
  (hbegins : (r.perform p act).lifecycle ≠ .running)

include hrunning hbegins

/-- The end of a run begins at once. -/
theorem clock_begins : (r.perform p act).scene.clock = r.scene.clock := by
  obtain ⟨q, -, hclock, -, -, hbegun⟩ := exists_beginDrain hrunning hbegins
  rw [hbegun, ← hclock]
  exact (still_beginDrain p q).atOnce.1

theorem ending?_begins (user : Nat) : (r.perform p act).ending? user = r.ending? user := by
  obtain ⟨q, hq, -, husers, -, hbegun⟩ := exists_beginDrain hrunning hbegins
  rw [hbegun, ← ending?_of_users husers user]
  exact ending?_beginDrain hq user

/-- If there is no end to the grace period, the run breaks down, and nobody is told. -/
theorem begins_of_endless (hendless : p.deadline? r.scene.clock = none) :
    (r.perform p act).broken = true ∧ (r.perform p act).lifecycle = .draining ∧
      (r.perform p act).users = r.users := by
  obtain ⟨q, hq, hclock, husers, -, hbegun⟩ := exists_beginDrain hrunning hbegins
  rw [hbegun, beginDrain_of_endless hq (hclock.symm ▸ hendless)]
  exact ⟨rfl, rfl, husers⟩

section Ends

variable {deadline : Nat} (hends : p.deadline? r.scene.clock = some deadline)

include hends

/-- The end of a run begins with the word to stop for every active user. -/
theorem toldAt_begins (hroster : Roster r) {user : Nat} (huser : user ∈ r.active)
    (hgoing : r.isEnded user = false) : (r.perform p act).ToldAt user r.scene.clock := by
  obtain ⟨u, hu⟩ := hroster.exists_of_active huser
  obtain ⟨q, hq, hclock, husers, hactive, hbegun⟩ := exists_beginDrain hrunning hbegins
  rw [hbegun, ← hclock]
  exact toldAt_beginDrain hq (hclock.symm ▸ hends) (hactive user huser hgoing) (husers ▸ hu)
    (hroster.placed user u hu).name_eq

/-- When the end of a run has begun, the run is complete already, or it waits for a user. -/
theorem idle_begins :
    (r.perform p act).active = [] ∧ (r.perform p act).latest? = none ∧
      ((r.perform p act).lifecycle = .complete ∨
        (r.perform p act).lifecycle = .draining ∧ (r.perform p act).ownAct? = none) := by
  obtain ⟨q, hq, hclock, -, -, hbegun⟩ := exists_beginDrain hrunning hbegins
  obtain ⟨hactive, hidle⟩ := idle_beginDrain hq (hclock.symm ▸ hends)
  rw [hbegun]
  exact ⟨hactive, rfl, hidle⟩

end Ends

end Begins

end Run
end LoadRamp
