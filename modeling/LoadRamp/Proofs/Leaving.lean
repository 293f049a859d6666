import LoadRamp.Proofs.Ticks

/-!
# How the loop of a run is left

A history says of the loop of a run that it began, what its ticks found, and how it was left.

* `Run.loopCourse` is all that it can say.  There is no move in it that was refused.
* `Run.Looped` ties it to the state of the run: what ticks found is what the schedule wants,
  and a run that was interrupted has been asked to stop.
* `Looped.length_ticks_le` and `Looped.length_tickTimes_le` count the ticks.
-/

namespace LoadRamp
namespace Run

variable {p : Plan}

/-- How a loop is left: the run is interrupted, or a tick finds that the schedule is complete. -/
def leaving (interrupted : Bool) (left : Nat) : List Entry :=
  [⟨left, if interrupted then .interrupted else .ticks .complete⟩,
    ⟨left, .becomes .running .draining⟩]

/-- The course of a loop up to a state of the run: the ticks that found a number of users, the
instant at which the loop was left, and the one at which the run was over. -/
def loopCourse (lifecycle : Lifecycle) (interrupted : Bool) (ticks : List (Nat × Nat))
    (left ended : Nat) : List Entry :=
  ⟨0, .becomes .idle .running⟩ :: ticks.map (fun t => ⟨t.1, .ticks (.active t.2)⟩) ++
    match lifecycle with
    | .idle | .running => []
    | .draining => leaving interrupted left
    | .complete => leaving interrupted left ++ [⟨ended, .becomes .draining .complete⟩]

/-- What is so of a run and the course of its loop. -/
structure Looped (p : Plan) (r : Run) (ticks : List (Nat × Nat)) (left ended : Nat) : Prop where
  loop_eq : r.scene.loop = loopCourse r.lifecycle r.interrupted ticks left ended
  started : r.lifecycle ≠ .idle
  found : ∀ t ∈ ticks, p.schedule.targetAt t.1 = .active t.2
  inside : r.lifecycle = .running → r.interrupted = false
  asked : r.interrupted = true → r.stopRequested = true
  completed : r.lifecycle ≠ .running → r.interrupted = false →
    p.schedule.targetAt left = .complete

namespace Looped

variable {r r' q : Run} {ticks : List (Nat × Nat)} {left ended : Nat}

theorem start : Looped p start [] 0 0 where
  loop_eq := rfl
  started := nofun
  found := nofun
  inside := fun _ => rfl
  asked := nofun
  completed := fun hleft => absurd rfl hleft

theorem congr (h : Looped p r ticks left ended) (hloop : r'.scene.loop = r.scene.loop)
    (hlifecycle : r'.lifecycle = r.lifecycle) (hinterrupted : r'.interrupted = r.interrupted)
    (hasked : r.stopRequested = true → r'.stopRequested = true) :
    Looped p r' ticks left ended where
  loop_eq := by rw [hloop, hlifecycle, hinterrupted, h.loop_eq]
  started := hlifecycle ▸ h.started
  found := h.found
  inside := by
    rw [hlifecycle, hinterrupted]
    exact h.inside
  asked := by
    rw [hinterrupted]
    exact fun hinterrupted => hasked (h.asked hinterrupted)
  completed := by
    rw [hlifecycle, hinterrupted]
    exact h.completed

theorem aside (h : Looped p r ticks left ended) (haside : Aside r r') :
    Looped p r' ticks left ended :=
  h.congr haside.loop_eq haside.lifecycle_eq haside.interrupted_eq
    fun hasked => haside.stopRequested_eq.trans hasked

/-- A tick finds a number of users. -/
theorem tick (h : Looped p r ticks left ended) (hrunning : r.lifecycle = .running) {n : Nat}
    (htarget : p.schedule.targetAt r.scene.clock = .active n) (nextTick : Nat) :
    Looped p { r.note (.ticks (.active n)) with nextTick } (ticks ++ [(r.scene.clock, n)])
      left ended where
  loop_eq := by
    show (r.scene.note (.ticks (.active n))).loop =
      loopCourse r.lifecycle r.interrupted (ticks ++ [(r.scene.clock, n)]) left ended
    rw [Scene.loop_note _ rfl, h.loop_eq, hrunning]
    simp [loopCourse]
  started := h.started
  found := by
    intro t ht
    rcases List.mem_append.1 ht with hold | hnew
    · exact h.found t hold
    · obtain rfl := List.mem_singleton.1 hnew
      exact htarget
  inside := h.inside
  asked := h.asked
  completed := fun hleft => absurd hrunning hleft

/-- The loop is left, for one of two reasons. -/
theorem leave (h : Looped p r ticks left ended) (hrunning : r.lifecycle = .running)
    (hclock : q.scene.clock = r.scene.clock)
    (hloop : q.scene.loop = r.scene.loop ++
      [⟨r.scene.clock, if q.interrupted then .interrupted else .ticks .complete⟩])
    (hasked : q.interrupted = true → q.stopRequested = true)
    (hcompleted : q.interrupted = false → p.schedule.targetAt r.scene.clock = .complete) :
    Looped p q.left ticks r.scene.clock ended where
  loop_eq := by
    rw [loop_left, hloop, h.loop_eq, hrunning, hclock, loopCourse, List.append_nil,
      List.append_assoc]
    rfl
  started := nofun
  found := h.found
  inside := nofun
  asked := hasked
  completed := fun _ => hcompleted

/-- The run is over. -/
theorem finish (h : Looped p r ticks left ended) (hdraining : r.lifecycle = .draining) :
    Looped p r.concluded ticks left r.scene.clock where
  loop_eq := by
    rw [loop_concluded, h.loop_eq, hdraining]
    simp [loopCourse, Run.concluded, note]
  started := nofun
  found := h.found
  inside := nofun
  asked := h.asked
  completed := by
    have hleft : r.lifecycle ≠ .running := by simp [hdraining]
    exact fun _ => h.completed hleft

/-- A run that has left its loop may be over at once. -/
theorem goOn (h : Looped p q.left ticks left ended)
    (hthen : Aside q.left r' ∨ Aside q.left.concluded r') :
    ∃ ticks left ended, Looped p r' ticks left ended := by
  rcases hthen with haside | haside
  · exact ⟨ticks, left, ended, h.aside haside⟩
  · exact ⟨ticks, left, _, (h.finish rfl).aside haside⟩

theorem perform (h : Looped p r ticks left ended) (act : Act) :
    ∃ ticks left ended, Looped p (r.perform p act) ticks left ended := by
  have hloop := perform_loop (p := p) r act
  generalize r.perform p act = r' at hloop ⊢
  cases hloop with
  | broken hbroken => exact ⟨ticks, left, ended, h⟩
  | aside hnot hother haside => exact ⟨ticks, left, ended, h.aside haside⟩
  | wait time => exact ⟨ticks, left, ended, h.congr rfl rfl rfl id⟩
  | stop => exact ⟨ticks, left, ended, h.congr rfl rfl rfl fun _ => rfl⟩
  | tick hrunning htarget hwhole haside =>
    exact ⟨_, left, ended, (h.tick hrunning htarget _).aside haside⟩
  | complete hrunning htarget hwhole hthen =>
    have hinside : r.interrupted = false := h.inside hrunning
    refine (h.leave hrunning ?_ ?_ ?_ ?_).goOn hthen
    · rfl
    · show (r.scene.note (.ticks .complete)).loop =
        r.scene.loop ++ [⟨_, if r.interrupted then .interrupted else .ticks .complete⟩]
      rw [Scene.loop_note _ rfl, hinside]
      rfl
    · exact h.asked
    · exact fun _ => htarget
  | interrupt hrunning hasked hthen =>
    refine (h.leave hrunning ?_ ?_ ?_ ?_).goOn hthen
    · rfl
    · exact Scene.loop_note _ rfl
    · exact fun _ => hasked
    · exact nofun
  | finish hdraining haside => exact ⟨ticks, left, _, (h.finish hdraining).aside haside⟩

theorem performAll (h : Looped p r ticks left ended) (acts : List Act) :
    ∃ ticks left ended, Looped p (performAll p r acts) ticks left ended := by
  induction acts generalizing r ticks left ended with
  | nil => exact ⟨ticks, left, ended, h⟩
  | cons act rest ih =>
    obtain ⟨ticks, left, ended, hnext⟩ := h.perform act
    exact ih hnext

/-- A run was interrupted if that is how its loop was left. -/
theorem interrupted_iff (h : Looped p r ticks left ended) :
    r.interrupted = true ↔ ⟨left, .interrupted⟩ ∈ r.scene.loop := by
  have hstarted := h.started
  have hinside := h.inside
  rw [h.loop_eq]
  unfold loopCourse
  cases hlifecycle : r.lifecycle with
  | idle => exact absurd hlifecycle hstarted
  | running => simp [hinside hlifecycle]
  | draining | complete => cases r.interrupted <;> simp [leaving]

/-! ## The number of ticks -/

theorem tickTimes_eq (h : Looped p r ticks left ended) :
    r.tickTimes = ticks.map Prod.fst ++
      if r.lifecycle ≠ .running ∧ r.interrupted = false then [left] else [] := by
  have hticks : (ticks.map fun t => (⟨t.1, .ticks (.active t.2)⟩ : Entry)).filterMap
      Entry.tick? = ticks.map Prod.fst := by
    rw [List.filterMap_map]
    exact List.filterMap_eq_map_iff_forall_eq_some.2 fun _ _ => rfl
  have hstarted := h.started
  rw [tickTimes, h.loop_eq]
  unfold loopCourse
  rw [List.filterMap_append, List.filterMap_cons, hticks]
  cases hlifecycle : r.lifecycle with
  | idle => exact absurd hlifecycle hstarted
  | running => rfl
  | draining | complete => cases r.interrupted <;> rfl

/-- The ticks that find a number of users come before the schedule is complete. -/
theorem length_ticks_le (h : Looped p r ticks left ended) (hpaced : Paced p r) :
    ticks.length ≤ p.mostTicks := by
  rcases List.eq_nil_or_concat ticks with rfl | ⟨earlier, last, rfl⟩
  · exact Nat.zero_le _
  · have htime : r.tickTimes[earlier.length]? = some last.1 := by
      rw [h.tickTimes_eq]
      simp
    have hfound := h.found last (by simp)
    have hbefore : last.1 < p.schedule.total.nanos := by
      refine Nat.lt_of_not_le fun hover => ?_
      rw [Schedule.targetAt_eq_complete.2 hover] at hfound
      cases hfound
    have hlast := Plan.lt_mostTicks (Nat.lt_of_le_of_lt (hpaced _ _ htime) hbefore)
    rw [List.length_concat]
    exact hlast

/-- At most one tick finds that the schedule is complete. -/
theorem length_tickTimes_le (h : Looped p r ticks left ended) (hpaced : Paced p r) :
    r.tickTimes.length ≤ p.mostTicks + 1 := by
  have hlength := h.length_ticks_le hpaced
  rw [h.tickTimes_eq, List.length_append, List.length_map]
  split
  · exact Nat.add_le_add_right hlength 1
  · exact Nat.le_succ_of_le hlength

end Looped

/-- A run has been asked to stop only if somebody outside has asked, and if somebody has, then
it has been, unless it broke down. -/
theorem stopRequested_performAll (r : Run) (acts : List Act) :
    ((performAll p r acts).stopRequested = true → r.stopRequested = true ∨ .stop ∈ acts) ∧
      (r.stopRequested = true ∨ .stop ∈ acts → (performAll p r acts).broken = false →
        (performAll p r acts).stopRequested = true) := by
  induction acts generalizing r with
  | nil => exact ⟨.inl, fun h _ => h.resolve_right List.not_mem_nil⟩
  | cons act rest ih =>
    obtain ⟨honly, hif⟩ := ih (r.perform p act)
    cases hbroken : r.broken with
    | true =>
      rw [performAll_of_broken hbroken]
      exact ⟨.inl, fun _ hwhole => by cases hwhole.symm.trans hbroken⟩
    | false =>
      have hact := stopRequested_perform p r act hbroken
      have hasked : (r.perform p act).stopRequested = true ∨ .stop ∈ rest ↔
          r.stopRequested = true ∨ .stop ∈ act :: rest := by
        rw [hact, Bool.or_eq_true, decide_eq_true_eq, List.mem_cons, or_assoc, eq_comm (a := act)]
      exact ⟨fun h => hasked.1 (honly h), fun h => hif (hasked.2 h)⟩

end Run
end LoadRamp
