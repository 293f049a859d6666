import LoadRamp.Proofs.Loop
import LoadRamp.Proofs.Stages

/-!
# The ticks of a run

A ticker promises little: tick number `k` comes no earlier than `k` intervals after the start
of a run.  It may be late, and by any amount.

* `Run.Paced` is this promise, and `lt_mostTicks` what it is good for: a tick that finds a
  number of users comes before the schedule is complete, so there are only `Plan.mostTicks`
  of them.
* `Run.isTicking` says that a tick comes when the run knows it to be due, or later.
  `paced_of_ticking`: such ticks keep the promise.  They are apart, if their interval is
  longer than they may be late without putting off the next one.
* `Run.isHeeding` says that no time passes while a run has been asked to stop and has not
  heard of it.  `tickTimes_heeding`: its ticks from then on are all at one instant.
-/

namespace LoadRamp

namespace Plan

variable (p : Plan)

/-- The number of intervals that a schedule takes, the last one counted in full. -/
def mostTicks : Nat :=
  (p.schedule.total.nanos + p.settings.tickInterval.nanos - 1) / p.settings.tickInterval.nanos

variable {p}

theorem lt_mostTicks {k : Nat}
    (h : k * p.settings.tickInterval.nanos < p.schedule.total.nanos) : k < p.mostTicks := by
  rw [mostTicks, Nat.lt_iff_add_one_le, Nat.le_div_iff_mul_le p.tick_pos, Nat.succ_mul]
  omega

end Plan

namespace Run

variable {p : Plan}

/-- Whether every tick, counted from zero, came no earlier than that many intervals after the
start of the run. -/
def Paced (p : Plan) (r : Run) : Prop :=
  ∀ k time, r.tickTimes[k]? = some time → k * p.settings.tickInterval.nanos ≤ time

theorem Paced.mono {r r' : Run} (h : Paced p r') (hfirst : r.tickTimes <+: r'.tickTimes) :
    Paced p r := by
  intro k time htime
  obtain ⟨more, hmore⟩ := hfirst
  refine h k time ?_
  rw [← hmore, List.getElem?_append_left (List.getElem?_eq_some_iff.1 htime).1]
  exact htime

theorem Paced.congr {r r' : Run} (h : Paced p r) (htimes : r'.tickTimes = r.tickTimes) :
    Paced p r' := h.mono (htimes ▸ List.prefix_refl _)

/-- One more tick may come once its interval is over. -/
theorem Paced.concat {r r' : Run} {time : Nat} (h : Paced p r)
    (hticks : r'.tickTimes = r.tickTimes ++ [time])
    (htime : r.tickTimes.length * p.settings.tickInterval.nanos ≤ time) : Paced p r' := by
  intro k later hlater
  rw [hticks] at hlater
  rcases Nat.lt_or_ge k r.tickTimes.length with hold | hnew
  · rw [List.getElem?_append_left hold] at hlater
    exact h k later hlater
  · rw [List.getElem?_append_right hnew] at hlater
    obtain ⟨hlast, hsame⟩ := List.getElem?_eq_some_iff.1 hlater
    obtain rfl : k = r.tickTimes.length := by
      rw [List.length_singleton] at hlast
      omega
    rw [← hsame, List.getElem_singleton]
    exact htime

/-! ## The ticks that are due -/

theorem nextTick_perform (r : Run) (act : Act) :
    (r.perform p act).nextTick =
      if act = .tick ∧ r.lifecycle = .running ∧ r.broken = false then r.tickAfter p
      else r.nextTick := by
  have hloop := perform_loop (p := p) r act
  generalize r.perform p act = r' at hloop ⊢
  cases hloop with
  | broken hbroken => simp [hbroken]
  | aside hnot hother h => rw [if_neg fun hall => hnot hall.1 hall.2.1, h.nextTick_eq]
  | wait | stop => rfl
  | tick hrunning htarget hwhole h => rw [if_pos ⟨rfl, hrunning, hwhole⟩, h.nextTick_eq]
  | complete hrunning htarget hwhole h =>
    rw [if_pos ⟨rfl, hrunning, hwhole⟩]
    exact h.elim Aside.nextTick_eq Aside.nextTick_eq
  | interrupt hrunning hasked h => exact h.elim Aside.nextTick_eq Aside.nextTick_eq
  | finish hdraining h => exact h.nextTick_eq

/-- The tick after one that is due comes an interval later, or more. -/
theorem le_tickAfter {r : Run} (hdue : r.nextTick ≤ r.scene.clock) :
    r.nextTick + p.settings.tickInterval.nanos ≤ r.tickAfter p := by
  unfold tickAfter
  dsimp only
  split <;> omega

/-- A tick is never due at the instant of the one before, if the interval is long enough. -/
theorem lt_tickAfter {r : Run} (hlong : slack < p.settings.tickInterval.nanos)
    (hdue : r.nextTick ≤ r.scene.clock) : r.scene.clock < r.tickAfter p := by
  unfold tickAfter
  dsimp only
  split <;> omega

/-- Whether an act is no tick, or one that is due. -/
def isTicking (r : Run) : Act → Bool
  | .tick => decide (r.nextTick ≤ r.scene.clock)
  | _ => true

/-- Whether every tick of a list of acts is due when it comes. -/
def isTickingAll (p : Plan) : Run → List Act → Bool
  | _, [] => true
  | r, act :: rest => r.isTicking act && isTickingAll p (r.perform p act) rest

/-- What a run knows of its ticks. -/
structure Clockwork (p : Plan) (r : Run) : Prop where
  paced : Paced p r
  next_late : r.tickTimes.length * p.settings.tickInterval.nanos ≤ r.nextTick
  /-- If the interval is long enough, the ticks are apart, and the next one will be, too. -/
  ascending : slack < p.settings.tickInterval.nanos →
    r.tickTimes.Pairwise (· < ·) ∧ ∀ time ∈ r.tickTimes, time < r.nextTick

theorem clockwork_start : Clockwork p start where
  paced := nofun
  next_late := Nat.le_of_eq (Nat.zero_mul _)
  ascending := fun _ => ⟨.nil, nofun⟩

namespace Clockwork

variable {r r' : Run}

theorem congr (h : Clockwork p r) (htimes : r'.tickTimes = r.tickTimes)
    (hnext : r'.nextTick = r.nextTick) : Clockwork p r' where
  paced := h.paced.congr htimes
  next_late := by
    rw [htimes, hnext]
    exact h.next_late
  ascending := by
    rw [htimes, hnext]
    exact h.ascending

/-- A tick is handled that is due. -/
theorem tick (h : Clockwork p r) (hdue : r.nextTick ≤ r.scene.clock)
    (htimes : r'.tickTimes = r.tickTimes ++ [r.scene.clock])
    (hnext : r'.nextTick = r.tickAfter p) : Clockwork p r' where
  paced := h.paced.concat htimes (Nat.le_trans h.next_late hdue)
  next_late := by
    rw [htimes, hnext, List.length_append, List.length_singleton, Nat.succ_mul]
    exact Nat.le_trans (Nat.add_le_add_right h.next_late _) (le_tickAfter hdue)
  ascending := by
    intro hlong
    obtain ⟨hascending, hbefore⟩ := h.ascending hlong
    have hearlier (time : Nat) (htime : time ∈ r.tickTimes) : time < r.scene.clock :=
      Nat.lt_of_lt_of_le (hbefore time htime) hdue
    have hlater := lt_tickAfter hlong hdue
    rw [htimes, hnext, List.pairwise_append]
    refine ⟨⟨hascending, List.pairwise_singleton _ _, fun time htime now hnow => ?_⟩, ?_⟩
    · obtain rfl := List.mem_singleton.1 hnow
      exact hearlier time htime
    · intro time htime
      rcases List.mem_append.1 htime with hold | hnew
      · exact Nat.lt_trans (hearlier time hold) hlater
      · obtain rfl := List.mem_singleton.1 hnew
        exact hlater

end Clockwork

theorem clockwork_perform {r : Run} {act : Act} (h : Clockwork p r)
    (hticking : r.isTicking act = true) : Clockwork p (r.perform p act) := by
  have htimes := tickTimes_perform p r act
  have hnext := nextTick_perform (p := p) r act
  by_cases htick : act = .tick ∧ r.lifecycle = .running ∧ r.broken = false
  · rw [if_pos htick] at htimes hnext
    obtain rfl := htick.1
    exact h.tick (of_decide_eq_true hticking) htimes hnext
  · rw [if_neg htick] at htimes hnext
    exact h.congr (htimes.trans (List.append_nil _)) hnext

theorem clockwork_performAll {r : Run} {acts : List Act} (h : Clockwork p r)
    (hticking : isTickingAll p r acts = true) : Clockwork p (performAll p r acts) := by
  induction acts generalizing r with
  | nil => exact h
  | cons act rest ih =>
    obtain ⟨hact, hrest⟩ := Bool.and_eq_true_iff.1 hticking
    exact ih (clockwork_perform h hact) hrest

/-- Ticks that come when they are due, or later, keep the promise of a ticker, and no two are at
one instant if the interval is long enough. -/
theorem paced_of_ticking {acts : List Act} (hticking : isTickingAll p start acts = true) :
    Paced p (performAll p start acts) ∧
      (slack < p.settings.tickInterval.nanos →
        (performAll p start acts).tickTimes.Pairwise (· < ·)) :=
  have h := clockwork_performAll (clockwork_start (p := p)) hticking
  ⟨h.paced, fun hlong => (h.ascending hlong).1⟩

/-! ## Ticks after the word to stop -/

/-- Whether a run hears of the word to stop before time passes. -/
def isHeeding (r : Run) : Act → Bool
  | .wait _ => !(decide (r.lifecycle = .running) && r.stopRequested)
  | _ => true

/-- Whether every act of a list is heeding when it comes. -/
def isHeedingAll (p : Plan) : Run → List Act → Bool
  | _, [] => true
  | r, act :: rest => r.isHeeding act && isHeedingAll p (r.perform p act) rest

/-- There are no ticks outside the loop, and none once the run has broken down. -/
theorem tickTimes_outside {r : Run} (hover : r.lifecycle ≠ .running ∨ r.broken = true)
    (acts : List Act) : (performAll p r acts).tickTimes = r.tickTimes := by
  rcases hover with hleft | hbroken
  · induction acts generalizing r with
    | nil => rfl
    | cons act rest ih =>
      have htimes := tickTimes_perform p r act
      rw [if_neg fun hall => hleft hall.2.1, List.append_nil] at htimes
      exact (ih (left_perform p r act hleft)).trans htimes
  · rw [performAll_of_broken hbroken]

/-- Once a run was asked to stop, its ticks are all at one instant. -/
theorem tickTimes_heeding {r : Run} {acts : List Act} (hasked : r.stopRequested = true)
    (hheeding : isHeedingAll p r acts = true) :
    ∃ n, (performAll p r acts).tickTimes = r.tickTimes ++ List.replicate n r.scene.clock := by
  induction acts generalizing r with
  | nil => exact ⟨0, (List.append_nil _).symm⟩
  | cons act rest ih =>
    by_cases hgoing : r.lifecycle = .running ∧ r.broken = false
    · obtain ⟨hrunning, hwhole⟩ := hgoing
      obtain ⟨hact, hrest⟩ := Bool.and_eq_true_iff.1 hheeding
      have hnever (time : Nat) : act ≠ .wait time := by
        rintro rfl
        simp [isHeeding, hrunning, hasked] at hact
      have hstill : (r.perform p act).stopRequested = true := by
        rw [stopRequested_perform p r act hwhole, hasked, Bool.true_or]
      obtain ⟨n, hticks⟩ := ih hstill hrest
      rw [clock_perform p r act hnever, tickTimes_perform, List.append_assoc] at hticks
      split at hticks
      · exact ⟨n + 1, hticks⟩
      · exact ⟨n, hticks⟩
    · have hover : r.lifecycle ≠ .running ∨ r.broken = true := by
        rw [← Bool.not_eq_false, ← Classical.not_and_iff_not_or_not]
        exact hgoing
      exact ⟨0, (tickTimes_outside hover _).trans (List.append_nil _).symm⟩

/-- If no two ticks are at one instant, at most one is handled once the run was asked to
stop. -/
theorem length_tickTimes_heeding {r : Run} {acts : List Act} (hasked : r.stopRequested = true)
    (hheeding : isHeedingAll p r acts = true)
    (happart : (performAll p r acts).tickTimes.Pairwise (· < ·)) :
    (performAll p r acts).tickTimes.length ≤ r.tickTimes.length + 1 := by
  obtain ⟨n, hticks⟩ := tickTimes_heeding hasked hheeding
  rw [hticks, List.pairwise_append, List.pairwise_replicate] at happart
  have honce : n ≤ 1 := happart.2.1.resolve_right (Nat.lt_irrefl _)
  rw [hticks, List.length_append, List.length_replicate]
  omega

end Run
end LoadRamp
