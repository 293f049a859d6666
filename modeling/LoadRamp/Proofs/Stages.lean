import LoadRamp.Proofs.Ramp
import LoadRamp.Proofs.Resolving

/-!
# Stages

The stages of a schedule lie end to end.  The total duration is added up once, when the
schedule is made, and the boundaries are added up again whenever an instant is looked
up, so it takes an induction to see that both sums agree.

* `boundary` is where a stage begins, and `origin` the number of users it begins with.
* `targetFrom_of_inside` and `exists_stage`: every instant before the end lies in one
  stage, which is the one that the look-up finds.
* `targetAt?` is the same look-up with every step that could fail as a partial operation.
  `targetAt_selects` says that none of them fails.
* `targetAt_between`: inside a stage what is wanted stays between its ends and does not
  turn back.
-/

namespace LoadRamp

namespace Duration

/-- The difference of two durations, if it is not negative. -/
def sub? (a b : Duration) : Option Duration :=
  if b.nanos ≤ a.nanos then
    some ⟨a.nanos - b.nanos, lt_of_le_of_lt (Nat.sub_le _ _) a.bounded⟩
  else none

theorem sub?_of_le {a b : Duration} (h : b.nanos ≤ a.nanos) :
    ∃ d, a.sub? b = some d ∧ d.nanos = a.nanos - b.nanos :=
  ⟨_, if_pos h, rfl⟩

end Duration

namespace Schedule

/-! ## Boundaries -/

/-- The nanoseconds before stage `i` of some stages. -/
def boundary (stages : List Stage) (i : Nat) : Nat :=
  ((stages.take i).map fun stage => stage.duration.nanos).sum

/-- The number of users that stage `i` of some stages begins with: the target of the stage
before it, or `current` when it is the first. -/
def origin (current : Nat) (stages : List Stage) : Nat → Nat
  | 0 => current
  | i + 1 => ((stages[i]?).map Stage.target).getD current

@[simp] theorem boundary_zero (stages : List Stage) : boundary stages 0 = 0 := rfl

@[simp] theorem boundary_nil (i : Nat) : boundary [] i = 0 := by
  rw [boundary, List.take_nil, List.map_nil, List.sum_nil]

@[simp] theorem boundary_cons (stage : Stage) (rest : List Stage) (i : Nat) :
    boundary (stage :: rest) (i + 1) = stage.duration.nanos + boundary rest i := by
  rw [boundary, List.take_succ_cons, List.map_cons, List.sum_cons, boundary]

theorem boundary_length (stages : List Stage) :
    boundary stages stages.length = (stages.map fun stage => stage.duration.nanos).sum := by
  rw [boundary, List.take_length]

theorem boundary_succ {stages : List Stage} {i : Nat} {stage : Stage}
    (h : stages[i]? = some stage) :
    boundary stages (i + 1) = boundary stages i + stage.duration.nanos := by
  obtain ⟨hi, rfl⟩ := List.getElem?_eq_some_iff.1 h
  unfold boundary
  rw [List.take_succ_eq_append_getElem hi, List.map_append, List.sum_append, List.map_singleton,
    List.sum_singleton]

theorem boundary_mono (stages : List Stage) {i j : Nat} (h : i ≤ j) :
    boundary stages i ≤ boundary stages j := by
  induction stages generalizing i j with
  | nil => rw [boundary_nil, boundary_nil]
  | cons stage rest ih =>
    cases i with
    | zero => exact Nat.zero_le _
    | succ i =>
      obtain ⟨j, rfl⟩ := Nat.exists_eq_add_one.2 (Nat.lt_of_lt_of_le (Nat.succ_pos i) h)
      rw [boundary_cons, boundary_cons]
      exact Nat.add_le_add_left (ih (Nat.le_of_succ_le_succ h)) _

/-- An instant is in no more than one stage. -/
theorem stage_unique {stages : List Stage} {elapsed i j : Nat}
    (hi : boundary stages i ≤ elapsed) (hi' : elapsed < boundary stages (i + 1))
    (hj : boundary stages j ≤ elapsed) (hj' : elapsed < boundary stages (j + 1)) : j = i := by
  rcases Nat.lt_trichotomy i j with hlt | heq | hgt
  · have hle := boundary_mono stages (by omega : i + 1 ≤ j)
    omega
  · exact heq.symm
  · have hle := boundary_mono stages (by omega : j + 1 ≤ i)
    omega

/-- An instant before the end is in some stage. -/
theorem exists_stage {stages : List Stage} {elapsed : Nat}
    (h : elapsed < boundary stages stages.length) :
    ∃ i stage, stages[i]? = some stage ∧ boundary stages i ≤ elapsed ∧
      elapsed < boundary stages (i + 1) := by
  induction stages generalizing elapsed with
  | nil => cases h
  | cons stage rest ih =>
    rw [List.length_cons, boundary_cons] at h
    rcases Nat.lt_or_ge elapsed stage.duration.nanos with hfirst | hlater
    · exact ⟨0, stage, rfl, Nat.zero_le _, by rwa [boundary_cons, boundary_zero, Nat.add_zero]⟩
    · obtain ⟨i, found, hfound, hbegun, hinside⟩ :=
        ih (by omega : elapsed - stage.duration.nanos < boundary rest rest.length)
      refine ⟨i + 1, found, hfound, ?_, ?_⟩ <;> rw [boundary_cons] <;> omega

/-- What begins a later stage is what begins it among the stages after the first one. -/
theorem origin_cons {current i : Nat} {stage found : Stage} {rest : List Stage}
    (h : rest[i]? = some found) :
    origin current (stage :: rest) (i + 1) = origin stage.target rest i := by
  cases i with
  | zero => rfl
  | succ i =>
    -- The stage before it exists, so neither look-up falls back on its default.
    obtain ⟨hi, -⟩ := List.getElem?_eq_some_iff.1 h
    have hbefore : rest[i]? = some rest[i] := List.getElem?_eq_getElem (Nat.lt_of_succ_lt hi)
    rw [origin, origin, List.getElem?_cons_succ, hbefore, Option.map_some, Option.getD_some,
      Option.getD_some]

/-- The look-up finds the stage that the instant is in. -/
theorem targetFrom_of_inside {stages : List Stage} {elapsed start current i : Nat} {stage : Stage}
    (h : stages[i]? = some stage) (hbegun : start + boundary stages i ≤ elapsed)
    (hinside : elapsed < start + boundary stages (i + 1)) :
    targetFrom elapsed start current stages =
      .active (ramp (origin current stages i) stage.target
        (elapsed - (start + boundary stages i)) stage.duration.nanos) := by
  induction stages generalizing start current i with
  | nil => cases h
  | cons first rest ih =>
    rw [targetFrom]
    cases i with
    | zero =>
      cases h
      rw [boundary_cons, boundary_zero] at hinside
      exact if_pos hinside
    | succ i =>
      rw [List.getElem?_cons_succ] at h
      rw [boundary_cons, ← Nat.add_assoc] at hbegun hinside
      rw [if_neg (by omega), ih h hbegun hinside, origin_cons h, boundary_cons, Nat.add_assoc]

section Made

variable {s : Schedule}

/-- The total duration that a schedule was made with is its last boundary. -/
theorem total_eq_boundary (s : Schedule) : s.total.nanos = boundary s.stages s.stages.length := by
  rw [← Duration.sum?_eq_some.1 s.total_eq, boundary_length, List.map_map]
  rfl

theorem targetAt_eq_complete {elapsed : Nat} :
    s.targetAt elapsed = .complete ↔ s.total.nanos ≤ elapsed := by
  unfold targetAt
  split
  · next hover => exact iff_of_true rfl hover
  · next hbefore =>
    refine iff_of_false (fun hcomplete => ?_) hbefore
    rw [total_eq_boundary, Nat.not_le] at hbefore
    obtain ⟨i, stage, hstage, hbegun, hinside⟩ := exists_stage hbefore
    rw [targetFrom_of_inside hstage (by rwa [Nat.zero_add]) (by rwa [Nat.zero_add])] at hcomplete
    cases hcomplete

/-- What a schedule wants in a stage. -/
theorem targetAt_of_inside {elapsed i : Nat} {stage : Stage} (h : s.stages[i]? = some stage)
    (hbegun : boundary s.stages i ≤ elapsed) (hinside : elapsed < boundary s.stages (i + 1)) :
    s.targetAt elapsed =
      .active (ramp (origin s.startTarget s.stages i) stage.target
        (elapsed - boundary s.stages i) stage.duration.nanos) := by
  have hlast : boundary s.stages (i + 1) ≤ s.total.nanos := by
    rw [total_eq_boundary]
    exact boundary_mono _ (List.getElem?_eq_some_iff.1 h).choose
  rw [targetAt, if_neg (by omega),
    targetFrom_of_inside h (by rwa [Nat.zero_add]) (by rwa [Nat.zero_add]), Nat.zero_add]

end Made

/-! ## Steps that could fail -/

/-- How the look-up of an instant could break off. -/
inductive Mishap
  /-- The end of a stage is no duration. -/
  | overflow
  /-- The stage begins after the instant. -/
  | underflow
  /-- The stage lasts no seconds to divide by. -/
  | zeroDivisor
  /-- There is no stage left. -/
  | pastTheEnd
  deriving DecidableEq

/-- `targetFrom` with boundaries that are durations, and each of its steps checked. -/
def targetFrom? (elapsed : Duration) :
    (start : Duration) → (current : Nat) → List Stage → Except Mishap Target
  | _, _, [] => .error .pastTheEnd
  | start, current, stage :: rest =>
    match start.add? stage.duration with
    | none => .error .overflow
    | some finish =>
      if elapsed.nanos < finish.nanos then
        match elapsed.sub? start with
        | none => .error .underflow
        | some part =>
          if inSeconds stage.duration.nanos = 0 then .error .zeroDivisor
          else .ok (.active (ramp current stage.target part.nanos stage.duration.nanos))
      else targetFrom? elapsed finish stage.target rest

/-- `targetAt` with each of its steps checked. -/
def targetAt? (s : Schedule) (elapsed : Duration) : Except Mishap Target :=
  if s.total.nanos ≤ elapsed.nanos then .ok .complete
  else targetFrom? elapsed .zero s.startTarget s.stages

/-- No step fails on the way from a boundary to an instant before the end, which is a
duration. -/
theorem targetFrom?_eq {stages : List Stage} {elapsed start : Duration} {current : Nat}
    (hstart : start.nanos ≤ elapsed.nanos)
    (hend : elapsed.nanos < start.nanos + boundary stages stages.length)
    (hlimit : start.nanos + boundary stages stages.length < Duration.limit) :
    targetFrom? elapsed start current stages =
      .ok (targetFrom elapsed.nanos start.nanos current stages) := by
  induction stages generalizing start current with
  | nil =>
    rw [List.length_nil, boundary_zero] at hend
    omega
  | cons stage rest ih =>
    rw [List.length_cons, boundary_cons] at hend hlimit
    -- No boundary is beyond the last one.
    obtain ⟨finish, hfinish⟩ : ∃ finish, start.add? stage.duration = some finish := by
      refine Option.ne_none_iff_exists'.1 fun hnone => ?_
      have hover := Duration.add?_eq_none.1 hnone
      omega
    have hnanos := Duration.add?_eq_some.1 hfinish
    rw [targetFrom?, hfinish, targetFrom, hnanos]
    dsimp only
    by_cases hinside : elapsed.nanos < finish.nanos
    · obtain ⟨part, hpart, hdifference⟩ := Duration.sub?_of_le hstart
      have hseconds : inSeconds stage.duration.nanos ≠ 0 :=
        (inSeconds_pos (by omega)).ne'
      rw [if_pos hinside, if_pos hinside, hpart]
      dsimp only
      rw [if_neg hseconds, hdifference]
    · rw [if_neg hinside, if_neg hinside]
      exact ih (Nat.not_lt.1 hinside) (by omega) (by omega)

theorem targetAt?_eq (s : Schedule) (elapsed : Duration) :
    s.targetAt? elapsed = .ok (s.targetAt elapsed.nanos) := by
  unfold targetAt? targetAt
  split
  · rfl
  · next hbefore =>
    have htotal := s.total_eq_boundary
    have hlimit := s.total.bounded
    exact targetFrom?_eq (Nat.zero_le _) (by rw [Duration.nanos_zero]; omega)
      (by rw [Duration.nanos_zero]; omega)

/-- The look-up of an instant never breaks off.  From the sum of all durations on it says that
the schedule is complete.  Before that it ramps through the one stage that the instant is in, from
the target of the stage before it, which may well have lasted no time. -/
theorem targetAt_selects {stages : List Stage} {startTarget : Nat} {s : Schedule}
    (hmade : make stages startTarget = .ok s) (elapsed : Duration) :
    s.targetAt? elapsed = .ok (s.targetAt elapsed.nanos) ∧
      s.total.nanos = boundary stages stages.length ∧
      (s.targetAt elapsed.nanos = .complete ↔ s.total.nanos ≤ elapsed.nanos) ∧
      (elapsed.nanos < s.total.nanos → ∃ i stage, stages[i]? = some stage ∧
        boundary stages i ≤ elapsed.nanos ∧ elapsed.nanos < boundary stages (i + 1) ∧
        (∀ j, boundary stages j ≤ elapsed.nanos → elapsed.nanos < boundary stages (j + 1) →
          j = i) ∧
        0 < stage.duration.nanos ∧
        s.targetAt elapsed.nanos =
          .active (ramp (origin startTarget stages i) stage.target
            (elapsed.nanos - boundary stages i) stage.duration.nanos)) := by
  obtain ⟨rfl, rfl⟩ := make_eq_ok.1 hmade
  refine ⟨s.targetAt?_eq elapsed, s.total_eq_boundary, targetAt_eq_complete, fun hbefore => ?_⟩
  rw [total_eq_boundary] at hbefore
  obtain ⟨i, stage, hstage, hbegun, hinside⟩ := exists_stage hbefore
  have hlasts := boundary_succ hstage
  exact ⟨i, stage, hstage, hbegun, hinside, fun j hj hj' => stage_unique hbegun hinside hj hj',
    by omega, targetAt_of_inside hstage hbegun hinside⟩

/-- A step to five users, a ramp to ten and a step back at the end: half-way up the ramp starts
from the step, which is in no stage of its own. -/
theorem targetAt_selects_after_step :
    ∃ s, make [⟨.zero, 5⟩, ⟨.ofSeconds 2, 10⟩, ⟨.zero, 0⟩] 3 = .ok s ∧
      s.targetAt? (.ofSeconds 1) = .ok (.active 8) ∧
      s.targetAt? (.ofSeconds 2) = .ok .complete := by
  obtain ⟨s, hstages, hstart⟩ :=
    (exists_schedule [⟨.zero, 5⟩, ⟨.ofSeconds 2, 10⟩, ⟨.zero, 0⟩] 3).2 ⟨by decide, by decide⟩
  have hmade := make_eq_ok.2 ⟨hstages, hstart⟩
  obtain ⟨hhalf, htotal, -, hselects⟩ := targetAt_selects hmade (.ofSeconds 1)
  obtain ⟨hlast, -, hcomplete, -⟩ := targetAt_selects hmade (.ofSeconds 2)
  have hnanos : s.total.nanos = 2000000000 := htotal
  refine ⟨s, hmade, ?_, ?_⟩
  · obtain ⟨i, stage, hstage, -, -, hunique, -, hvalue⟩ := hselects (by rw [hnanos]; decide)
    obtain rfl := hunique 1 (by decide) (by decide)
    cases hstage
    rw [hhalf, hvalue]
    decide +kernel
  · rw [hlast, hcomplete.2 (by rw [hnanos]; decide)]

/-! ## Within a stage -/

/-- When all targets are exact, a stage begins with an exact number of users. -/
theorem origin_le {stages : List Stage} {current bound : Nat} (hcurrent : current ≤ bound)
    (hstages : ∀ stage ∈ stages, stage.target ≤ bound) (i : Nat) :
    origin current stages i ≤ bound := by
  cases i with
  | zero => exact hcurrent
  | succ i =>
    rw [origin]
    cases hbefore : stages[i]? with
    | none => exact hcurrent
    | some stage => exact hstages stage (List.mem_of_getElem? hbefore)

/-- While a stage lasts, the number of users that is wanted stays between the target before it
and its own.  It begins with the one, and from one instant to a later one it does not move away
from the other.  So no instant at all wants more users than the peak. -/
theorem targetAt_between {s : Schedule} (hstart : s.startTarget ≤ 2 ^ 53)
    (hstages : ∀ stage ∈ s.stages, stage.target ≤ 2 ^ 53) {i : Nat} {stage : Stage}
    (hstage : s.stages[i]? = some stage) {earlier later : Nat}
    (hbegun : boundary s.stages i ≤ earlier) (hle : earlier ≤ later)
    (hinside : later < boundary s.stages (i + 1)) :
    ∃ first second,
      s.targetAt (boundary s.stages i) = .active (origin s.startTarget s.stages i) ∧
      s.targetAt earlier = .active first ∧ s.targetAt later = .active second ∧
      min (origin s.startTarget s.stages i) stage.target ≤ first ∧
      first ≤ max (origin s.startTarget s.stages i) stage.target ∧
      min (origin s.startTarget s.stages i) stage.target ≤ second ∧
      second ≤ max (origin s.startTarget s.stages i) stage.target ∧
      (origin s.startTarget s.stages i ≤ stage.target → first ≤ second) ∧
      (stage.target ≤ origin s.startTarget s.stages i → second ≤ first) ∧
      ∀ elapsed n, s.targetAt elapsed = .active n → n ≤ s.peakTarget := by
  have horigin := origin_le hstart hstages i
  have htarget := hstages stage (List.mem_of_getElem? hstage)
  have hlasts := boundary_succ hstage
  have hpart : earlier - boundary s.stages i ≤ later - boundary s.stages i := by omega
  have hbetween {elapsed : Nat} (hbefore : elapsed < boundary s.stages (i + 1)) :=
    ramp_between horigin htarget
      (by omega : elapsed - boundary s.stages i ≤ stage.duration.nanos) (by omega)
  obtain ⟨hlow, hhigh⟩ := hbetween (Nat.lt_of_le_of_lt hle hinside)
  obtain ⟨hlow', hhigh'⟩ := hbetween hinside
  refine ⟨_, _, ?_, targetAt_of_inside hstage hbegun (Nat.lt_of_le_of_lt hle hinside),
    targetAt_of_inside hstage (hbegun.trans hle) hinside, hlow, hhigh, hlow', hhigh',
    fun hup => ramp_mono horigin htarget hup _ hpart,
    fun hdown => ramp_antitone horigin htarget hdown _ hpart,
    fun elapsed n hactive => targetAt_le_peakTarget hactive hstart hstages⟩
  rw [targetAt_of_inside hstage le_rfl (by omega), Nat.sub_self, ramp_zero horigin htarget]

/-- From three users to the largest exact target and back to none: the second stage comes down
from it, and a second and two nanoseconds apart it does not want more users later on. -/
theorem targetAt_between_down :
    ∃ (s : Schedule) (first second : Nat), s.startTarget = 3 ∧
      s.stages = [⟨.ofSeconds 1, 9007199254740992⟩, ⟨.ofSeconds 3, 0⟩] ∧
      s.targetAt 1000000001 = .active first ∧ s.targetAt 2000000003 = .active second ∧
      second ≤ first ∧ first ≤ 9007199254740992 := by
  obtain ⟨s, hstages, hstart⟩ :=
    (exists_schedule [⟨.ofSeconds 1, 9007199254740992⟩, ⟨.ofSeconds 3, 0⟩] 3).2
      ⟨by decide, by decide⟩
  have hstage : s.stages[1]? = some ⟨.ofSeconds 3, 0⟩ := by rw [hstages]; rfl
  have hboundary (i : Nat) : boundary s.stages i =
      boundary [⟨.ofSeconds 1, 9007199254740992⟩, ⟨.ofSeconds 3, 0⟩] i := by rw [hstages]
  obtain ⟨first, second, -, hfirst, hsecond, -, hhigh, -, -, -, hdown, -⟩ :=
    targetAt_between (hstart ▸ (by decide : 3 ≤ 2 ^ 53)) (by rw [hstages]; decide) hstage
      (by rw [hboundary]; decide : boundary s.stages 1 ≤ 1000000001)
      (by decide : 1000000001 ≤ 2000000003) (by rw [hboundary]; decide)
  have horigin : origin s.startTarget s.stages 1 = 9007199254740992 := by rw [hstages]; rfl
  rw [horigin] at hhigh hdown
  exact ⟨s, first, second, hstart, hstages, hfirst, hsecond, hdown (Nat.zero_le _), hhigh⟩

end Schedule
end LoadRamp
