import LoadRamp.Definition
import LoadRamp.Proofs.Resolving
import Mathlib.Algebra.Group.Action.Defs
import Mathlib.Algebra.Order.BigOperators.Group.List
import Mathlib.Algebra.Order.Ring.Nat

/-!
# The planned duration of a run

A schedule adds its stages up to the nanosecond.  A summary has whole milliseconds for
each stage and adds those up again, so what every stage has beyond its milliseconds is
lost before the seconds are counted.

* `Schedule.lost` is what the stages lose together, `Schedule.wholeMillis` what they keep.
* `Schedule.wholeMillis_lost`: the two make up the total duration.
* `Schedule.plannedSeconds_eq_iff`: the seconds come out right exactly when the loss is no
  more than what the total duration has beyond its own seconds.
* `Definition.summary_runDuration` says what the summary of a run states.
-/

namespace LoadRamp

namespace Duration

/-- The nanoseconds after the whole milliseconds. -/
def submilli (d : Duration) : Nat := d.nanos % 1000000

theorem submilli_le (d : Duration) : d.submilli ≤ 999999 :=
  Nat.le_of_lt_succ (Nat.mod_lt _ (by decide))

theorem millis_submilli (d : Duration) : d.millis * 1000000 + d.submilli = d.nanos :=
  Nat.div_add_mod' _ _

end Duration

/-! ## What is kept and what is lost -/

namespace Schedule

variable (s : Schedule)

/-- The whole milliseconds of the stages, added up. -/
def wholeMillis : Nat := (s.stages.map fun stage => stage.duration.millis).sum

/-- The nanoseconds that the stages have beyond their whole milliseconds, added up. -/
def lost : Nat := (s.stages.map fun stage => stage.duration.submilli).sum

theorem sum_nanos : (s.stages.map fun stage => stage.duration.nanos).sum = s.total.nanos := by
  have htotal := Duration.sum?_eq_some.1 s.total_eq
  rwa [List.map_map] at htotal

/-- Nothing but the loss keeps the milliseconds of the stages from the total duration. -/
theorem wholeMillis_lost : s.wholeMillis * 1000000 + s.lost = s.total.nanos := by
  have hsplit (stages : List Stage) :
      (stages.map fun stage => stage.duration.millis).sum * 1000000 +
          (stages.map fun stage => stage.duration.submilli).sum =
        (stages.map fun stage => stage.duration.nanos).sum := by
    induction stages with
    | nil => simp
    | cons stage rest ih =>
      rw [List.map_cons, List.map_cons, List.map_cons, List.sum_cons, List.sum_cons,
        List.sum_cons, Nat.add_mul, Nat.add_add_add_comm, ih, stage.duration.millis_submilli]
  exact (hsplit s.stages).trans s.sum_nanos

/-- Each stage loses less than a millisecond. -/
theorem lost_le : s.lost ≤ s.stages.length * 999999 := by
  have hle := List.sum_le_card_nsmul (s.stages.map fun stage => stage.duration.submilli) 999999
    (List.forall_mem_map.2 fun stage _ => stage.duration.submilli_le)
  rwa [List.length_map, smul_eq_mul] at hle

theorem lost_eq_zero_iff :
    s.lost = 0 ↔ ∀ stage ∈ s.stages, 1000000 ∣ stage.duration.nanos := by
  simp [lost, List.sum_eq_zero_iff, Duration.submilli, Nat.dvd_iff_mod_eq_zero]

theorem wholeMillis_le : s.wholeMillis ≤ s.total.millis := by
  have hsplit := s.wholeMillis_lost
  have htotal := s.total.millis_submilli
  have hpart := s.total.submilli_le
  omega

theorem millis_le_wholeMillis {stage : Stage} (h : stage ∈ s.stages) :
    stage.duration.millis ≤ s.wholeMillis :=
  List.single_le_sum (fun _ _ => Nat.zero_le _) _ (List.mem_map_of_mem h)

/-! ## Seconds -/

theorem plannedSeconds_eq : s.wholeMillis / 1000 = (s.total.nanos - s.lost) / 1000000000 := by
  have hsplit := s.wholeMillis_lost
  omega

/-- The loss does not reach the seconds as long as the part after them can pay for it. -/
theorem plannedSeconds_eq_iff :
    s.wholeMillis / 1000 = s.total.seconds ↔ s.lost ≤ s.total.subsecond := by
  have hsplit := s.wholeMillis_lost
  have htotal := s.total.seconds_subsecond
  have hpart := s.total.subsecond_lt
  omega

theorem plannedSeconds_le : s.wholeMillis / 1000 ≤ s.total.seconds := by
  have hsplit := s.wholeMillis_lost
  have htotal := s.total.seconds_subsecond
  have hpart := s.total.subsecond_lt
  omega

/-- The loss is a whole number of milliseconds and what the total duration has beyond its own, and
each stage adds less than one to it.  So one stage loses no second, and every thousand more of them,
or a part of a thousand, lose one at most. -/
theorem seconds_le : s.total.seconds ≤ s.wholeMillis / 1000 + (s.stages.length + 998) / 1000 := by
  have hsplit := s.wholeMillis_lost
  have htotal := s.total.seconds_subsecond
  have hloss := s.lost_le
  omega

end Schedule

/-! ## Summaries -/

/-- The stages are added up one after the other. -/
theorem Summary.plannedSeconds_eq_sum (stages : List StageSummary) :
    plannedSeconds stages = (stages.map StageSummary.durationMs).sum / 1000 := by
  rw [plannedSeconds, List.sum_eq_foldl, List.foldl_map]

namespace Definition

variable {d : Definition}

/-- When the total duration fits into a word, so does each stage. -/
theorem durationMs_stageSummary (h : d.schedule.total.millis < Summary.wordLimit) {stage : Stage}
    (hstage : stage ∈ d.schedule.stages) :
    (stageSummary stage).durationMs = stage.duration.millis :=
  Nat.mod_eq_of_lt <|
    calc stage.duration.millis
      _ ≤ d.schedule.wholeMillis := d.schedule.millis_le_wholeMillis hstage
      _ ≤ d.schedule.total.millis := d.schedule.wholeMillis_le
      _ < Summary.wordLimit := h

theorem sum_stageSummary (h : d.schedule.total.millis < Summary.wordLimit) :
    ((d.schedule.stages.map stageSummary).map StageSummary.durationMs).sum =
      d.schedule.wholeMillis := by
  rw [List.map_map, Schedule.wholeMillis]
  exact congrArg List.sum (List.map_congr_left fun _ => durationMs_stageSummary h)

/-- The summary of a run states the seconds of what the stages keep.  That is the planned duration
exactly when the nanoseconds that the stages have beyond their milliseconds add up to no more than
what the planned duration has beyond its seconds, as they do when there are none of them.  It is
never more.  With one stage it is never less, and with every thousand more, or a part of a thousand,
less by a second at most. -/
theorem summary_runDuration (d : Definition) (r : Run) (runId : String) (startedAt : Int)
    (h : d.schedule.total.millis < Summary.wordLimit) :
    ((d.summary r runId startedAt).stages.map StageSummary.durationMs).sum < Summary.wordLimit ∧
    (d.summary r runId startedAt).runDuration =
      (d.schedule.total.nanos - d.schedule.lost) / 1000000000 ∧
    ((d.summary r runId startedAt).runDuration = d.schedule.total.seconds ↔
      d.schedule.lost ≤ d.schedule.total.subsecond) ∧
    ((∀ stage ∈ d.schedule.stages, 1000000 ∣ stage.duration.nanos) →
      (d.summary r runId startedAt).runDuration = d.schedule.total.seconds) ∧
    (d.summary r runId startedAt).runDuration ≤ d.schedule.total.seconds ∧
    d.schedule.total.seconds ≤
      (d.summary r runId startedAt).runDuration + (d.schedule.stages.length + 998) / 1000 := by
  have hsum : ((d.summary r runId startedAt).stages.map StageSummary.durationMs).sum =
      d.schedule.wholeMillis := sum_stageSummary h
  have hseconds : (d.summary r runId startedAt).runDuration = d.schedule.wholeMillis / 1000 := by
    rw [← hsum, ← Summary.plannedSeconds_eq_sum]
    rfl
  rw [hsum, hseconds]
  refine ⟨Nat.lt_of_le_of_lt d.schedule.wholeMillis_le h, d.schedule.plannedSeconds_eq,
    d.schedule.plannedSeconds_eq_iff, fun hwhole => ?_, d.schedule.plannedSeconds_le,
    d.schedule.seconds_le⟩
  rw [d.schedule.plannedSeconds_eq_iff, d.schedule.lost_eq_zero_iff.2 hwhole]
  exact Nat.zero_le _

/-- A run of one request after the other that follows a schedule. -/
def following (schedule : Schedule) : Definition where
  name := "browse"
  baseUrl := "http://localhost"
  schedule
  scenario := ⟨"browse", [⟨"list", .get, "/books", [], none, []⟩], by decide, by decide, by decide⟩
  settings := Settings.default
  requestTimeout := Duration.ofSeconds 30
  options := {}
  factory _ := .error ""
  tick_pos := by decide

/-- Two stages of a second and a bit and of two seconds and a bit lose their bits and no second. -/
theorem summary_runDuration_bits :
    let schedule : Schedule := ⟨[⟨⟨1000400000, by decide⟩, 5⟩, ⟨⟨2000300000, by decide⟩, 0⟩], 0,
      ⟨3000700000, by decide⟩, by decide, by decide⟩
    schedule.total.millis < Summary.wordLimit ∧ schedule.lost = 700000 ∧
      ((following schedule).summary Run.start "run-1" 0).runDuration = 3 := by
  intro schedule
  have hfits : schedule.total.millis < Summary.wordLimit := by decide
  obtain ⟨-, -, hequal, -⟩ := summary_runDuration (following schedule) Run.start "run-1" 0 hfits
  have hseconds : schedule.total.seconds = 3 := by decide
  exact ⟨hfits, by decide, (hequal.2 (by decide)).trans hseconds⟩

/-- Two stages that make up a second, neither of them a whole number of milliseconds. -/
theorem not_summary_runDuration :
    ¬ ∀ (d : Definition) (r : Run) (runId : String) (startedAt : Int),
      d.schedule.total.millis < Summary.wordLimit →
        (d.summary r runId startedAt).runDuration = d.schedule.total.seconds := by
  intro h
  let schedule : Schedule := ⟨[⟨⟨999500000, by decide⟩, 1⟩, ⟨⟨500000, by decide⟩, 1⟩], 1,
    ⟨1000000000, by decide⟩, by decide, by decide⟩
  exact absurd (h (following schedule) Run.start "run-1" 0 (by decide)) (by decide)

end Definition
end LoadRamp
