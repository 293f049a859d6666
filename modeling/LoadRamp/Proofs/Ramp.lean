import LoadRamp.Proofs.Rounding
import LoadRamp.Schedule

/-!
# Bounds of a ramp

Every step of a ramp is rounded, so it is not plain that the ramp stays between
its ends.  It does as long as both are at most `2 ^ 53`:

* more nanoseconds are never fewer seconds (`inSeconds_mono`), so the progress in a
  stage is at most one;
* the line from one target to the other never turns back, whatever is rounded on the way
  (`slope_mono`, `slope_antitone`), and so it stays between them (`ramp_between`);
* `targetAt_le_peakTarget` says the same of the whole schedule.
-/

namespace LoadRamp
namespace Schedule

open Number

/-! ## Seconds -/

/-- The fraction of a second, rounded. -/
def fraction (nanos : Nat) : Rat :=
  roundSignificand (((nanos % 1000000000 : Nat) : Rat) / 1000000000)

theorem inSeconds_eq (nanos : Nat) :
    inSeconds nanos =
      roundSignificand (roundSignificand (nanos / 1000000000 : Nat) + fraction nanos) := rfl

theorem fraction_nonneg (nanos : Nat) : 0 ≤ fraction nanos := by
  rw [← roundSignificand_zero]
  exact roundSignificand_mono (by positivity)

/-- A fraction is not rounded up to a whole second. -/
theorem fraction_lt_one (nanos : Nat) : fraction nanos < 1 := by
  have hexact : roundSignificand (1 - 1 / 2 ^ 30) = 1 - 1 / 2 ^ 30 := by
    have hexponent : binaryExponent (1 - 1 / 2 ^ 30 : Rat) = -1 :=
      binaryExponent_eq (by norm_num) (by norm_num)
    refine roundSignificand_of_steps (z := (2 ^ 30 - 1) * 2 ^ 23) (by norm_num) ?_
    rw [significandStep_eq, hexponent]
    norm_num
  have hlt : nanos % 1000000000 < 1000000000 := Nat.mod_lt _ (by norm_num)
  have hcast : ((nanos % 1000000000 : Nat) : Rat) ≤ 999999999 := by
    exact_mod_cast Nat.le_of_lt_succ hlt
  have hbound : ((nanos % 1000000000 : Nat) : Rat) / 1000000000 ≤ 1 - 1 / 2 ^ 30 := by
    rw [div_le_iff₀ (by norm_num)]
    linarith
  calc fraction nanos ≤ roundSignificand (1 - 1 / 2 ^ 30) := roundSignificand_mono hbound
    _ = 1 - 1 / 2 ^ 30 := hexact
    _ < 1 := by norm_num

/-- More nanoseconds are never fewer seconds. -/
theorem inSeconds_mono {a b : Nat} (h : a ≤ b) : inSeconds a ≤ inSeconds b := by
  have hwhole : a / 1000000000 ≤ b / 1000000000 := Nat.div_le_div_right h
  have hround : roundSignificand (a / 1000000000 : Nat) ≤
      roundSignificand (b / 1000000000 : Nat) :=
    roundSignificand_mono (by exact_mod_cast hwhole)
  have hfraction := fraction_nonneg b
  rw [inSeconds_eq, inSeconds_eq]
  rcases hwhole.eq_or_lt with hsame | hless
  · have hrest : a % 1000000000 ≤ b % 1000000000 := by omega
    have hparts : fraction a ≤ fraction b := by
      refine roundSignificand_mono (div_le_div_of_nonneg_right ?_ (by norm_num))
      exact_mod_cast hrest
    rw [hsame]
    exact roundSignificand_mono (add_le_add_right hparts _)
  · rcases lt_or_ge (roundSignificand (a / 1000000000 : Nat)) (2 ^ 53) with hsmall | hlarge
    · -- The whole seconds are exact, and one more of them outweighs every fraction.
      have hbound : a / 1000000000 + 1 ≤ 2 ^ 53 := by
        by_contra hover
        have hge : ((2 ^ 53 : Nat) : Rat) ≤ ((a / 1000000000 : Nat) : Rat) := by
          exact_mod_cast (by omega : 2 ^ 53 ≤ a / 1000000000)
        have hrounded := roundSignificand_mono hge
        rw [roundSignificand_natCast le_rfl] at hrounded
        push_cast at hrounded hsmall
        linarith
      have hnext : ((a / 1000000000 : Nat) : Rat) + 1 ≤
          roundSignificand (b / 1000000000 : Nat) := by
        calc ((a / 1000000000 : Nat) : Rat) + 1 = ((a / 1000000000 + 1 : Nat) : Rat) := by
              push_cast; ring
          _ = roundSignificand ((a / 1000000000 + 1 : Nat) : Rat) :=
              (roundSignificand_natCast hbound).symm
          _ ≤ _ := roundSignificand_mono (by exact_mod_cast hless)
      have hlt := fraction_lt_one a
      rw [roundSignificand_natCast (by omega : a / 1000000000 ≤ 2 ^ 53)]
      exact roundSignificand_mono (by linarith)
    · -- There is no room for a fraction next to so many seconds.
      rw [roundSignificand_add hlarge (fraction_nonneg a) (fraction_lt_one a)]
      calc _ ≤ roundSignificand (b / 1000000000 : Nat) := hround
        _ = roundSignificand (roundSignificand (b / 1000000000 : Nat)) :=
            (roundSignificand_idem _).symm
        _ ≤ _ := roundSignificand_mono (by linarith)

theorem inSeconds_zero : inSeconds 0 = 0 := by
  rw [inSeconds_eq, fraction]
  simp

theorem inSeconds_nonneg (nanos : Nat) : 0 ≤ inSeconds nanos := by
  rw [← inSeconds_zero]
  exact inSeconds_mono (Nat.zero_le _)

theorem inSeconds_pos {nanos : Nat} (h : 0 < nanos) : 0 < inSeconds nanos := by
  rw [inSeconds_eq]
  apply roundSignificand_pos
  rcases Nat.eq_zero_or_pos (nanos / 1000000000) with hzero | hpos
  · have hrest : 0 < nanos % 1000000000 := by omega
    have hfraction : 0 < fraction nanos :=
      roundSignificand_pos (div_pos (by exact_mod_cast hrest) (by norm_num))
    rw [hzero]
    simpa using hfraction
  · have hwhole : 0 < roundSignificand (nanos / 1000000000 : Nat) :=
      roundSignificand_pos (by exact_mod_cast hpos)
    have hfraction := fraction_nonneg nanos
    linarith

/-! ## Users -/

/-- What part of a stage is over, as a rounded number. -/
def progress (part whole : Nat) : Rat := roundSignificand (inSeconds part / inSeconds whole)

theorem progress_nonneg (part whole : Nat) : 0 ≤ progress part whole := by
  rw [← roundSignificand_zero]
  exact roundSignificand_mono (div_nonneg (inSeconds_nonneg part) (inSeconds_nonneg whole))

theorem progress_le_one {part whole : Nat} (hpart : part ≤ whole) (hwhole : 0 < whole) :
    progress part whole ≤ 1 := by
  -- Both are rounded, but a quotient that is at most one is not rounded beyond it.
  have hone : roundSignificand 1 = 1 := by
    exact_mod_cast roundSignificand_natCast (by norm_num : 1 ≤ 2 ^ 53)
  rw [← hone]
  refine roundSignificand_mono ?_
  rw [div_le_one (inSeconds_pos hwhole)]
  exact inSeconds_mono hpart

theorem progress_zero (whole : Nat) : progress 0 whole = 0 := by
  rw [progress, inSeconds_zero, zero_div, roundSignificand_zero]

/-- Progress never goes back. -/
theorem progress_mono {part later : Nat} (whole : Nat) (h : part ≤ later) :
    progress part whole ≤ progress later whole :=
  roundSignificand_mono (div_le_div_of_nonneg_right (inSeconds_mono h) (inSeconds_nonneg whole))

/-- The line from one exact target to another at some progress, before it is rounded to whole
users. -/
def slope (start finish : Nat) (progress : Rat) : Rat :=
  roundSignificand ((start : Rat) + roundSignificand (((finish : Rat) - start) * progress))

/-- A computed number of users as a whole number of them. -/
def wholeUsers (value : Rat) : Nat := min (nearestAway value).toNat mostUsers

theorem wholeUsers_mono {a b : Rat} (h : a ≤ b) : wholeUsers a ≤ wholeUsers b :=
  min_le_min_right _ (Int.toNat_le_toNat (nearestAway_mono h))

theorem wholeUsers_natCast {n : Nat} (h : n ≤ mostUsers) : wholeUsers n = n := by
  rw [wholeUsers, nearestAway_natCast, Int.toNat_natCast, Nat.min_eq_left h]

section Ends

variable {start finish : Nat}

/-- A line that leads up goes up. -/
theorem slope_mono (hup : start ≤ finish) {p q : Rat} (h : p ≤ q) :
    slope start finish p ≤ slope start finish q := by
  have hrise : (0 : Rat) ≤ (finish : Rat) - start := sub_nonneg.2 (by exact_mod_cast hup)
  have hpartial := roundSignificand_mono (mul_le_mul_of_nonneg_left h hrise)
  exact roundSignificand_mono (by linarith)

/-- A line that leads down goes down. -/
theorem slope_antitone (hdown : finish ≤ start) {p q : Rat} (h : p ≤ q) :
    slope start finish q ≤ slope start finish p := by
  have hrise : (finish : Rat) - start ≤ 0 := sub_nonpos.2 (by exact_mod_cast hdown)
  have hpartial := roundSignificand_mono (mul_le_mul_of_nonpos_left h hrise)
  exact roundSignificand_mono (by linarith)

variable (hstart : start ≤ 2 ^ 53) (hfinish : finish ≤ 2 ^ 53)
include hstart

theorem slope_zero : slope start finish 0 = start := by
  rw [slope, mul_zero, roundSignificand_zero, add_zero, roundSignificand_natCast hstart]

include hfinish

/-- The difference of exact targets is exact. -/
theorem roundSignificand_rise :
    roundSignificand ((finish : Rat) - start) = (finish : Rat) - start := by
  have hexact := roundSignificand_intCast
    (by omega : ((finish : Int) - start).natAbs ≤ 2 ^ 53)
  push_cast at hexact
  exact hexact

theorem slope_one : slope start finish 1 = finish := by
  rw [slope, mul_one, roundSignificand_rise hstart hfinish, add_sub_cancel,
    roundSignificand_natCast hfinish]

/-- A line stays between its ends: it leads from one to the other and does not turn back. -/
theorem slope_between {p : Rat} (hbegun : 0 ≤ p) (hinside : p ≤ 1) :
    ((min start finish : Nat) : Rat) ≤ slope start finish p ∧
      slope start finish p ≤ ((max start finish : Nat) : Rat) := by
  have hfirst : slope start finish 0 = start := slope_zero hstart
  have hlast := slope_one hstart hfinish
  rcases Nat.le_total start finish with hup | hdown
  · rw [Nat.min_eq_left hup, Nat.max_eq_right hup]
    exact ⟨hfirst.ge.trans (slope_mono hup hbegun), (slope_mono hup hinside).trans hlast.le⟩
  · rw [Nat.min_eq_right hdown, Nat.max_eq_left hdown]
    exact ⟨hlast.ge.trans (slope_antitone hdown hinside),
      (slope_antitone hdown hbegun).trans hfirst.le⟩

theorem ramp_eq (part whole : Nat) :
    ramp start finish part whole = wholeUsers (slope start finish (progress part whole)) := by
  rw [ramp, roundSignificand_natCast hstart, roundSignificand_natCast hfinish,
    roundSignificand_rise hstart hfinish]
  rfl

/-- A stage begins with exactly the target of the one before it. -/
theorem ramp_zero (whole : Nat) : ramp start finish 0 whole = start := by
  rw [ramp_eq hstart hfinish, progress_zero, slope_zero hstart]
  exact wholeUsers_natCast (hstart.trans (by decide))

/-- No instant of a stage wants fewer users than the smaller of its targets, or more than the
larger one. -/
theorem ramp_between {part whole : Nat} (hpart : part ≤ whole) (hwhole : 0 < whole) :
    min start finish ≤ ramp start finish part whole ∧
      ramp start finish part whole ≤ max start finish := by
  have hcap : 2 ^ 53 ≤ mostUsers := by decide
  obtain ⟨hlow, hhigh⟩ := slope_between hstart hfinish (progress_nonneg part whole)
    (progress_le_one hpart hwhole)
  have hlow' := wholeUsers_mono hlow
  have hhigh' := wholeUsers_mono hhigh
  rw [wholeUsers_natCast (by omega)] at hlow' hhigh'
  rw [ramp_eq hstart hfinish]
  exact ⟨hlow', hhigh'⟩

/-- A stage that leads up never goes down. -/
theorem ramp_mono (hup : start ≤ finish) {part later : Nat} (whole : Nat) (h : part ≤ later) :
    ramp start finish part whole ≤ ramp start finish later whole := by
  rw [ramp_eq hstart hfinish, ramp_eq hstart hfinish]
  exact wholeUsers_mono (slope_mono hup (progress_mono whole h))

/-- A stage that leads down never goes up. -/
theorem ramp_antitone (hdown : finish ≤ start) {part later : Nat} (whole : Nat)
    (h : part ≤ later) : ramp start finish later whole ≤ ramp start finish part whole := by
  rw [ramp_eq hstart hfinish, ramp_eq hstart hfinish]
  exact wholeUsers_mono (slope_antitone hdown (progress_mono whole h))

end Ends

/-! ## The peak -/

theorem le_foldl_max (l : List Nat) (a : Nat) : a ≤ l.foldl max a := by
  induction l generalizing a with
  | nil => exact le_rfl
  | cons b rest ih => exact (Nat.le_max_left a b).trans (ih (max a b))

theorem foldl_max_mono (l : List Nat) {a b : Nat} (h : a ≤ b) : l.foldl max a ≤ l.foldl max b := by
  induction l generalizing a b with
  | nil => exact h
  | cons c rest ih => exact ih (by omega)

theorem foldl_max_le {l : List Nat} {a bound : Nat} (hl : ∀ b ∈ l, b ≤ bound) (ha : a ≤ bound) :
    l.foldl max a ≤ bound := by
  induction l generalizing a with
  | nil => exact ha
  | cons b rest ih =>
    have hb := hl b List.mem_cons_self
    exact ih (fun c hc => hl c (List.mem_cons_of_mem _ hc)) (by omega)

/-- Some stages that follow each other want no more users than the largest of their targets. -/
theorem targetFrom_le {elapsed start current n : Nat} {stages : List Stage}
    (h : targetFrom elapsed start current stages = .active n) (hstart : start ≤ elapsed)
    (hcurrent : current ≤ 2 ^ 53) (hstages : ∀ stage ∈ stages, stage.target ≤ 2 ^ 53) :
    n ≤ (stages.map Stage.target).foldl max current := by
  induction stages generalizing start current with
  | nil => cases h
  | cons stage rest ih =>
    have htarget := hstages stage List.mem_cons_self
    rw [List.map_cons, List.foldl_cons]
    unfold targetFrom at h
    dsimp only at h
    split at h
    · next hinside =>
      -- The stage under way ramps from the last target, which the fold has seen, to its own.
      obtain rfl := Target.active.inj h
      have hbound := (ramp_between hcurrent htarget
        (by omega : elapsed - start ≤ stage.duration.nanos) (by omega)).2
      exact hbound.trans (le_foldl_max _ _)
    · next houtside =>
      have hrest := ih h (not_lt.1 houtside) htarget
        fun other hother => hstages other (List.mem_cons_of_mem _ hother)
      exact hrest.trans (foldl_max_mono _ (Nat.le_max_right _ _))

/-- A schedule never wants more users than the largest of its targets. -/
theorem targetAt_le_peakTarget {s : Schedule} {elapsed n : Nat}
    (h : s.targetAt elapsed = .active n) (hstart : s.startTarget ≤ 2 ^ 53)
    (hstages : ∀ stage ∈ s.stages, stage.target ≤ 2 ^ 53) : n ≤ s.peakTarget := by
  unfold targetAt at h
  split at h
  · cases h
  · exact targetFrom_le h (Nat.zero_le _) hstart hstages

end Schedule
end LoadRamp
