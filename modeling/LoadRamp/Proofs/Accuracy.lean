import LoadRamp.Proofs.Stages

/-!
# How accurate a ramp is

What a ramp computes is rounded to 53 significant bits after every operation, and only then to
whole users.  The roundings on the way stay far below half a user all together.

* `Number.Near` compares two values by their quotient.  Each rounding of a positive value
  adds one factor (`near_roundSignificand`), sums keep the factors, and products and
  quotients add them up.
* `slope_error` is what remains of a line between two targets up to `2 ^ 32`.
* `ramp_error` is the same for whole users, and `targetAt_accurate` for a schedule.

The factor is the one of a rounding to nearest, so it bounds the exact value by the rounded
one as well as the other way round.  That makes `Near` symmetric, and a quotient no worse
than a product.
-/

namespace LoadRamp
namespace Number

/-! ## One rounding -/

/-- Half the distance between neighbours around one: the largest relative error of a rounding. -/
def roundoff : Rat := 1 / 2 ^ 53

theorem roundoff_pos : 0 < roundoff := by norm_num [roundoff]

/-- A positive value is moved by half a step of its binade at most, and that is small next to
the value as well as next to what it is rounded to. -/
theorem roundSignificand_error_of_pos {q : Rat} (hq : 0 < q) :
    |roundSignificand q - q| ≤ q * roundoff ∧
      |roundSignificand q - q| ≤ roundSignificand q * roundoff := by
  have hstep := significandStep_pos q
  have hround := roundSignificand_of_pos hq
  obtain ⟨hbelow, habove⟩ := nearestEven_bounds (q / significandStep q)
  have hhalf : |roundSignificand q - q| ≤ significandStep q / 2 := by
    rw [hround, roundToStep, abs_le]
    have hlow := mul_le_mul_of_nonneg_right hbelow hstep.le
    have hhigh := mul_le_mul_of_nonneg_right habove hstep.le
    rw [div_mul_cancel₀ _ hstep.ne'] at hlow hhigh
    constructor <;> linarith
  -- A step is a fixed part of the start of the binade, which neither value is below.
  have hpart : significandStep q / 2 = (2 : Rat) ^ binaryExponent q * roundoff := by
    rw [binade_start, roundoff]
    push_cast
    ring
  have hlow := (binaryExponent_spec hq).1
  have hlow' := (roundToStep_binade hq).1
  rw [← hround] at hlow'
  rw [hpart] at hhalf
  exact ⟨hhalf.trans (mul_le_mul_of_nonneg_right hlow roundoff_pos.le),
    hhalf.trans (mul_le_mul_of_nonneg_right hlow' roundoff_pos.le)⟩

/-- No value is moved by more than a fixed part of what it is rounded to. -/
theorem roundSignificand_error (q : Rat) :
    |roundSignificand q - q| ≤ |roundSignificand q| * roundoff := by
  rcases lt_trichotomy q 0 with hneg | rfl | hpos
  · have hflip := (roundSignificand_error_of_pos (neg_pos.2 hneg)).2
    rw [roundSignificand_neg, ← abs_neg] at hflip
    have hsame : -(-roundSignificand q - -q) = roundSignificand q - q := by ring
    rw [hsame] at hflip
    exact hflip.trans (mul_le_mul_of_nonneg_right (neg_le_abs _) roundoff_pos.le)
  · simp
  · exact (roundSignificand_error_of_pos hpos).2.trans
      (mul_le_mul_of_nonneg_right (le_abs_self _) roundoff_pos.le)

/-- A value that is not negative is at most half a unit from its whole number. -/
theorem nearestAway_error {q : Rat} (hq : 0 ≤ q) : |(nearestAway q : Rat) - q| ≤ 1 / 2 := by
  rw [nearestAway_of_nonneg hq, abs_le]
  have hlow := Rat.floor_le (q + 1 / 2)
  have hhigh := Rat.lt_floor_add_one (q + 1 / 2)
  push_cast at hhigh
  constructor <;> linarith

/-! ## Several roundings -/

/-- Whether two values are the same up to `k` roundings: neither is larger than the other one
times `k` factors. -/
def Near (k : Nat) (a b : Rat) : Prop :=
  a ≤ b * (1 + roundoff) ^ k ∧ b ≤ a * (1 + roundoff) ^ k

theorem factors_pos (k : Nat) : 0 < (1 + roundoff) ^ k :=
  pow_pos (add_pos one_pos roundoff_pos) k

theorem one_le_factors (k : Nat) : 1 ≤ (1 + roundoff) ^ k :=
  one_le_pow₀ (le_add_of_nonneg_right roundoff_pos.le)

theorem near_roundSignificand {q : Rat} (hq : 0 ≤ q) : Near 1 q (roundSignificand q) := by
  rcases hq.eq_or_lt with rfl | hpos
  · simp [Near]
  · obtain ⟨herror, herror'⟩ := roundSignificand_error_of_pos hpos
    rw [abs_le] at herror herror'
    rw [Near, pow_one, mul_add, mul_one, mul_add, mul_one]
    constructor <;> linarith

namespace Near

variable {k l : Nat} {a b c d : Rat}

theorem trans (h : Near k a b) (hnext : Near l b c) : Near (k + l) a c := by
  have hk := (factors_pos k).le
  have hl := (factors_pos l).le
  constructor
  · calc a ≤ b * (1 + roundoff) ^ k := h.1
      _ ≤ c * (1 + roundoff) ^ l * (1 + roundoff) ^ k := mul_le_mul_of_nonneg_right hnext.1 hk
      _ = c * (1 + roundoff) ^ (k + l) := by rw [pow_add]; ring
  · calc c ≤ b * (1 + roundoff) ^ l := hnext.2
      _ ≤ a * (1 + roundoff) ^ k * (1 + roundoff) ^ l := mul_le_mul_of_nonneg_right h.2 hl
      _ = a * (1 + roundoff) ^ (k + l) := by rw [pow_add]; ring

theorem add (h : Near k a b) (h' : Near k c d) : Near k (a + c) (b + d) := by
  constructor
  · rw [add_mul]
    exact add_le_add h.1 h'.1
  · rw [add_mul]
    exact add_le_add h.2 h'.2

/-- A factor that is exact adds nothing. -/
theorem mul_left (h : Near k a b) (hc : 0 ≤ c) : Near k (c * a) (c * b) := by
  constructor
  · rw [mul_assoc]
    exact mul_le_mul_of_nonneg_left h.1 hc
  · rw [mul_assoc]
    exact mul_le_mul_of_nonneg_left h.2 hc

theorem div (h : Near k a b) (h' : Near l c d) (ha : 0 ≤ a) (hb : 0 ≤ b) (hc : 0 < c)
    (hd : 0 < d) : Near (k + l) (a / c) (b / d) := by
  have hk := (factors_pos k).le
  have hl := (factors_pos l).le
  constructor
  · rw [div_mul_eq_mul_div, div_le_div_iff₀ hc hd]
    calc a * d ≤ b * (1 + roundoff) ^ k * (c * (1 + roundoff) ^ l) :=
          mul_le_mul h.1 h'.2 hd.le (mul_nonneg hb hk)
      _ = b * (1 + roundoff) ^ (k + l) * c := by rw [pow_add]; ring
  · rw [div_mul_eq_mul_div, div_le_div_iff₀ hd hc]
    calc b * c ≤ a * (1 + roundoff) ^ k * (d * (1 + roundoff) ^ l) :=
          mul_le_mul h.2 h'.1 hc.le (mul_nonneg ha hk)
      _ = a * (1 + roundoff) ^ (k + l) * d := by rw [pow_add]; ring

/-- How far near values are from each other. -/
theorem error (h : Near k a b) (ha : 0 ≤ a) : |b - a| ≤ a * ((1 + roundoff) ^ k - 1) := by
  have hfactor : 0 ≤ (1 + roundoff) ^ k - 1 := sub_nonneg.2 (one_le_factors k)
  rw [abs_le]
  constructor
  · rcases le_total b a with hle | hle
    · have hsmaller := mul_le_mul_of_nonneg_right hle hfactor
      linarith [h.1]
    · linarith [mul_nonneg ha hfactor]
  · linarith [h.2]

end Near
end Number

namespace Schedule

open Number

/-! ## A ramp -/

/-- Two roundings lie between nanoseconds and seconds: one of the parts, one of their sum. -/
theorem near_inSeconds (nanos : Nat) : Near 2 ((nanos : Rat) / 1000000000) (inSeconds nanos) := by
  have hsplit : (nanos : Rat) / 1000000000 =
      (nanos / 1000000000 : Nat) + ((nanos % 1000000000 : Nat) : Rat) / 1000000000 := by
    have hcast : (nanos : Rat) =
        1000000000 * (nanos / 1000000000 : Nat) + (nanos % 1000000000 : Nat) := by
      exact_mod_cast (Nat.div_add_mod nanos 1000000000).symm
    rw [hcast]
    field_simp
  have hwhole := near_roundSignificand (Nat.cast_nonneg (α := Rat) (nanos / 1000000000))
  have hrest : Near 1 (((nanos % 1000000000 : Nat) : Rat) / 1000000000) (fraction nanos) :=
    near_roundSignificand (by positivity)
  have hparts : 0 ≤ roundSignificand (nanos / 1000000000 : Nat) + fraction nanos := by
    refine add_nonneg ?_ (fraction_nonneg nanos)
    rw [← roundSignificand_zero]
    exact roundSignificand_mono (Nat.cast_nonneg _)
  have hsum := (hwhole.add hrest).trans (near_roundSignificand hparts)
  rw [hsplit, inSeconds_eq]
  exact hsum

theorem near_progress (part : Nat) {whole : Nat} (hwhole : 0 < whole) :
    Near 5 ((part : Rat) / whole) (progress part whole) := by
  have hsame : (part : Rat) / whole = (part : Rat) / 1000000000 / ((whole : Rat) / 1000000000) :=
    (div_div_div_cancel_right₀ (by norm_num) _ _).symm
  have hpos : (0 : Rat) < whole := by exact_mod_cast hwhole
  have hquotient := (near_inSeconds part).div (near_inSeconds whole) (by positivity)
    (inSeconds_nonneg part) (by positivity) (inSeconds_pos hwhole)
  have hrounded := hquotient.trans
    (near_roundSignificand (div_nonneg (inSeconds_nonneg part) (inSeconds_nonneg whole)))
  rw [hsame]
  exact hrounded

/-- The exact value of a line between two targets, `part` of `whole` nanoseconds after its
start. -/
def line (start finish part whole : Nat) : Rat :=
  (start : Rat) + ((finish : Rat) - start) * part / whole

/-- What the roundings up to the partial rise make of it, for a rise in either direction. -/
theorem rise_error (rise : Rat) {part whole : Nat} (hpart : part ≤ whole) (hwhole : 0 < whole) :
    |roundSignificand (rise * progress part whole) - rise * (part / whole)| ≤
      |rise| * (7 * roundoff) := by
  have hfactors : (1 + roundoff) ^ 6 - 1 ≤ 7 * roundoff := by norm_num [roundoff]
  have hexact : (part : Rat) / whole ≤ 1 := by
    rw [div_le_one (by exact_mod_cast hwhole)]
    exact_mod_cast hpart
  have hnonneg : (0 : Rat) ≤ (part : Rat) / whole := by positivity
  have hup {height : Rat} (hheight : 0 ≤ height) :
      |roundSignificand (height * progress part whole) - height * (part / whole)| ≤
        height * (7 * roundoff) := by
    have hnear := ((near_progress part hwhole).mul_left hheight).trans
      (near_roundSignificand (mul_nonneg hheight (progress_nonneg part whole)))
    calc _ ≤ height * (part / whole) * ((1 + roundoff) ^ 6 - 1) :=
          hnear.error (mul_nonneg hheight hnonneg)
      _ ≤ height * 1 * (7 * roundoff) :=
          mul_le_mul (mul_le_mul_of_nonneg_left hexact hheight) hfactors
            (sub_nonneg.2 (one_le_factors 6)) (by linarith)
      _ = height * (7 * roundoff) := by ring
  rcases le_total 0 rise with hrise | hfall
  · rw [abs_of_nonneg hrise]
    exact hup hrise
  · have hflip := hup (neg_nonneg.2 hfall)
    rw [neg_mul, neg_mul, roundSignificand_neg, ← neg_sub', abs_neg] at hflip
    rwa [abs_of_nonpos hfall]

section Ends

variable {start finish : Nat} (hstart : start ≤ 2 ^ 32) (hfinish : finish ≤ 2 ^ 32)

include hstart hfinish

/-- A line between two targets of at most `2 ^ 32` users is computed to a small part of a
user. -/
theorem slope_error {part whole : Nat} (hpart : part ≤ whole) (hwhole : 0 < whole) :
    |slope start finish (progress part whole) - line start finish part whole| ≤ 1 / 2 ^ 18 := by
  have hstart' : (start : Rat) ≤ 2 ^ 32 := by exact_mod_cast hstart
  have hfinish' : (finish : Rat) ≤ 2 ^ 32 := by exact_mod_cast hfinish
  have hrise : |(finish : Rat) - start| ≤ 2 ^ 32 := by
    rw [abs_le]
    constructor <;> linarith [Nat.cast_nonneg (α := Rat) start, Nat.cast_nonneg (α := Rat) finish]
  obtain ⟨hlow, hhigh⟩ := slope_between (hstart.trans (by decide)) (hfinish.trans (by decide))
    (progress_nonneg part whole) (progress_le_one hpart hwhole)
  have hsize : |slope start finish (progress part whole)| ≤ 2 ^ 32 := by
    rw [abs_of_nonneg ((Nat.cast_nonneg _).trans hlow)]
    exact hhigh.trans (by exact_mod_cast max_le hstart hfinish)
  have hpartial := rise_error ((finish : Rat) - start) hpart hwhole
  -- The last rounding is of the sum, the others are of the partial rise.
  have hlast := roundSignificand_error
    ((start : Rat) + roundSignificand (((finish : Rat) - start) * progress part whole))
  have hsum : line start finish part whole =
      (start : Rat) + ((finish : Rat) - start) * ((part : Rat) / whole) := by
    rw [line, mul_div_assoc]
  rw [hsum]
  calc _ ≤ |slope start finish (progress part whole) - ((start : Rat) +
            roundSignificand (((finish : Rat) - start) * progress part whole))| +
          |roundSignificand (((finish : Rat) - start) * progress part whole) -
            ((finish : Rat) - start) * ((part : Rat) / whole)| := by
        refine (abs_sub_le _ ((start : Rat) +
          roundSignificand (((finish : Rat) - start) * progress part whole)) _).trans ?_
        rw [add_sub_add_left_eq_sub]
    _ ≤ 2 ^ 32 * roundoff + 2 ^ 32 * (7 * roundoff) :=
        add_le_add (hlast.trans (mul_le_mul_of_nonneg_right hsize roundoff_pos.le))
          (hpartial.trans (mul_le_mul_of_nonneg_right hrise (by norm_num [roundoff])))
    _ = 1 / 2 ^ 18 := by norm_num [roundoff]

/-- Whole users are no more than half a user farther away. -/
theorem ramp_error {part whole : Nat} (hpart : part ≤ whole) (hwhole : 0 < whole) :
    |(ramp start finish part whole : Rat) - line start finish part whole| ≤
      1 / 2 + 1 / 2 ^ 18 := by
  have hexact {n : Nat} (hn : n ≤ 2 ^ 32) : n ≤ 2 ^ 53 := hn.trans (by decide)
  obtain ⟨hlow, hhigh⟩ := slope_between (hexact hstart) (hexact hfinish)
    (progress_nonneg part whole) (progress_le_one hpart hwhole)
  have hnonneg : 0 ≤ slope start finish (progress part whole) := (Nat.cast_nonneg _).trans hlow
  -- The number of users is neither below zero nor too large, so it is the rounded value itself.
  have hbelow : 0 ≤ nearestAway (slope start finish (progress part whole)) := by
    have hmono := nearestAway_mono hnonneg
    rwa [← Nat.cast_zero (R := Rat), nearestAway_natCast] at hmono
  have habove :
      nearestAway (slope start finish (progress part whole)) ≤ (max start finish : Nat) := by
    have hmono := nearestAway_mono hhigh
    rwa [nearestAway_natCast] at hmono
  have hcap : max start finish ≤ mostUsers := (max_le hstart hfinish).trans (by decide)
  have hvalue : (ramp start finish part whole : Int) =
      nearestAway (slope start finish (progress part whole)) := by
    rw [ramp_eq (hexact hstart) (hexact hfinish), wholeUsers, Nat.min_eq_left (by omega),
      Int.toNat_of_nonneg hbelow]
  have hround := nearestAway_error hnonneg
  rw [← hvalue, Int.cast_natCast] at hround
  exact (abs_sub_le _ _ _).trans (add_le_add hround (slope_error hstart hfinish hpart hwhole))

end Ends

/-! ## A schedule -/

/-- A whole number that is less than one from another whole number is that number. -/
theorem eq_of_error {n : Nat} {m : Int} {bound : Rat} (herror : |(n : Rat) - m| ≤ bound)
    (hbound : bound < 1) : (n : Int) = m := by
  have hlt := herror.trans_lt hbound
  rw [abs_lt] at hlt
  have hlow : ((m - 1 : Int) : Rat) < ((n : Int) : Rat) := by
    push_cast
    linarith
  have hhigh : ((n : Int) : Rat) < ((m + 1 : Int) : Rat) := by
    push_cast
    linarith
  have hlow' := Int.cast_lt.1 hlow
  have hhigh' := Int.cast_lt.1 hhigh
  omega

/-- Before the end of a schedule with targets of at most `2 ^ 32` users, every instant lies in
one stage, its look-up does not break off, and the number of users it finds is the one on the
straight line of the stage, up to half a user and a little more for what is rounded on the way.
So it is exactly that number whenever it is whole. -/
theorem targetAt_accurate {stages : List Stage} {startTarget : Nat} {s : Schedule}
    (hmade : make stages startTarget = .ok s) (hstart : startTarget ≤ 2 ^ 32)
    (hstages : ∀ stage ∈ stages, stage.target ≤ 2 ^ 32) {elapsed : Duration}
    (hbefore : elapsed.nanos < s.total.nanos) :
    ∃ i stage n, stages[i]? = some stage ∧
      boundary stages i ≤ elapsed.nanos ∧
      elapsed.nanos < boundary stages i + stage.duration.nanos ∧
      (∀ j, boundary stages j ≤ elapsed.nanos → elapsed.nanos < boundary stages (j + 1) →
        j = i) ∧
      s.targetAt? elapsed = .ok (.active n) ∧ s.targetAt elapsed.nanos = .active n ∧
      |(n : Rat) - line (origin startTarget stages i) stage.target
          (elapsed.nanos - boundary stages i) stage.duration.nanos| ≤ 1 / 2 + 1 / 2 ^ 16 ∧
      ∀ m : Int, line (origin startTarget stages i) stage.target
          (elapsed.nanos - boundary stages i) stage.duration.nanos = m → (n : Int) = m := by
  obtain ⟨rfl, rfl⟩ := make_eq_ok.1 hmade
  rw [total_eq_boundary] at hbefore
  obtain ⟨i, stage, hstage, hbegun, hinside⟩ := exists_stage hbefore
  have hlasts := boundary_succ hstage
  have htarget := targetAt_of_inside hstage hbegun hinside
  have herror := ramp_error (origin_le hstart hstages i)
    (hstages stage (List.mem_of_getElem? hstage))
    (by omega : elapsed.nanos - boundary s.stages i ≤ stage.duration.nanos) (by omega)
  refine ⟨i, stage, _, hstage, hbegun, by omega,
    fun j hj hj' => stage_unique hbegun hinside hj hj', ?_, htarget,
    herror.trans (by norm_num), fun m hm => ?_⟩
  · rw [targetAt?_eq, htarget]
  · rw [hm] at herror
    exact eq_of_error herror (by norm_num)

/-- From a step to the largest number of users down to one over three seconds and a nanosecond:
a third of the way the line is between two whole numbers, and one nanosecond before the end of a
ramp of three users over three nanoseconds it is at a whole one. -/
theorem targetAt_accurate_down :
    ∃ s, make [⟨.zero, 4294967296⟩, ⟨.clamp 3000000001, 1⟩, ⟨.clamp 3, 4⟩] 0 = .ok s ∧
      (∃ n : Nat, s.targetAt 1000000000 = .active n ∧
        |(n : Rat) - line 4294967296 1 1000000000 3000000001| ≤ 1 / 2 + 1 / 2 ^ 16) ∧
      s.targetAt 3000000003 = .active 3 := by
  obtain ⟨s, hstages, hstart⟩ :=
    (exists_schedule [⟨.zero, 4294967296⟩, ⟨.clamp 3000000001, 1⟩, ⟨.clamp 3, 4⟩] 0).2
      ⟨by decide, by decide⟩
  have hmade := make_eq_ok.2 ⟨hstages, hstart⟩
  have htotal : s.total.nanos = 3000000004 := by
    rw [total_eq_boundary, hstages]
    decide
  refine ⟨s, hmade, ?_, ?_⟩
  · have hbefore : (Duration.clamp 1000000000).nanos < s.total.nanos := by
      rw [htotal]
      decide
    obtain ⟨i, stage, n, hstage, -, -, hunique, -, hvalue, herror, -⟩ :=
      targetAt_accurate hmade (by decide) (by decide) hbefore
    obtain rfl := hunique 1 (by decide) (by decide)
    cases hstage
    exact ⟨n, hvalue, herror⟩
  · have hbefore : (Duration.clamp 3000000003).nanos < s.total.nanos := by
      rw [htotal]
      decide
    obtain ⟨i, stage, n, hstage, -, -, hunique, -, hvalue, -, hexact⟩ :=
      targetAt_accurate hmade (by decide) (by decide) hbefore
    obtain rfl := hunique 2 (by decide) (by decide)
    cases hstage
    have hthree : n = 3 := by exact_mod_cast hexact 3 (by decide +kernel)
    exact hthree ▸ hvalue

end Schedule
end LoadRamp
