import LoadRamp.Number.Binary64
import Mathlib.Algebra.Order.Field.Power
import Mathlib.Algebra.Order.Field.Rat
import Mathlib.Tactic.FieldSimp
import Mathlib.Tactic.Linarith
import Mathlib.Tactic.NormNum
import Mathlib.Tactic.Positivity
import Mathlib.Tactic.Ring

/-!
# Rounding to 53 significant bits

What arithmetic with rounded results can rely on:

* rounding keeps order (`nearestEven_mono`, `nearestAway_mono`, `roundSignificand_mono`);
* whole numbers up to `2 ^ 53` are exact (`roundSignificand_natCast`);
* a rounded value rounds to itself (`roundSignificand_idem`), and so does one from
  `2 ^ 53` on with less than one added to it (`roundSignificand_add`).

The last one is about values with no room for a fraction: their neighbours are at
least two away.
-/

namespace LoadRamp
namespace Number

/-! ## To the nearest integer -/

theorem nearestEven_bounds (q : Rat) :
    (nearestEven q : Rat) - 1 / 2 ≤ q ∧ q ≤ (nearestEven q : Rat) + 1 / 2 := by
  have hlow := Rat.floor_le q
  have hhigh := Rat.lt_floor_add_one q
  push_cast at hhigh
  unfold nearestEven
  dsimp only
  split
  · constructor <;> linarith
  · split
    · push_cast
      constructor <;> linarith
    · split
      · constructor <;> linarith
      · push_cast
        constructor <;> linarith

theorem nearestEven_mono {a b : Rat} (h : a ≤ b) : nearestEven a ≤ nearestEven b := by
  by_contra hlt
  have hstep : (nearestEven b : Rat) + 1 ≤ nearestEven a := by
    exact_mod_cast (by omega : nearestEven b + 1 ≤ nearestEven a)
  have hlow := (nearestEven_bounds a).1
  have hhigh := (nearestEven_bounds b).2
  -- Both are halfway between the same integers, so they are equal.
  have hsame : a = b := by linarith
  rw [hsame] at hlt
  exact hlt le_rfl

theorem nearestEven_eq {q : Rat} {z : Int} (hlow : (z : Rat) - 1 / 2 < q)
    (hhigh : q < (z : Rat) + 1 / 2) : nearestEven q = z := by
  obtain ⟨hbelow, habove⟩ := nearestEven_bounds q
  have hlt : (nearestEven q : Rat) < ((z + 1 : Int) : Rat) := by
    push_cast
    linarith
  have hgt : ((z - 1 : Int) : Rat) < nearestEven q := by
    push_cast
    linarith
  have hlt' := Int.cast_lt.1 hlt
  have hgt' := Int.cast_lt.1 hgt
  omega

@[simp] theorem nearestEven_intCast (z : Int) : nearestEven z = z :=
  nearestEven_eq (by linarith) (by linarith)

theorem nearestAway_of_nonneg {q : Rat} (hq : 0 ≤ q) : nearestAway q = (q + 1 / 2).floor :=
  if_pos hq

theorem nearestAway_of_neg {q : Rat} (hq : q < 0) : nearestAway q = -((-q + 1 / 2).floor) :=
  if_neg (not_le.2 hq)

theorem nearestAway_mono {a b : Rat} (h : a ≤ b) : nearestAway a ≤ nearestAway b := by
  have hfloor {p q : Rat} (hle : p ≤ q) : (p + 1 / 2).floor ≤ (q + 1 / 2).floor :=
    Rat.le_floor_iff.2 ((Rat.floor_le _).trans (by linarith))
  have hnonneg {q : Rat} (hq : 0 ≤ q) : 0 ≤ (q + 1 / 2).floor :=
    Rat.le_floor_iff.2 (by push_cast; linarith)
  rcases lt_or_ge a 0 with ha | ha
  · rw [nearestAway_of_neg ha]
    rcases lt_or_ge b 0 with hb | hb
    · rw [nearestAway_of_neg hb]
      exact neg_le_neg (hfloor (neg_le_neg h))
    · rw [nearestAway_of_nonneg hb]
      have hbelow := hnonneg (neg_nonneg.2 ha.le)
      have habove := hnonneg hb
      omega
  · rw [nearestAway_of_nonneg ha, nearestAway_of_nonneg (ha.trans h)]
    exact hfloor h

@[simp] theorem nearestAway_natCast (n : Nat) : nearestAway n = n := by
  rw [nearestAway_of_nonneg (Nat.cast_nonneg n)]
  have hlow : (n : Int) ≤ ((n : Rat) + 1 / 2).floor :=
    Rat.le_floor_iff.2 (by push_cast; linarith)
  have hhigh : ((n : Rat) + 1 / 2).floor < (n : Int) + 1 :=
    Rat.floor_lt_iff.2 (by push_cast; linarith)
  omega

/-! ## Powers of two -/

theorem twoTo_eq (e : Int) : twoTo e = (2 : Rat) ^ e := by
  unfold twoTo
  split
  · next h =>
    obtain ⟨n, rfl⟩ := Int.eq_ofNat_of_zero_le h
    simp
  · next h =>
    obtain ⟨n, hn⟩ := Int.eq_ofNat_of_zero_le (by omega : 0 ≤ -e)
    obtain rfl : e = -(n : Int) := by omega
    simp

/-- A positive rational is in the binade of its exponent. -/
theorem binaryExponent_spec {q : Rat} (hq : 0 < q) :
    (2 : Rat) ^ binaryExponent q ≤ q ∧ q < (2 : Rat) ^ (binaryExponent q + 1) := by
  have hnum : q.num.natAbs ≠ 0 := by
    have hpos := Rat.num_pos.2 hq
    omega
  have hcast : ((q.num.natAbs : Nat) : Rat) = q.num := by
    rw [← Int.cast_natCast, Int.natAbs_of_nonneg (Rat.num_pos.2 hq).le]
  have hdenPos : (0 : Rat) < q.den := by exact_mod_cast q.den_pos
  have hmul : q * q.den = q.num := Rat.mul_den_eq_num q
  have hnumLow : (2 : Rat) ^ (q.num.natAbs.log2 : Int) ≤ q.num := by
    rw [← hcast, zpow_natCast]
    exact_mod_cast Nat.log2_self_le hnum
  have hnumHigh : (q.num : Rat) < (2 : Rat) ^ ((q.num.natAbs.log2 : Int) + 1) := by
    rw [← hcast]
    exact_mod_cast Nat.lt_log2_self (n := q.num.natAbs)
  have hdenLow : (2 : Rat) ^ (q.den.log2 : Int) ≤ q.den := by
    rw [zpow_natCast]
    exact_mod_cast Nat.log2_self_le q.den_nz
  have hdenHigh : (q.den : Rat) < (2 : Rat) ^ ((q.den.log2 : Int) + 1) := by
    exact_mod_cast Nat.lt_log2_self (n := q.den)
  -- The guess from the lengths of the two parts is the exponent or one too large.
  have hhigh : q < (2 : Rat) ^ ((q.num.natAbs.log2 : Int) - q.den.log2 + 1) := by
    have hsplit : (2 : Rat) ^ ((q.num.natAbs.log2 : Int) - q.den.log2 + 1) *
        (2 : Rat) ^ (q.den.log2 : Int) = (2 : Rat) ^ ((q.num.natAbs.log2 : Int) + 1) := by
      rw [← zpow_add₀ (by norm_num)]
      congr 1
      ring
    refine lt_of_mul_lt_mul_right ?_ hdenPos.le
    rw [hmul]
    calc (q.num : Rat) < (2 : Rat) ^ ((q.num.natAbs.log2 : Int) + 1) := hnumHigh
      _ = _ := hsplit.symm
      _ ≤ _ := mul_le_mul_of_nonneg_left hdenLow (by positivity)
  have hlow : (2 : Rat) ^ ((q.num.natAbs.log2 : Int) - q.den.log2 - 1) ≤ q := by
    have hsplit : (2 : Rat) ^ ((q.num.natAbs.log2 : Int) - q.den.log2 - 1) *
        (2 : Rat) ^ ((q.den.log2 : Int) + 1) = (2 : Rat) ^ (q.num.natAbs.log2 : Int) := by
      rw [← zpow_add₀ (by norm_num)]
      congr 1
      ring
    refine le_of_mul_le_mul_right ?_ hdenPos
    rw [hmul]
    calc _ ≤ _ := mul_le_mul_of_nonneg_left hdenHigh.le (by positivity)
      _ = (2 : Rat) ^ (q.num.natAbs.log2 : Int) := hsplit
      _ ≤ q.num := hnumLow
  unfold binaryExponent
  dsimp only
  rw [twoTo_eq]
  -- The comparison in the definition decides between the two.
  split
  · next hfits => exact ⟨hfits, hhigh⟩
  · next hfits =>
    refine ⟨hlow, ?_⟩
    rw [sub_add_cancel]
    exact not_le.1 hfits

theorem binaryExponent_eq {q : Rat} {e : Int} (hlow : (2 : Rat) ^ e ≤ q)
    (hhigh : q < (2 : Rat) ^ (e + 1)) : binaryExponent q = e := by
  have hq : 0 < q := lt_of_lt_of_le (by positivity) hlow
  obtain ⟨hlow', hhigh'⟩ := binaryExponent_spec hq
  have hbelow := (zpow_lt_zpow_iff_right₀ (by norm_num)).1 (lt_of_le_of_lt hlow' hhigh)
  have habove := (zpow_lt_zpow_iff_right₀ (by norm_num)).1 (lt_of_le_of_lt hlow hhigh')
  omega

theorem binaryExponent_mono {a b : Rat} (ha : 0 < a) (h : a ≤ b) :
    binaryExponent a ≤ binaryExponent b := by
  have hlow := (binaryExponent_spec ha).1
  have hhigh := (binaryExponent_spec (lt_of_lt_of_le ha h)).2
  have hlt := (zpow_lt_zpow_iff_right₀ (by norm_num)).1 (lt_of_le_of_lt (hlow.trans h) hhigh)
  omega

/-! ## Positive values -/

theorem significandStep_eq (q : Rat) : significandStep q = (2 : Rat) ^ (binaryExponent q - 52) :=
  twoTo_eq _

theorem significandStep_pos (q : Rat) : 0 < significandStep q := by
  rw [significandStep_eq]
  positivity

/-- The number of steps at the ends of a binade. -/
theorem pow_eq_steps (e : Int) (k : Nat) :
    (2 : Rat) ^ (e - 52 + k) = ((2 ^ k : Int) : Rat) * (2 : Rat) ^ (e - 52) := by
  rw [zpow_add₀ (by norm_num), zpow_natCast]
  push_cast
  ring

theorem binade_start (q : Rat) :
    (2 : Rat) ^ binaryExponent q = ((2 ^ 52 : Int) : Rat) * significandStep q := by
  rw [significandStep_eq, ← pow_eq_steps]
  norm_num

theorem binade_end (q : Rat) :
    (2 : Rat) ^ (binaryExponent q + 1) = ((2 ^ 53 : Int) : Rat) * significandStep q := by
  rw [significandStep_eq, ← pow_eq_steps]
  congr 1
  push_cast
  ring

/-- What is a whole number of steps is not rounded. -/
theorem roundToStep_intCast (step : Rat) (hstep : 0 < step) (z : Int) :
    roundToStep step (z * step) = z * step := by
  unfold roundToStep
  rw [mul_div_cancel_right₀ _ hstep.ne', nearestEven_intCast]

theorem roundToStep_mono {step a b : Rat} (hstep : 0 < step) (h : a ≤ b) :
    roundToStep step a ≤ roundToStep step b := by
  have hquot : a / step ≤ b / step := div_le_div_of_nonneg_right h hstep.le
  have hcast : (nearestEven (a / step) : Rat) ≤ nearestEven (b / step) := by
    exact_mod_cast nearestEven_mono hquot
  exact mul_le_mul_of_nonneg_right hcast hstep.le

/-- Rounding does not leave the closed binade. -/
theorem roundToStep_binade {q : Rat} (hq : 0 < q) :
    (2 : Rat) ^ binaryExponent q ≤ roundToStep (significandStep q) q ∧
      roundToStep (significandStep q) q ≤ (2 : Rat) ^ (binaryExponent q + 1) := by
  obtain ⟨hlow, hhigh⟩ := binaryExponent_spec hq
  have hstep := significandStep_pos q
  -- The ends of the binade are whole numbers of steps, so they stay where they are.
  constructor
  · rw [binade_start] at hlow ⊢
    calc _ = roundToStep (significandStep q) _ := (roundToStep_intCast _ hstep _).symm
      _ ≤ _ := roundToStep_mono hstep hlow
  · rw [binade_end] at hhigh ⊢
    calc _ ≤ roundToStep (significandStep q) _ := roundToStep_mono hstep hhigh.le
      _ = _ := roundToStep_intCast _ hstep _

/-! ## All values -/

@[simp] theorem roundSignificand_zero : roundSignificand 0 = 0 := rfl

theorem roundSignificand_of_pos {q : Rat} (hq : 0 < q) :
    roundSignificand q = roundToStep (significandStep q) q := by
  unfold roundSignificand
  rw [if_neg hq.ne', if_pos hq]

theorem roundSignificand_neg (q : Rat) : roundSignificand (-q) = -roundSignificand q := by
  rcases lt_trichotomy q 0 with hneg | rfl | hpos
  · have hpos : 0 < -q := by linarith
    rw [roundSignificand_of_pos hpos]
    unfold roundSignificand
    rw [if_neg hneg.ne, if_neg hneg.not_gt, neg_neg]
  · rw [neg_zero, roundSignificand_zero, neg_zero]
  · rw [roundSignificand_of_pos hpos]
    unfold roundSignificand
    rw [if_neg (by linarith), if_neg (by linarith), neg_neg]

theorem roundSignificand_pos {q : Rat} (hq : 0 < q) : 0 < roundSignificand q := by
  rw [roundSignificand_of_pos hq]
  exact lt_of_lt_of_le (by positivity) (roundToStep_binade hq).1

theorem roundSignificand_mono_of_pos {a b : Rat} (ha : 0 < a) (h : a ≤ b) :
    roundSignificand a ≤ roundSignificand b := by
  have hb : 0 < b := lt_of_lt_of_le ha h
  rw [roundSignificand_of_pos ha, roundSignificand_of_pos hb]
  rcases (binaryExponent_mono ha h).eq_or_lt with hsame | hlater
  · have hstep : significandStep a = significandStep b := by
      rw [significandStep_eq, significandStep_eq, hsame]
    rw [hstep]
    exact roundToStep_mono (significandStep_pos b) h
  · -- The end of the lower binade is not beyond the start of the higher one.
    calc _ ≤ (2 : Rat) ^ (binaryExponent a + 1) := (roundToStep_binade ha).2
      _ ≤ (2 : Rat) ^ binaryExponent b := zpow_le_zpow_right₀ (by norm_num) hlater
      _ ≤ _ := (roundToStep_binade hb).1

/-- Rounding keeps order. -/
theorem roundSignificand_mono {a b : Rat} (h : a ≤ b) :
    roundSignificand a ≤ roundSignificand b := by
  rcases lt_trichotomy a 0 with hneg | rfl | hpos
  · have hround : roundSignificand a < 0 := by
      have hflip := roundSignificand_pos (by linarith : 0 < -a)
      rw [roundSignificand_neg] at hflip
      linarith
    rcases lt_trichotomy b 0 with hbneg | rfl | hbpos
    · have hflip := roundSignificand_mono_of_pos (by linarith : 0 < -b) (neg_le_neg h)
      rw [roundSignificand_neg, roundSignificand_neg] at hflip
      exact neg_le_neg_iff.1 hflip
    · exact hround.le
    · exact hround.le.trans (roundSignificand_pos hbpos).le
  · rcases h.eq_or_lt with rfl | hbpos
    · exact le_rfl
    · exact (roundSignificand_pos hbpos).le
  · exact roundSignificand_mono_of_pos hpos h

theorem roundSignificand_of_steps {q : Rat} (hq : 0 < q) {z : Int}
    (hsteps : q = z * significandStep q) : roundSignificand q = q := by
  have hround := roundToStep_intCast (significandStep q) (significandStep_pos q) z
  rw [← hsteps] at hround
  exact (roundSignificand_of_pos hq).trans hround

/-- Whole numbers up to `2 ^ 53` are exact. -/
theorem roundSignificand_natCast {n : Nat} (h : n ≤ 2 ^ 53) : roundSignificand n = n := by
  rcases Nat.eq_zero_or_pos n with rfl | hpos
  · simp
  have hq : (0 : Rat) < n := by exact_mod_cast hpos
  have hle : binaryExponent n ≤ 53 := by
    have hpow : ((2 ^ 53 : Nat) : Rat) = (2 : Rat) ^ (53 : Int) := by norm_num
    have htop : binaryExponent ((2 ^ 53 : Nat) : Rat) = 53 := by
      rw [hpow]
      exact binaryExponent_eq le_rfl (zpow_lt_zpow_right₀ (by norm_num) (by norm_num))
    rw [← htop]
    exact binaryExponent_mono hq (by exact_mod_cast h)
  rcases hle.eq_or_lt with htop | hbelow
  · -- The only number of the last binade is its first one.
    have hlow := (binaryExponent_spec hq).1
    rw [htop] at hlow
    have hsame : n = 2 ^ 53 := by
      have hge : ((2 ^ 53 : Nat) : Rat) ≤ n := by
        push_cast
        exact_mod_cast hlow
      exact le_antisymm h (by exact_mod_cast hge)
    refine roundSignificand_of_steps (z := 2 ^ 52) hq ?_
    rw [significandStep_eq, htop, hsame]
    norm_num
  · obtain ⟨k, hk⟩ := Int.eq_ofNat_of_zero_le (by omega : 0 ≤ 52 - binaryExponent n)
    refine roundSignificand_of_steps (z := n * 2 ^ k) hq ?_
    have hexponent : binaryExponent (n : Rat) - 52 = -(k : Int) := by omega
    rw [significandStep_eq, hexponent, zpow_neg, zpow_natCast]
    push_cast
    field_simp

theorem roundSignificand_intCast {z : Int} (h : z.natAbs ≤ 2 ^ 53) : roundSignificand z = z := by
  rcases Int.natAbs_eq z with hz | hz
  · rw [hz, Int.cast_natCast]
    exact roundSignificand_natCast h
  · rw [hz, Int.cast_neg, Int.cast_natCast, roundSignificand_neg, roundSignificand_natCast h]

/-- A rounded value is a whole number of its own steps. -/
theorem exists_steps {q : Rat} (hq : 0 < q) :
    ∃ z : Int, roundSignificand q = z * significandStep (roundSignificand q) := by
  have hround := roundSignificand_of_pos hq
  obtain ⟨hlow, hhigh⟩ := roundToStep_binade hq
  rw [← hround] at hlow hhigh
  -- Its own steps are those of `q` unless rounding went up to the next binade.
  rcases hhigh.eq_or_lt with hend | hinside
  · -- It is the start of the next binade.
    have hexponent : binaryExponent (roundSignificand q) = binaryExponent q + 1 :=
      binaryExponent_eq hend.ge (hend ▸ zpow_lt_zpow_right₀ (by norm_num) (by omega))
    refine ⟨2 ^ 52, ?_⟩
    rw [← binade_start, hexponent]
    exact hend
  · have hexponent : binaryExponent (roundSignificand q) = binaryExponent q :=
      binaryExponent_eq hlow hinside
    have hstep : significandStep (roundSignificand q) = significandStep q := by
      rw [significandStep_eq, significandStep_eq, hexponent]
    refine ⟨nearestEven (q / significandStep q), ?_⟩
    rw [hstep]
    exact hround

/-- A rounded value rounds to itself. -/
theorem roundSignificand_idem (q : Rat) :
    roundSignificand (roundSignificand q) = roundSignificand q := by
  have hpositive {q : Rat} (hq : 0 < q) :
      roundSignificand (roundSignificand q) = roundSignificand q := by
    obtain ⟨z, hz⟩ := exists_steps hq
    exact roundSignificand_of_steps (roundSignificand_pos hq) hz
  rcases lt_trichotomy q 0 with hneg | rfl | hpos
  · have hflip := hpositive (by linarith : 0 < -q)
    rw [roundSignificand_neg, roundSignificand_neg] at hflip
    exact neg_injective hflip
  · rfl
  · exact hpositive hpos

/-- From `2 ^ 53` on a rounded value has no room for a fraction. -/
theorem roundSignificand_add {q f : Rat} (hq : 2 ^ 53 ≤ roundSignificand q) (hf : 0 ≤ f)
    (hf' : f < 1) : roundSignificand (roundSignificand q + f) = roundSignificand q := by
  have hpos : 0 < q := by
    -- Rounding keeps the sign.
    by_contra hneg
    have hround := roundSignificand_mono (not_lt.1 hneg)
    rw [roundSignificand_zero] at hround
    linarith
  obtain ⟨z, hz⟩ := exists_steps hpos
  have hroundPos : 0 < roundSignificand q := by linarith
  generalize roundSignificand q = a at hq hz hroundPos ⊢
  obtain ⟨hlow, hhigh⟩ := binaryExponent_spec hroundPos
  have hstepPos := significandStep_pos a
  have hexponent : 53 ≤ binaryExponent a := by
    have hlt : (2 : Rat) ^ (53 : Int) < (2 : Rat) ^ (binaryExponent a + 1) :=
      lt_of_le_of_lt (by exact_mod_cast hq) hhigh
    have hlt' := (zpow_lt_zpow_iff_right₀ (by norm_num)).1 hlt
    omega
  -- The next neighbour is at least two away, in the same binade or at its end.
  have hstep : 2 ≤ significandStep a := by
    rw [significandStep_eq]
    calc (2 : Rat) = (2 : Rat) ^ (1 : Int) := (zpow_one _).symm
      _ ≤ _ := zpow_le_zpow_right₀ (by norm_num) (by omega)
  have hinside : a + f < (2 : Rat) ^ (binaryExponent a + 1) := by
    rw [binade_end] at hhigh ⊢
    have hsteps : (z : Rat) < ((2 ^ 53 : Int) : Rat) := by
      refine lt_of_mul_lt_mul_right ?_ hstepPos.le
      rw [← hz]
      exact hhigh
    have hnext : (z : Rat) + 1 ≤ ((2 ^ 53 : Int) : Rat) := by
      exact_mod_cast Int.add_one_le_of_lt (Int.cast_lt.1 hsteps)
    calc a + f < a + significandStep a := by linarith
      _ = ((z : Rat) + 1) * significandStep a := by rw [add_mul, one_mul, ← hz]
      _ ≤ _ := mul_le_mul_of_nonneg_right hnext hstepPos.le
  have hsame : significandStep (a + f) = significandStep a := by
    rw [significandStep_eq, significandStep_eq,
      binaryExponent_eq (hlow.trans (by linarith)) hinside]
  have hquot : (a + f) / significandStep a = z + f / significandStep a := by
    rw [add_div]
    congr 1
    exact (div_eq_iff hstepPos.ne').2 hz
  have hsmall : f / significandStep a < 1 / 2 := by
    rw [div_lt_iff₀ hstepPos]
    linarith
  have hnonneg : 0 ≤ f / significandStep a := div_nonneg hf hstepPos.le
  have hnearest : nearestEven ((a + f) / significandStep a) = z := by
    rw [hquot]
    exact nearestEven_eq (by linarith) (by linarith)
  rw [roundSignificand_of_pos (by linarith), hsame, roundToStep, hnearest]
  exact hz.symm

end Number
end LoadRamp
