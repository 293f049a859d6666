import LoadRamp.Proofs.Rounding
import LoadRamp.Report.Print
import Mathlib.Data.List.Basic

/-!
# Averages in a printed table

What the table of request timings shows as an average.

* `Duration.seconds_divide` and `Duration.subsecond_divide`: a division of seconds and
  nanoseconds, with what is carried from the ones to the others.
* `twoDecimals_inj`: a number with two decimals says how many hundredths it has.
* `inMillis_eq_zero` and `text_inMillis_eq_zero`: which durations count as no time, and
  which are shown as none.
* `average_shown` puts them together.

The number of timings has 64 bits, but a duration is divided by numbers of 32 bits only.
From `2 ^ 32` timings on there is no average, and zero is printed instead of it.  That is
the true average only where the true average is printed as zero as well.
-/

namespace LoadRamp

namespace Duration

variable (d : Duration) {n : Nat}

/-- Shared out among fewer than `2 ^ 32`, what is left over fits a word. -/
theorem leftOver_lt (hn : 0 < n) (hsmall : n < 4294967296) :
    d.leftOver n < 18446744073709551616 := by
  have hseconds := Nat.mod_lt d.seconds hn
  have hsubsecond := Nat.mod_lt d.subsecond hn
  unfold leftOver
  omega

/-- What is carried into the nanoseconds does not fill a second. -/
theorem carried_lt (hn : 0 < n) : d.subsecond / n + d.leftOver n / n < 1000000000 := by
  have hshares := d.shares n
  have hwhole := d.seconds_subsecond
  have hpart := d.subsecond_lt
  have hnext : d.nanos / n < (d.seconds / n + 1) * 1000000000 := by
    have hseconds : d.seconds + 1 ≤ (d.seconds / n + 1) * n :=
      Nat.lt_mul_of_div_lt (Nat.lt_succ_self _) hn
    apply Nat.div_lt_of_lt_mul
    calc d.nanos < (d.seconds + 1) * 1000000000 := by omega
      _ ≤ (d.seconds / n + 1) * n * 1000000000 := Nat.mul_le_mul_right _ hseconds
      _ = n * ((d.seconds / n + 1) * 1000000000) := by
        rw [Nat.mul_comm _ n, Nat.mul_assoc]
  omega

theorem seconds_divide (hn : 0 < n) : (d.divide n).seconds = d.seconds / n := by
  have hcarried := d.carried_lt hn
  show (d.seconds / n * 1000000000 + _) / 1000000000 = _
  rw [Nat.mul_comm, Nat.mul_add_div (by decide), Nat.div_eq_of_lt hcarried, Nat.add_zero]

theorem subsecond_divide (hn : 0 < n) :
    (d.divide n).subsecond = d.subsecond / n + d.leftOver n / n := by
  have hcarried := d.carried_lt hn
  show (d.seconds / n * 1000000000 + _) % 1000000000 = _
  exact Nat.mul_add_mod_of_lt hcarried

end Duration

namespace Number
namespace Decimal

/-- What is no digit stands in no number. -/
theorem readFrom?_eq_none {c : Char} (hc : digitValue? c = none) {cs : List Char} (h : c ∈ cs)
    (value : Nat) : readFrom? value cs = none := by
  obtain ⟨front, back, rfl⟩ := List.append_of_mem h
  rw [readFrom?_append]
  cases readFrom? value front with
  | none => rfl
  | some read => simp [readFrom?, hc]

theorem readFrom?_padded (width n : Nat) : readFrom? 0 (padded width n) = some n := by
  have hzeros (k : Nat) : readFrom? 0 (List.replicate k '0') = some 0 := by
    induction k with
    | zero => rfl
    | succ k ih => exact ih
  simp only [padded, readFrom?_append, hzeros, Option.bind_some, readFrom?_digits]

end Decimal
end Number

namespace Report

open Number

/-! ## Numbers with two decimals -/

/-- The hundredths that are written of a number. -/
def hundredths (value : Rat) : Nat := (nearestEven (value * 100)).toNat

theorem toList_twoDecimals (value : Rat) :
    (twoDecimals value).toList =
      Decimal.digits (hundredths value / 100) ++
        '.' :: Decimal.padded 2 (hundredths value % 100) := by
  simp [twoDecimals, hundredths, Decimal.write]

/-- A number with two decimals says how many hundredths it has. -/
theorem twoDecimals_inj {a b : Rat} :
    twoDecimals a = twoDecimals b ↔ hundredths a = hundredths b := by
  constructor
  · intro h
    have hpoint {cs : List Char} {n : Nat} (hread : Decimal.readFrom? 0 cs = some n) :
        '.' ∉ cs := fun hmem => by
      rw [Decimal.readFrom?_eq_none (by decide) hmem] at hread
      cases hread
    have hchars := congrArg String.toList h
    rw [toList_twoDecimals, toList_twoDecimals, List.append_cons_inj_of_notMem
      (hpoint (Decimal.readFrom?_digits _)) (hpoint (Decimal.readFrom?_padded _ _))] at hchars
    obtain ⟨hwhole, -, hpart⟩ := hchars
    have hdigits := Decimal.readFrom?_digits (hundredths a / 100)
    rw [hwhole, Decimal.readFrom?_digits] at hdigits
    have hpadded := Decimal.readFrom?_padded 2 (hundredths a % 100)
    rw [hpart, Decimal.readFrom?_padded] at hpadded
    have hsame := Option.some.inj hdigits
    have hrest := Option.some.inj hpadded
    omega
  · intro h
    apply String.toList_injective
    rw [toList_twoDecimals, toList_twoDecimals, h]

theorem hundredths_mono {a b : Rat} (h : a ≤ b) : hundredths a ≤ hundredths b :=
  Int.toNat_le_toNat (nearestEven_mono (mul_le_mul_of_nonneg_right h (by norm_num)))

/-! ## Durations in milliseconds -/

theorem inMillis_mono {a b : Duration} (h : a.micros ≤ b.micros) : inMillis a ≤ inMillis b := by
  have hmicros : ((a.micros : Nat) : Rat) ≤ (b.micros : Nat) := by exact_mod_cast h
  apply roundSignificand_mono
  exact div_le_div_of_nonneg_right (roundSignificand_mono hmicros) (by norm_num)

/-- Less than a microsecond counts as no time, and nothing else does. -/
theorem inMillis_eq_zero {d : Duration} : inMillis d = 0 ↔ d.nanos < 1000 := by
  have hmicros : d.micros = 0 ↔ d.nanos < 1000 := by
    unfold Duration.micros
    omega
  rw [← hmicros]
  constructor
  · intro h
    by_contra hsome
    have hpos : (0 : Rat) < (d.micros : Nat) := by exact_mod_cast Nat.pos_of_ne_zero hsome
    exact (roundSignificand_pos (div_pos (roundSignificand_pos hpos) (by norm_num))).ne' h
  · intro h
    simp [inMillis, h]

theorem text_zero : twoDecimals 0 = "0.00" := by decide +kernel

/-- Less than five microseconds is shown as no time, and nothing else is. -/
theorem text_inMillis_eq_zero {d : Duration} : twoDecimals (inMillis d) = "0.00" ↔
    d.nanos < 5000 := by
  rw [← text_zero, twoDecimals_inj, show hundredths 0 = 0 by decide +kernel]
  -- Four microseconds have no hundredth, and five have one.
  by_cases hshort : d.nanos < 5000
  · have hle : d.micros ≤ Duration.micros ⟨4000, by decide⟩ := by
      show d.nanos / 1000 ≤ 4
      omega
    have hfour : hundredths (inMillis ⟨4000, by decide⟩) = 0 := by decide +kernel
    exact iff_of_true (Nat.le_zero.1 (hfour ▸ hundredths_mono (inMillis_mono hle))) hshort
  · have hle : Duration.micros ⟨5000, by decide⟩ ≤ d.micros := by
      show 5 ≤ d.nanos / 1000
      omega
    have hfive : hundredths (inMillis ⟨5000, by decide⟩) = 1 := by decide +kernel
    have hone : 1 ≤ hundredths (inMillis d) := hfive ▸ hundredths_mono (inMillis_mono hle)
    exact iff_of_false (by omega) hshort

/-! ## The column of averages -/

theorem average?_eq_some {row : OperationRow} {mean : Duration} : row.average? = some mean ↔
    (0 < row.count ∧ row.count < 4294967296) ∧ row.total.divide row.count = mean := by
  unfold OperationRow.average?
  split <;> simp [*]

theorem average?_eq_none {row : OperationRow} :
    row.average? = none ↔ row.count = 0 ∨ 4294967296 ≤ row.count := by
  unfold OperationRow.average?
  split <;> simp <;> omega

/-- Where there is no average, zero is shown. -/
theorem averageMillis_of_none {row : OperationRow} (h : row.average? = none) :
    averageMillis row = 0 := by
  rw [averageMillis, h]
  rfl

theorem averageMillis_of_some {row : OperationRow} {mean : Duration}
    (h : row.average? = some mean) : averageMillis row = inMillis mean := by
  rw [averageMillis, h]
  rfl

/-- An operation with timings has a true average: its total shared out among them, in whole
nanoseconds.  The average that is printed is the true one as long as the number of timings fits
32 bits, and the division by it does not overflow anywhere.  From there on there is no average, and
the zero in its place is right for less than a microsecond, and looks right for less than five. -/
theorem average_shown (row : OperationRow) (hsome : 0 < row.count) :
    ∃ mean : Duration, mean.nanos = row.total.nanos / row.count ∧
      (row.average? = some mean ↔ row.count < 4294967296) ∧
      (averageMillis row = inMillis mean ↔ row.count < 4294967296 ∨ mean.nanos < 1000) ∧
      ((operationCells row)[1]? = some (twoDecimals (inMillis mean)) ↔
        row.count < 4294967296 ∨ mean.nanos < 5000) ∧
      (4294967296 ≤ row.count →
        row.average? = none ∧ (operationCells row)[1]? = some "0.00") ∧
      (row.count < 4294967296 →
        row.total.leftOver row.count < 18446744073709551616 ∧
        mean.seconds = row.total.seconds / row.count ∧
        mean.subsecond =
          row.total.subsecond / row.count + row.total.leftOver row.count / row.count) := by
  have hcell : (operationCells row)[1]? = some (twoDecimals (averageMillis row)) := rfl
  refine ⟨row.total.divide row.count, row.total.nanos_divide _, ?_⟩
  rw [hcell, Option.some.injEq, Option.some.injEq]
  by_cases hsmall : row.count < 4294967296
  · have haverage := average?_eq_some.2 ⟨⟨hsome, hsmall⟩, rfl⟩
    have hmillis := averageMillis_of_some haverage
    refine ⟨iff_of_true haverage hsmall, iff_of_true hmillis (.inl hsmall),
      iff_of_true (congrArg twoDecimals hmillis) (.inl hsmall), fun hlarge => by omega,
      fun _ => ⟨row.total.leftOver_lt hsome hsmall, ?_, ?_⟩⟩
    · exact row.total.seconds_divide hsome
    · exact row.total.subsecond_divide hsome
  · have hnone := average?_eq_none.2 (.inr (Nat.le_of_not_lt hsmall))
    have hmillis := averageMillis_of_none hnone
    rw [hnone, hmillis, text_zero]
    refine ⟨iff_of_false (Option.some_ne_none _).symm hsmall, ?_, ?_, fun _ => ⟨rfl, rfl⟩,
      fun hlt => absurd hlt hsmall⟩
    · rw [eq_comm, inMillis_eq_zero, or_iff_right hsmall]
    · rw [eq_comm, text_inMillis_eq_zero, or_iff_right hsmall]

/-- Ten seconds shared out among three. -/
theorem average_shown_thirds :
    let row : OperationRow := ⟨"list", 3, 0, ⟨10000000000, by decide⟩, none, none⟩
    0 < row.count ∧ (∃ mean, row.average? = some mean ∧ mean.nanos = 3333333333) ∧
      (operationCells row)[1]? = some "3333.33" := by
  intro row
  have hsome : 0 < row.count := by decide
  obtain ⟨mean, hnanos, haverage, -, hcell, -, -⟩ := average_shown row hsome
  have hmean : mean = ⟨3333333333, by decide⟩ := Duration.ext (hnanos.trans (by decide))
  refine ⟨hsome, ⟨mean, haverage.2 (by decide), by rw [hmean]⟩, ?_⟩
  rw [hcell.2 (.inl (by decide)), hmean]
  decide +kernel

/-- A second each for `2 ^ 32` requests is shown as no time. -/
theorem not_average_shown :
    ¬ ∀ row : OperationRow, 0 < row.count → row.count < 18446744073709551616 →
      ∃ mean : Duration, mean.nanos = row.total.nanos / row.count ∧ row.average? = some mean ∧
        averageMillis row = inMillis mean := by
  intro h
  let row : OperationRow := ⟨"list", 4294967296, 0, ⟨4294967296000000000, by decide⟩,
    some (Duration.ofSeconds 1), some (Duration.ofSeconds 1)⟩
  obtain ⟨mean, -, haverage, -⟩ := h row (by decide) (by decide)
  have hnone : row.average? = none := average?_eq_none.2 (.inr (Nat.le_refl _))
  rw [hnone] at haverage
  cases haverage

end Report
end LoadRamp
