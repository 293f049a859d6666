import LoadRamp.Proofs.Totals
import Mathlib.Algebra.Group.Action.Defs
import Mathlib.Algebra.Order.BigOperators.Group.List
import Mathlib.Algebra.Order.Ring.Nat

/-!
# The rows of operations

A report has one row for each operation with a finished timing.

* `OperationRow.SumsUp` is what a row says of the measurements it was made from.
  Errors count in the number and in the total, but not in the range, so the range
  can be missing, and the average can lie outside it.
* `average?_spec` is about the division: what is lost of a total is less than a
  nanosecond for each measurement.
* `operations_add_up` finds such a row at every id, whatever was done with the
  ledger in between and in whatever order.

A total that does not fit into a duration ends the program that adds it up, so the
theorem is about timings whose totals fit; the last clause says that then all of
them were taken.
-/

namespace LoadRamp

namespace Measurement

variable {ms : List Measurement}

/-- A range is empty exactly when every measurement is an error. -/
theorem range_eq_nil : range ms = [] ↔ ms.countP isError = ms.length := by
  rw [range, List.map_eq_nil_iff, List.filter_eq_nil_iff, List.countP_eq_length]
  simp only [Bool.not_eq_true', Bool.not_eq_false]

theorem range_eq_map (hnone : ms.countP isError = 0) :
    range ms = ms.map fun m => m.elapsed.nanos := by
  have hall : ms.filter (fun m => !m.isError) = ms := by
    refine List.filter_eq_self.2 fun m hm => ?_
    simpa using List.countP_eq_zero.1 hnone m hm
  rw [range, hall]

/-- Without errors a total is at least as long as if all measurements were as short as the
shortest, and at most as long as if all were as long as the longest. -/
theorem total_between (hnone : ms.countP isError = 0) {least most : Nat}
    (hleast : (range ms).min? = some least) (hmost : (range ms).max? = some most) :
    ms.length * least ≤ total ms ∧ total ms ≤ ms.length * most := by
  rw [range_eq_map hnone] at hleast hmost
  have hlower := List.card_nsmul_le_sum _ least (List.min?_eq_some_iff.1 hleast).2
  have hupper := List.sum_le_card_nsmul _ most (List.max?_eq_some_iff.1 hmost).2
  rw [List.length_map, smul_eq_mul] at hlower hupper
  exact ⟨hlower, hupper⟩

end Measurement

namespace OperationRow

/-- The average of a row that has a count, and how much of the total it leaves out. -/
theorem average?_spec {row : OperationRow} (hsome : 0 < row.count)
    (hsmall : row.count < 4294967296) : ∃ average, row.average? = some average ∧
      average.nanos = row.total.nanos / row.count ∧
      average.nanos * row.count ≤ row.total.nanos ∧
      row.total.nanos < average.nanos * row.count + row.count := by
  refine ⟨row.total.divide row.count, if_pos ⟨hsome, hsmall⟩, row.total.nanos_divide _, ?_⟩
  rw [row.total.nanos_divide]
  exact ⟨Nat.div_mul_le_self _ _, Nat.lt_div_mul_add hsome⟩

/-- What a row says of the measurements it was made from. -/
structure SumsUp (ms : List Measurement) (row : OperationRow) : Prop where
  count_eq : row.count = ms.length
  errors_eq : row.errors = ms.countP Measurement.isError
  total_eq : row.total.nanos = Measurement.total ms
  least_eq : row.least?.map Duration.nanos = (Measurement.range ms).min?
  most_eq : row.most?.map Duration.nanos = (Measurement.range ms).max?
  /-- There is no range exactly when everything is an error. -/
  least_none : row.least? = none ↔ row.errors = row.count
  most_none : row.most? = none ↔ row.errors = row.count
  /-- The average times the count is the total but for less than a nanosecond each. -/
  average_near : row.count < 4294967296 → ∃ average, row.average? = some average ∧
    average.nanos * row.count ≤ row.total.nanos ∧
    row.total.nanos < average.nanos * row.count + row.count
  /-- Without errors the average lies in the range. -/
  average_between : row.count < 4294967296 → row.errors = 0 → ∃ least average most,
    row.least? = some least ∧ row.average? = some average ∧ row.most? = some most ∧
    least.nanos ≤ average.nanos ∧ average.nanos ≤ most.nanos

/-- A count of some measurements, written as a row, sums them up. -/
theorem sumsUp_of_measures {ms : List Measurement} {o : OperationCount} (id : String)
    (h : o.Measures ms) (hms : ms ≠ []) :
    SumsUp ms ⟨id, o.count, o.errors, o.total, o.least?, o.most?⟩ := by
  have hsome : 0 < o.count := h.count_eq ▸ List.length_pos_of_ne_nil hms
  have hrange : o.errors = o.count ↔ Measurement.range ms = [] := by
    rw [h.errors_eq, h.count_eq, Measurement.range_eq_nil]
  have hleast : o.least? = none ↔ o.errors = o.count := by
    rw [hrange, ← List.min?_eq_none_iff, ← h.least_eq, Option.map_eq_none_iff]
  have hmost : o.most? = none ↔ o.errors = o.count := by
    rw [hrange, ← List.max?_eq_none_iff, ← h.most_eq, Option.map_eq_none_iff]
  refine ⟨h.count_eq, h.errors_eq, h.total_eq, h.least_eq, h.most_eq, hleast, hmost,
    fun hsmall => ?_, fun hsmall hnone => ?_⟩
  · obtain ⟨average, haverage, -, hnear⟩ := average?_spec hsome hsmall
    exact ⟨average, haverage, hnear⟩
  · obtain ⟨average, haverage, hnanos, -⟩ := average?_spec hsome hsmall
    have hne : ¬ o.errors = o.count := fun hsame => Nat.ne_of_gt hsome (hsame ▸ hnone)
    obtain ⟨least, hshort⟩ := Option.ne_none_iff_exists'.1 (mt hleast.1 hne)
    obtain ⟨most, hlong⟩ := Option.ne_none_iff_exists'.1 (mt hmost.1 hne)
    have hmin := h.least_eq
    have hmax := h.most_eq
    rw [hshort] at hmin
    rw [hlong] at hmax
    obtain ⟨hlower, hupper⟩ :=
      Measurement.total_between (h.errors_eq ▸ hnone) hmin.symm hmax.symm
    rw [← h.total_eq, ← h.count_eq] at hlower hupper
    refine ⟨least, average, most, hshort, haverage, hlong, ?_, ?_⟩
    · rw [hnanos, Nat.le_div_iff_mul_le hsome, Nat.mul_comm]
      exact hlower
    · rw [hnanos]
      exact Nat.div_le_of_le_mul hupper

end OperationRow

namespace Ledger

open Ordered

/-- Whether an act is the timing of a request that is still under way. -/
def Act.isUnfinished : Act → Bool
  | .record timing => timing.elapsed?.isNone
  | _ => false

/-- The measurements at one id are some of all. -/
theorem total_valuesAt_le (id : String) (timings : List (String × Measurement)) :
    Measurement.total (valuesAt id timings) ≤ Measurement.total (timings.map Prod.snd) :=
  (((List.filter_sublist).map Prod.snd).map _).sum_le_sum fun _ _ => Nat.zero_le _

section Rows

variable (acts : List Act)

theorem ascending_operations : Ascending textBefore (performAll empty acts).operations := by
  rw [operations_performAll]
  exact ascending_foldl_gather strict_textBefore .nil (entries acts)

/-- What is counted at an id, if anything is: the measurements at it, one after the other. -/
theorem find?_operations (id : String) :
    find? id (performAll empty acts).operations =
      if id ∈ (entries acts).map Prod.fst then
        some ((valuesAt id (entries acts)).foldl OperationCount.measure {})
      else none := by
  rw [operations_performAll]
  exact find?_gathered strict_textBefore (entries acts) id

/-- A row of a report is an entry of the table of operations. -/
theorem mem_report_operations {l : Ledger} {row : OperationRow} :
    row ∈ l.report.operations ↔
      (row.id, (⟨row.count, row.errors, row.total, row.least?, row.most?⟩ : OperationCount)) ∈
        l.operations := by
  constructor
  · intro hrow
    obtain ⟨⟨id, count⟩, hentry, rfl⟩ := List.mem_map.1 hrow
    exact hentry
  · exact fun hentry => List.mem_map.2 ⟨_, hentry, rfl⟩

/-- Timings of requests under way leave a ledger as it is. -/
theorem performAll_filter_unfinished (l : Ledger) :
    performAll l (acts.filter fun act => !act.isUnfinished) = performAll l acts := by
  induction acts generalizing l with
  | nil => rfl
  | cons act rest ih =>
    cases hunfinished : act.isUnfinished with
    | false =>
      rw [List.filter_cons_of_pos (by simp [hunfinished]), performAll_cons, performAll_cons, ih]
    | true =>
      have hsame : l.perform act = l := by
        cases act with
        | record timing =>
          rw [Act.isUnfinished, Option.isNone_iff_eq_none] at hunfinished
          rw [perform, record, hunfinished]
        | commit | drop | discard | copy | close => cases hunfinished
      rw [List.filter_cons_of_neg (by simp [hunfinished]), performAll_cons, hsame, ih]

variable {acts} (hfits : ∀ id, Measurement.total (valuesAt id (entries acts)) < Duration.limit)

include hfits

/-- What is counted at any id, also at one that was not measured. -/
theorem measures_operations (id : String) :
    OperationCount.Measures (valuesAt id (entries acts))
      ((find? id (performAll empty acts).operations).getD {}) := by
  have hmeasures := OperationCount.foldl_measure _ (hfits id)
  rw [find?_operations]
  split
  · exact hmeasures
  · next habsent =>
    rw [valuesAt_eq_nil.2 habsent] at hmeasures ⊢
    exact hmeasures

theorem sumsUp_row {row : OperationRow} (hrow : row ∈ (performAll empty acts).report.operations) :
    row.SumsUp (valuesAt row.id (entries acts)) := by
  have hentry := (ascending_operations acts).mem_iff_find? strict_textBefore |>.1
    (mem_report_operations.1 hrow)
  have hmeasures := measures_operations hfits row.id
  rw [hentry] at hmeasures
  refine OperationRow.sumsUp_of_measures row.id hmeasures fun hnil => ?_
  rw [find?_operations, if_neg (valuesAt_eq_nil.1 hnil)] at hentry
  cases hentry

/-- Every timing is taken: its total fits, since it is part of one that does. -/
theorem recordNotice?_ne_overflow {before after : List Act} {timing : Timing}
    (hacts : acts = before ++ .record timing :: after) :
    (performAll empty before).recordNotice? timing ≠ some .overflow := by
  cases helapsed : timing.elapsed? with
  | none => simp [recordNotice?, helapsed]
  | some elapsed =>
    have hentries : entries acts =
        entries before ++ (timing.id, ⟨elapsed, timing.isError⟩) :: entries after := by
      have hentry : Act.entry? (.record timing) = some (timing.id, ⟨elapsed, timing.isError⟩) := by
        simp only [helapsed, Act.entry?, Timing.entry?, Option.map_some]
      rw [hacts, entries, List.filterMap_append, List.filterMap_cons, hentry]
      rfl
    have hparts (id : String) : Measurement.total (valuesAt id (entries acts)) =
        Measurement.total (valuesAt id (entries before)) + Measurement.total
          (valuesAt id ((timing.id, ⟨elapsed, timing.isError⟩) :: entries after)) := by
      rw [hentries, valuesAt_append, Measurement.total, List.map_append, List.sum_append]
      rfl
    have hbefore (id : String) :
        Measurement.total (valuesAt id (entries before)) < Duration.limit :=
      Nat.lt_of_le_of_lt (hparts id ▸ Nat.le_add_right _ _) (hfits id)
    have htotal := (measures_operations hbefore timing.id).total_eq
    have hall := hparts timing.id ▸ hfits timing.id
    have hhead : elapsed.nanos ≤ Measurement.total
        (valuesAt timing.id ((timing.id, ⟨elapsed, timing.isError⟩) :: entries after)) := by
      simp [valuesAt, Measurement.total]
    have hadd : ¬ (((find? timing.id (performAll empty before).operations).getD {}).total.add?
        elapsed).isNone = true := by
      rw [Option.isNone_iff_eq_none, Duration.add?_eq_none, htotal]
      omega
    simp only [recordNotice?, helapsed]
    rw [if_neg hadd]
    exact (Option.some_ne_none _).symm

end Rows

/-- Timings are added up exactly, id by id.  Whatever the acts on a ledger were, as long as no
total of an id is too long for a duration:

* there is one row for each id with a finished timing, and it sums up the measurements at its id;
* the rows ascend strictly, in the order of the bytes of their ids;
* the order of the acts does not matter, and timings of requests under way change nothing;
* every timing is taken, whenever it comes. -/
theorem operations_add_up (acts : List Act)
    (hfits : ∀ id, Measurement.total (valuesAt id (entries acts)) < Duration.limit) :
    let rows := (performAll empty acts).report.operations
    (∀ id, (∃ row ∈ rows, row.id = id) ↔ ∃ entry ∈ entries acts, entry.1 = id) ∧
      (∀ row ∈ rows, row.SumsUp (valuesAt row.id (entries acts))) ∧
      rows.Pairwise (fun a b => Text.Utf8.encode a.id < Text.Utf8.encode b.id) ∧
      (∀ other, acts.Perm other → (performAll empty other).report.operations = rows) ∧
      performAll empty (acts.filter fun act => !act.isUnfinished) = performAll empty acts ∧
      ∀ before timing after, acts = before ++ .record timing :: after →
        (performAll empty before).recordNotice? timing ≠ some .overflow := by
  intro rows
  refine ⟨fun id => ?_, fun row hrow => sumsUp_row hfits hrow, ?_,
    fun other hperm => operations_perm hperm hfits, performAll_filter_unfinished acts empty,
    fun before timing after hacts => recordNotice?_ne_overflow hfits hacts⟩
  · have hids : rows.map OperationRow.id = (performAll empty acts).operations.map Prod.fst :=
      List.map_map
    have hfound := find?_operations acts id
    rw [← List.mem_map, ← List.mem_map, hids, ← Decidable.not_iff_not, ← find?_eq_none, hfound]
    split <;> simp_all
  · refine List.pairwise_map.2 ((ascending_operations acts).imp fun {a b} hab => ?_)
    exact Text.Utf8.encode_lt_encode_iff.2 (of_decide_eq_true hab)

/-- Three requests of one operation, one of them an error, a request of another operation that
fails and one of a third operation that is under way. -/
theorem operations_add_up_mixed :
    let acts : List Act :=
      [.record ⟨"GET /book", some (Duration.ofMillis 30), false⟩,
        .record ⟨"GET /author", none, false⟩,
        .record ⟨"GET /book", some (Duration.ofSeconds 5), true⟩, .copy,
        .record ⟨"GET /about", some (Duration.ofSeconds 1), true⟩,
        .record ⟨"GET /book", some (Duration.ofMillis 11), false⟩]
    let rows := (performAll empty acts).report.operations
    (∀ id, Measurement.total (valuesAt id (entries acts)) < Duration.limit) ∧
      (∃ row ∈ rows, row.id = "GET /book" ∧ row.count = 3 ∧ row.errors = 1 ∧
        row.total.nanos = 5041000000 ∧ row.least?.map Duration.nanos = some 11000000 ∧
        row.most?.map Duration.nanos = some 30000000 ∧
        ∃ average, row.average? = some average ∧ average.nanos * 3 ≤ 5041000000 ∧
          5041000000 < average.nanos * 3 + 3) ∧
      (∃ row ∈ rows, row.id = "GET /about" ∧ row.least? = none) ∧
      (¬ ∃ row ∈ rows, row.id = "GET /author") ∧
      (performAll empty acts.reverse).report.operations = rows := by
  intro acts rows
  have hfits (id : String) : Measurement.total (valuesAt id (entries acts)) < Duration.limit :=
    Nat.lt_of_le_of_lt (total_valuesAt_le id (entries acts)) (by decide +kernel)
  obtain ⟨hids, hsums, -, horder, -⟩ := operations_add_up acts hfits
  refine ⟨hfits, ?_, ?_, ?_, horder _ (List.reverse_perm acts).symm⟩
  · obtain ⟨row, hrow, hid⟩ := (hids "GET /book").2 ⟨_, List.mem_cons_self, rfl⟩
    have hsum := hsums row hrow
    rw [hid] at hsum
    have hcount : row.count = 3 := hsum.count_eq.trans (by decide)
    have htotal : row.total.nanos = 5041000000 := hsum.total_eq.trans (by decide +kernel)
    have haverage := hsum.average_near (hcount ▸ by decide)
    rw [hcount, htotal] at haverage
    exact ⟨row, hrow, hid, hcount, hsum.errors_eq.trans (by decide), htotal,
      hsum.least_eq.trans (by decide +kernel), hsum.most_eq.trans (by decide +kernel), haverage⟩
  · obtain ⟨row, hrow, hid⟩ := (hids "GET /about").2
      ⟨("GET /about", ⟨Duration.ofSeconds 1, true⟩), by
        simp [acts, entries, Act.entry?, Timing.entry?], rfl⟩
    have hsum := hsums row hrow
    rw [hid] at hsum
    refine ⟨row, hrow, hid, hsum.least_none.2 ?_⟩
    exact hsum.errors_eq.trans (hsum.count_eq.trans (by decide)).symm
  · rw [hids]
    rintro ⟨entry, hentry, hid⟩
    simp [acts, entries, Act.entry?, Timing.entry?] at hentry
    rcases hentry with rfl | rfl | rfl | rfl <;> simp at hid

end Ledger
end LoadRamp
