import LoadRamp.Proofs.Table
import Mathlib.Data.List.Induction

/-!
# What timings add up to

The table of operations of a ledger is gathered from the timings of finished
requests, in the order in which they come.

* `Measurement` is a finished timing without its id, and `Timing.entry?` finds it.
* `foldl_measure` says what some measurements add up to: their number, the errors
  among them, the sum of their durations, and the shortest and the longest of
  those that are no errors.
* The order of the measurements does not matter (`foldl_measure_perm`), and so
  neither does that of the timings in a table (`gathered_perm`).

A total that does not fit into a duration loses what overflows, so all of this is
about measurements whose durations have a sum that fits.
-/

namespace LoadRamp

/-- How long a request took, and whether it failed. -/
structure Measurement where
  elapsed : Duration
  isError : Bool

/-- The id of a timing and what was measured, if the request is over. -/
def Timing.entry? (t : Timing) : Option (String × Measurement) :=
  t.elapsed?.map fun elapsed => (t.id, ⟨elapsed, t.isError⟩)

/-- The sum of the durations of some measurements, in nanoseconds. -/
def Measurement.total (ms : List Measurement) : Nat := (ms.map fun m => m.elapsed.nanos).sum

/-- The nanoseconds of the measurements that are no errors. -/
def Measurement.range (ms : List Measurement) : List Nat :=
  (ms.filter fun m => !m.isError).map fun m => m.elapsed.nanos

/-- The smallest of some numbers and one more. -/
theorem min?_concat (l : List Nat) (n : Nat) :
    (l ++ [n]).min? = some (l.min?.elim n (min n)) := by
  cases l with
  | nil => rfl
  | cons first rest =>
    rw [List.cons_append, List.min?_cons', List.min?_cons', List.foldl_append, Option.elim_some,
      Nat.min_comm]
    rfl

/-- The largest of some numbers and one more. -/
theorem max?_concat (l : List Nat) (n : Nat) :
    (l ++ [n]).max? = some (l.max?.elim n (max n)) := by
  cases l with
  | nil => rfl
  | cons first rest =>
    rw [List.cons_append, List.max?_cons', List.max?_cons', List.foldl_append, Option.elim_some,
      Nat.max_comm]
    rfl

theorem min?_perm {l l' : List Nat} (h : l.Perm l') : l.min? = l'.min? :=
  Option.ext fun n => by simp only [List.min?_eq_some_iff, h.mem_iff]

theorem max?_perm {l l' : List Nat} (h : l.Perm l') : l.max? = l'.max? :=
  Option.ext fun n => by simp only [List.max?_eq_some_iff, h.mem_iff]

namespace OperationCount

/-- A count with one more measurement. -/
def measure (o : OperationCount) (m : Measurement) : OperationCount := o.add m.elapsed m.isError

/-- Every measurement is counted, also one that does not fit. -/
theorem count_measure (o : OperationCount) (m : Measurement) :
    (o.measure m).count = o.count + 1 := by
  unfold measure add
  split
  · rfl
  · split <;> rfl

theorem nanos_shorter (elapsed : Duration) (other? : Option Duration) :
    (shorter elapsed other?).nanos =
      (other?.map Duration.nanos).elim elapsed.nanos (min elapsed.nanos) := by
  cases other? with
  | none => rfl
  | some other =>
    simp only [shorter, Option.map_some, Option.elim_some]
    split <;> omega

theorem nanos_longer (elapsed : Duration) (other? : Option Duration) :
    (longer elapsed other?).nanos =
      (other?.map Duration.nanos).elim elapsed.nanos (max elapsed.nanos) := by
  cases other? with
  | none => rfl
  | some other =>
    simp only [longer, Option.map_some, Option.elim_some]
    split <;> omega

/-- What a count says of the measurements it was made from. -/
structure Measures (ms : List Measurement) (o : OperationCount) : Prop where
  count_eq : o.count = ms.length
  errors_eq : o.errors = ms.countP Measurement.isError
  total_eq : o.total.nanos = Measurement.total ms
  least_eq : o.least?.map Duration.nanos = (Measurement.range ms).min?
  most_eq : o.most?.map Duration.nanos = (Measurement.range ms).max?

/-- One more measurement, as long as the total fits. -/
theorem Measures.concat {ms : List Measurement} {o : OperationCount} (h : Measures ms o)
    {m : Measurement} (hfits : Measurement.total (ms ++ [m]) < Duration.limit) :
    Measures (ms ++ [m]) (o.measure m) := by
  have htotal : Measurement.total (ms ++ [m]) = o.total.nanos + m.elapsed.nanos := by
    rw [h.total_eq]
    simp [Measurement.total]
  obtain ⟨total, hsum⟩ : ∃ total, o.total.add? m.elapsed = some total :=
    ⟨⟨_, htotal ▸ hfits⟩, Duration.add?_eq_some.2 rfl⟩
  have hnanos : total.nanos = Measurement.total (ms ++ [m]) :=
    (Duration.add?_eq_some.1 hsum).symm.trans htotal.symm
  have hrange : Measurement.range (ms ++ [m]) =
      Measurement.range ms ++ if m.isError then [] else [m.elapsed.nanos] := by
    cases herror : m.isError <;> simp [Measurement.range, herror]
  unfold measure add
  rw [hsum]
  dsimp only
  cases herror : m.isError with
  | true =>
    rw [herror, if_pos rfl, List.append_nil] at hrange
    refine ⟨?_, ?_, hnanos, ?_, ?_⟩
    · simp [h.count_eq]
    · simp [h.errors_eq, herror]
    · rw [hrange]
      exact h.least_eq
    · rw [hrange]
      exact h.most_eq
  | false =>
    rw [herror, if_neg Bool.false_ne_true] at hrange
    refine ⟨?_, ?_, hnanos, ?_, ?_⟩
    · simp [h.count_eq]
    · simp [h.errors_eq, herror]
    · rw [hrange, min?_concat, ← h.least_eq, ← nanos_shorter]
      rfl
    · rw [hrange, max?_concat, ← h.most_eq, ← nanos_longer]
      rfl

/-- What some measurements add up to, if the sum of their durations fits. -/
theorem foldl_measure (ms : List Measurement) (hfits : Measurement.total ms < Duration.limit) :
    Measures ms (ms.foldl measure {}) := by
  -- Induction from the last measurement, since a count is made from the first one on.
  induction ms using List.reverseRecOn with
  | nil => exact ⟨rfl, rfl, rfl, rfl, rfl⟩
  | append_singleton before last ih =>
    have hbefore : Measurement.total before < Duration.limit := by
      simp only [Measurement.total, List.map_append, List.sum_append] at hfits ⊢
      omega
    rw [List.foldl_append]
    exact (ih hbefore).concat hfits

/-- What is measured says what the count is. -/
theorem Measures.unique {ms : List Measurement} {o o' : OperationCount} (h : Measures ms o)
    (h' : Measures ms o') : o = o' := by
  have hinjective : Function.Injective Duration.nanos := fun _ _ => Duration.ext
  have hcount := h.count_eq.trans h'.count_eq.symm
  have herrors := h.errors_eq.trans h'.errors_eq.symm
  have htotal := Duration.ext (h.total_eq.trans h'.total_eq.symm)
  have hleast := Option.map_injective hinjective (h.least_eq.trans h'.least_eq.symm)
  have hmost := Option.map_injective hinjective (h.most_eq.trans h'.most_eq.symm)
  cases o
  cases o'
  simp_all

/-- The order of measurements does not matter. -/
theorem foldl_measure_perm {ms ms' : List Measurement} (h : ms.Perm ms')
    (hfits : Measurement.total ms < Duration.limit) :
    ms'.foldl measure {} = ms.foldl measure {} := by
  have htotal : Measurement.total ms' = Measurement.total ms := (h.map _).sum_nat.symm
  have hrange : (Measurement.range ms').Perm (Measurement.range ms) := ((h.filter _).map _).symm
  have hmeasures := foldl_measure ms' (htotal ▸ hfits)
  have hsame : Measures ms (ms'.foldl measure {}) := by
    refine ⟨?_, ?_, ?_, ?_, ?_⟩
    · rw [hmeasures.count_eq, h.length_eq]
    · rw [hmeasures.errors_eq, h.countP_eq]
    · rw [hmeasures.total_eq, htotal]
    · rw [hmeasures.least_eq, min?_perm hrange]
    · rw [hmeasures.most_eq, max?_perm hrange]
  exact hsame.unique (foldl_measure ms hfits)

end OperationCount

namespace Ledger

open Ordered

/-- The table of operations with one more finished timing. -/
def addMeasurement : List (String × OperationCount) → String × Measurement →
    List (String × OperationCount) :=
  gather textBefore {} OperationCount.measure

/-- A timing changes the operations only, and only once its request is over. -/
theorem record_eq (l : Ledger) (t : Timing) :
    l.record t =
      { l with operations := t.entry?.toList.foldl addMeasurement l.operations } := by
  unfold record Timing.entry?
  cases t.elapsed? <;> rfl

/-- Timings make the same table in any order, if no total overflows. -/
theorem gathered_perm {entries entries' : List (String × Measurement)}
    (h : entries.Perm entries')
    (hfits : ∀ id, Measurement.total (valuesAt id entries) < Duration.limit) :
    entries'.foldl addMeasurement [] = entries.foldl addMeasurement [] := by
  refine (ascending_foldl_gather strict_textBefore .nil entries').eq_of_find? strict_textBefore
    (ascending_foldl_gather strict_textBefore .nil entries) fun id => ?_
  have hvalues : (valuesAt id entries).Perm (valuesAt id entries') := (h.filter _).map _
  rw [addMeasurement, find?_gathered strict_textBefore, find?_gathered strict_textBefore,
    OperationCount.foldl_measure_perm hvalues (hfits id)]
  simp only [(h.map Prod.fst).mem_iff]

end Ledger
end LoadRamp
