import LoadRamp.Proofs.Checks
import LoadRamp.Proofs.Octets
import LoadRamp.Proofs.Timings

/-!
# What a report adds up

A ledger has what was handed in, in whatever way and order: the theorems here are
about every list of acts on it.

* `report_adds_up` is about a ledger that is open.  Each row of its report sums up
  the outcomes at one key, the totals are the sums of the rows, and the order of
  the acts shows in nothing but the reasons of failures.
* `report_after_close` is about a ledger that was closed.  It takes no tallies, but
  discards and timings count as before, so a report is the one taken when the
  ledger was closed only as long as none of them comes.

The reports are those of the ledger itself; `copy` and `close` hand them out.
-/

namespace LoadRamp

/-- A report without the reasons of failures. -/
def Report.withoutReasons (r : Report) : Report :=
  { r with checks := r.checks.map fun row => { row with lastFailure? := none } }

namespace Ledger

open Ordered

namespace Act

/-- The tally that an act hands in. -/
def handed? : Act → Option Tally
  | .commit tally => some tally
  | _ => none

/-- What an act measures. -/
def entry? : Act → Option (String × Measurement)
  | .record timing => timing.entry?
  | _ => none

def isDiscard : Act → Bool
  | .discard => true
  | _ => false

/-- Whether an act counts on a closed ledger, too: a discard or the timing of a request that is
over. -/
def countsClosed (act : Act) : Bool := act.isDiscard || act.entry?.isSome

end Act

section Acts

variable (acts : List Act)

/-- The tallies that some acts hand in. -/
def tallies : List Tally := acts.filterMap Act.handed?

/-- The outcomes that some acts hand in, tally by tally. -/
def outcomes : List (CheckKey × Outcome) := (tallies acts).flatMap Tally.outcomes

/-- What some acts measure. -/
def entries : List (String × Measurement) := acts.filterMap Act.entry?

end Acts

/-! ## What acts do, one field at a time -/

section Fields

variable (l : Ledger) (acts : List Act)

theorem performAll_cons (act : Act) : performAll l (act :: acts) = performAll (l.perform act) acts :=
  rfl

/-- Discards are counted, on whatever ledger. -/
theorem discarded_performAll :
    (performAll l acts).discarded = l.discarded + acts.countP Act.isDiscard := by
  induction acts generalizing l with
  | nil => rfl
  | cons act rest ih =>
    rw [performAll_cons, ih, List.countP_cons]
    cases act with
    | commit tally => simp [perform, discarded_commit, Act.isDiscard]
    | record timing => simp [perform, (counts_record l timing).2.2, Act.isDiscard]
    | discard => simp only [perform, discard, Act.isDiscard, if_true]; omega
    | drop | copy | close => rfl

/-- Timings are gathered, on whatever ledger. -/
theorem operations_performAll :
    (performAll l acts).operations = (entries acts).foldl addMeasurement l.operations := by
  induction acts generalizing l with
  | nil => rfl
  | cons act rest ih =>
    rw [performAll_cons, ih, entries, entries]
    cases act with
    | commit tally =>
      have hsame : (l.commit tally).operations = l.operations := by
        unfold commit
        split <;> rfl
      exact congrArg (fun table => (entries rest).foldl addMeasurement table) hsame
    | record timing =>
      rw [perform, record_eq, List.filterMap_cons, Act.entry?]
      cases timing.entry? <;> rfl
    | discard | drop | copy | close => rfl

end Fields

/-- No act but `close` closes a ledger. -/
theorem closed_perform {l : Ledger} {act : Act} (hact : act ≠ .close) :
    (l.perform act).closed = l.closed := by
  cases act with
  | commit tally => exact closed_commit l tally
  | record timing => exact closed_record l timing
  | close => exact absurd rfl hact
  | discard | drop | copy => rfl

/-- A ledger that stays open counts what is handed in: outcomes, and tallies as they are
marked. -/
theorem counts_performAll {l : Ledger} {acts : List Act} (hopen : l.closed = false)
    (hacts : .close ∉ acts) {before : List (CheckKey × Outcome)}
    (htotals : l.checkTotals = totalsOf before) :
    (performAll l acts).checkTotals = totalsOf (before ++ outcomes acts) ∧
      (performAll l acts).completed =
        l.completed + (tallies acts).countP (fun tally => !tally.failed) ∧
      (performAll l acts).failed = l.failed + (tallies acts).countP Tally.failed := by
  induction acts generalizing l before with
  | nil =>
    refine ⟨htotals.trans ?_, rfl, rfl⟩
    rw [show outcomes [] = [] from rfl, List.append_nil]
  | cons act rest ih =>
    have hact : act ≠ .close := fun h => hacts (h ▸ List.mem_cons_self)
    have hrest : .close ∉ rest := fun h => hacts (List.mem_cons_of_mem _ h)
    have hstill := (closed_perform hact).trans hopen
    cases act with
    | commit tally =>
      obtain ⟨hcompleted, hfailed⟩ := counts_commit tally hopen
      obtain ⟨ihtotals, ihcompleted, ihfailed⟩ :=
        ih hstill hrest (checkTotals_commit htotals hopen tally)
      have htallies : tallies (.commit tally :: rest) = tally :: tallies rest := rfl
      refine ⟨?_, ?_, ?_⟩
      · rw [performAll_cons, ihtotals, outcomes, outcomes, htallies, List.flatMap_cons,
          List.append_assoc]
      · rw [performAll_cons, ihcompleted, htallies, List.countP_cons]
        change (l.commit tally).completed + _ = _
        rw [hcompleted, Nat.add_right_comm]
        cases tally.failed <;> rfl
      · rw [performAll_cons, ihfailed, htallies, List.countP_cons]
        change (l.commit tally).failed + _ = _
        rw [hfailed, Nat.add_right_comm]
        cases tally.failed <;> rfl
    | record timing =>
      have hcounts := counts_record l timing
      obtain ⟨ihtotals, ihcompleted, ihfailed⟩ :=
        ih hstill hrest ((checkTotals_record l timing).trans htotals)
      refine ⟨ihtotals, ihcompleted.trans ?_, ihfailed.trans ?_⟩
      · exact congrArg (· + _) hcounts.1
      · exact congrArg (· + _) hcounts.2.1
    | discard | drop | copy => exact ih hstill hrest htotals
    | close => exact absurd rfl hact

/-! ## An open ledger -/

/-- A number of entries, entry by entry. -/
theorem countP_eq_sum {α : Type} (p : α → Bool) (l : List α) :
    l.countP p = (l.map fun a => if p a then 1 else 0).sum := by
  induction l with
  | nil => rfl
  | cons a rest ih => rw [List.countP_cons, List.map_cons, List.sum_cons, ih, Nat.add_comm]

section Open

variable {acts : List Act} (hopen : .close ∉ acts)

include hopen

/-- What is counted once the acts are done. -/
theorem counts_open :
    (performAll empty acts).checkTotals = totalsOf (outcomes acts) ∧
      (performAll empty acts).completed = (tallies acts).countP (fun tally => !tally.failed) ∧
      (performAll empty acts).failed = (tallies acts).countP Tally.failed := by
  have hnone : empty.checkTotals = totalsOf [] := rfl
  obtain ⟨htotals, hcompleted, hfailed⟩ := counts_performAll rfl hopen hnone
  exact ⟨htotals, hcompleted.trans (Nat.zero_add _), hfailed.trans (Nat.zero_add _)⟩

theorem checks_performAll :
    (performAll empty acts).checks = (outcomes acts).foldl addOutcome [] ∧
      (performAll empty acts).checksPassed = (outcomes acts).countP (·.2.isPassed) ∧
      (performAll empty acts).checksFailed =
        (outcomes acts).countP fun entry => !entry.2.isPassed := by
  simpa only [checkTotals, totalsOf, Prod.mk.injEq] using (counts_open hopen).1

/-- The row of a key, if it has one: what the outcomes at the key add up to. -/
theorem find?_checks (key : CheckKey) :
    find? key (performAll empty acts).checks =
      if key ∈ (outcomes acts).map Prod.fst then
        some
          { passed := (outcomes acts).countP fun entry => entry.1 = key && entry.2.isPassed
            failed := (outcomes acts).countP fun entry => entry.1 = key && !entry.2.isPassed
            lastFailure? := ((valuesAt key (outcomes acts)).filterMap Outcome.reason?).getLast? }
      else none := by
  rw [(checks_performAll hopen).1]
  exact find?_addOutcomes (outcomes acts) key

theorem ascending_checks : Ascending CheckKey.before (performAll empty acts).checks := by
  rw [(checks_performAll hopen).1]
  exact ascending_addOutcomes .nil (outcomes acts)

/-- The totals are the sums of what the rows have. -/
theorem sum_checks :
    (performAll empty acts).checksPassed =
        ((performAll empty acts).checks.map fun e => e.2.passed).sum ∧
      (performAll empty acts).checksFailed =
        ((performAll empty acts).checks.map fun e => e.2.failed).sum := by
  obtain ⟨hchecks, hpassed, hfailed⟩ := checks_performAll hopen
  rw [hchecks, hpassed, hfailed, countP_eq_sum, countP_eq_sum]
  constructor
  · refine ((sum_foldl_gather (f := CheckCount.passed)
      (g := fun outcome : Outcome => if outcome.isPassed then 1 else 0) rfl ?_ _ []).trans
      (Nat.zero_add _)).symm
    intro count outcome
    cases outcome <;> rfl
  · refine ((sum_foldl_gather (f := CheckCount.failed)
      (g := fun outcome : Outcome => if !outcome.isPassed then 1 else 0) rfl ?_ _ []).trans
      (Nat.zero_add _)).symm
    intro count outcome
    cases outcome <;> rfl

end Open

/-- A key has no reason exactly when no outcome at it is a failure. -/
theorem getLast?_reasons (key : CheckKey) (l : List (CheckKey × Outcome)) :
    ((valuesAt key l).filterMap Outcome.reason?).getLast? = none ↔
      l.countP (fun entry => entry.1 = key && !entry.2.isPassed) = 0 := by
  have hcount := countP_valuesAt (fun outcome : Outcome => !outcome.isPassed) key l
  rw [← hcount, List.getLast?_eq_none_iff, List.filterMap_eq_nil_iff, List.countP_eq_zero]
  refine forall₂_congr fun outcome _ => ?_
  cases outcome <;> simp [Outcome.reason?, Outcome.isPassed]

/-- A row of a report is an entry of the table. -/
theorem mem_report_checks {l : Ledger} {row : CheckRow} :
    row ∈ l.report.checks ↔ (row.key, (⟨row.passed, row.failed, row.lastFailure?⟩ : CheckCount)) ∈
      l.checks := by
  constructor
  · intro hrow
    obtain ⟨⟨key, count⟩, hentry, rfl⟩ := List.mem_map.1 hrow
    exact hentry
  · exact fun hentry => List.mem_map.2 ⟨_, hentry, rfl⟩

theorem map_checks {β : Type} (l : Ledger) (f : CheckRow → β) :
    l.report.checks.map f =
      l.checks.map fun e => f ⟨e.1, e.2.passed, e.2.failed, e.2.lastFailure?⟩ :=
  List.map_map

section Reorder

variable {acts other : List Act} (h : acts.Perm other)

include h

theorem outcomes_perm : (outcomes acts).Perm (outcomes other) :=
  (h.filterMap _).flatMap_right _

variable (hopen : .close ∉ acts)

include hopen

/-- The rows of checks are the same in any order of the acts, but for the reasons. -/
theorem rows_perm :
    (performAll empty other).report.withoutReasons.checks =
      (performAll empty acts).report.withoutReasons.checks := by
  have hother : .close ∉ other := fun hmem => hopen (h.mem_iff.2 hmem)
  let plain (count : CheckCount) : Nat × Nat := (count.passed, count.failed)
  have hrows (l : Ledger) : l.report.withoutReasons.checks =
      (l.checks.map fun e => (e.1, plain e.2)).map fun e => ⟨e.1, e.2.1, e.2.2, none⟩ := by
    simp [Report.withoutReasons, report, plain, Function.comp_def]
  rw [hrows, hrows]
  congr 1
  refine ((ascending_checks hother).map plain).eq_of_find? CheckKey.strict_before
    ((ascending_checks hopen).map plain) fun key => ?_
  have hperm := outcomes_perm h
  rw [find?_map, find?_map, find?_checks hother, find?_checks hopen]
  simp only [(hperm.map Prod.fst).mem_iff, hperm.countP_eq]
  split <;> rfl

/-- Everything but timings and reasons is the same in any order of the acts. -/
theorem report_perm :
    { (performAll empty other).report.withoutReasons with operations := [] } =
      { (performAll empty acts).report.withoutReasons with operations := [] } := by
  have hother : .close ∉ other := fun hmem => hopen (h.mem_iff.2 hmem)
  have htallies : (tallies acts).Perm (tallies other) := h.filterMap _
  have houtcomes := outcomes_perm h
  obtain ⟨-, hcompleted, hfailed⟩ := counts_open hopen
  obtain ⟨-, hcompleted', hfailed'⟩ := counts_open hother
  obtain ⟨-, hpassed, hbroken⟩ := checks_performAll hopen
  obtain ⟨-, hpassed', hbroken'⟩ := checks_performAll hother
  rw [Report.mk.injEq]
  refine ⟨?_, ?_, ?_, ?_, ?_, rows_perm h hopen, rfl⟩
  · exact hpassed'.trans ((houtcomes.countP_eq _).symm.trans hpassed.symm)
  · exact hbroken'.trans ((houtcomes.countP_eq _).symm.trans hbroken.symm)
  · exact hcompleted'.trans ((htallies.countP_eq _).symm.trans hcompleted.symm)
  · exact hfailed'.trans ((htallies.countP_eq _).symm.trans hfailed.symm)
  · change (performAll empty other).discarded = (performAll empty acts).discarded
    rw [discarded_performAll, discarded_performAll, h.countP_eq]

omit hopen in
/-- So are the timings, if no total overflows. -/
theorem operations_perm
    (hfits : ∀ id, Measurement.total (valuesAt id (entries acts)) < Duration.limit) :
    (performAll empty other).report.operations = (performAll empty acts).report.operations := by
  refine congrArg (List.map _) ?_
  rw [operations_performAll, operations_performAll]
  exact gathered_perm (h.filterMap _) hfits

end Reorder

/-- A report adds up what was handed in, and nothing else.  Whatever the acts on a ledger were,
as long as it is not closed:

* there is one row for each key that has an outcome, and it counts the outcomes at its key over
  all tallies handed in; its reason is that of the last failure, tally by tally, and it has none
  exactly when nothing failed;
* the rows ascend, in the order of the bytes of scenario, group and check;
* the totals of checks are the sums of the rows, iterations are the tallies as they are marked,
  and discards are counted one by one;
* in any other order of the acts the report is the same but for the reasons of failures, unless
  the timings of an operation are too long to be added up; even then nothing else differs. -/
theorem report_adds_up (acts : List Act) (hopen : .close ∉ acts) :
    let report := (performAll empty acts).report
    (performAll empty acts).answer? .copy = some report ∧
      (∀ key, (∃ row ∈ report.checks, row.key = key) ↔
        ∃ entry ∈ outcomes acts, entry.1 = key) ∧
      (∀ row ∈ report.checks,
        row.passed = (outcomes acts).countP (fun entry => entry.1 = row.key && entry.2.isPassed) ∧
          row.failed =
            (outcomes acts).countP (fun entry => entry.1 = row.key && !entry.2.isPassed) ∧
          row.lastFailure? =
            ((valuesAt row.key (outcomes acts)).filterMap Outcome.reason?).getLast? ∧
          (row.lastFailure? = none ↔ row.failed = 0)) ∧
      report.checks.Pairwise (fun a b => a.key.octets < b.key.octets) ∧
      report.checksPassed = (report.checks.map CheckRow.passed).sum ∧
      report.checksFailed = (report.checks.map CheckRow.failed).sum ∧
      report.completed = (tallies acts).countP (fun tally => !tally.failed) ∧
      report.failed = (tallies acts).countP Tally.failed ∧
      report.discarded = acts.countP Act.isDiscard ∧
      ∀ other, acts.Perm other →
        let report' := (performAll empty other).report
        { report'.withoutReasons with operations := [] } =
            { report.withoutReasons with operations := [] } ∧
          ((∀ id, Measurement.total (valuesAt id (entries acts)) < Duration.limit) →
            report'.withoutReasons = report.withoutReasons) := by
  intro report
  have hascending := ascending_checks hopen
  obtain ⟨-, hcompleted, hfailed⟩ := counts_open hopen
  have hdiscarded : (performAll empty acts).discarded = acts.countP Act.isDiscard :=
    (discarded_performAll empty acts).trans (Nat.zero_add _)
  have hrow (row : CheckRow) : row ∈ report.checks ↔ _ :=
    mem_report_checks.trans (hascending.mem_iff_find? CheckKey.strict_before)
  refine ⟨rfl, fun key => ?_, fun row hmem => ?_, ?_, ?_, ?_, hcompleted, hfailed, hdiscarded,
    fun other hperm => ?_⟩
  · have hkeys : (∃ row ∈ report.checks, row.key = key) ↔
        key ∈ (performAll empty acts).checks.map Prod.fst := by
      rw [← List.mem_map, rowKeys_report]
    have hfound := find?_checks hopen key
    rw [hkeys, ← List.mem_map, ← Decidable.not_iff_not, ← find?_eq_none, hfound]
    split <;> simp_all
  · have hfound := (hrow row).1 hmem
    rw [find?_checks hopen] at hfound
    split at hfound
    · obtain ⟨hpassed, hfailed, hlast⟩ := CheckCount.mk.inj (Option.some.inj hfound)
      refine ⟨hpassed.symm, hfailed.symm, hlast.symm, ?_⟩
      rw [← hlast, ← hfailed]
      exact getLast?_reasons row.key (outcomes acts)
    · cases hfound
  · refine List.pairwise_map.2 (hascending.imp fun {a b} hab => ?_)
    exact CheckKey.before_iff_octets.1 hab
  · rw [map_checks]
    exact (sum_checks hopen).1
  · rw [map_checks]
    exact (sum_checks hopen).2
  · have hsame := report_perm hperm hopen
    refine ⟨hsame, fun hfits => ?_⟩
    have htimings := operations_perm hperm hfits
    -- A report is its timings and the rest.
    exact congrArg₂ (fun (r : Report) rows => { r with operations := rows }) hsame htimings

/-- The acts on a ledger that is open: a key that comes twice in one tally and once more in
another one, a tally that is given up, a discard and a copy. -/
theorem report_adds_up_twice :
    let key : CheckKey := ⟨"browse", "list", "is ok"⟩
    let acts : List Act :=
      [.commit ⟨[(key, .failed "late"), (key, .passed)], false⟩, .copy,
        .drop ⟨[(key, .failed "given up")], true⟩, .discard,
        .commit ⟨[(key, .failed "lost")], true⟩]
    let report := (performAll empty acts).report
    .close ∉ acts ∧
      (∃ row ∈ report.checks, row.key = key ∧ row.passed = 1 ∧ row.failed = 2 ∧
        row.lastFailure? = some "lost") ∧
      report.completed = 1 ∧ report.failed = 1 ∧ report.discarded = 1 := by
  intro key acts report
  have hopen : .close ∉ acts := by simp [acts]
  obtain ⟨-, hkeys, hrows, -, -, -, hcompleted, hfailed, hdiscarded, -⟩ := report_adds_up acts hopen
  obtain ⟨row, hrow, hkey⟩ := (hkeys key).2 ⟨(key, .passed), by decide, rfl⟩
  obtain ⟨hpassed, hbroken, hlast, -⟩ := hrows row hrow
  rw [hkey] at hpassed hbroken hlast
  exact ⟨hopen, ⟨row, hrow, hkey, hpassed, hbroken, hlast⟩, hcompleted, hfailed, hdiscarded⟩

/-! ## A closed ledger -/

section Closed

variable (l : Ledger) (acts : List Act)

/-- On a closed ledger an act does what it does on an open one, or nothing. -/
theorem perform_close (act : Act) :
    l.close.perform act = if act.countsClosed then (l.perform act).close else l.close := by
  cases act with
  | record timing =>
    have hcounts : (Act.record timing).countsClosed = timing.entry?.isSome := rfl
    rw [perform, perform, record_eq, record_eq, hcounts]
    cases timing.entry? <;> rfl
  | commit | drop | discard | copy | close => rfl

theorem performAll_close :
    performAll l.close acts = (performAll l (acts.filter Act.countsClosed)).close := by
  induction acts generalizing l with
  | nil => rfl
  | cons act rest ih =>
    rw [performAll_cons, perform_close]
    cases hcounts : act.countsClosed with
    | true =>
      rw [List.filter_cons_of_pos hcounts, performAll_cons]
      exact ih (l.perform act)
    | false =>
      rw [List.filter_cons_of_neg (by simp [hcounts])]
      exact ih l

/-- What counts on a closed ledger is neither a check nor an iteration that ended. -/
theorem rest_performAll_close :
    { performAll l.close acts with discarded := 0, operations := [] } =
      { l.close with discarded := 0, operations := [] } := by
  induction acts generalizing l with
  | nil => rfl
  | cons act rest ih =>
    rw [performAll_cons, perform_close]
    cases act with
    | record timing =>
      split
      · refine (ih (l.record timing)).trans ?_
        rw [record_eq]
        rfl
      · exact ih l
    | discard => exact ih l.discard
    | commit | drop | copy | close => exact ih l

/-- An act that counts on a closed ledger shows in a report. -/
theorem eq_nil_of_report_eq {l : Ledger} {acts : List Act}
    (hcounts : ∀ act ∈ acts, act.countsClosed = true)
    (hsame : (performAll l acts).report = l.report) : acts = [] := by
  have hdiscarded : l.discarded + acts.countP Act.isDiscard = l.discarded :=
    (discarded_performAll l acts).symm.trans (congrArg Report.discarded hsame)
  have htimings : (entries acts).length = 0 := by
    have hsum := congrArg (fun r : Report => (r.operations.map OperationRow.count).sum) hsame
    have hgathered :
        (((entries acts).foldl addMeasurement l.operations).map fun e => e.2.count).sum =
          (l.operations.map fun e => e.2.count).sum + ((entries acts).map fun _ => 1).sum :=
      sum_foldl_gather (f := OperationCount.count) (g := fun _ => 1) rfl
        OperationCount.count_measure _ _
    have hones : ((entries acts).map fun _ => 1).sum = (entries acts).length := by simp
    have hlengths (l : Ledger) : (l.report.operations.map OperationRow.count).sum =
        (l.operations.map fun e => e.2.count).sum := congrArg List.sum List.map_map
    rw [hlengths, hlengths, operations_performAll] at hsum
    exact Nat.add_eq_left.1 ((hones ▸ hgathered).symm.trans hsum)
  refine List.eq_nil_iff_forall_not_mem.2 fun act hact => ?_
  have hno : act.isDiscard = false := by
    simpa using List.countP_eq_zero.1 (Nat.add_eq_left.1 hdiscarded) act hact
  have hnone : act.entry? = none :=
    List.filterMap_eq_nil_iff.1 (List.eq_nil_of_length_eq_zero htimings) act hact
  have hcount := hcounts act hact
  rw [Act.countsClosed, hno, hnone] at hcount
  cases hcount

end Closed

/-- A ledger that is closed counts discards and timings as an open one does, and nothing else:
a report is the one of when it was closed as long as none of them comes, and only so long. -/
theorem report_after_close (l : Ledger) (acts : List Act) :
    let last := performAll l.close acts
    last.answer? .copy = some last.report ∧ last.answer? .close = some last.report ∧
      last.report = (performAll l (acts.filter Act.countsClosed)).report ∧
      { last.report with discarded := 0, operations := [] } =
        { l.report with discarded := 0, operations := [] } ∧
      (last.report = l.close.report ↔ ∀ act ∈ acts, act.countsClosed = false) := by
  intro last
  have hlast : last.report = (performAll l (acts.filter Act.countsClosed)).report := by
    change (performAll l.close acts).report = _
    rw [performAll_close]
    rfl
  refine ⟨rfl, rfl, hlast, congrArg report (rest_performAll_close l acts), ?_⟩
  have hkept : (∀ act ∈ acts, act.countsClosed = false) ↔
      acts.filter Act.countsClosed = [] := by
    simp only [List.filter_eq_nil_iff, Bool.not_eq_true]
  rw [hkept, hlast]
  constructor
  · exact eq_nil_of_report_eq fun act hact => (List.mem_filter.1 hact).2
  · intro hnil
    rw [hnil]
    rfl

/-- The report that a ledger gives when it is closed need not be its last one. -/
theorem not_report_after_close :
    ¬ ∀ (l : Ledger) (acts : List Act),
      (performAll l.close acts).answer? .copy = l.answer? .close := by
  intro hfinal
  exact absurd (hfinal empty [.discard]) (by decide)

end Ledger
end LoadRamp
