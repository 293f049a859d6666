import LoadRamp.Log
import LoadRamp.Ordered
import LoadRamp.Report

/-!
# Ledgers

A ledger adds up what the users of a run hand in.  The outcomes of an iteration
are gathered in a `Tally` and count only once the tally is committed; timings
count at once.

* `Ledger.commit`, `Ledger.discard` and `Ledger.record` are the three ways to
  hand something in, and `Ledger.close` shuts the ledger for further tallies.
* `Ledger.report` copies the state, rows in ascending order of their keys.
* `Ledger.perform` says what each act on a ledger does, so that every list of acts
  is a history.
-/

namespace LoadRamp

/-- The outcomes of one iteration, in order. -/
structure Tally where
  outcomes : List (CheckKey × Outcome) := []
  /-- Whether the iteration counts as failed. -/
  failed : Bool := false
  deriving DecidableEq

namespace Tally

def empty : Tally := {}

def record (t : Tally) (key : CheckKey) (outcome : Outcome) : Tally :=
  { t with outcomes := t.outcomes ++ [(key, outcome)] }

def markFailed (t : Tally) : Tally := { t with failed := true }

def size (t : Tally) : Nat := t.outcomes.length

def passedCount (t : Tally) : Nat := t.outcomes.countP fun entry => entry.2.isPassed

def failedCount (t : Tally) : Nat := t.outcomes.countP fun entry => !entry.2.isPassed

end Tally

/-- The outcomes of one check. -/
structure CheckCount where
  passed : Nat := 0
  failed : Nat := 0
  lastFailure? : Option String := none

def CheckCount.add (c : CheckCount) : Outcome → CheckCount
  | .passed => { c with passed := c.passed + 1 }
  | .failed reason => { c with failed := c.failed + 1, lastFailure? := some reason }

/-- The timings of one operation. -/
structure OperationCount where
  count : Nat := 0
  errors : Nat := 0
  total : Duration := Duration.zero
  least? : Option Duration := none
  most? : Option Duration := none

namespace OperationCount

/-- The shorter of a duration and another, if there is another. -/
def shorter (elapsed : Duration) : Option Duration → Duration
  | some other => if other.nanos ≤ elapsed.nanos then other else elapsed
  | none => elapsed

/-- The longer of a duration and another, if there is another. -/
def longer (elapsed : Duration) : Option Duration → Duration
  | some other => if elapsed.nanos ≤ other.nanos then other else elapsed
  | none => elapsed

/-- One more timing.  When the total does not fit, the timing is counted and
nothing else. -/
def add (o : OperationCount) (elapsed : Duration) (isError : Bool) : OperationCount :=
  match o.total.add? elapsed with
  | none => { o with count := o.count + 1 }
  | some total =>
    if isError then { o with count := o.count + 1, total, errors := o.errors + 1 }
    else
      { o with
        count := o.count + 1, total,
        least? := some (shorter elapsed o.least?), most? := some (longer elapsed o.most?) }

end OperationCount

/-- The timing of one request; it has no duration while the request is under way. -/
structure Timing where
  id : String
  elapsed? : Option Duration
  isError : Bool

/-- What a ledger has to say about something handed in. -/
inductive Notice
  /-- A tally of that size came after the ledger was closed. -/
  | ignored (size : Nat)
  /-- A timing came before its request was over. -/
  | unfinished (id : String)
  /-- The total of an operation does not fit. -/
  | overflow
  deriving DecidableEq

namespace Notice

def text : Notice → String
  | .ignored size =>
    "Ignoring an iteration with " ++ Number.Decimal.write size ++
      " check outcomes committed after the run was finalized"
  | .unfinished id => "Operation " ++ id ++ " was reported before it finished"
  | .overflow => Duration.Overflow.ofTwo.message

/-- The log line of a notice.  A total that does not fit is no matter for the log. -/
def line? : Notice → Option LogLine
  | .overflow => none
  | notice => some ⟨.warn, notice.text⟩

end Notice

/-- What a run has counted so far. -/
structure Ledger where
  checksPassed : Nat := 0
  checksFailed : Nat := 0
  completed : Nat := 0
  failed : Nat := 0
  discarded : Nat := 0
  checks : List (CheckKey × CheckCount) := []
  operations : List (String × OperationCount) := []
  closed : Bool := false

namespace Ledger

def empty : Ledger := {}

/-- The table of checks with one more outcome. -/
def addOutcome (checks : List (CheckKey × CheckCount)) (entry : CheckKey × Outcome) :
    List (CheckKey × CheckCount) :=
  Ordered.alter CheckKey.before entry.1 (fun count? => (count?.getD {}).add entry.2) checks

/-- Count a finished iteration.  A closed ledger takes none. -/
def commit (l : Ledger) (t : Tally) : Ledger :=
  if l.closed then l
  else
    { l with
      checks := t.outcomes.foldl addOutcome l.checks
      checksPassed := l.checksPassed + t.passedCount
      checksFailed := l.checksFailed + t.failedCount
      completed := if t.failed then l.completed else l.completed + 1
      failed := if t.failed then l.failed + 1 else l.failed }

def commitNotice? (l : Ledger) (t : Tally) : Option Notice :=
  if l.closed then some (.ignored t.size) else none

/-- Count an iteration that was cut short. -/
def discard (l : Ledger) : Ledger := { l with discarded := l.discarded + 1 }

/-- Count the timing of a request. -/
def record (l : Ledger) (t : Timing) : Ledger :=
  match t.elapsed? with
  | none => l
  | some elapsed =>
    { l with
      operations := Ordered.alter Ordered.textBefore t.id
        (fun count? => (count?.getD {}).add elapsed t.isError) l.operations }

def recordNotice? (l : Ledger) (t : Timing) : Option Notice :=
  match t.elapsed? with
  | none => some (.unfinished t.id)
  | some elapsed =>
    let count := (Ordered.find? t.id l.operations).getD {}
    if (count.total.add? elapsed).isNone then some .overflow else none

/-- Whether recording a timing breaks down because the total does not fit. -/
def overflows (l : Ledger) (t : Timing) : Bool := decide (l.recordNotice? t = some .overflow)

/-- Take no more tallies from now on. -/
def close (l : Ledger) : Ledger := { l with closed := true }

/-- A copy of what is counted. -/
def report (l : Ledger) : Report where
  checksPassed := l.checksPassed
  checksFailed := l.checksFailed
  completed := l.completed
  failed := l.failed
  discarded := l.discarded
  checks := l.checks.map fun (key, c) => ⟨key, c.passed, c.failed, c.lastFailure?⟩
  operations := l.operations.map fun (id, o) =>
    ⟨id, o.count, o.errors, o.total, o.least?, o.most?⟩

/-! ## Acts -/

/-- What can be done with a ledger. -/
inductive Act
  | commit (tally : Tally)
  /-- A tally is given up. -/
  | drop (tally : Tally)
  | discard
  | record (timing : Timing)
  /-- A copy is taken of what is counted. -/
  | copy
  /-- The ledger is closed and a copy taken. -/
  | close

/-- What an act does to a ledger. -/
def perform (l : Ledger) : Act → Ledger
  | .commit tally => l.commit tally
  | .discard => l.discard
  | .record timing => l.record timing
  | .close => l.close
  | .drop _ | .copy => l

/-- The report that an act gives, if it gives one. -/
def answer? (l : Ledger) : Act → Option Report
  | .copy => some l.report
  | .close => some l.close.report
  | .commit _ | .drop _ | .discard | .record _ => none

/-- What a list of acts does. -/
def performAll (l : Ledger) (acts : List Act) : Ledger := acts.foldl perform l

/-! ## What is counted, and what is left as it is -/

section Counts

variable (l : Ledger)

theorem closed_record (timing : Timing) : (l.record timing).closed = l.closed := by
  unfold record
  split <;> rfl

theorem closed_commit (tally : Tally) : (l.commit tally).closed = l.closed := by
  unfold commit
  split <;> rfl

theorem counts_record (timing : Timing) :
    (l.record timing).completed = l.completed ∧ (l.record timing).failed = l.failed ∧
      (l.record timing).discarded = l.discarded := by
  unfold record
  split <;> exact ⟨rfl, rfl, rfl⟩

theorem counts_commit {l : Ledger} (tally : Tally) (hopen : l.closed = false) :
    (l.commit tally).completed = l.completed + (if tally.failed then 0 else 1) ∧
      (l.commit tally).failed = l.failed + (if tally.failed then 1 else 0) := by
  cases hfailed : tally.failed <;> simp [commit, hopen, hfailed]

theorem discarded_commit (tally : Tally) : (l.commit tally).discarded = l.discarded := by
  unfold commit
  split <;> rfl

end Counts

end Ledger
end LoadRamp
