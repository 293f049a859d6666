import LoadRamp.Duration
import LoadRamp.Number.Decimal
import LoadRamp.Scenario

/-!
# Reports

A report is a copy of what a run has counted so far: iterations, check outcomes
by key and request timings by operation.
-/

namespace LoadRamp

/-- What was counted for one check. -/
structure CheckRow where
  key : CheckKey
  passed : Nat
  failed : Nat
  /-- The reason of the latest failure. -/
  lastFailure? : Option String
  deriving DecidableEq

/-- What was measured for one operation.  The range leaves errors out. -/
structure OperationRow where
  id : String
  count : Nat
  errors : Nat
  total : Duration
  least? : Option Duration
  most? : Option Duration
  deriving DecidableEq

/-- The average duration in whole nanoseconds, for a count that is positive and
below `2 ^ 32`. -/
def OperationRow.average? (row : OperationRow) : Option Duration :=
  if 0 < row.count ∧ row.count < 4294967296 then some (row.total.divide row.count) else none

/-- What a run has counted. -/
structure Report where
  checksPassed : Nat := 0
  checksFailed : Nat := 0
  completed : Nat := 0
  failed : Nat := 0
  discarded : Nat := 0
  checks : List CheckRow := []
  operations : List OperationRow := []
  deriving DecidableEq

namespace Report

def hasFailures (r : Report) : Bool := 0 < r.checksFailed

/-- The row of a check, found by its group and its description. -/
def check? (r : Report) (group check : String) : Option CheckRow :=
  r.checks.find? fun row => row.key.group == group && row.key.check == check

/-- What is wrong with a run that has failed checks. -/
def failureText? (r : Report) : Option String :=
  if r.hasFailures then
    some (Number.Decimal.write r.checksFailed ++ " of " ++
      Number.Decimal.write (r.checksFailed + r.checksPassed) ++ " checks failed")
  else none

end Report
end LoadRamp
