import LoadRamp.Number.Binary64
import LoadRamp.Report
import LoadRamp.Report.Table

/-!
# Printed reports

A printed report has a table of checks, a table of request timings if there were
any, and two lines of totals.  Times are in milliseconds with two decimals; the
microseconds are divided in binary floating point and the exact value of the
result is rounded to the decimals, a half to the even neighbour.
-/

namespace LoadRamp
namespace Report

open Number

/-- A duration in milliseconds as a floating point number. -/
def inMillis (d : Duration) : Rat :=
  roundSignificand (roundSignificand (d.micros : Nat) / 1000)

/-- A number that is not negative, with two decimals. -/
def twoDecimals (value : Rat) : String :=
  let hundredths := (nearestEven (value * 100)).toNat
  Decimal.write (hundredths / 100) ++ "." ++ String.ofList (Decimal.padded 2 (hundredths % 100))

/-- A duration that may be missing, in milliseconds. -/
def millisText : Option Duration → String
  | some d => twoDecimals (inMillis d)
  | none => "-"

def checkCells (row : CheckRow) : List String :=
  [row.key.scenario, row.key.group, row.key.check, Decimal.write row.passed,
    Decimal.write row.failed, row.lastFailure?.getD "-"]

/-- The average of an operation in milliseconds; one that cannot be had is shown as zero. -/
def averageMillis (row : OperationRow) : Rat := (row.average?.map inMillis).getD 0

/-- The cells of an operation. -/
def operationCells (row : OperationRow) : List String :=
  [row.id, twoDecimals (averageMillis row), millisText row.least?,
    millisText row.most?, Decimal.write row.count, Decimal.write row.errors]

def checksSection (r : Report) : String :=
  "\nSummary of checks\n" ++
    (if r.checks.isEmpty then "No checks were recorded\n"
     else
      Table.draw ["scenario", "group", "check", "passed", "failed", "last failure"]
        (r.checks.map checkCells) ++ "\n")

def requestsSection (r : Report) : String :=
  if r.operations.isEmpty then ""
  else
    "\nSummary of requests\n" ++
      Table.draw ["operation_id", "avg_time_ms", "min_time_ms", "max_time_ms",
          "total_operations", "errors"] (r.operations.map operationCells) ++ "\n"

def checksTotal (r : Report) : String :=
  "checks: " ++ Decimal.write r.checksPassed ++ " passed, " ++ Decimal.write r.checksFailed ++
    " failed"

def iterationsTotal (r : Report) : String :=
  "iterations: " ++ Decimal.write r.completed ++ " completed, " ++ Decimal.write r.failed ++
    " failed, " ++ Decimal.write r.discarded ++ " discarded"

def totalsSection (r : Report) : String :=
  "\n" ++ r.checksTotal ++ "\n" ++ r.iterationsTotal ++ "\n"

/-- The whole printed report. -/
def print (r : Report) : String := r.checksSection ++ r.requestsSection ++ r.totalsSection

end Report
end LoadRamp
