import LoadRamp.Happening
import LoadRamp.Ledger

/-!
# Scenes

What the users of a run share: the clock, the ledger, the number of requests
sent so far and the history.  Nothing else passes between them.
-/

namespace LoadRamp

/-- A happening with the instant at which it happened, in nanoseconds. -/
structure Entry where
  time : Nat
  what : Happening
  deriving DecidableEq

/-- What users share.  The history has the latest entry first. -/
structure Scene where
  clock : Nat := 0
  ledger : Ledger := {}
  /-- The number of requests sent. -/
  sent : Nat := 0
  /-- The number of times that somebody began to wait. -/
  waits : Nat := 0
  history : List Entry := []

namespace Scene

def note (s : Scene) (what : Happening) : Scene :=
  { s with history := ⟨s.clock, what⟩ :: s.history }

def noteAll (s : Scene) (happenings : List Happening) : Scene := happenings.foldl note s

/-- Let the clock go on to an instant; it never goes back. -/
def waitUntil (s : Scene) (time : Nat) : Scene := { s with clock := max s.clock time }

/-- Number a request that is sent. -/
def countRequest (s : Scene) : Scene := { s with sent := s.sent + 1 }

def countWait (s : Scene) : Scene := { s with waits := s.waits + 1 }

def commit (s : Scene) (tally : Tally) : Scene := { s with ledger := s.ledger.commit tally }

def discard (s : Scene) : Scene := { s with ledger := s.ledger.discard }

/-- The timing of a request that was sent at an instant and has its reply now. -/
def timingSince (s : Scene) (operation : String) (since : Nat) (isError : Bool) : Timing :=
  ⟨operation, some (Duration.clamp (s.clock - since)), isError⟩

/-- Record how long ago a request was sent. -/
def recordSince (s : Scene) (operation : String) (since : Nat) (isError : Bool) : Scene :=
  { s with ledger := s.ledger.record (s.timingSince operation since isError) }

/-! ## What each operation leaves as it is -/

section Fields

variable (s : Scene)

@[simp] theorem history_note (what : Happening) :
    (s.note what).history = ⟨s.clock, what⟩ :: s.history := rfl

@[simp] theorem ledger_note (what : Happening) : (s.note what).ledger = s.ledger := rfl

@[simp] theorem clock_note (what : Happening) : (s.note what).clock = s.clock := rfl

@[simp] theorem history_waitUntil (time : Nat) : (s.waitUntil time).history = s.history := rfl

@[simp] theorem ledger_waitUntil (time : Nat) : (s.waitUntil time).ledger = s.ledger := rfl

@[simp] theorem history_countRequest : s.countRequest.history = s.history := rfl

@[simp] theorem ledger_countRequest : s.countRequest.ledger = s.ledger := rfl

@[simp] theorem history_countWait : s.countWait.history = s.history := rfl

@[simp] theorem ledger_countWait : s.countWait.ledger = s.ledger := rfl

@[simp] theorem clock_countWait : s.countWait.clock = s.clock := rfl

@[simp] theorem history_commit (tally : Tally) : (s.commit tally).history = s.history := rfl

@[simp] theorem ledger_commit (tally : Tally) :
    (s.commit tally).ledger = s.ledger.commit tally := rfl

@[simp] theorem history_discard : s.discard.history = s.history := rfl

@[simp] theorem ledger_discard : s.discard.ledger = s.ledger.discard := rfl

@[simp] theorem clock_discard : s.discard.clock = s.clock := rfl

@[simp] theorem history_recordSince (operation : String) (since : Nat) (isError : Bool) :
    (s.recordSince operation since isError).history = s.history := rfl

@[simp] theorem ledger_noteAll (happenings : List Happening) :
    (s.noteAll happenings).ledger = s.ledger := by
  induction happenings generalizing s with
  | nil => rfl
  | cons what rest ih =>
    show ((s.note what).noteAll rest).ledger = s.ledger
    rw [ih, ledger_note]

end Fields

/-- The log lines of the happenings of one kind, with their times, in order. -/
def log (s : Scene) (wanted : Happening → Bool) : List (Nat × LogLine) :=
  s.history.reverse.filterMap fun entry =>
    if wanted entry.what then entry.what.line?.map fun line => (entry.time, line) else none

/-- The requests sent, with their times, in order. -/
def requests (s : Scene) : List (Nat × Http.Request) :=
  s.history.reverse.filterMap fun entry =>
    match entry.what with
    | .sends _ request => some (entry.time, request)
    | _ => none

end Scene
end LoadRamp
