import LoadRamp.Duration

/-!
# Settings of a run

The three times that shape a run besides its schedule.
-/

namespace LoadRamp

structure Settings where
  /-- The pause between two iterations of one user. -/
  iterationDelay : Duration
  /-- How often the running users are compared with the schedule. -/
  tickInterval : Duration
  /-- How long a stopped user may take to finish its iteration. -/
  gracePeriod : Duration
  deriving DecidableEq

/-- A second, a second and half a minute. -/
def Settings.default : Settings :=
  ⟨Duration.ofSeconds 1, Duration.ofSeconds 1, Duration.ofSeconds 30⟩

end LoadRamp
