/-!
# Durations

A span of time, counted in nanoseconds.  Settings and messages count whole seconds.
-/

namespace Converge

/-- A span of time. -/
structure Duration where
  nanoseconds : Nat
  deriving DecidableEq

namespace Duration

/-- No time at all. -/
def zero : Duration := ⟨0⟩

/-- The nanoseconds of a second. -/
def nanosecondsPerSecond : Nat := 1000000000

/-- A number of seconds. -/
def ofSeconds (seconds : Nat) : Duration := ⟨seconds * nanosecondsPerSecond⟩

/-- The whole seconds of a span. -/
def seconds (span : Duration) : Nat := span.nanoseconds / nanosecondsPerSecond

end Duration

end Converge
