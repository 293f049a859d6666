import LoadRamp.Http.Message

/-!
# Transports

A transport is everything outside a run that requests meet.  It is a function,
so a statement about all transports is a statement about every way in which
requests can be answered.
-/

namespace LoadRamp

/-- What comes of a request. -/
inductive Answer
  /-- The user that sends it breaks down, perhaps with a message. -/
  | crash (message? : Option String)
  /-- Nothing ever comes back. -/
  | never
  /-- A reply comes back after a while. -/
  | reply (delay : Duration) (reply : Http.Reply)
  /-- The user breaks down after a while, when it already waits. -/
  | crashLater (delay : Duration) (message? : Option String)

/-- What comes of each request of a run.  Requests are numbered from one in the
order in which they are sent. -/
abbrev Transport := Nat → Http.Request → Answer

/-- The transport without a network: nothing can be connected to. -/
def Transport.disconnected : Transport := fun _ _ =>
  .reply Duration.zero (.error (.connect "connection refused"))

end LoadRamp
