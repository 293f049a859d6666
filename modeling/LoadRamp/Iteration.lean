import LoadRamp.Scene
import LoadRamp.Transport

/-!
# Iterations

An iteration sends the requests of a scenario one after the other, each when the
reply to the one before it has come, and then hands in its outcomes.

* `Iteration.start`, `Iteration.take` and `Iteration.resume` are the steps, each
  from one wait to the next.
* `Iteration.run` plays an iteration from its start to its end.

A reply that is a transport error fails every check of its group and marks the
iteration as failed; the later groups are sent all the same.  A user breaks down in
the middle of an iteration when the transport breaks it down, or when the response
times of an operation no longer add up to a duration.
-/

namespace LoadRamp

/-- What every user of a run does. -/
structure Workload where
  scenario : Scenario
  baseUrl : String
  transport : Transport
  /-- The pause between two iterations. -/
  delay : Duration

/-- What ends the wait of a user for a reply. -/
inductive News
  | reply (reply : Http.Reply)
  /-- The user breaks down, perhaps with a message. -/
  | crash (message? : Option String)

/-- News that are on their way. -/
structure Arrival where
  time : Nat
  news : News

/-- An iteration that waits for the reply to the request of a group. -/
structure Iteration where
  group : Group
  /-- The groups after it. -/
  later : List Group
  /-- The outcomes so far. -/
  tally : Tally
  /-- When the request was sent. -/
  since : Nat
  arrival? : Option Arrival

/-- Where an iteration stands after a step. -/
inductive Progress
  | waiting (iteration : Iteration)
  | committed
  | broken (message? : Option String)

namespace Scenario

/-- The outcome of a check when its request got a reply. -/
def outcome (check : Check) : Http.Reply → Outcome
  | .ok response => check.evaluate response
  | .error error => .failed ("transport error: " ++ error.message)

/-- The outcomes of the checks of a group, under their keys and in order. -/
def outcomes (s : Scenario) (group : Group) (reply : Http.Reply) : List (CheckKey × Outcome) :=
  group.checks.map fun check => (s.key group check, outcome check reply)

/-- The tally with the outcomes of one more group. -/
def extendTally (s : Scenario) (tally : Tally) (group : Group) (reply : Http.Reply) : Tally :=
  let counted := (s.outcomes group reply).foldl (fun t entry => t.record entry.1 entry.2) tally
  match reply with
  | .ok _ => counted
  | .error _ => counted.markFailed

end Scenario

namespace Iteration

/-- What a user has to say about a reply. -/
def remarks (w : Workload) (user : String) (group : Group) : Http.Reply → List Happening
  | .error error => [.requestFailed user group.name error]
  | .ok response =>
    (w.scenario.outcomes group (.ok response)).filterMap fun entry =>
      match entry.2 with
      | .passed => none
      | .failed reason => some (.checkFailed user entry.1 reason)

def isError : Http.Reply → Bool
  | .ok _ => false
  | .error _ => true

/-- Send the request of a group. -/
def send (w : Workload) (user : String) (scene : Scene) (tally : Tally) (group : Group)
    (later : List Group) : Scene × Progress :=
  let request := group.request w.baseUrl
  let scene := (scene.note (.sends user request)).countRequest
  match w.transport scene.sent request with
  | .crash message? => (scene.note (.breaks user message?), .broken message?)
  | .never => (scene, .waiting ⟨group, later, tally, scene.clock, none⟩)
  | .reply delay reply =>
    (scene, .waiting
      ⟨group, later, tally, scene.clock, some ⟨scene.clock + delay.nanos, .reply reply⟩⟩)
  | .crashLater delay message? =>
    (scene, .waiting
      ⟨group, later, tally, scene.clock, some ⟨scene.clock + delay.nanos, .crash message?⟩⟩)

/-- Go on with some groups, or hand the outcomes in when there are none. -/
def goOn (w : Workload) (user : String) (scene : Scene) (tally : Tally) :
    List Group → Scene × Progress
  | [] => ((scene.commit tally).note (.commits user tally), .committed)
  | group :: later => send w user scene tally group later

/-- Start an iteration. -/
def start (w : Workload) (user : String) (scene : Scene) : Scene × Progress :=
  goOn w user (scene.note (.opens user)) Tally.empty w.scenario.groups

/-- Take a reply: its timing counts at once, its outcomes with the iteration.  A timing with
which the total of its operation does not fit breaks the user down. -/
def receive (w : Workload) (user : String) (scene : Scene) (it : Iteration)
    (reply : Http.Reply) : Scene × Progress :=
  let failed := isError reply
  let timed := (scene.recordSince it.group.name it.since failed).note
    (.answered user it.group.name failed)
  if scene.ledger.overflows (scene.timingSince it.group.name it.since failed) then
    (timed.note (.breaks user (some Notice.overflow.text)),
      .broken (some Notice.overflow.text))
  else
    goOn w user (timed.noteAll (remarks w user it.group reply))
      (w.scenario.extendTally it.tally it.group reply) it.later

/-- Whether the wait for the reply is over by an instant. -/
def isDue (it : Iteration) (clock : Nat) : Bool :=
  match it.arrival? with
  | none => false
  | some arrival => arrival.time ≤ clock

/-- Take the news: a reply, or a breakdown during the wait. -/
def take (w : Workload) (user : String) (scene : Scene) (it : Iteration) :
    News → Scene × Progress
  | .reply reply => receive w user scene it reply
  | .crash message? => (scene.note (.breaks user message?), .broken message?)

/-- Take the news if they have come. -/
def resume (w : Workload) (user : String) (scene : Scene) (it : Iteration) : Scene × Progress :=
  match it.arrival? with
  | none => (scene, .waiting it)
  | some arrival =>
    if arrival.time ≤ scene.clock then take w user scene it arrival.news
    else (scene, .waiting it)

/-- Wait for some replies, one after the other. -/
def await (w : Workload) (user : String) : Nat → Scene × Progress → Scene × Progress
  | replies + 1, (scene, .waiting it) =>
    match it.arrival? with
    | none => (scene, .waiting it)
    | some arrival => await w user replies (resume w user (scene.waitUntil arrival.time) it)
  | _, state => state

/-- An iteration from its start to its end, or for ever in a wait for a reply
that does not come. -/
def run (w : Workload) (user : String) (scene : Scene) : Scene × Progress :=
  await w user w.scenario.groups.length (start w user scene)

end Iteration
end LoadRamp
