import LoadRamp.Ordered

/-!
# Stop signals

A stop signal is a flag that stays up once it is raised.  Any number of handles
can raise it and any number of listeners watch it; when the last handle is gone,
listeners are told to stop as if it had been raised.

* `Signal` is one such flag, and `Listener` is what somebody who watches it keeps.
* `Signal.stops` looks at it without waiting, `Signal.poll` is the first look of a
  wait.
* `Signal.Registry` keeps many of them, with named handles and listeners, and
  `Registry.perform` says what every act on it does.
-/

namespace LoadRamp

/-- A flag that can be raised, and the number of handles that can raise it. -/
structure Signal where
  raised : Bool := false
  /-- How often it has been raised. -/
  version : Nat := 0
  handles : Nat := 1
  deriving DecidableEq

namespace Signal

/-- A new signal with one handle. -/
def fresh : Signal := {}

def raise (s : Signal) : Signal := { s with raised := true, version := s.version + 1 }

@[simp] theorem raised_raise (s : Signal) : s.raise.raised = true := rfl

def addHandle (s : Signal) : Signal := { s with handles := s.handles + 1 }

def dropHandle (s : Signal) : Signal := { s with handles := s.handles - 1 }

/-- Whether nobody can raise the signal any more. -/
def abandoned (s : Signal) : Bool := s.handles == 0

/-- What is said when a signal is raised. -/
def raiseLog (s : Signal) : List String :=
  if s.raised then ["Shutdown requested more than once"] else []

/-- Somebody who watches a signal. -/
structure Listener where
  /-- The place of the signal. -/
  place : Nat
  /-- The version of the signal that was last looked at. -/
  seen : Nat
  deriving DecidableEq

/-- Whether there is something that has not been looked at, unless nothing can come
any more. -/
def changed? (s : Signal) (seen : Nat) : Option Bool :=
  if s.abandoned then none else some (s.version != seen)

/-- Whether a listener has to stop. -/
def stops (s : Signal) (seen : Nat) : Bool := s.raised || (s.changed? seen).isNone

/-- How a wait stands. -/
inductive Wait
  | over
  /-- Over, since nobody can raise the signal any more. -/
  | abandoned
  | pending
  deriving DecidableEq

/-- The first look of a wait: at the flag, and if it is down, for something new.  Nothing is
new right after a look, but the last handle may be gone. -/
def poll (s : Signal) : Wait :=
  if s.raised then .over
  else
    match s.changed? s.version with
    | none => .abandoned
    | some _ => .pending

namespace Wait

def ready (w : Wait) : Bool := w != .pending

/-- What is said when a wait is over. -/
def log : Wait → List String
  | .over => []
  | .abandoned => ["Shutdown handle dropped while waiting for shutdown"]
  | .pending => []

end Wait

/-- Signals with their handles and listeners by name.  A signal is known by its
place in the list, and none is ever taken out. -/
structure Registry where
  signals : List Signal := []
  handles : List (String × Nat) := []
  listeners : List (String × Listener) := []

namespace Registry

/-- What can be done with signals. -/
inductive Act
  | create (name : String)
  | clone (name source : String)
  | listen (name source : String)
  | cloneListener (name source : String)
  | drop (name : String)
  | dropListener (name : String)
  | raise (name : String)
  | wait (name : String)
  deriving DecidableEq

/-- What comes of an act. -/
inductive Answer
  | nothing
  /-- A signal was raised; what was said. -/
  | raised (log : List String)
  /-- A wait is over or goes on; what was said. -/
  | waited (ready : Bool) (log : List String)
  deriving DecidableEq

def signalAt (r : Registry) (place : Nat) : Signal := r.signals.getD place fresh

def update (r : Registry) (place : Nat) (change : Signal → Signal) : Registry :=
  { r with signals := r.signals.modify place change }

/-- A registry with a new signal. -/
def grow (r : Registry) : Registry := { r with signals := r.signals ++ [fresh] }

/-- The signal that a handle raises. -/
def handle? (r : Registry) (name : String) : Option Nat := Ordered.find? name r.handles

/-- A listener by its name. -/
def listener? (r : Registry) (name : String) : Option Listener :=
  Ordered.find? name r.listeners

/-- A listener that has just looked at a signal. -/
def looked (r : Registry) (place : Nat) : Listener := ⟨place, (r.signalAt place).version⟩

/-- Give up a handle. -/
def dropHandle (r : Registry) (name : String) : Registry :=
  match r.handle? name with
  | none => r
  | some place =>
    { r.update place Signal.dropHandle with handles := Ordered.remove name r.handles }

def dropListener (r : Registry) (name : String) : Registry :=
  { r with listeners := Ordered.remove name r.listeners }

/-- Give a name to a handle that already counts; a handle of that name is given up. -/
def bindHandle (r : Registry) (name : String) (place : Nat) : Registry :=
  let r := r.dropHandle name
  { r with handles := Ordered.insert Ordered.textBefore name place r.handles }

def bindListener (r : Registry) (name : String) (listener : Listener) : Registry :=
  { r with listeners := Ordered.insert Ordered.textBefore name listener r.listeners }

/-- What an act does and what comes of it.  An act on an unknown name does nothing. -/
def perform (r : Registry) : Act → Registry × Answer
  | .create name => (r.grow.bindHandle name r.signals.length, .nothing)
  | .clone name source =>
    match r.handle? source with
    | none => (r, .nothing)
    | some place => ((r.update place Signal.addHandle).bindHandle name place, .nothing)
  | .listen name source =>
    match r.handle? source with
    | none => (r, .nothing)
    | some place => (r.bindListener name (r.looked place), .nothing)
  | .cloneListener name source =>
    match r.listener? source with
    | none => (r, .nothing)
    | some listener => (r.bindListener name listener, .nothing)
  | .drop name => (r.dropHandle name, .nothing)
  | .dropListener name => (r.dropListener name, .nothing)
  | .raise name =>
    match r.handle? name with
    | none => (r, .nothing)
    | some place => (r.update place Signal.raise, .raised (r.signalAt place).raiseLog)
  | .wait name =>
    match r.listener? name with
    | none => (r, .nothing)
    | some listener =>
      let wait := (r.signalAt listener.place).poll
      (r.bindListener name (r.looked listener.place), .waited wait.ready wait.log)

/-- Whether each handle sees its signal raised. -/
def handleViews (r : Registry) : List (String × Bool) :=
  r.handles.map fun (name, place) => (name, (r.signalAt place).raised)

/-- Whether each listener has to stop. -/
def listenerViews (r : Registry) : List (String × Bool) :=
  r.listeners.map fun (name, listener) =>
    (name, (r.signalAt listener.place).stops listener.seen)

end Registry
end Signal
end LoadRamp
