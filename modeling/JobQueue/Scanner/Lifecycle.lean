/-
The life of a scanner: who scans, and how it is stopped.

Any number of starts and stops may be under way at once, each taking one small step at a time. A
start first claims the scanner, then subscribes to the stop signal, and then goes round: it looks
at the stop flag, plans its next run, and waits for the run or the signal. A stop first sets the
flag and then sends the signal to all who have subscribed by then; the signal stays with them
until they wait for it.
-/

import JobQueue.Error

namespace JobQueue.Scanner

/-- How far a start has come. Once it has subscribed, `signalled` says whether a stop signal
waits for it. -/
inductive StartState where
  | called
  | claimed
  | checking (signalled : Bool)
  | planning (signalled : Bool)
  | waiting (signalled : Bool)
  | scanning (signalled : Bool)
  | leaving
  | returned (result : Except JobError Unit)

/-- How far a stop has come. -/
inductive StopState where
  | flagged
  | returned
deriving DecidableEq, Repr

/-- What a start that finds another one running ends with. -/
def alreadyRunning : JobError := .configuration "Queue scanner already running"

/-- A start to which a signal has been sent, if it has subscribed. -/
def StartState.signal : StartState → StartState
  | .checking _ => .checking true
  | .planning _ => .planning true
  | .waiting _ => .waiting true
  | .scanning _ => .scanning true
  | s => s

/-- A scanner with all its starts and stops, in the order they were called. -/
structure Lifecycle where
  isRunning : Bool
  isStopping : Bool
  starts : List StartState
  stops : List StopState

/-- What can happen next. -/
inductive Event where
  /-- Somebody calls start. -/
  | start
  | claim (i : Nat)
  | subscribe (i : Nat)
  | check (i : Nat)
  /-- A start finds its next run, or finds that there is none. -/
  | plan (i : Nat) (hasRun : Bool)
  /-- The signal comes before the run. -/
  | hear (i : Nat)
  /-- The run comes before the signal. -/
  | tick (i : Nat)
  | scanned (i : Nat)
  | leave (i : Nat)
  /-- Somebody calls stop. -/
  | stop
  | send (j : Nat)

namespace Lifecycle

/-- A scanner that nobody has started. -/
def fresh : Lifecycle := ⟨false, false, [], []⟩

/-- The scanner with one start further on. -/
def setStart (l : Lifecycle) (i : Nat) (s : StartState) : Lifecycle :=
  { l with starts := l.starts.set i s }

/-- The scanner after a start has tried to claim it. -/
def claim (l : Lifecycle) (i : Nat) : Lifecycle :=
  if l.isRunning then l.setStart i (.returned (.error alreadyRunning))
  else { l with isRunning := true }.setStart i .claimed

/-- The scanner after an event, if the event can happen. -/
def step (l : Lifecycle) : Event → Option Lifecycle
  | .start => some { l with starts := l.starts ++ [.called] }
  | .claim i =>
      match l.starts[i]? with
      | some .called => some (l.claim i)
      | _ => none
  | .subscribe i =>
      match l.starts[i]? with
      | some .claimed => some (l.setStart i (.checking false))
      | _ => none
  | .check i =>
      match l.starts[i]? with
      | some (.checking signalled) =>
          some (l.setStart i (if l.isStopping then .leaving else .planning signalled))
      | _ => none
  | .plan i hasRun =>
      match l.starts[i]? with
      | some (.planning signalled) =>
          some (l.setStart i (if hasRun then .waiting signalled else .leaving))
      | _ => none
  | .hear i =>
      match l.starts[i]? with
      | some (.waiting true) => some (l.setStart i .leaving)
      | _ => none
  | .tick i =>
      match l.starts[i]? with
      | some (.waiting signalled) => some (l.setStart i (.scanning signalled))
      | _ => none
  | .scanned i =>
      match l.starts[i]? with
      | some (.scanning signalled) => some (l.setStart i (.checking signalled))
      | _ => none
  | .leave i =>
      match l.starts[i]? with
      | some .leaving => some ({ l with isRunning := false }.setStart i (.returned (.ok ())))
      | _ => none
  | .stop => some { l with isStopping := true, stops := l.stops ++ [.flagged] }
  | .send j =>
      match l.stops[j]? with
      | some .flagged =>
          some { l with starts := l.starts.map StartState.signal, stops := l.stops.set j .returned }
      | _ => none

/-- The scanner after a list of events, if each of them can happen in its turn. -/
def replay : Lifecycle → List Event → Option Lifecycle
  | l, [] => some l
  | l, e :: rest => (l.step e).bind fun l => replay l rest

/-- The scanner after an event; one that cannot happen changes nothing. -/
def after (l : Lifecycle) (e : Event) : Lifecycle := (l.step e).getD l

/-- How far a start has come. -/
def startOf? (l : Lifecycle) (i : Nat) : Option StartState := l.starts[i]?

/-- Whether a start is about to leave. -/
def isLeaving (l : Lifecycle) (i : Nat) : Bool :=
  match l.startOf? i with
  | some .leaving => true
  | _ => false

/-- Whether a signal waits for a start. -/
def isSignalled (l : Lifecycle) (i : Nat) : Bool :=
  match l.startOf? i with
  | some (.waiting signalled) => signalled
  | _ => false

/-- What a start has returned. -/
def resultOf? (l : Lifecycle) (i : Nat) : Option (Except JobError Unit) :=
  match l.startOf? i with
  | some (.returned r) => some r
  | _ => none

end Lifecycle

end JobQueue.Scanner
