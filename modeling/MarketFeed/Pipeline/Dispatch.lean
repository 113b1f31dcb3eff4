import MarketFeed.Pipeline.Conveyor
import MarketFeed.Relay.Dock

/-!
# Pipeline.Dispatch — where callbacks go

Callbacks are handled at once, by the desk as they come or after the look at the roster,
or they are put on a queue. All feeds of all clients share one dispatch, which gives each
feed its slot (`register`), in the order in which they ask.

A route is the way from a callback to the desk: `direct` is the client's direct dispatch,
`queued` its queued one, and `bare` a router that is called without either. `take?` has no
answer where the callback has to wait for room on the queue; the two other routes always
have one.

Reading back what came of it, books, counters and the like, is by `desk`, which is the
same desk whatever the route.
-/

namespace MarketFeed.Pipeline

/-- The way from a callback to the desk. -/
inductive Route where
  /-- Straight to the desk. -/
  | bare (desk : Desk)
  /-- Straight to the desk, unless the connection has been replaced. -/
  | direct (intake : Intake)
  /-- Through the relay queue. -/
  | queued (conveyor : Conveyor)

/-- A route, and the next free slot. -/
structure Dispatch where
  route : Route
  nextSlot : UInt32

namespace Dispatch

def ofRoute (route : Route) : Dispatch := ⟨route, 0⟩

/-- The desk at the end of the route. -/
def desk (d : Dispatch) : Desk :=
  match d.route with
  | .bare desk => desk
  | .direct intake => intake.desk
  | .queued conveyor => conveyor.intake.desk

/-- Changes the desk at the end of the route. -/
def onDesk (d : Dispatch) (f : Desk → Desk) : Dispatch :=
  match d.route with
  | .bare desk => { d with route := .bare (f desk) }
  | .direct intake => { d with route := .direct { intake with desk := f intake.desk } }
  | .queued conveyor => { d with route := .queued { conveyor with intake.desk := f conveyor.intake.desk } }

def onBooks (d : Dispatch) (f : Books → Books) : Dispatch :=
  d.onDesk fun desk => { desk with books := f desk.books }

def ring? (d : Dispatch) : Option Relay.Ring :=
  match d.route with
  | .queued conveyor => some conveyor.ring
  | _ => none

def register (d : Dispatch) : UInt32 × Dispatch := (d.nextSlot, { d with nextSlot := d.nextSlot + 1 })

/-- Takes a callback; `none` when it has to wait for room on the queue. -/
def take? (d : Dispatch) (c : Callback) : Option (Outcome Dispatch) :=
  match d.route with
  | .bare desk => some ((desk.handle c).map fun desk => { d with route := .bare desk })
  | .direct intake => some ((intake.deliver c).map fun intake => { d with route := .direct intake })
  | .queued conveyor =>
    (conveyor.offer? c).map (·.map fun conveyor => { d with route := .queued conveyor })

/-- Puts a record on the queue as it is; `none` when it has to wait for room, or there is no queue. -/
def push? (d : Dispatch) (bytes : Bytes) : Option (Except Relay.DockFailure Unit × Dispatch) :=
  match d.route with
  | .queued conveyor =>
    match conveyor.ring.reserve bytes.length with
    | .granted grant ring =>
      some (.ok (), { d with route := .queued { conveyor with ring := ring.complete grant bytes } })
    | .refused refusal => some (.error (.refused refusal), d)
    | .overflow => some (.error .overflow, d)
    | .waits => none
  | _ => none

/-- Lets the processor work on the queue; the answer is the number of records it took. -/
def work (d : Dispatch) (f : Conveyor → Processed) : Nat × Outcome Dispatch :=
  match d.route with
  | .queued conveyor =>
    let p := f conveyor
    (p.records, p.outcome.map fun conveyor => { d with route := .queued conveyor })
  | _ => (0, ⟨[], d, .finished⟩)

/-- Takes at most `limit` records off the queue. -/
def process (limit : Nat) (d : Dispatch) : Nat × Outcome Dispatch := d.work (Conveyor.process limit)

def drain (d : Dispatch) : Nat × Outcome Dispatch := d.work Conveyor.drain

end Dispatch

end MarketFeed.Pipeline
