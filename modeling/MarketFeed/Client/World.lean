import MarketFeed.Callback
import MarketFeed.Client.Status
import MarketFeed.FeedFailure

/-!
# Client.World — what a client acts upon

The transports that were created, in order, each with the requests that were sent on it;
the clock; and the file of the traffic log. Whether an operation on a transport succeeds
is laid down in a plan, so that every course of events is some world: creating, opening
and sending are each counted, and the plan says which of them fail.

A transport is a number, and stays in the list when it has been closed, so that what was
sent on it can be asked at any time. Asking it to close a second time does nothing. It
says nothing by itself: its reports are made by whoever runs the world (`Client.Stage`).

The clock only goes forward, in nanoseconds since the start.
-/

namespace MarketFeed.Client

/-- Which attempts fail, each kind counted from zero. -/
structure Plan where
  refusesCreate : Nat → Bool
  /-- Counted as the attempts to create are. -/
  refusesOpen : Nat → Bool
  refusesSend : Nat → Bool

def Plan.smooth : Plan := ⟨fun _ => false, fun _ => false, fun _ => false⟩

/-- A transport: for which feed of which client, where to, its state, and what was sent on it. -/
structure Link where
  client : Nat
  origin : Origin
  url : String
  status : Status
  sent : List Request
deriving DecidableEq

/-- What a client acts upon. -/
structure World where
  plan : Plan
  links : List Link
  /-- Attempts to create a transport. -/
  creations : Nat
  /-- Attempts to send a request. -/
  sends : Nat
  /-- The transports that were asked to close, in the order of the first time. -/
  closings : List Nat
  /-- Nanoseconds since the start. -/
  clock : Nat
  file : Bytes

namespace World

def ofPlan (plan : Plan) : World := ⟨plan, [], 0, 0, [], 0, []⟩

def onLink (w : World) (i : Nat) (f : Link → Link) : World := { w with links := w.links.modify i f }

def status (w : World) (i : Nat) : Status := (w.links[i]?.map (·.status)).getD .disconnected

def setStatus (w : World) (i : Nat) (status : Status) : World := w.onLink i fun l => { l with status }

/-- Creates a transport and opens it; the answer is its number. -/
def connect (w : World) (client : Nat) (origin : Origin) (url : String) :
    Except FeedFailure Nat × World :=
  let attempt := w.creations
  let w := { w with creations := attempt + 1 }
  if w.plan.refusesCreate attempt then (.error (.runtime "create refused"), w)
  else
    let number := w.links.length
    let w := { w with links := w.links ++ [⟨client, origin, url, .disconnected, []⟩] }
    if w.plan.refusesOpen attempt then (.error (.runtime "open refused"), w)
    else (.ok number, w.setStatus number .connecting)

/-- Asks a transport to close; only the first time counts. -/
def close (w : World) (i : Nat) : World :=
  if i ∈ w.closings then w
  else { w.setStatus i .disconnecting with closings := w.closings ++ [i] }

/-- Sends a request on a transport. -/
def send (w : World) (i : Nat) (request : Request) : Except FeedFailure Unit × World :=
  let attempt := w.sends
  let w := { w with sends := attempt + 1 }
  if w.plan.refusesSend attempt then (.error (.runtime "send refused"), w)
  else (.ok (), w.onLink i fun l => { l with sent := l.sent ++ [request] })

/-- Puts bytes at the end of the file. -/
def append (w : World) (bytes : Bytes) : World := { w with file := w.file ++ bytes }

end World

end MarketFeed.Client
