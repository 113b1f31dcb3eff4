import MarketFeed.Client.Session
import MarketFeed.Pipeline.Dispatch

/-!
# Client.Stage — clients, transports and dispatch together

Several clients act upon one world and report to one dispatch. A callback of a transport
concerns two parties: the client that the transport belongs to, and the dispatch. The loss
of a connection is told to the dispatch first, so that a shutdown which sees the
connection gone knows that the dispatch has heard of it; everything else is told to the
client first (`report`).

The dispatch may have no room for a callback. Then the transport's thread waits, and so
does what is left of the callback (`Stage.waiting`): it is neither dropped nor done, and a
loss that waits has not reached the client. Whoever waits tries again when the processor
has worked on the queue (`work`).

Transports may confirm a close by themselves; then they do so in the order in which they
were asked. Timers go off in the order of their times, and only while somebody waits for
them. Where threads could run in several orders, the stage takes one; all of them are the
matter of the runs that theorems are about.

A `shutdown` is the client's own two parts with the transports' answers in between. It is
a success if both feeds have confirmed by then, and a client whose loss still waits for
room has not.
-/

namespace MarketFeed.Client

open Pipeline

/-- The clients, the world they act upon, and the dispatch they report to. -/
structure Stage where
  world : World
  clients : List Client
  dispatch : Dispatch
  /-- Whether transports confirm a close. -/
  confirming : Bool
  /-- How many closes transports have begun to confirm. -/
  confirmations : Nat
  /-- The callbacks that wait for room at the dispatch, each with the number of its client. -/
  waiting : List (Nat × Callback)

namespace Stage

/-- Clients with the same settings on one dispatch, each with its two slots. -/
def enroll (settings : Settings) (credential : Option Credential) :
    (count : Nat) → Dispatch → List Client → List Client × Dispatch
  | 0, d, clients => (clients, d)
  | n + 1, d, clients =>
    let (market, d) := d.register
    let (user, d) := d.register
    enroll settings credential n d (clients ++ [.new clients.length settings credential market user])

def new (plan : Plan) (confirming : Bool) (settings : Settings) (credential : Option Credential)
    (count : Nat) (route : Route) : Stage :=
  let (clients, dispatch) := enroll settings credential count (.ofRoute route) []
  ⟨.ofPlan plan, clients, dispatch, confirming, 0, []⟩

def session? (st : Stage) (k : Nat) : Option Session := st.clients[k]?.map fun c => ⟨c, st.world⟩

def putSession (st : Stage) (k : Nat) (s : Session) : Stage :=
  { st with world := s.world, clients := st.clients.set k s.client }

def act (st : Stage) (k : Nat) (f : Session → Session) : Stage :=
  match st.session? k with
  | some s => st.putSession k (f s)
  | none => st

/-! ## Callbacks -/

/-- A transport's state after a signal. -/
def statusAfter (signal : Signal) (status : Status) : Status :=
  match signal with
  | .connected => .connected
  | .disconnected => .disconnected
  | .error | .data => status

/-- Gives a callback to the dispatch; `none` while it has to wait for room. Of a loss the client hears then. -/
def hand? (st : Stage) (k : Nat) (c : Callback) : Option (Outcome Stage) :=
  (st.dispatch.take? c).map (·.map fun dispatch =>
    let st := { st with dispatch }
    if c.signal = .disconnected then st.act k (.react c) else st)

/-- Goes on with a callback that the dispatch is to take, or lets it wait. -/
def pass (st : Stage) (k : Nat) (c : Callback) : Outcome Stage :=
  (st.hand? k c).getD ⟨[], { st with waiting := st.waiting ++ [(k, c)] }, .finished⟩

/-- A callback is made. All but the losses get to the client before the dispatch. -/
def report (st : Stage) (k : Nat) (c : Callback) : Outcome Stage :=
  (if c.signal = .disconnected then st else st.act k (.react c)).pass k c

/-- A transport makes a callback. -/
def signal (st : Stage) (i : Nat) (signal : Signal) (payload : Bytes) : Outcome Stage :=
  match st.world.links[i]? with
  | none => ⟨[], st, .finished⟩
  | some link =>
    let st := { st with world := st.world.setStatus i (statusAfter signal link.status) }
    st.report link.client ⟨link.origin, signal, payload⟩

/-- Transports make the same callback in turn. -/
def signalEach (signal : Signal) : List Nat → Stage → Outcome Stage
  | [], st => ⟨[], st, .finished⟩
  | i :: rest, st =>
    let o := st.signal i signal []
    (signalEach signal rest o.state).after o.deliveries

/-- Transports confirm the closes that they have been asked for. -/
def confirm (st : Stage) : Outcome Stage :=
  if st.confirming then
    signalEach .disconnected (st.world.closings.drop st.confirmations)
      { st with confirmations := st.world.closings.length }
  else ⟨[], st, .finished⟩

/-- Callbacks that have waited try again in turn. -/
def passEach : List (Nat × Callback) → Stage → Outcome Stage
  | [], st => ⟨[], st, .finished⟩
  | (k, c) :: rest, st =>
    let o := st.pass k c
    (passEach rest o.state).after o.deliveries

/-- Lets the dispatch work, and then all callbacks that wait for room try again. The answer is the number of records
that were taken off the queue. -/
def work (st : Stage) (f : Dispatch → Nat × Outcome Dispatch) : Nat × Outcome Stage :=
  let (records, worked) := f st.dispatch
  let resumed := passEach st.waiting { st with dispatch := worked.state, waiting := [] }
  (records, ⟨worked.deliveries ++ resumed.deliveries, resumed.state, worked.ending⟩)

/-! ## Calls -/

/-- A client makes a call, and the closes that follow from it are confirmed. -/
def call (st : Stage) (k : Nat) (f : Session → Session.Result) :
    Option (Except FeedFailure Unit × Outcome Stage) :=
  (st.session? k).map fun s =>
    let (r, s) := f s
    (r, (st.putSession k s).confirm)

/-- Ends the shutdown of a client; the answer is whether both feeds had confirmed. -/
def endShutdown (st : Stage) (k : Nat) : Bool × Stage :=
  match st.session? k with
  | none => (true, st)
  | some s =>
    let (clean, s) := s.endClosing
    (clean, st.putSession k s)

/-- Shuts a client down while transports hang up in turn. A second shutdown does nothing. -/
def shutdown (st : Stage) (k : Nat) (hangUps : List Nat) : Bool × Outcome Stage :=
  if (st.clients[k]?.map (·.shuttingDown)).getD true then (true, ⟨[], st, .finished⟩)
  else
    let confirmed := (st.act k .beginClosing).confirm
    let gone := signalEach .disconnected hangUps confirmed.state
    let (clean, st) := gone.state.endShutdown k
    (clean, ⟨confirmed.deliveries ++ gone.deliveries, st, .finished⟩)

def shutdownAll : List Nat → Stage → Outcome Stage
  | [], st => ⟨[], st, .finished⟩
  | k :: rest, st =>
    let (_, o) := st.shutdown k []
    (shutdownAll rest o.state).after o.deliveries

def close (st : Stage) : Outcome Stage := shutdownAll (List.range st.clients.length) st

/-! ## Timers -/

/-- The timers of all clients, each with its client's number. -/
def timers (st : Stage) : List (Nat × Timer) :=
  st.clients.zipIdx.flatMap fun (c, k) => c.timers.map fun t => (k, t)

/-- The first of the timers that are due first. -/
def firstDue? : List (Nat × Timer) → Option (Nat × Timer)
  | [] => none
  | t :: rest =>
    match firstDue? rest with
    | some u => some (if u.2.due < t.2.due then u else t)
    | none => some t

/-- A client's timer goes off. -/
def fire (t : Timer) (s : Session) : Session :=
  let client := { s.client with timers := s.client.timers.erase t }
  Session.reopen t.feed ⟨client, { s.world with clock := max s.world.clock t.due }⟩

/-- Waits until transports have been asked for so many times; every timer that goes off is one less or one attempt
more, so `fuel` bounds both. -/
def awaitFrom (creations : Nat) : (fuel : Nat) → Stage → Outcome Stage
  | 0, st => ⟨[], st, .finished⟩
  | fuel + 1, st =>
    if creations ≤ st.world.creations then ⟨[], st, .finished⟩
    else
      match firstDue? st.timers with
      | none => ⟨[], st, .finished⟩
      | some (k, t) =>
        let o := (st.act k (fire t)).confirm
        (awaitFrom creations fuel o.state).after o.deliveries

/-- Waits until transports have been asked for so many times. -/
def await (creations : Nat) (st : Stage) : Outcome Stage :=
  awaitFrom creations (creations + st.timers.length) st

end Stage

end MarketFeed.Client
