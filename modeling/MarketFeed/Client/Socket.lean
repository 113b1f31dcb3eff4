import MarketFeed.Client.Status
import MarketFeed.FeedFailure

/-!
# Client.Socket — a connection attempt that gets nowhere

The client's transport over a socket, as far as it goes without a peer. One transport
makes one attempt. It can be opened once; it reports the error and its end only when its
task runs, never from within an operation. A close asked for before that ends the task
without an error. Messages are queued until the task has ended, and refused from then on.

What the attempt itself comes to is outside: `settle` is given the reason why there is no
connection, and one that succeeds is not modelled here. `Client.World` has transports that
connect.
-/

namespace MarketFeed.Client

/-- How far the attempt is. -/
inductive Attempt where
  | idle
  | pending
  | ended
deriving DecidableEq, Repr

/-- A transport for an address. -/
structure Socket where
  url : String
  status : Status
  attempt : Attempt
  closing : Bool
deriving DecidableEq, Repr

/-- What a socket reports. -/
inductive Report where
  | error (message : String)
  | disconnected
deriving DecidableEq, Repr

namespace Socket

def ofUrl (url : String) : Socket := ⟨url, .disconnected, .idle, false⟩

def start (s : Socket) : Except FeedFailure Unit × Socket :=
  match s.attempt with
  | .idle => (.ok (), { s with status := .connecting, attempt := .pending })
  | _ => (.error (.runtime ("transport for " ++ s.url ++ " already opened")), s)

def close (s : Socket) : Socket :=
  let status := match s.status with
    | .connecting | .connected => .disconnecting
    | other => other
  { s with status, closing := true }

def send (s : Socket) : Except FeedFailure Unit :=
  match s.attempt with
  | .ended => .error (.runtime ("connection to " ++ s.url ++ " has ended"))
  | _ => .ok ()

/-- Lets the task run to its end, if there is one; `reason` is why no connection can be made. -/
def settle (s : Socket) (reason : String) : List Report × Socket :=
  match s.attempt with
  | .pending =>
    let ended := { s with status := .disconnected, attempt := .ended }
    if s.closing then ([.disconnected], ended)
    else ([.error ("connect to " ++ s.url ++ " failed: " ++ reason), .disconnected], ended)
  | _ => ([], s)

end Socket

end MarketFeed.Client
