/-!
# Client.Status — the states of transports and feeds

A transport goes from disconnected over connecting to connected and over disconnecting
back; a feed adds what the client makes of it. A feed is closed before its first opening
and after a loss, whether or not it is going to be reopened; it is closing while a
shutdown waits for its transport, and errored after an error of the transport or a failure
to open one, until it is opened again. The names are those that are shown.
-/

namespace MarketFeed.Client

/-- The state of a transport. -/
inductive Status where
  | disconnected
  | connecting
  | connected
  | disconnecting
deriving DecidableEq, Repr

def Status.name : Status → String
  | disconnected => "disconnected"
  | connecting => "connecting"
  | connected => "connected"
  | disconnecting => "disconnecting"

/-- The state of a feed. -/
inductive Phase where
  | closed
  | connecting
  | open
  | closing
  /-- The transport met an error or could not be opened. -/
  | errored
deriving DecidableEq, Repr

def Phase.name : Phase → String
  | closed => "closed"
  | connecting => "connecting"
  | .open => "open"
  | closing => "closing"
  | errored => "errored"

end MarketFeed.Client
