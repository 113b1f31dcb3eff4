import MarketFeed.Pipeline.Payload

/-!
# Pipeline.Notice — what the application is told

One kind of notice for everything: the life of connections, gaps, unreadable messages and
what the events of messages say. Each is delivered together with the books as they are at
that moment.

A notice always names its connection. The feed is named where the notice is about a
connection, and inferred from what is said where it is about an event: account and orders
are of the user feed, the rest of the market feed (`feed`). `label` is the name of its
kind.
-/

namespace MarketFeed.Pipeline

/-- What a notice says. -/
inductive Content where
  | connected (feed : Feed)
  | disconnected (feed : Feed)
  | error (feed : Feed) (message : String)
  /-- A number that does not follow the last one; messages may be missing. -/
  | gap (feed : Feed) (last received : Int)
  /-- A message that cannot be read, or one of its events. -/
  | malformed (feed : Feed) (reason : String)
  | event (sequence : Int) (payload : Payload)

/-- A notice about a connection. -/
structure Notice where
  connection : Connection
  content : Content

namespace Notice

/-- The feed that a notice is about; an event tells it by its form. -/
def feed (n : Notice) : Feed :=
  match n.content with
  | .connected f | .disconnected f | .error f _ | .gap f _ _ | .malformed f _ => f
  | .event _ payload => payload.feed

def label (n : Notice) : String :=
  match n.content with
  | .connected _ => "Connected"
  | .disconnected _ => "Disconnected"
  | .error _ _ => "Error"
  | .gap _ _ _ => "SequenceGap"
  | .malformed _ _ => "MalformedMessage"
  | .event _ payload =>
    match payload with
    | .levels _ _ => "Level2"
    | .trades _ _ => "MarketTrades"
    | .tickers _ _ _ => "Tickers"
    | .candles _ _ _ => "Candles"
    | .listings _ _ _ => "Status"
    | .account _ _ _ => "UserSnapshot"
    | .orders _ => "OrderUpdates"

end Notice

/-- A notice, and the books the application sees with it. -/
structure Delivery where
  notice : Notice
  books : Books

end MarketFeed.Pipeline
