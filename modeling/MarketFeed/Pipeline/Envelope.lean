import MarketFeed.Wire.Channel

/-!
# Pipeline.Envelope — the outer form of every message

A message names its channel, its time and its number, and carries a list of events whose
form depends on the channel. The events are read in full here and interpreted one by one
later, so that a faulty one does not harm those before it.

A message of a channel that is not known, or of one without events to tell, still has an
envelope that has to be read; what sets it apart is its topic (`Topic.ofChannel`). Names
of channels are compared as they are. The channel of levels goes by the name it is
subscribed by and by the one that the venue gives it in messages, `level2` and `l2_data`.
-/

namespace MarketFeed.Pipeline

open Decode

/-- A message with its events as they came. -/
structure Envelope where
  channel : String
  time : Int
  sequence : Int
  events : List Json

namespace Envelope

/-- A message as a record. An event stands inside two brackets. -/
def shape : Shape Envelope where
  name := "Envelope"
  types := [String, Int, Int, List Json]
  fields := .cons (Wire.requiredText "channel") <| .cons (Wire.instant "timestamp") <|
    .cons (required "sequence_num" int64 Json.int) <|
    .cons (defaulted "events" (list (any 2)) Json.array []) .nil
  make := fun (channel, time, sequence, events, ()) => ⟨channel, time, sequence, events⟩
  row := fun e => (e.channel, e.time, e.sequence, e.events, ())

/-- A message from its bytes. -/
def read (bytes : Bytes) : Except Failure Envelope := ofText shape.decode bytes

end Envelope

/-- What the events of a message are about. -/
inductive Topic where
  | levels
  | trades
  | tickers
  | candles
  | listings
  | account
  /-- Signs of life and acknowledgements, which carry no events of interest. -/
  | control
  | unknown
deriving DecidableEq, Repr

namespace Topic

/-- The topic of a channel, under the names that messages use. -/
def ofChannel (name : String) : Topic :=
  if name ∈ ["l2_data", "level2"] then levels
  else if name = "market_trades" then trades
  else if name ∈ ["ticker", "ticker_batch"] then tickers
  else if name = "candles" then candles
  else if name = "status" then listings
  else if name = "user" then account
  else if name ∈ ["heartbeats", "heartbeat", "subscriptions", "futures_balance_summary"] then control
  else unknown

end Topic

end MarketFeed.Pipeline
