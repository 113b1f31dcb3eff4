import MarketFeed.Books
import MarketFeed.Pipeline.Envelope
import MarketFeed.Wire.Account

/-!
# Pipeline.Payload — what an event says

An event is tagged as a snapshot or an update; one with another tag is passed over.
`Payload.ofEvent` reads it by the topic of its message, and `Payload.applyTo` says what it
does to the books. Reading comes first in full, so an event that cannot be read does
nothing.

- one form for each topic, with snapshots and updates alike but for the account: its
  snapshot has orders and positions, its updates have orders only;
- levels and trades do something to the books, the rest is only told. Trades of a snapshot
  are told but not applied;
- orders of a snapshot have their terms worked out, which takes a sum of two amounts; a
  sum out of range is a failure of its own (`EventFailure.overflow`), since it stops the
  message and is not reported.
-/

namespace MarketFeed.Pipeline

open Decode

/-- What an event says. -/
inductive Payload where
  | levels (kind : EventKind) (batch : LevelBatch)
  | trades (kind : EventKind) (trades : List Trade)
  | tickers (kind : EventKind) (time : Int) (tickers : List Ticker)
  | candles (kind : EventKind) (time : Int) (candles : List Candle)
  | listings (kind : EventKind) (time : Int) (listings : List Listing)
  /-- All open orders and positions. -/
  | account (orders : List Order) (perpetual : List PerpetualPosition) (expiring : List ExpiringPosition)
  | orders (orders : List Order)

/-- Why an event cannot be taken. -/
inductive EventFailure where
  | decode (failure : Failure)
  /-- A number that follows from it is out of range. -/
  | overflow

namespace Payload

/-- The feed that events of this form come from. -/
def feed : Payload → Feed
  | account _ _ _ | orders _ => .user
  | _ => .market

/-! ## Reading -/

/-- A record with one list, which may be missing. -/
def listShape {α : Type} (name field : String) (item : Shape α) : Shape (List α) where
  name := name
  types := [List α]
  fields := .cons (defaulted field (list item.decode) (fun as => .array (as.map item.encode)) []) .nil
  make := fun (as, ()) => as
  row := fun as => (as, ())

/-- Perpetual and expiring positions, either of which may be missing. -/
def positionsShape : Shape (List PerpetualPosition × List ExpiringPosition) where
  name := "Positions"
  types := [List PerpetualPosition, List ExpiringPosition]
  fields := .cons (defaulted "perpetual_futures_positions" (list PerpetualPosition.shape.decode)
      (fun ps => .array (ps.map PerpetualPosition.shape.encode)) []) <|
    .cons (defaulted "expiring_futures_positions" (list ExpiringPosition.shape.decode)
      (fun ps => .array (ps.map ExpiringPosition.shape.encode)) []) .nil
  make := fun (perpetual, expiring, ()) => (perpetual, expiring)
  row := fun (perpetual, expiring) => (perpetual, expiring, ())

/-- A reading by a shape. -/
def read {α : Type} (shape : Shape α) (event : Json) : Except EventFailure α :=
  (Decode.ofValue shape.decode event).mapError .decode

/-- The tag of an event. -/
def kindOf? (event : Json) : Option EventKind :=
  ((event.member? "type").bind Json.text?).bind EventKind.ofName?

/-- The orders of an account event as they came; none unless there is a list of them. -/
def ordersOf (event : Json) : List Json := ((event.member? "orders").bind Json.items?).getD []

def snapshotOrder (v : Json) : Except EventFailure Order :=
  match Order.ofSnapshot v with
  | .ok o => .ok o
  | .error (.decode failure) => .error (.decode failure)
  | .error .overflow => .error .overflow

def updateOrder (v : Json) : Except EventFailure Order := (Order.ofUpdate v).mapError .decode

/-- The positions of an account event; none when the member is missing or null. -/
def positionsOf (event : Json) : Except EventFailure (List PerpetualPosition × List ExpiringPosition) :=
  match event.member? "positions" with
  | none | some .null => .ok ([], [])
  | some v => read positionsShape v

def ofAccountEvent (kind : EventKind) (event : Json) : Except EventFailure Payload :=
  match kind with
  | .snapshot => do
    let orders ← (ordersOf event).mapM snapshotOrder
    let (perpetual, expiring) ← positionsOf event
    .ok (account orders perpetual expiring)
  | .update => do
    let orders ← (ordersOf event).mapM updateOrder
    .ok (.orders orders)

/-- What an event of a topic says; nothing when its tag is not known or the topic has no events. -/
def ofEvent (topic : Topic) (time : Int) (event : Json) : Except EventFailure (Option Payload) :=
  match kindOf? event with
  | none => .ok none
  | some kind =>
    match topic with
    | .levels => do .ok (some (levels kind (← read LevelBatch.shape event)))
    | .trades => do .ok (some (trades kind (← read (listShape "TradesEvent" "trades" Trade.shape) event)))
    | .tickers => do
      .ok (some (tickers kind time (← read (listShape "TickersEvent" "tickers" Ticker.shape) event)))
    | .candles => do
      .ok (some (candles kind time (← read (listShape "CandlesEvent" "candles" Candle.shape) event)))
    | .listings => do
      .ok (some (listings kind time (← read (listShape "StatusEvent" "products" Listing.shape) event)))
    | .account => do .ok (some (← ofAccountEvent kind event))
    | .control | .unknown => .ok none

/-! ## Effect -/

/-- The books after an event. A snapshot of trades is recent history that the books hold already. Without an
outcome, a quantity went out of range, and the books are as far as the event got. -/
def applyTo (books : Books) : Payload → Option BatchOutcome × Books
  | levels .snapshot batch => (some .zero, books.snapshot batch.product batch.changes)
  | levels .update batch =>
    let (outcome, books) := books.change batch.product batch.changes
    (some outcome, books)
  | trades .update ts => books.trade ts
  | _ => (some .zero, books)

end Payload

end MarketFeed.Pipeline
