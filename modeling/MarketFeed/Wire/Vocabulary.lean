import MarketFeed.Decode.Record

/-!
# Wire.Vocabulary — the venue's words

Sides have fixed spellings and anything else is refused. The other words are open: a text
that is not a known word, null and an absent field all mean "unknown", and known words are
matched without regard to case.

The open vocabularies are one class with one decoder; each type gives its known words and
the word that is written for the unknown one. What is unknown is not kept: it is written
as that word, whatever it was.
-/

namespace MarketFeed

open Decode

/-! ## Open vocabularies -/

/-- A set of known words with one value for everything else. -/
class Vocabulary (α : Type) where
  known : List α
  unknown : α
  word : α → String

namespace Vocabulary

variable {α : Type} [Vocabulary α]

/-- The meaning of a word. -/
def ofWord (s : String) : α :=
  ((known (α := α)).find? (fun a => sameIgnoringCase s.toList (word a).toList)).getD unknown

/-- A word or null. -/
def decode : Decoder α := fun src d => (optional string src d).map (fun s => (s.map ofWord).getD unknown)

def encode (a : α) : Json := .string (word a)

end Vocabulary

/-! ## Sides -/

/-- The side of an order or a level. -/
inductive Side where
  | buy
  | sell
deriving DecidableEq, Repr

namespace Side

instance : Inhabited Side := ⟨buy⟩

def opposite : Side → Side
  | buy => sell
  | sell => buy

/-- The spellings of a side: levels say bid and offer, orders and trades buy and sell. -/
def ofWord? (s : String) : Option Side :=
  if s ∈ ["BUY", "buy", "bid", "BID"] then some buy
  else if s ∈ ["SELL", "sell", "offer", "OFFER", "ask", "ASK"] then some sell
  else none

/-- The spelling that is written. -/
def word : Side → String
  | buy => "BUY"
  | sell => "SELL"

/-- One of the spellings. -/
def decode : Decoder Side := fun src d => do
  let s ← string src d
  match ofWord? s with
  | some side => .ok side
  | none => .error (.unrecognisedSide s)

/-- The spelling that is written. -/
def encode (s : Side) : Json := .string s.word

end Side

/-! ## Orders -/

/-- Where an order stands. -/
inductive OrderStatus where
  | pending | open | filled | cancelled | expired | failed | queued | cancelQueued | editQueued | unknown
deriving DecidableEq, Repr

instance : Vocabulary OrderStatus where
  known := [.pending, .open, .filled, .cancelled, .expired, .failed, .queued, .cancelQueued, .editQueued]
  unknown := .unknown
  word
    | .pending => "PENDING"
    | .open => "OPEN"
    | .filled => "FILLED"
    | .cancelled => "CANCELLED"
    | .expired => "EXPIRED"
    | .failed => "FAILED"
    | .queued => "QUEUED"
    | .cancelQueued => "CANCEL_QUEUED"
    | .editQueued => "EDIT_QUEUED"
    | .unknown => "UNKNOWN"

/-- Whether nothing more will happen to the order. -/
def OrderStatus.isTerminal : OrderStatus → Bool
  | .filled | .cancelled | .expired | .failed => true
  | _ => false

/-- The kind of an order. -/
inductive OrderType where
  | market | limit | stop | stopLimit | bracket | twap | rollOpen | rollClose | liquidation | scaled
  | unknown
deriving DecidableEq, Repr

instance : Vocabulary OrderType where
  known := [.market, .limit, .stop, .stopLimit, .bracket, .twap, .rollOpen, .rollClose, .liquidation,
    .scaled]
  unknown := .unknown
  word
    | .market => "MARKET"
    | .limit => "LIMIT"
    | .stop => "STOP"
    | .stopLimit => "STOP_LIMIT"
    | .bracket => "BRACKET"
    | .twap => "TWAP"
    | .rollOpen => "ROLL_OPEN"
    | .rollClose => "ROLL_CLOSE"
    | .liquidation => "LIQUIDATION"
    | .scaled => "SCALED"
    | .unknown => "UNKNOWN"

/-- How long an order stays. -/
inductive TimeInForce where
  | goodUntilDateTime | goodUntilCancelled | immediateOrCancel | fillOrKill | unknown
deriving DecidableEq, Repr

instance : Vocabulary TimeInForce where
  known := [.goodUntilDateTime, .goodUntilCancelled, .immediateOrCancel, .fillOrKill]
  unknown := .unknown
  word
    | .goodUntilDateTime => "GOOD_UNTIL_DATE_TIME"
    | .goodUntilCancelled => "GOOD_UNTIL_CANCELLED"
    | .immediateOrCancel => "IMMEDIATE_OR_CANCEL"
    | .fillOrKill => "FILL_OR_KILL"
    | .unknown => "UNKNOWN"

/-- Whether a contract ends. -/
inductive ContractExpiry where
  | expiring | perpetual | unknown
deriving DecidableEq, Repr

instance : Vocabulary ContractExpiry where
  known := [.expiring, .perpetual]
  unknown := .unknown
  word
    | .expiring => "EXPIRING"
    | .perpetual => "PERPETUAL"
    | .unknown => "UNKNOWN"

/-! ## Positions and listings -/

/-- The direction of a position. -/
inductive PositionSide where
  | long | short | unknown
deriving DecidableEq, Repr

instance : Vocabulary PositionSide where
  known := [.long, .short]
  unknown := .unknown
  word
    | .long => "LONG"
    | .short => "SHORT"
    | .unknown => "UNKNOWN"

/-- The kind of a product. -/
inductive ProductType where
  | spot | future | unknown
deriving DecidableEq, Repr

instance : Vocabulary ProductType where
  known := [.spot, .future]
  unknown := .unknown
  word
    | .spot => "SPOT"
    | .future => "FUTURE"
    | .unknown => "UNKNOWN"

end MarketFeed
