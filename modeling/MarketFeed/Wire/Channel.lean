import MarketFeed.SortedMap
import MarketFeed.Wire.Field

/-!
# Wire.Channel — feeds, channels and subscription requests

Every channel belongs to one of two feeds: the user feed needs credentials and carries the
state of the account, the market feed is public. A subscription request names one channel
and any number of products.

- channels are in their declared order (`rank`), in which they are subscribed anew;
- a request leaves out the products if there are none, and the token if there is none; the
  channel in it is a text, since a request that is read may name any;
- heartbeats are a channel of the market feed by name, but the user feed asks for them as
  well, which is a matter of the session.
-/

namespace MarketFeed

open Decode

/-! ## Feeds -/

/-- The two feeds. -/
inductive Feed where
  | market
  | user
deriving DecidableEq, Repr

namespace Feed

def all : List Feed := [market, user]

def name : Feed → String
  | market => "market"
  | user => "user"

def ofName? (s : String) : Option Feed := all.find? (·.name == s)

/-- The market feed comes first. -/
def rank : Feed → Nat
  | market => 0
  | user => 1

/-- The two feeds have different ranks. -/
theorem rank_inj {a b : Feed} (h : a.rank = b.rank) : a = b := by
  cases a <;> cases b <;> first | rfl | simp [rank] at h

instance : Inhabited Feed := ⟨market⟩

def decode : Decoder Feed := variant (all.map (fun f => (f.name, f)))

def encode (f : Feed) : Json := .string f.name

end Feed

/-! ## Channels -/

/-- What can be subscribed to. -/
inductive Channel where
  | heartbeats | level2 | marketTrades | ticker | tickerBatch | candles | status | user
  | futuresBalanceSummary
deriving DecidableEq, Repr

namespace Channel

def all : List Channel :=
  [heartbeats, level2, marketTrades, ticker, tickerBatch, candles, status, user, futuresBalanceSummary]

def name : Channel → String
  | heartbeats => "heartbeats"
  | level2 => "level2"
  | marketTrades => "market_trades"
  | ticker => "ticker"
  | tickerBatch => "ticker_batch"
  | candles => "candles"
  | status => "status"
  | user => "user"
  | futuresBalanceSummary => "futures_balance_summary"

/-- The channel of a name; heartbeats may be in the singular. -/
def ofName? (s : String) : Option Channel :=
  if s = "heartbeat" then some heartbeats else all.find? (·.name == s)

/-- The feed that serves a channel. -/
def feed : Channel → Feed
  | user | futuresBalanceSummary => .user
  | _ => .market

/-- The place of a channel in the order. -/
def rank : Channel → Nat
  | heartbeats => 0
  | level2 => 1
  | marketTrades => 2
  | ticker => 3
  | tickerBatch => 4
  | candles => 5
  | status => 6
  | user => 7
  | futuresBalanceSummary => 8

/-- Every channel has its own place. -/
theorem rank_inj {a b : Channel} (h : a.rank = b.rank) : a = b := by
  cases a <;> cases b <;> first | rfl | simp [rank] at h

instance : Inhabited Channel := ⟨heartbeats⟩

instance : Ord Channel := ⟨compareBy rank⟩
instance : Std.TransOrd Channel := transCmp_compareBy rank
instance : Std.LawfulEqOrd Channel := lawfulEqCmp_compareBy rank fun _ _ => rank_inj

def decode : Decoder Channel := variant (all.map (fun c => (c.name, c)))

def encode (c : Channel) : Json := .string c.name

end Channel

/-! ## Events -/

/-- Whether an event replaces what was known or adds to it. -/
inductive EventKind where
  | snapshot
  | update
deriving DecidableEq, Repr

namespace EventKind

def all : List EventKind := [snapshot, update]

def name : EventKind → String
  | snapshot => "snapshot"
  | update => "update"

def ofName? (s : String) : Option EventKind := all.find? (·.name == s)

def decode : Decoder EventKind := variant (all.map (fun k => (k.name, k)))

def encode (k : EventKind) : Json := .string k.name

end EventKind

/-! ## Requests -/

/-- Whether a request adds a subscription or ends one. -/
inductive RequestKind where
  | subscribe
  | unsubscribe
deriving DecidableEq, Repr

namespace RequestKind

def all : List RequestKind := [subscribe, unsubscribe]

def name : RequestKind → String
  | subscribe => "subscribe"
  | unsubscribe => "unsubscribe"

def ofName? (s : String) : Option RequestKind := all.find? (·.name == s)

def decode : Decoder RequestKind := variant (all.map (fun k => (k.name, k)))

def encode (k : RequestKind) : Json := .string k.name

end RequestKind

/-- A subscription request; the channel is kept as it was written. -/
structure Request where
  kind : RequestKind
  products : List Product
  channel : String
  token : Option String
deriving DecidableEq, Repr

namespace Request

def ofChannel (kind : RequestKind) (channel : Channel) (products : List Product)
    (token : Option String) : Request :=
  ⟨kind, products, channel.name, token⟩

/-- A request as a record; without products or token it leaves them out. -/
def shape : Shape Request where
  name := "SubscriptionRequest"
  types := [RequestKind, List Product, String, Option String]
  fields := .cons (required "type" RequestKind.decode RequestKind.encode) <|
    .cons ⟨"product_ids", list Product.decode,
      fun ps => if ps.isEmpty then none else some (.array (ps.map Product.encode)), some [], some []⟩ <|
    .cons (Wire.requiredText "channel") <|
    .cons ⟨"jwt", optional string, fun t => t.map .string, some none, some none⟩ .nil
  make := fun (kind, products, channel, token, ()) => ⟨kind, products, channel, token⟩
  row := fun r => (r.kind, r.products, r.channel, r.token, ())

def render (r : Request) : String := (shape.encode r).render

end Request

end MarketFeed
