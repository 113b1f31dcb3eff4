import MarketFeed.Wire.Field

/-!
# Wire.Market — what the market data feed reports

Changes of price levels, trades, tickers, candles and the listing of products. Each record
has a shape, which reads and writes it; the amounts that can be computed from a record
alone (spread, notional) stand beside it.

- a batch of changes names its product once, for all its changes;
- the start of a candle is a plain number of seconds, everywhere else a time is an
  instant;
- a spread needs both prices to be quoted, which is not to be zero; like a notional it is
  a checked operation on decimals, and one out of range has no answer.
-/

namespace MarketFeed

open Decode

/-! ## Price levels -/

/-- The new quantity of one price level. -/
structure LevelChange where
  side : Side
  time : Int
  price : Price
  quantity : Quantity
deriving DecidableEq

namespace LevelChange

def shape : Shape LevelChange where
  name := "Level2Update"
  types := [Side, Int, Price, Quantity]
  fields := .cons (Wire.side "side") <| .cons (Wire.instant "event_time") <|
    .cons (Wire.requiredPrice "price_level") <| .cons (Wire.requiredQuantity "new_quantity") .nil
  make := fun (side, time, price, quantity, ()) => ⟨side, time, price, quantity⟩
  row := fun c => (c.side, c.time, c.price, c.quantity, ())

end LevelChange

/-- The changes of one product in one message. -/
structure LevelBatch where
  product : Product
  changes : List LevelChange
deriving DecidableEq

namespace LevelBatch

def shape : Shape LevelBatch where
  name := "Level2Batch"
  types := [Product, List LevelChange]
  fields := .cons (Wire.product "product_id") <|
    .cons (defaulted "updates" (list LevelChange.shape.decode)
      (fun cs => .array (cs.map LevelChange.shape.encode)) []) .nil
  make := fun (product, changes, ()) => ⟨product, changes⟩
  row := fun b => (b.product, b.changes, ())

end LevelBatch

/-! ## Trades -/

/-- One trade. -/
structure Trade where
  id : String
  product : Product
  price : Price
  size : Quantity
  side : Side
  time : Int
deriving DecidableEq

namespace Trade

def shape : Shape Trade where
  name := "MarketTrade"
  types := [String, Product, Price, Quantity, Side, Int]
  fields := .cons (Wire.requiredText "trade_id") <| .cons (Wire.product "product_id") <|
    .cons (Wire.requiredPrice "price") <| .cons (Wire.requiredQuantity "size") <|
    .cons (Wire.side "side") <| .cons (Wire.instant "time") .nil
  make := fun (id, product, price, size, side, time, ()) => ⟨id, product, price, size, side, time⟩
  row := fun t => (t.id, t.product, t.price, t.size, t.side, t.time, ())

def notional? (t : Trade) : Option Decimal := Decimal.mul? t.price.value t.size.value

end Trade

/-! ## Tickers -/

/-- A summary of one product's market. -/
structure Ticker where
  product : Product
  price : Price
  volume24h : Decimal
  low24h : Price
  high24h : Price
  low52w : Price
  high52w : Price
  change24h : Decimal
  bestBid : Price
  bestBidQuantity : Quantity
  bestAsk : Price
  bestAskQuantity : Quantity
deriving DecidableEq

namespace Ticker

def shape : Shape Ticker where
  name := "Ticker"
  types := [Product, Price, Decimal, Price, Price, Price, Price, Decimal, Price, Quantity, Price,
    Quantity]
  fields := .cons (Wire.product "product_id") <| .cons (Wire.price "price") <|
    .cons (Wire.decimal "volume_24_h") <| .cons (Wire.price "low_24_h") <|
    .cons (Wire.price "high_24_h") <| .cons (Wire.price "low_52_w") <| .cons (Wire.price "high_52_w") <|
    .cons (Wire.decimal "price_percent_chg_24_h") <| .cons (Wire.price "best_bid") <|
    .cons (Wire.quantity "best_bid_quantity") <| .cons (Wire.price "best_ask") <|
    .cons (Wire.quantity "best_ask_quantity") .nil
  make := fun (product, price, volume24h, low24h, high24h, low52w, high52w, change24h, bestBid,
      bestBidQuantity, bestAsk, bestAskQuantity, ()) =>
    ⟨product, price, volume24h, low24h, high24h, low52w, high52w, change24h, bestBid, bestBidQuantity,
      bestAsk, bestAskQuantity⟩
  row := fun t => (t.product, t.price, t.volume24h, t.low24h, t.high24h, t.low52w, t.high52w,
    t.change24h, t.bestBid, t.bestBidQuantity, t.bestAsk, t.bestAskQuantity, ())

/-- Ask less bid when both are quoted; the outer `none` is a difference out of range. -/
def spread? (t : Ticker) : Option (Option Decimal) :=
  if t.bestBid.isZero || t.bestAsk.isZero then some none
  else (Decimal.sub? t.bestAsk.value t.bestBid.value).map some

end Ticker

/-! ## Candles -/

/-- Prices and volume of one interval. -/
structure Candle where
  product : Product
  start : Int
  opening : Price
  high : Price
  low : Price
  close : Price
  volume : Decimal
deriving DecidableEq

namespace Candle

def shape : Shape Candle where
  name := "Candle"
  types := [Product, Int, Price, Price, Price, Price, Decimal]
  fields := .cons (Wire.product "product_id") <| .cons (Wire.integer "start") <|
    .cons (Wire.requiredPrice "open") <| .cons (Wire.requiredPrice "high") <|
    .cons (Wire.requiredPrice "low") <| .cons (Wire.requiredPrice "close") <|
    .cons (Wire.decimal "volume") .nil
  make := fun (product, start, opening, high, low, close, volume, ()) =>
    ⟨product, start, opening, high, low, close, volume⟩
  row := fun c => (c.product, c.start, c.opening, c.high, c.low, c.close, c.volume, ())

end Candle

/-! ## Listings -/

/-- How a product is traded. -/
structure Listing where
  kind : ProductType
  product : Product
  baseCurrency : String
  quoteCurrency : String
  baseIncrement : Decimal
  quoteIncrement : Decimal
  displayName : String
  status : String
  statusMessage : String
  minMarketFunds : Decimal
deriving DecidableEq

namespace Listing

def shape : Shape Listing where
  name := "ProductStatus"
  types := [ProductType, Product, String, String, Decimal, Decimal, String, String, String, Decimal]
  fields := .cons (Wire.word "product_type") <| .cons (Wire.product "id") <|
    .cons (Wire.text "base_currency") <| .cons (Wire.text "quote_currency") <|
    .cons (Wire.decimal "base_increment") <| .cons (Wire.decimal "quote_increment") <|
    .cons (Wire.text "display_name") <| .cons (Wire.text "status") <|
    .cons (Wire.text "status_message") <| .cons (Wire.decimal "min_market_funds") .nil
  make := fun (kind, product, baseCurrency, quoteCurrency, baseIncrement, quoteIncrement, displayName,
      status, statusMessage, minMarketFunds, ()) =>
    ⟨kind, product, baseCurrency, quoteCurrency, baseIncrement, quoteIncrement, displayName, status,
      statusMessage, minMarketFunds⟩
  row := fun l => (l.kind, l.product, l.baseCurrency, l.quoteCurrency, l.baseIncrement,
    l.quoteIncrement, l.displayName, l.status, l.statusMessage, l.minMarketFunds, ())

end Listing

end MarketFeed
