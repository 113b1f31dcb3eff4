import MarketFeed.SortedMap
import MarketFeed.Wire.Market

/-!
# Book — the resting quantities of one product

Mirrors the client's order book, one operation for one: `apply_snapshot` is `snapshot`,
`apply_update` is `change`, `apply_updates` is `changeAll`, `apply_trade` is `trade?`. A
snapshot replaces the levels, a change sets the quantity of one level, a trade takes
quantity away from one. Levels without quantity are not kept. Every change and trade has
an event time, and one that is not later than the latest the book has seen is stale: it is
passed over, and the answer says so (`Effect`).

A trade takes from the side it names: buying trades from the bids, selling trades from the
asks. What it takes is computed as a checked difference, so a trade may have no outcome;
the program stops there, with the book as it was.

- a side is a sorted map from prices, so best levels and depth are read off its ends;
- a snapshot sets the time of the book to its latest change, wherever the book was before,
  and passes over its entries without quantity (`addEntry`);
- `mid?` and `spread?` are decimals, of two prices that are exact.
-/

namespace MarketFeed

open Decode

/-- The levels of one side: the resting quantity at each price. -/
abbrev Levels := SortedMap Price Quantity

/-- The book of a product. -/
structure Book where
  product : Product
  bids : Levels
  asks : Levels
  /-- The latest event time seen. -/
  time : Int
deriving DecidableEq

/-- A price with its resting quantity. -/
structure Level where
  price : Price
  quantity : Quantity
deriving DecidableEq

namespace Level

instance : Inhabited Level := ⟨⟨default, default⟩⟩

def shape : Shape Level where
  name := "PriceLevel"
  types := [Price, Quantity]
  fields := .cons (Wire.requiredPrice "price") <| .cons (Wire.requiredQuantity "quantity") .nil
  make := fun (price, quantity, ()) => ⟨price, quantity⟩
  row := fun l => (l.price, l.quantity, ())

end Level

/-- The best levels of a book. -/
structure Depth where
  product : Product
  bids : List Level
  asks : List Level
  time : Int
deriving DecidableEq

namespace Depth

/-- A list of levels, which has to be there. -/
def levels (name : String) : FieldCodec (List Level) :=
  required name (list Level.shape.decode) (fun ls => .array (ls.map Level.shape.encode))

/-- A depth as a record; its time is a number here. -/
def shape : Shape Depth where
  name := "DepthSnapshot"
  types := [Product, List Level, List Level, Int]
  fields := .cons (Wire.product "product_id") <| .cons (levels "bids") <| .cons (levels "asks") <|
    .cons (required "last_event_time" int64 Json.int) .nil
  make := fun (product, bids, asks, time, ()) => ⟨product, bids, asks, time⟩
  row := fun d => (d.product, d.bids, d.asks, d.time, ())

end Depth

/-- What became of a change or a trade. -/
inductive Effect where
  | applied
  /-- It came too late and did nothing. -/
  | stale
deriving DecidableEq, Repr

namespace Book

/-- The book of a product nothing is known of. -/
def empty (product : Product) : Book := ⟨product, .empty, .empty, 0⟩

instance : Inhabited Book := ⟨empty default⟩

def side (b : Book) : Side → Levels
  | .buy => b.bids
  | .sell => b.asks

def onSide (b : Book) (s : Side) (f : Levels → Levels) : Book :=
  match s with
  | .buy => { b with bids := f b.bids }
  | .sell => { b with asks := f b.asks }

/-! ## Changing the book -/

/-- The levels with a quantity set at a price, and without the level when the quantity is nothing. -/
def setLevel (price : Price) (quantity : Quantity) (levels : Levels) : Levels :=
  if quantity.isEmpty then levels.erase price else levels.insert price quantity

/-- One entry of a snapshot; one without quantity does not count. -/
def addEntry (b : Book) (c : LevelChange) : Book :=
  if c.quantity.isEmpty then b else b.onSide c.side (·.insert c.price c.quantity)

/-- The latest of the event times that are set. -/
def latest? (changes : List LevelChange) : Option Int :=
  ((changes.map (·.time)).filter (· ≠ 0)).max?

/-- Replaces all levels. The book's time becomes the latest of the snapshot's, which may be earlier than before,
and stays if the snapshot has no times. -/
def snapshot (b : Book) (changes : List LevelChange) : Book :=
  { changes.foldl addEntry { b with bids := .empty, asks := .empty } with
    time := (latest? changes).getD b.time }

def change (b : Book) (c : LevelChange) : Effect × Book :=
  if c.time ≤ b.time then (.stale, b)
  else (.applied, { b.onSide c.side (setLevel c.price c.quantity) with time := c.time })

/-- Sets levels in turn and counts the stale changes. -/
def changeAll : Book → List LevelChange → Nat × Book
  | b, [] => (0, b)
  | b, c :: rest =>
    let (effect, b) := b.change c
    let (stale, b) := changeAll b rest
    (stale + (if effect = .stale then 1 else 0), b)

/-- The levels after a trade; `none` when the remaining quantity is out of range. A level that is not there
stays so. -/
def deplete? (price : Price) (size : Quantity) (levels : Levels) : Option Levels :=
  match levels.get? price with
  | none => some levels
  | some resting =>
    (resting.minus? size).map fun left =>
      if left.isZero then levels.erase price else levels.insert price left

/-- Takes the size of a trade away from its level; `none` when the remaining quantity is out of range. The
event time counts even if the level is not there. -/
def trade? (b : Book) (side : Side) (price : Price) (size : Quantity) (time : Int) : Option (Effect × Book) :=
  if time ≤ b.time then some (.stale, b)
  else
    (deplete? price size (b.side side)).map fun levels =>
      (.applied, { b.onSide side (fun _ => levels) with time })

/-! ## Reading the book -/

/-- The bids, the highest first. -/
def bidLevels (b : Book) : List Level := (b.bids.entries.map fun e => ⟨e.1, e.2⟩).reverse

/-- The asks, the lowest first. -/
def askLevels (b : Book) : List Level := b.asks.entries.map fun e => ⟨e.1, e.2⟩

def bestBid? (b : Book) : Option Level := b.bids.last?.map fun e => ⟨e.1, e.2⟩

def bestAsk? (b : Book) : Option Level := b.asks.first?.map fun e => ⟨e.1, e.2⟩

/-- The quantity resting at a price. -/
def quantityAt? (b : Book) (s : Side) (p : Price) : Option Quantity := (b.side s).get? p

/-- At most `n` levels of each side, the best first. -/
def depth (b : Book) (n : Nat) : Depth :=
  ⟨b.product, b.bidLevels.take n, b.askLevels.take n, b.time⟩

def fullDepth (b : Book) : Depth := ⟨b.product, b.bidLevels, b.askLevels, b.time⟩

def isEmpty (b : Book) : Bool := b.bids.isEmpty && b.asks.isEmpty

/-- A number from the best bid and the best ask when there are both; the outer `none` is a number out of
range. -/
def fromBest? (b : Book) (f : Decimal → Decimal → Option Decimal) : Option (Option Decimal) :=
  match b.bestBid?, b.bestAsk? with
  | some bid, some ask => (f bid.price.value ask.price.value).map some
  | _, _ => some none

/-- The price halfway between the best bid and the best ask. -/
def mid? (b : Book) : Option (Option Decimal) :=
  b.fromBest? fun bid ask => (Decimal.add? bid ask).bind Decimal.half?

/-- The best ask less the best bid. -/
def spread? (b : Book) : Option (Option Decimal) :=
  b.fromBest? fun bid ask => Decimal.sub? ask bid

end Book

end MarketFeed
