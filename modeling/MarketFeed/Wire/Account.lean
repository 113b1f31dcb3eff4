import MarketFeed.Wire.Field

/-!
# Wire.Account — what the user feed reports

The orders and futures positions of one account. An order's terms are not sent: for an
order of a snapshot they are worked out from its type and prices (`Order.termsFor`), and a
price counts as set unless the field is absent or null. An empty text is a price of zero,
not an unset one.

- the size that the terms need is the sum of what is done and what is left, which is made
  before the type is looked at; an order whose sum is out of range has no answer
  (`SnapshotFailure.overflow`);
- `ofUpdate` reads an order as it is sent, `ofSnapshot` adds the terms;
- terms as such are an enumeration with its tag among the members (`kind`), so that
  decoding sets the members aside until the tag is found, wherever it stands
  (`setAsideMembers`);
- positions are of two kinds, perpetual and expiring, and only read and written;
  `totalPnl?` is the sum of what is realised and what is not.
-/

namespace MarketFeed

open Decode

/-! ## Order terms -/

/-- The terms of an order. -/
inductive OrderTerms where
  | market (baseSize : Quantity)
  | limit (timeInForce : TimeInForce) (baseSize : Quantity) (limitPrice : Price) (postOnly : Bool)
  | stopLimit (timeInForce : TimeInForce) (baseSize : Quantity) (limitPrice stopPrice : Price)
deriving DecidableEq

namespace OrderTerms

/-- A time in force that has to be there in an array and is unknown when an object has none. -/
def timeInForce : FieldCodec TimeInForce :=
  ⟨"time_in_force", Vocabulary.decode, fun t => some (Vocabulary.encode t), some .unknown, none⟩

def marketShape : Shape Quantity where
  name := "variant OrderConfiguration::Market"
  types := [Quantity]
  fields := .cons (Wire.requiredQuantity "base_size") .nil
  make := fun (q, ()) => q
  row := fun q => (q, ())

def limitShape : Shape (TimeInForce × Quantity × Price × Bool) where
  name := "variant OrderConfiguration::Limit"
  types := [TimeInForce, Quantity, Price, Bool]
  fields := .cons timeInForce <| .cons (Wire.requiredQuantity "base_size") <|
    .cons (Wire.requiredPrice "limit_price") <| .cons (required "post_only" boolean Json.bool) .nil
  make := fun (t, q, p, b, ()) => (t, q, p, b)
  row := fun (t, q, p, b) => (t, q, p, b, ())

def stopLimitShape : Shape (TimeInForce × Quantity × Price × Price) where
  name := "variant OrderConfiguration::StopLimit"
  types := [TimeInForce, Quantity, Price, Price]
  fields := .cons timeInForce <| .cons (Wire.requiredQuantity "base_size") <|
    .cons (Wire.requiredPrice "limit_price") <| .cons (Wire.requiredPrice "stop_price") .nil
  make := fun (t, q, p, s, ()) => (t, q, p, s)
  row := fun (t, q, p, s) => (t, q, p, s, ())

/-- The kinds of terms. -/
inductive Kind where
  | market | limit | stopLimit
deriving DecidableEq, Repr

def kinds : List (String × Kind) := [("market", .market), ("limit", .limit), ("stop_limit", .stopLimit)]

/-- The field that holds the tag. -/
def tag : String := "kind"

/-- The terms of a kind, from what stands beside the tag. -/
def decodeKind (kind : Kind) (d : Json.Draft) : Except Failure OrderTerms :=
  match kind with
  | .market => (marketShape.decode .setAside d).map .market
  | .limit => (limitShape.decode .setAside d).map fun (t, q, p, b) => .limit t q p b
  | .stopLimit => (stopLimitShape.decode .setAside d).map fun (t, q, p, s) => .stopLimit t q p s

/-- The kind that a tag names. -/
def decodeTag : Decoder Kind
  | _, .string name => lookUp kinds name
  | _, d => .error (refuse "variant identifier" d)

/-- Looks for the tag among the members and sets the others aside, reading them in full. -/
def setAsideMembers (src : Source) : List (Option String × Json.Draft) → Option Kind →
    Except Failure (Option Kind × List (Option String × Json.Draft))
  | [], kind => .ok (kind, [])
  | (none, _) :: _, _ => .error (.flaw .malformed)
  | (some name, d) :: rest, kind =>
    if name = tag then
      if kind.isSome then .error (.duplicateField tag)
      else do
        let k ← decodeTag src d
        setAsideMembers src rest (some k)
    else do
      let v ← any 1 src d
      let (kind, others) ← setAsideMembers src rest kind
      .ok (kind, (some name, .ofValue v) :: others)

/-- Terms as a record with a tag. -/
def decode : Decoder OrderTerms
  | src, .object members ending => do
    let (kind, others) ← setAsideMembers src members none
    flawless (Json.Draft.close ending)
    match kind with
    | none => .error (.missingField tag)
    | some k => decodeKind k (.object others none)
  | src, .array (first :: rest) ending => do
    let k ← decodeTag src first
    let others ← listItems (any 1) src rest
    flawless (Json.Draft.close ending)
    decodeKind k (.array (others.map .ofValue) none)
  | _, .array [] ending => do
    flawless (Json.Draft.close ending)
    .error (.missingField tag)
  | _, d => .error (refuse "internally tagged enum OrderConfiguration" d)

/-- The tag, then the fields of its kind. -/
def encode (terms : OrderTerms) : Json :=
  let tagged (name : String) (fields : Json) : Json :=
    match fields with
    | .object members => .object ((tag, .string name) :: members)
    | other => other
  match terms with
  | .market q => tagged "market" (marketShape.encode q)
  | .limit t q p b => tagged "limit" (limitShape.encode (t, q, p, b))
  | .stopLimit t q p s => tagged "stop_limit" (stopLimitShape.encode (t, q, p, s))

end OrderTerms

/-! ## Orders -/

/-- An order of the account. -/
structure Order where
  id : String
  clientId : String
  product : Product
  side : Side
  status : OrderStatus
  type : OrderType
  timeInForce : TimeInForce
  contractExpiry : ContractExpiry
  averagePrice : Decimal
  cumulativeQuantity : Decimal
  leavesQuantity : Decimal
  filledValue : Decimal
  completion : Decimal
  fills : Int
  totalFees : Decimal
  totalValueAfterFees : Decimal
  outstandingHold : Decimal
  limitPrice : Option Price
  stopPrice : Option Price
  postOnly : Bool
  created : Int
  rejectReason : String
  portfolio : String
  triggerStatus : String
  /-- Worked out for an order of a snapshot, never sent. -/
  terms : Option OrderTerms
deriving DecidableEq

namespace Order

/-- An order as a record; the terms are no part of it. -/
def shape : Shape Order where
  name := "UserOrder"
  types := [String, String, Product, Side, OrderStatus, OrderType, TimeInForce, ContractExpiry, Decimal,
    Decimal, Decimal, Decimal, Decimal, Int, Decimal, Decimal, Decimal, Option Price, Option Price, Bool,
    Int, String, String, String]
  fields := .cons (Wire.requiredText "order_id") <| .cons (Wire.text "client_order_id") <|
    .cons (Wire.product "product_id") <| .cons (Wire.side "order_side") <|
    .cons (Wire.word "status") <| .cons (Wire.word "order_type") <| .cons (Wire.word "time_in_force") <|
    .cons (Wire.word "contract_expiry_type") <| .cons (Wire.decimal "avg_price") <|
    .cons (Wire.decimal "cumulative_quantity") <| .cons (Wire.decimal "leaves_quantity") <|
    .cons (Wire.decimal "filled_value") <| .cons (Wire.decimal "completion_percentage") <|
    .cons (Wire.integer "number_of_fills") <| .cons (Wire.decimal "total_fees") <|
    .cons (Wire.decimal "total_value_after_fees") <| .cons (Wire.decimal "outstanding_hold_amount") <|
    .cons (Wire.optionalPrice "limit_price") <| .cons (Wire.optionalPrice "stop_price") <|
    .cons (Wire.flag "post_only") <| .cons (Wire.instant "creation_time") <|
    .cons (Wire.text "reject_Reason") <| .cons (Wire.text "retail_portfolio_id") <|
    .cons (Wire.text "trigger_status") .nil
  make := fun (id, clientId, product, side, status, type, timeInForce, contractExpiry, averagePrice,
      cumulativeQuantity, leavesQuantity, filledValue, completion, fills, totalFees,
      totalValueAfterFees, outstandingHold, limitPrice, stopPrice, postOnly, created, rejectReason,
      portfolio, triggerStatus, ()) =>
    ⟨id, clientId, product, side, status, type, timeInForce, contractExpiry, averagePrice,
      cumulativeQuantity, leavesQuantity, filledValue, completion, fills, totalFees,
      totalValueAfterFees, outstandingHold, limitPrice, stopPrice, postOnly, created, rejectReason,
      portfolio, triggerStatus, none⟩
  row := fun o => (o.id, o.clientId, o.product, o.side, o.status, o.type, o.timeInForce,
    o.contractExpiry, o.averagePrice, o.cumulativeQuantity, o.leavesQuantity, o.filledValue,
    o.completion, o.fills, o.totalFees, o.totalValueAfterFees, o.outstandingHold, o.limitPrice,
    o.stopPrice, o.postOnly, o.created, o.rejectReason, o.portfolio, o.triggerStatus, ())

/-- Whether nothing more will happen to the order. -/
def isTerminal (o : Order) : Bool := o.status.isTerminal

/-- The whole size of the order: what is done and what is left; `none` when the sum is out of range. -/
def baseSize? (o : Order) : Option Quantity :=
  (Decimal.add? o.cumulativeQuantity o.leavesQuantity).map Quantity.ofDecimal

/-- The terms of an order of the given size, if its type has terms and the prices they need are set. -/
def termsFor (o : Order) (baseSize : Quantity) : Option OrderTerms :=
  match o.type with
  | .market => some (.market baseSize)
  | .limit => o.limitPrice.map fun p => .limit o.timeInForce baseSize p o.postOnly
  | .stop | .stopLimit =>
    o.limitPrice.bind fun p => o.stopPrice.map fun s => .stopLimit o.timeInForce baseSize p s
  | _ => none

/-- The outcome of reading an order of a snapshot: the size of one is a sum, which may be out of range. -/
inductive SnapshotFailure where
  | decode (failure : Failure)
  | overflow

/-- An order of a snapshot, with its terms. -/
def ofSnapshot (v : Json) : Except SnapshotFailure Order :=
  match Decode.ofValue shape.decode v with
  | .error failure => .error (.decode failure)
  | .ok o =>
    match o.baseSize? with
    | none => .error .overflow
    | some size => .ok { o with terms := o.termsFor size }

def ofUpdate (v : Json) : Except Failure Order := Decode.ofValue shape.decode v

end Order

/-! ## Positions -/

/-- A position in a future that does not expire. -/
structure PerpetualPosition where
  product : Product
  portfolio : String
  side : PositionSide
  marginType : String
  vwap : Decimal
  entryVwap : Decimal
  netSize : Decimal
  buyOrderSize : Decimal
  sellOrderSize : Decimal
  leverage : Decimal
  markPrice : Decimal
  liquidationPrice : Decimal
  initialMargin : Decimal
  maintenanceMargin : Decimal
  notional : Decimal
  unrealizedPnl : Decimal
  aggregatedPnl : Decimal
deriving DecidableEq

namespace PerpetualPosition

def shape : Shape PerpetualPosition where
  name := "PerpetualFuturePosition"
  types := [Product, String, PositionSide, String, Decimal, Decimal, Decimal, Decimal, Decimal, Decimal,
    Decimal, Decimal, Decimal, Decimal, Decimal, Decimal, Decimal]
  fields := .cons (Wire.product "product_id") <| .cons (Wire.text "portfolio_uuid") <|
    .cons (Wire.word "position_side") <| .cons (Wire.text "margin_type") <|
    .cons (Wire.decimal "vwap") <| .cons (Wire.decimal "entry_vwap") <|
    .cons (Wire.decimal "net_size") <| .cons (Wire.decimal "buy_order_size") <|
    .cons (Wire.decimal "sell_order_size") <| .cons (Wire.decimal "leverage") <|
    .cons (Wire.decimal "mark_price") <| .cons (Wire.decimal "liquidation_price") <|
    .cons (Wire.decimal "im_notional") <| .cons (Wire.decimal "mm_notional") <|
    .cons (Wire.decimal "position_notional") <| .cons (Wire.decimal "unrealized_pnl") <|
    .cons (Wire.decimal "aggregated_pnl") .nil
  make := fun (product, portfolio, side, marginType, vwap, entryVwap, netSize, buyOrderSize,
      sellOrderSize, leverage, markPrice, liquidationPrice, initialMargin, maintenanceMargin, notional,
      unrealizedPnl, aggregatedPnl, ()) =>
    ⟨product, portfolio, side, marginType, vwap, entryVwap, netSize, buyOrderSize, sellOrderSize,
      leverage, markPrice, liquidationPrice, initialMargin, maintenanceMargin, notional, unrealizedPnl,
      aggregatedPnl⟩
  row := fun p => (p.product, p.portfolio, p.side, p.marginType, p.vwap, p.entryVwap, p.netSize,
    p.buyOrderSize, p.sellOrderSize, p.leverage, p.markPrice, p.liquidationPrice, p.initialMargin,
    p.maintenanceMargin, p.notional, p.unrealizedPnl, p.aggregatedPnl, ())

end PerpetualPosition

/-- A position in a future with an expiry date. -/
structure ExpiringPosition where
  product : Product
  side : PositionSide
  contracts : Decimal
  realizedPnl : Decimal
  unrealizedPnl : Decimal
  entryPrice : Decimal
deriving DecidableEq

namespace ExpiringPosition

def shape : Shape ExpiringPosition where
  name := "ExpiringFuturePosition"
  types := [Product, PositionSide, Decimal, Decimal, Decimal, Decimal]
  fields := .cons (Wire.product "product_id") <| .cons (Wire.word "side") <|
    .cons (Wire.decimal "number_of_contracts") <| .cons (Wire.decimal "realized_pnl") <|
    .cons (Wire.decimal "unrealized_pnl") <| .cons (Wire.decimal "entry_price") .nil
  make := fun (product, side, contracts, realizedPnl, unrealizedPnl, entryPrice, ()) =>
    ⟨product, side, contracts, realizedPnl, unrealizedPnl, entryPrice⟩
  row := fun p => (p.product, p.side, p.contracts, p.realizedPnl, p.unrealizedPnl, p.entryPrice, ())

/-- Realized and unrealized result together; `none` when the sum is out of range. -/
def totalPnl? (p : ExpiringPosition) : Option Decimal := Decimal.add? p.realizedPnl p.unrealizedPnl

end ExpiringPosition

end MarketFeed
