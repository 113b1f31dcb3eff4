import MarketFeed.Book
import MarketFeed.Proofs.Decimal.Text
import MarketFeed.Proofs.Decode.Records
import MarketFeed.Wire.Account
import MarketFeed.Wire.Channel

/-!
# Wire.Rereading — records that survive being written and read

Tickers, candles, listings, positions, the terms of an order, depths and requests come
back from what is written of them as they were, over the whole range of their amounts,
numbers and texts:

> `rereads_plain`: each of these records comes back from its value and from its text:
> unchanged, up to the minus sign of a zero.

Only a zero with a minus sign comes back without it. Such a zero is what is left of an
amount below zero when its digits are rounded away, and its text is read as a plain zero
(`not_rereads_minusZero`). Prices and quantities cannot hold it; other decimals can, and
`plain` of a record is the record without it.

Records are composed of fields and fields of scalars, and the module is composed alike.
Each scalar is read back from what is written of it; the field adapters (`lenient` ones
among them, which also read an empty text or a number) preserve this; and a record whose
fields are read back is (`Shape.rereads` from `Decode.Records`). What is written never
takes the lenient paths: a decimal is written as its text, a flag as a boolean.

The terms of an order are an enumeration with its tag as a member. Reading it sets all the
other members aside until the kind is known (`OrderTerms.yields_tagged`), which changes
nothing in them, as they are texts and booleans (`OrderTerms.Aside`).
-/

namespace MarketFeed

open Decode

/-! ## Amounts -/

/-- A decimal is written as its text and read from it. -/
theorem Decimal.rereads (d : Decimal) : Rereads Decode.decimal Decimal.encode d d.plain := by
  refine ⟨trivial, fun src => ?_⟩
  simp only [Decimal.encode, Json.Draft.ofValue, Decode.decimal, Decimal.read?_render]

/-- A price has no minus sign in front of a zero. -/
theorem Price.rereads (p : Price) : Rereads Price.decode Price.encode p p := by
  refine ⟨trivial, fun src => ?_⟩
  have hread : Decode.decimal src (Json.Draft.ofValue p.encode) = .ok p.value.plain := p.value.rereads.2 src
  have hplain : Price.ofDecimal p.value.plain = p := by
    cases p with
    | mk value normal => simp only [Price.ofDecimal, Decimal.normalize_plain normal]
  rw [Price.decode, hread]
  exact congrArg Except.ok hplain

private theorem Price.rereads_optional (p : Option Price) :
    Rereads (optional Price.decode) (fun p => Json.ofOption (p.map Price.encode)) p p := by
  cases p with
  | none => exact ⟨trivial, fun _ => rfl⟩
  | some p =>
    refine ⟨trivial, fun src => ?_⟩
    show (Price.decode src (Json.Draft.ofValue p.encode)).map some = Except.ok (some p)
    rw [p.rereads.2 src]
    rfl

/-- Nor has a quantity. -/
theorem Quantity.rereads (q : Quantity) : Rereads Quantity.decode Quantity.encode q q := by
  refine ⟨trivial, fun src => ?_⟩
  have hread : Decode.decimal src (Json.Draft.ofValue q.encode) = .ok q.value.plain := q.value.rereads.2 src
  have hplain : Quantity.ofDecimal q.value.plain = q := by
    cases q with
    | mk value normal => simp only [Quantity.ofDecimal, Decimal.normalize_plain normal]
  rw [Quantity.decode, hread]
  exact congrArg Except.ok hplain

/-! ## Words -/

/-- That every word of a vocabulary has its own meaning. -/
class Vocabulary.Distinct (α : Type) [Vocabulary α] : Prop where
  ofWord_word : ∀ a : α, Vocabulary.ofWord (Vocabulary.word a) = a

instance : Vocabulary.Distinct OrderStatus := ⟨fun a => by cases a <;> rfl⟩
instance : Vocabulary.Distinct OrderType := ⟨fun a => by cases a <;> rfl⟩
instance : Vocabulary.Distinct TimeInForce := ⟨fun a => by cases a <;> rfl⟩
instance : Vocabulary.Distinct ContractExpiry := ⟨fun a => by cases a <;> rfl⟩
instance : Vocabulary.Distinct PositionSide := ⟨fun a => by cases a <;> rfl⟩
instance : Vocabulary.Distinct ProductType := ⟨fun a => by cases a <;> rfl⟩

/-- A word is read as what it stands for. -/
theorem Vocabulary.rereads {α : Type} [Vocabulary α] [Vocabulary.Distinct α] (a : α) :
    Rereads (Vocabulary.decode (α := α)) Vocabulary.encode a a := by
  refine ⟨trivial, fun src => ?_⟩
  show Except.ok (Vocabulary.ofWord (Vocabulary.word a)) = Except.ok a
  rw [Vocabulary.Distinct.ofWord_word]

/-- A side is written as the venue writes it. -/
theorem Side.rereads (s : Side) : Rereads Side.decode Side.encode s s := by
  refine ⟨trivial, fun src => ?_⟩
  cases s <;> rfl

theorem RequestKind.rereads (k : RequestKind) : Rereads RequestKind.decode RequestKind.encode k k := by
  refine ⟨trivial, fun src => ?_⟩
  cases k <;> cases src <;> rfl

/-! ## Other scalars -/

/-- A product is a text. -/
theorem Product.rereads (p : Product) : Rereads Product.decode Product.encode p p := ⟨trivial, fun _ => rfl⟩

private theorem rereads_string (s : String) : Rereads string Json.string s s := ⟨trivial, fun _ => rfl⟩

private theorem rereads_stringOrNull (s : String) : Rereads stringOrNull Json.string s s := ⟨trivial, fun _ => rfl⟩

private theorem rereads_boolean (b : Bool) : Rereads boolean Json.bool b b := ⟨trivial, fun _ => rfl⟩

/-- A flag may be a text too, but is written as a boolean. -/
theorem rereads_flag (b : Bool) : Rereads flag Json.bool b b := ⟨trivial, fun _ => rfl⟩

/-- That a number has 64 bits, one of them for the sign. -/
def Fits64 (n : Int) : Prop := -signedBound ≤ n ∧ n < signedBound

/-- An integer may be a text too, but is written as a number. -/
theorem rereads_integer {n : Int} (h : Fits64 n) : Rereads integer Json.int n n :=
  ⟨Json.whole_int h, fun _ => if_pos h.2⟩

private theorem rereads_int64 {n : Int} (h : Fits64 n) :
    Rereads int64 Json.int n n := ⟨Json.whole_int h, fun _ => if_pos h⟩

/-! ## Fields -/

namespace Wire

variable (name : String)

theorem rereads_product (p : Product) : (product name).Rereads p p := p.rereads.required name

theorem rereads_requiredText (s : String) : (requiredText name).Rereads s s := (rereads_string s).required name

theorem rereads_text (s : String) : (text name).Rereads s s := (rereads_stringOrNull s).defaulted name ""

theorem rereads_side (s : Side) : (side name).Rereads s s := s.rereads.required name

theorem rereads_requiredPrice (p : Price) : (requiredPrice name).Rereads p p := p.rereads.required name

private theorem rereads_price (p : Price) : (price name).Rereads p p := p.rereads.defaulted name Price.zero

theorem rereads_requiredQuantity (q : Quantity) : (requiredQuantity name).Rereads q q := q.rereads.required name

private theorem rereads_quantity (q : Quantity) : (quantity name).Rereads q q := q.rereads.defaulted name Quantity.zero

theorem rereads_decimal (d : Decimal) : (decimal name).Rereads d d.plain := d.rereads.defaulted name Decimal.zero

theorem rereads_integer {n : Int} (h : Fits64 n) : (integer name).Rereads n n :=
  (MarketFeed.rereads_integer h).defaulted name 0

theorem rereads_optionalPrice (p : Option Price) : (optionalPrice name).Rereads p p :=
  (Price.rereads_optional p).defaulted name none

theorem rereads_flag (b : Bool) : (flag name).Rereads b b := (MarketFeed.rereads_flag b).defaulted name false

theorem rereads_word {α : Type} [Vocabulary α] [Vocabulary.Distinct α] (a : α) : (word name).Rereads a a :=
  (Vocabulary.rereads a).defaulted name Vocabulary.unknown

end Wire

/-! ## Market data -/

/-- The same ticker, zeros without a minus sign. -/
def Ticker.plain (t : Ticker) : Ticker := { t with volume24h := t.volume24h.plain, change24h := t.change24h.plain }

/-- The two decimals of a ticker lose the minus sign of a zero. -/
theorem Ticker.rereads (t : Ticker) : Rereads Ticker.shape.decode Ticker.shape.encode t t.plain :=
  shape.rereads (by decide)
    ⟨Wire.rereads_product _ _, Wire.rereads_price _ _, Wire.rereads_decimal _ _, Wire.rereads_price _ _,
      Wire.rereads_price _ _, Wire.rereads_price _ _, Wire.rereads_price _ _, Wire.rereads_decimal _ _,
      Wire.rereads_price _ _, Wire.rereads_quantity _ _, Wire.rereads_price _ _, Wire.rereads_quantity _ _, trivial⟩ rfl

/-- The same candle, zeros without a minus sign. -/
def Candle.plain (c : Candle) : Candle := { c with volume := c.volume.plain }

/-- A candle starts at a number of 64 bits. -/
theorem Candle.rereads (c : Candle) (h : Fits64 c.start) : Rereads Candle.shape.decode Candle.shape.encode c c.plain :=
  shape.rereads (by decide)
    ⟨Wire.rereads_product _ _, Wire.rereads_integer _ h, Wire.rereads_requiredPrice _ _, Wire.rereads_requiredPrice _ _,
      Wire.rereads_requiredPrice _ _, Wire.rereads_requiredPrice _ _, Wire.rereads_decimal _ _, trivial⟩ rfl

/-- The same listing, zeros without a minus sign. -/
def Listing.plain (l : Listing) : Listing :=
  { l with
    baseIncrement := l.baseIncrement.plain
    quoteIncrement := l.quoteIncrement.plain
    minMarketFunds := l.minMarketFunds.plain }

/-- The increments of a listing are decimals too. -/
theorem Listing.rereads (l : Listing) : Rereads Listing.shape.decode Listing.shape.encode l l.plain :=
  shape.rereads (by decide)
    ⟨Wire.rereads_word _ _, Wire.rereads_product _ _, Wire.rereads_text _ _, Wire.rereads_text _ _,
      Wire.rereads_decimal _ _, Wire.rereads_decimal _ _, Wire.rereads_text _ _, Wire.rereads_text _ _,
      Wire.rereads_text _ _, Wire.rereads_decimal _ _, trivial⟩ rfl

/-! ## Positions -/

/-- The same position, zeros without a minus sign. -/
def PerpetualPosition.plain (p : PerpetualPosition) : PerpetualPosition :=
  { p with
    vwap := p.vwap.plain
    entryVwap := p.entryVwap.plain
    netSize := p.netSize.plain
    buyOrderSize := p.buyOrderSize.plain
    sellOrderSize := p.sellOrderSize.plain
    leverage := p.leverage.plain
    markPrice := p.markPrice.plain
    liquidationPrice := p.liquidationPrice.plain
    initialMargin := p.initialMargin.plain
    maintenanceMargin := p.maintenanceMargin.plain
    notional := p.notional.plain
    unrealizedPnl := p.unrealizedPnl.plain
    aggregatedPnl := p.aggregatedPnl.plain }

/-- All thirteen amounts of a perpetual position are. -/
theorem PerpetualPosition.rereads (p : PerpetualPosition) :
    Rereads PerpetualPosition.shape.decode PerpetualPosition.shape.encode p p.plain :=
  shape.rereads (by decide)
    ⟨Wire.rereads_product _ _, Wire.rereads_text _ _, Wire.rereads_word _ _, Wire.rereads_text _ _,
      Wire.rereads_decimal _ _, Wire.rereads_decimal _ _, Wire.rereads_decimal _ _, Wire.rereads_decimal _ _,
      Wire.rereads_decimal _ _, Wire.rereads_decimal _ _, Wire.rereads_decimal _ _, Wire.rereads_decimal _ _,
      Wire.rereads_decimal _ _, Wire.rereads_decimal _ _, Wire.rereads_decimal _ _, Wire.rereads_decimal _ _,
      Wire.rereads_decimal _ _, trivial⟩ rfl

/-- The same position, zeros without a minus sign. -/
def ExpiringPosition.plain (p : ExpiringPosition) : ExpiringPosition :=
  { p with
    contracts := p.contracts.plain
    realizedPnl := p.realizedPnl.plain
    unrealizedPnl := p.unrealizedPnl.plain
    entryPrice := p.entryPrice.plain }

/-- And the four of an expiring one. -/
theorem ExpiringPosition.rereads (p : ExpiringPosition) :
    Rereads ExpiringPosition.shape.decode ExpiringPosition.shape.encode p p.plain :=
  shape.rereads (by decide)
    ⟨Wire.rereads_product _ _, Wire.rereads_word _ _, Wire.rereads_decimal _ _, Wire.rereads_decimal _ _,
      Wire.rereads_decimal _ _, Wire.rereads_decimal _ _, trivial⟩ rfl

/-! ## Order terms -/

namespace OrderTerms

private theorem rereads_timeInForce (t : TimeInForce) : timeInForce.Rereads t t :=
  Or.inl ⟨_, rfl, Vocabulary.rereads t⟩

private theorem rereads_market (q : Quantity) : Rereads marketShape.decode marketShape.encode q q :=
  marketShape.rereads (by decide) ⟨Wire.rereads_requiredQuantity _ _, trivial⟩ rfl

private theorem rereads_limit (x : TimeInForce × Quantity × Price × Bool) :
    Rereads limitShape.decode limitShape.encode x x :=
  limitShape.rereads (by decide)
    ⟨rereads_timeInForce _, Wire.rereads_requiredQuantity _ _, Wire.rereads_requiredPrice _ _,
      (rereads_boolean _).required _, trivial⟩ rfl

private theorem rereads_stopLimit (x : TimeInForce × Quantity × Price × Price) :
    Rereads stopLimitShape.decode stopLimitShape.encode x x :=
  stopLimitShape.rereads (by decide)
    ⟨rereads_timeInForce _, Wire.rereads_requiredQuantity _ _, Wire.rereads_requiredPrice _ _,
      Wire.rereads_requiredPrice _ _, trivial⟩ rfl

/-- That a member is not the tag, and stays what it is when it is set aside. -/
def Aside (m : String × Json) : Prop := m.1 ≠ tag ∧ (Json.Draft.ofValue m.2).settle 1 = .ok m.2

private theorem aside_string {name : String} (h : name ≠ tag) (s : String) : Aside (name, .string s) := ⟨h, rfl⟩

private theorem aside_bool {name : String} (h : name ≠ tag) (b : Bool) : Aside (name, .bool b) := ⟨h, rfl⟩

private theorem setAsideMembers_ofMembers (src : Source) (kind : Option Kind) {ms : List (String × Json)}
    (h : ∀ m ∈ ms, Aside m) :
    setAsideMembers src (Json.Draft.ofMembers ms) kind = .ok (kind, Json.Draft.ofMembers ms) := by
  induction ms with
  | nil => rfl
  | cons m ms ih =>
    obtain ⟨hname, hsettle⟩ := h m List.mem_cons_self
    simp only [Json.Draft.ofMembers, setAsideMembers, if_neg hname, any, hsettle, flawless_ok, bind, Except.bind,
      ih fun m hm => h m (List.mem_cons_of_mem _ hm)]

/-- Behind the tag, the members of the kind are read as a record of the kind. -/
theorem yields_tagged {name : String} {kind : Kind} (hkind : lookUp kinds name = .ok kind) {ms : List (String × Json)}
    (haside : ∀ m ∈ ms, Aside m) (hwhole : Json.WholeMembers ms) {terms : OrderTerms}
    (hread : decodeKind kind (Json.Draft.ofValue (.object ms)) = .ok terms) :
    Yields decode (.object ((tag, .string name) :: ms)) (.ok terms) := by
  refine ⟨⟨trivial, hwhole⟩, fun src => ?_⟩
  rw [← hread]
  simp only [Json.Draft.ofValue, Json.Draft.ofMembers, decode, setAsideMembers, if_pos, Option.isSome_none,
    Bool.false_eq_true, if_false, decodeTag, hkind, bind, Except.bind, setAsideMembers_ofMembers src (some kind) haside,
    Json.Draft.close, flawless_ok]

private theorem lookUp_kinds : lookUp kinds "market" = .ok .market ∧ lookUp kinds "limit" = .ok .limit ∧
    lookUp kinds "stop_limit" = .ok .stopLimit := by
  simp [lookUp, kinds]

/-- Terms come back as their own kind. -/
theorem rereads (terms : OrderTerms) : Rereads decode encode terms terms := by
  obtain ⟨hmarket, hlim, hstop⟩ := lookUp_kinds
  have hsize (q : Quantity) : Aside ("base_size", q.encode) := aside_string (by decide) _
  have htime (t : TimeInForce) : Aside ("time_in_force", Vocabulary.encode t) := aside_string (by decide) _
  have hlimit (p : Price) : Aside ("limit_price", p.encode) := aside_string (by decide) _
  cases terms with
  | market q =>
    obtain ⟨hwhole, hread⟩ := rereads_market q
    have haside : ∀ m ∈ [("base_size", q.encode)], Aside m := List.forall_mem_singleton.2 (hsize q)
    have hkind : decodeKind .market (Json.Draft.ofValue (marketShape.encode q)) = .ok (.market q) := by
      rw [decodeKind, hread]
      rfl
    exact yields_tagged hmarket haside hwhole hkind
  | limit t q p b =>
    obtain ⟨hwhole, hread⟩ := rereads_limit (t, q, p, b)
    have haside : ∀ m ∈ [("time_in_force", Vocabulary.encode t), ("base_size", q.encode), ("limit_price", p.encode),
        ("post_only", Json.bool b)], Aside m := by
      simp only [List.forall_mem_cons]
      exact ⟨htime t, hsize q, hlimit p, aside_bool (by decide) b, List.forall_mem_nil _⟩
    have hkind : decodeKind .limit (Json.Draft.ofValue (limitShape.encode (t, q, p, b))) = .ok (.limit t q p b) := by
      rw [decodeKind, hread]
      rfl
    exact yields_tagged hlim haside hwhole hkind
  | stopLimit t q p s =>
    obtain ⟨hwhole, hread⟩ := rereads_stopLimit (t, q, p, s)
    have haside : ∀ m ∈ [("time_in_force", Vocabulary.encode t), ("base_size", q.encode), ("limit_price", p.encode),
        ("stop_price", s.encode)], Aside m := by
      simp only [List.forall_mem_cons]
      exact ⟨htime t, hsize q, hlimit p, aside_string (by decide) _, List.forall_mem_nil _⟩
    have hkind : decodeKind .stopLimit (Json.Draft.ofValue (stopLimitShape.encode (t, q, p, s))) =
        .ok (.stopLimit t q p s) := by
      rw [decodeKind, hread]
      rfl
    exact yields_tagged hstop haside hwhole hkind

end OrderTerms

/-! ## Depths and requests -/

/-- A level is a price and a quantity. -/
theorem Level.rereads (l : Level) : Rereads Level.shape.decode Level.shape.encode l l :=
  shape.rereads (by decide) ⟨Wire.rereads_requiredPrice _ _, Wire.rereads_requiredQuantity _ _, trivial⟩ rfl

/-- A depth is written with its time as a number of 64 bits, and read so. -/
theorem Depth.rereads (d : Depth) (h : Fits64 d.time) : Rereads Depth.shape.decode Depth.shape.encode d d :=
  shape.rereads (by decide)
    ⟨Wire.rereads_product _ _, (rereads_list fun l _ => l.rereads).required _,
      (rereads_list fun l _ => l.rereads).required _, (rereads_int64 h).required _, trivial⟩ rfl

/-- A request without products or without a token leaves them out, and is read without them. -/
theorem Request.rereads (r : Request) : Rereads Request.shape.decode Request.shape.encode r r := by
  obtain ⟨kind, products, channel, token⟩ := r
  refine shape.rereads (by decide)
    ⟨kind.rereads.required _, ?_, Wire.rereads_requiredText _ _, ?_, trivial⟩ rfl
  · cases products with
    | nil => exact Or.inr ⟨rfl, rfl⟩
    | cons p ps => exact Or.inl ⟨_, rfl, rereads_list fun p _ => p.rereads⟩
  · cases token with
    | none => exact Or.inr ⟨rfl, rfl⟩
    | some token => exact Or.inl ⟨_, rfl, trivial, fun _ => rfl⟩

/-! ## All of them -/

/-- Each of these records comes back from its value and from its text: unchanged, up to the minus sign of a zero. -/
theorem rereads_plain :
    (∀ t : Ticker, Gives Ticker.shape.decode (Ticker.shape.encode t) (.ok t.plain)) ∧
      (∀ c : Candle, Fits64 c.start → Gives Candle.shape.decode (Candle.shape.encode c) (.ok c.plain)) ∧
      (∀ l : Listing, Gives Listing.shape.decode (Listing.shape.encode l) (.ok l.plain)) ∧
      (∀ p : PerpetualPosition,
        Gives PerpetualPosition.shape.decode (PerpetualPosition.shape.encode p) (.ok p.plain)) ∧
      (∀ p : ExpiringPosition, Gives ExpiringPosition.shape.decode (ExpiringPosition.shape.encode p) (.ok p.plain)) ∧
      (∀ terms : OrderTerms, Gives OrderTerms.decode terms.encode (.ok terms)) ∧
      (∀ d : Depth, Fits64 d.time → Gives Depth.shape.decode (Depth.shape.encode d) (.ok d)) ∧
      ∀ r : Request, Gives Request.shape.decode (Request.shape.encode r) (.ok r) :=
  ⟨fun t => t.rereads.gives, fun c h => (c.rereads h).gives, fun l => l.rereads.gives, fun p => p.rereads.gives,
    fun p => p.rereads.gives, fun terms => terms.rereads.gives, fun d h => (d.rereads h).gives, fun r => r.rereads.gives⟩

/-- A candle at the end of time, with the least amount and the greatest, and a name that has to be escaped. -/
def utmost : Candle :=
  let most : Decimal := (Decimal.ofParts? 79228162514264337593543950335 0).getD .zero
  let least : Decimal := (Decimal.ofParts? (-1) 28).getD .zero
  ⟨⟨"\"\\\nπ"⟩, 9223372036854775807, .ofDecimal most, .ofDecimal least, .zero, .zero, most⟩

/-- A candle with the extremes, and an almost empty depth at the beginning of time. -/
theorem rereads_plain_utmost : Fits64 utmost.start ∧
    Gives Candle.shape.decode (Candle.shape.encode utmost) (.ok utmost) ∧
    Gives Depth.shape.decode (Depth.shape.encode ⟨⟨""⟩, [⟨.zero, .zero⟩], [], -9223372036854775808⟩)
      (.ok ⟨⟨""⟩, [⟨.zero, .zero⟩], [], -9223372036854775808⟩) := by
  obtain ⟨-, hcandle, -, -, -, -, hdepth, -⟩ := rereads_plain
  have hstart : Fits64 utmost.start := ⟨by decide, by decide⟩
  have hplain : utmost.plain = utmost := by decide +kernel
  exact ⟨hstart, hplain ▸ hcandle utmost hstart, hdepth _ ⟨by decide, by decide⟩⟩

/-- What is left of an amount below zero when all its digits are rounded away. -/
def faded : Decimal := (Decimal.read? "-0.4e-28").getD .zero

/-- A position that is read from what a venue may send, with such an amount; it comes back with another text. -/
theorem not_rereads_minusZero :
    let p : ExpiringPosition := ⟨⟨"p"⟩, .unknown, .zero, .zero, faded, .zero⟩
    Decode.ofValue ExpiringPosition.shape.decode
        (.object [("product_id", .string "p"), ("unrealized_pnl", .string "-0.4e-28")]) = .ok p ∧
      ¬ Gives ExpiringPosition.shape.decode (ExpiringPosition.shape.encode p) (.ok p) ∧
      faded.render = "-0.0000000000000000000000000000" ∧ faded.plain.render = "0.0000000000000000000000000000" := by
  intro p
  refine ⟨by rfl, ?_, by decide +kernel, by decide +kernel⟩
  intro hsame
  have hplain := p.rereads.gives.value
  rw [hsame.value] at hplain
  exact absurd (congrArg ExpiringPosition.unrealizedPnl (Except.ok.inj hplain)) (by decide)

end MarketFeed
