import MarketFeed.Proofs.Wire.Rereading

/-!
# Wire.Instants — records with an instant do not survive

An instant is written as a number of nanoseconds, as any number is, and read as text, in
the form that the venue sends. So a record with an instant in it is not read back from
what is written of it, whatever else it holds:

> `Stamped.survives_iff`: no change of a level, no trade and no order is read back, and of
> the batches of changes only those without a change are. What is said of it is that a
> number stands where a string should (`clash`), at the first instant.

The instant is the only obstacle: with a text in its place that stands for it, all these
records come back (`Stamped.gives_dated`), up to the minus sign of a zero.

A record is read field by field, so the proofs do not go through its other fields again.
`Fields.AllBut`, from `Decode.Records`, says of a record that all its fields but one come
back; what becomes of the remaining one decides (`LevelChange.yields`, `gives_dated`). The
batch is read as its list of changes is, and fails as the first of them does.

An order is written with its terms worked out, but read as an update, which has none; that
is what `Order.plain` leaves out.
-/

namespace MarketFeed

open Decode

/-- What is said of an instant that is written as a number. -/
def clash (n : Int) : Failure := .invalidType (.number (.whole n)) "a string"

private theorem yields_clash {n : Int} (h : Fits64 n) : Yields timestamp (.int n) (.error (clash n)) :=
  ⟨Json.whole_int h, fun _ => rfl⟩

private theorem yields_instant {text : String} {n : Int} (h : Calendar.read? text = some n) :
    Yields timestamp (.string text) (.ok n) := by
  refine ⟨trivial, fun src => ?_⟩
  have htext : optional string src (Json.Draft.ofValue (.string text)) = .ok (some text) := rfl
  simp only [timestamp, htext, bind, Except.bind, h]

/-! ## All fields but the instant -/

/-- Of a change, all but its time comes back. -/
theorem LevelChange.allBut (c : LevelChange) : LevelChange.shape.fields.AllBut (Wire.instant "event_time") c.time c.time
    (LevelChange.shape.row c) (LevelChange.shape.row c) :=
  .later (Wire.rereads_side _ _) <|
    .here ⟨Wire.rereads_requiredPrice _ _, Wire.rereads_requiredQuantity _ _, trivial⟩

/-- Of a trade, all but its time comes back. -/
theorem Trade.allBut (t : Trade) : Trade.shape.fields.AllBut (Wire.instant "time") t.time t.time
    (Trade.shape.row t) (Trade.shape.row t) :=
  .later (Wire.rereads_requiredText _ _) <| .later (Wire.rereads_product _ _) <|
    .later (Wire.rereads_requiredPrice _ _) <| .later (Wire.rereads_requiredQuantity _ _) <|
    .later (Wire.rereads_side _ _) <| .here trivial

/-- The same order as a record: without its terms, zeros without a minus sign. -/
def Order.plain (o : Order) : Order :=
  { o with
    averagePrice := o.averagePrice.plain
    cumulativeQuantity := o.cumulativeQuantity.plain
    leavesQuantity := o.leavesQuantity.plain
    filledValue := o.filledValue.plain
    completion := o.completion.plain
    totalFees := o.totalFees.plain
    totalValueAfterFees := o.totalValueAfterFees.plain
    outstandingHold := o.outstandingHold.plain
    terms := none }

/-- Of an order, all but its time and its terms comes back. -/
theorem Order.allBut (o : Order) (h : Fits64 o.fills) : Order.shape.fields.AllBut (Wire.instant "creation_time")
    o.created o.created (Order.shape.row o) (Order.shape.row o.plain) :=
  .later (Wire.rereads_requiredText _ _) <| .later (Wire.rereads_text _ _) <| .later (Wire.rereads_product _ _) <|
    .later (Wire.rereads_side _ _) <| .later (Wire.rereads_word _ _) <| .later (Wire.rereads_word _ _) <|
    .later (Wire.rereads_word _ _) <| .later (Wire.rereads_word _ _) <| .later (Wire.rereads_decimal _ _) <|
    .later (Wire.rereads_decimal _ _) <| .later (Wire.rereads_decimal _ _) <| .later (Wire.rereads_decimal _ _) <|
    .later (Wire.rereads_decimal _ _) <| .later (Wire.rereads_integer _ h) <| .later (Wire.rereads_decimal _ _) <|
    .later (Wire.rereads_decimal _ _) <| .later (Wire.rereads_decimal _ _) <|
    .later (Wire.rereads_optionalPrice _ _) <| .later (Wire.rereads_optionalPrice _ _) <|
    .later (Wire.rereads_flag _ _) <|
    .here ⟨Wire.rereads_text _ _, Wire.rereads_text _ _, Wire.rereads_text _ _, trivial⟩

/-! ## As they are written -/

/-- A change fails on its time. -/
theorem LevelChange.yields (c : LevelChange) (h : Fits64 c.time) :
    Yields LevelChange.shape.decode (LevelChange.shape.encode c) (.error (clash c.time)) :=
  LevelChange.shape.yields_error (by decide) c.allBut rfl (yields_clash h)

/-- A trade fails on its time. -/
theorem Trade.yields (t : Trade) (h : Fits64 t.time) :
    Yields Trade.shape.decode (Trade.shape.encode t) (.error (clash t.time)) :=
  Trade.shape.yields_error (by decide) t.allBut rfl (yields_clash h)

/-- An order fails on the time it was created. -/
theorem Order.yields (o : Order) (hfills : Fits64 o.fills) (h : Fits64 o.created) :
    Yields Order.shape.decode (Order.shape.encode o) (.error (clash o.created)) :=
  Order.shape.yields_error (by decide) (o.allBut hfills) rfl (yields_clash h)

/-- The changes of a batch as a field. -/
def LevelBatch.updates : FieldCodec (List LevelChange) :=
  defaulted "updates" (list LevelChange.shape.decode) (fun cs => .array (cs.map LevelChange.shape.encode)) []

private theorem LevelBatch.allBut (b : LevelBatch) :
    LevelBatch.shape.fields.AllBut LevelBatch.updates b.changes b.changes
    (LevelBatch.shape.row b) (LevelBatch.shape.row b) :=
  .later (Wire.rereads_product _ _) <| .here trivial

/-- A batch without changes has no instant in it. -/
theorem LevelBatch.rereads_nil (product : Product) :
    Rereads LevelBatch.shape.decode LevelBatch.shape.encode ⟨product, []⟩ ⟨product, []⟩ :=
  LevelBatch.shape.rereads (by decide)
    ⟨Wire.rereads_product _ _, (rereads_list fun _ h => absurd h List.not_mem_nil).defaulted _ _, trivial⟩ rfl

/-- A batch fails as its first change does. -/
theorem LevelBatch.yields_cons (product : Product) (c : LevelChange) (rest : List LevelChange)
    (h : ∀ d ∈ c :: rest, Fits64 d.time) :
    Yields LevelBatch.shape.decode (LevelBatch.shape.encode ⟨product, c :: rest⟩) (.error (clash c.time)) := by
  have hrest : Json.WholeItems (rest.map LevelChange.shape.encode) :=
    Json.wholeItems_map fun d hd => (d.yields (h d (List.mem_cons_of_mem _ hd))).1
  have hlist : Yields LevelBatch.updates.decode (.array ((c :: rest).map LevelChange.shape.encode)) (.error (clash c.time)) :=
    yields_list_error (c.yields (h c List.mem_cons_self)) hrest
  exact LevelBatch.shape.yields_error (by decide) (LevelBatch.allBut ⟨product, c :: rest⟩) rfl hlist

/-- A record that is written with an instant, or with one for each change of a batch. -/
inductive Stamped where
  | change (c : LevelChange)
  | batch (b : LevelBatch)
  | trade (t : Trade)
  | order (o : Order)

namespace Stamped

inductive Kind where
  | change
  | batch
  | trade
  | order

def kind : Stamped → Kind
  | change _ => .change
  | batch _ => .batch
  | trade _ => .trade
  | order _ => .order

def encode : Stamped → Json
  | change c => LevelChange.shape.encode c
  | batch b => LevelBatch.shape.encode b
  | trade t => Trade.shape.encode t
  | order o => Order.shape.encode o

def decode : Kind → Decoder Stamped
  | .change, src, d => (LevelChange.shape.decode src d).map change
  | .batch, src, d => (LevelBatch.shape.decode src d).map batch
  | .trade, src, d => (Trade.shape.decode src d).map trade
  | .order, src, d => (Order.shape.decode src d).map order

/-- The same record; of an order, what there is of it as a record. -/
def plain : Stamped → Stamped
  | order o => order o.plain
  | r => r

/-- The instants in a record, in order. -/
def instants : Stamped → List Int
  | change c => [c.time]
  | batch b => b.changes.map LevelChange.time
  | trade t => [t.time]
  | order o => [o.created]

/-- The numbers in a record that stand for no instant. -/
def counts : Stamped → List Int
  | order o => [o.fills]
  | _ => []

/-- Each kind of record, with what is said of its first instant. -/
theorem yields_written (r : Stamped) (hcounts : ∀ n ∈ r.counts, Fits64 n) (h : ∀ n ∈ r.instants, Fits64 n) :
    Yields (decode r.kind) r.encode
      (match r.instants with
        | [] => .ok r.plain
        | n :: _ => .error (clash n)) := by
  cases r with
  | change c => exact (c.yields (h _ List.mem_cons_self)).map change
  | trade t => exact (t.yields (h _ List.mem_cons_self)).map trade
  | order o => exact (o.yields (hcounts _ List.mem_cons_self) (h _ List.mem_cons_self)).map order
  | batch b =>
    obtain ⟨product, changes⟩ := b
    cases changes with
    | nil => exact (LevelBatch.rereads_nil product).map batch
    | cons c rest =>
      have hrest : ∀ d ∈ c :: rest, Fits64 d.time := fun d hd => h _ (List.mem_map_of_mem hd)
      exact (LevelBatch.yields_cons product c rest hrest).map batch

/-- Whatever else is in a record, it is read back if and only if there is no instant in it, and fails on the first
instant if there is one. -/
theorem survives_iff (r : Stamped) (hcounts : ∀ n ∈ r.counts, Fits64 n) (h : ∀ n ∈ r.instants, Fits64 n) :
    (Gives (decode r.kind) r.encode (.ok r.plain) ↔ r.instants = []) ∧
      ∀ n ∈ r.instants.head?, Gives (decode r.kind) r.encode (.error (clash n)) := by
  have hgives := (r.yields_written hcounts h).gives
  cases hinstants : r.instants with
  | nil =>
    rw [hinstants] at hgives
    exact ⟨⟨fun _ => rfl, fun _ => hgives⟩, fun n hn => absurd hn (Option.not_mem_none n)⟩
  | cons first rest =>
    rw [hinstants] at hgives
    refine ⟨⟨fun hsame => ?_, fun hnil => absurd hnil (List.cons_ne_nil _ _)⟩, fun n hn => ?_⟩
    · have hvalue := hgives.value
      rw [hsame.value] at hvalue
      cases hvalue
    · cases hn
      exact hgives

end Stamped

/-- A change of one level, a hundred nanoseconds after the epoch. -/
def early : LevelChange :=
  ⟨.buy, 100, .ofDecimal ((Decimal.ofParts? 2192173 2).getD .zero), .ofDecimal ((Decimal.ofParts? 1 0).getD .zero)⟩

/-- A batch with one change fails on it; without the change it comes back. -/
theorem Stamped.survives_iff_early : Fits64 early.time ∧
    ¬ Gives (Stamped.decode .batch) (LevelBatch.shape.encode ⟨⟨"BTC-USD"⟩, [early]⟩) (.ok (.batch ⟨⟨"BTC-USD"⟩, [early]⟩)) ∧
    Gives (Stamped.decode .batch) (LevelBatch.shape.encode ⟨⟨"BTC-USD"⟩, [early]⟩) (.error (clash 100)) ∧
    Gives (Stamped.decode .batch) (LevelBatch.shape.encode ⟨⟨"BTC-USD"⟩, []⟩) (.ok (.batch ⟨⟨"BTC-USD"⟩, []⟩)) := by
  have hearly : Fits64 early.time := ⟨by decide, by decide⟩
  obtain ⟨hiff, hfails⟩ := Stamped.survives_iff (.batch ⟨⟨"BTC-USD"⟩, [early]⟩) (List.forall_mem_nil _)
    (List.forall_mem_singleton.2 hearly)
  obtain ⟨hempty, -⟩ := Stamped.survives_iff (.batch ⟨⟨"BTC-USD"⟩, []⟩) (List.forall_mem_nil _) (List.forall_mem_nil _)
  exact ⟨hearly, fun hsame => List.cons_ne_nil _ _ (hiff.1 hsame), hfails 100 rfl, hempty.2 rfl⟩

/-- The change is one that is read; what is written of it has a number for its instant, and is not read back. -/
theorem not_gives_early :
    LevelChange.shape.encode early = .object [("side", .string "BUY"), ("event_time", .int 100),
        ("price_level", .string "21921.73"), ("new_quantity", .string "1")] ∧
      ¬ Gives LevelChange.shape.decode (LevelChange.shape.encode early) (.ok early) := by
  refine ⟨?_, fun hsame => ?_⟩
  · have hprice : early.price.render = "21921.73" := by decide +kernel
    have hquantity : early.quantity.render = "1" := by decide +kernel
    show Json.object [_, _, ("price_level", .string early.price.render), ("new_quantity", .string early.quantity.render)] = _
    rw [hprice, hquantity]
    rfl
  · have hclash := (early.yields ⟨by decide, by decide⟩).gives.value
    rw [hsame.value] at hclash
    cases hclash

/-! ## With a text for the instant -/

/-- A change as it is written, but with a text for its instant. -/
def LevelChange.dated (c : LevelChange) (text : String) : Json :=
  (LevelChange.shape.encode c).withMember "event_time" (.string text)

def Trade.dated (t : Trade) (text : String) : Json := (Trade.shape.encode t).withMember "time" (.string text)

def Order.dated (o : Order) (text : String) : Json := (Order.shape.encode o).withMember "creation_time" (.string text)

/-- A batch as it is written, but with a text for the instant of each change. -/
def LevelBatch.dated (b : LevelBatch) (text : Int → String) : Json :=
  (LevelBatch.shape.encode b).withMember "updates" (.array (b.changes.map fun c => c.dated (text c.time)))

/-- A change with a text for its time. -/
theorem LevelChange.rereads_dated (c : LevelChange) {text : String} (h : Calendar.read? text = some c.time) :
    Yields LevelChange.shape.decode (c.dated text) (.ok c) :=
  LevelChange.shape.rereads_withMember (by decide) c.allBut rfl rfl (yields_instant h)

namespace Stamped

/-- A record as it is written, but with a text for each instant. -/
def dated : Stamped → (Int → String) → Json
  | change c, text => c.dated (text c.time)
  | batch b, text => b.dated text
  | trade t, text => t.dated (text t.time)
  | order o, text => o.dated (text o.created)

/-- With texts that stand for its instants, a record comes back. -/
theorem gives_dated (r : Stamped) (hcounts : ∀ n ∈ r.counts, Fits64 n) {text : Int → String}
    (h : ∀ n ∈ r.instants, Calendar.read? (text n) = some n) :
    Gives (decode r.kind) (r.dated text) (.ok r.plain) := by
  refine Yields.gives ?_
  cases r with
  | change c => exact (c.rereads_dated (h _ List.mem_cons_self)).map change
  | trade t =>
    have hinstant := yields_instant (h _ List.mem_cons_self)
    exact (Trade.shape.rereads_withMember (by decide) t.allBut rfl rfl hinstant).map trade
  | order o =>
    have hinstant := yields_instant (h _ List.mem_cons_self)
    have hbut := o.allBut (hcounts _ List.mem_cons_self)
    exact (Order.shape.rereads_withMember (by decide) hbut rfl rfl hinstant).map order
  | batch b =>
    have hlist : Yields LevelBatch.updates.decode (.array (b.changes.map fun c => c.dated (text c.time)))
        (.ok b.changes) := rereads_list fun c hc => c.rereads_dated (h _ (List.mem_map_of_mem hc))
    exact (LevelBatch.shape.rereads_withMember (by decide) b.allBut rfl rfl hlist).map batch

end Stamped

example : Calendar.read? "1970-01-01T00:00:00.0000001Z" = some early.time := by decide +kernel

end MarketFeed
