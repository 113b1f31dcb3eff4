import MarketFeed.Proofs.Pipeline.Events

/-!
# Pipeline.Overflow — what stops a message

Everything in a message that is out of shape is reported as `MalformedMessage`, and the
next message is handled normally. Only a number that gets out of range stops a message
without a notice, since decimals are added without a check. There are two ways to get
there:

- an order of an account snapshot whose `cumulative_quantity` and `leaves_quantity` add up
  to more than a decimal can hold. The sum is made for every order that can be read,
  whatever its type, before the order is judged;
- a trade with a size below zero, which brings more to its level than fits. Sizes are read
  without regard to their sign.

> `Desk.finished_iff`: in every run, a message comes to its end exactly if none of its
> events gets out of range, each upon the books that those before it leave.

Both are stated as the first of something in a list (`Reaches`): what comes before it can
be read, or does something to the books that the next one finds. Reading is a chain of
steps, and `bind_overflow_iff` passes the question back to the one step that has a sum;
for the books it is `Books.tradeAll_eq_none_iff`. That nothing else gets out of range is
the larger part of the module: one lemma for each kind of reading, all saying `≠ .error
.overflow`.
-/

namespace MarketFeed

/-- That a list reaches an element with a property, which may depend on what comes before; all before it have another
one. -/
def Reaches {α : Type} (before : α → Prop) (here : List α → α → Prop) (items : List α) : Prop :=
  ∃ front a rest, items = front ++ a :: rest ∧ (∀ b ∈ front, before b) ∧ here front a

section

variable {α : Type} {P : α → Prop} {Q : List α → α → Prop} {a : α} {rest : List α}

private theorem not_reaches_nil : ¬ Reaches P Q [] := by
  rintro ⟨front, a, rest, h, -, -⟩
  cases front <;> cases h

/-- A list reaches an element at its head or behind it. -/
theorem reaches_cons_iff :
    Reaches P Q (a :: rest) ↔ Q [] a ∨ P a ∧ Reaches P (fun front b => Q (a :: front) b) rest := by
  constructor
  · rintro ⟨front, b, tail, h, hfront, hb⟩
    cases front with
    | nil =>
      cases h
      exact Or.inl hb
    | cons c front =>
      cases h
      have hrest : ∀ c ∈ front, P c := fun c hc => hfront c (List.mem_cons_of_mem a hc)
      exact Or.inr ⟨hfront a List.mem_cons_self, front, b, tail, rfl, hrest, hb⟩
  · rintro (ha | ⟨ha, front, b, tail, rfl, hfront, hb⟩)
    · exact ⟨[], a, rest, rfl, fun _ h => (List.not_mem_nil h).elim, ha⟩
    · refine ⟨a :: front, b, tail, rfl, ?_, hb⟩
      intro c hc
      rcases List.mem_cons.1 hc with rfl | hc
      · exact ha
      · exact hfront c hc

end

namespace Books

/-- That a trade brings more to its level than fits. -/
def TooMuch (bs : Books) (t : Trade) : Prop := ∃ b resting, bs.get? t.product = some b ∧ b.time < t.time ∧
  b.quantityAt? t.side t.price = some resting ∧ t.size.value.toRat < 0 ∧
  Decimal.edge ≤ resting.value.toRat - t.size.value.toRat

/-- A batch of trades has no outcome exactly if one of them is too much for the books as they are by then. -/
theorem tradeAll_eq_none_iff {bs : Books} (h : bs.Positive) (o : BatchOutcome) (trades : List Trade) :
    (tradeAll bs o trades).1 = none ↔
      Reaches (fun _ => True) (fun front t => (tradeAll bs o front).2.TooMuch t) trades := by
  induction trades generalizing bs o with
  | nil => exact iff_of_false (Option.some_ne_none o) not_reaches_nil
  | cons t rest ih =>
    have hfirst : bs.trade? o t = none ↔ bs.TooMuch t := trade?_eq_none_iff h o t
    rw [reaches_cons_iff]
    cases htrade : bs.trade? o t with
    | none =>
      refine iff_of_true ?_ (Or.inl (hfirst.1 htrade))
      rw [tradeAll, htrade]
    | some r =>
      obtain ⟨o', bs'⟩ := r
      have hlater (ts : List Trade) : tradeAll bs o (t :: ts) = tradeAll bs' o' ts := by
        rw [tradeAll, htrade]
      have hfits : ¬ bs.TooMuch t := by
        intro hmuch
        rw [hfirst.2 hmuch] at htrade
        cases htrade
      simp only [hlater]
      rw [ih (h.trade? htrade)]
      refine ⟨fun hrest => Or.inr ⟨trivial, hrest⟩, ?_⟩
      rintro (hmuch | ⟨-, hrest⟩)
      · exact absurd hmuch hfits
      · exact hrest

end Books

namespace Pipeline

namespace Payload

/-! ## Orders -/

/-- That an order can be read. -/
def IsOrder (v : Json) : Prop := ∃ order, Order.ofUpdate v = .ok order

/-- That an order can be read, but the sum of its quantities is out of range. -/
def IsHuge (v : Json) : Prop := ∃ order, Order.ofUpdate v = .ok order ∧
  Decimal.edge ≤ |order.cumulativeQuantity.toRat + order.leavesQuantity.toRat|

/-- An order of a snapshot cannot be read, or has too large a sum, or is taken. -/
theorem snapshotOrder_cases (v : Json) :
    (∃ failure, Order.ofUpdate v = .error failure ∧ snapshotOrder v = .error (.decode failure)) ∨
    (IsHuge v ∧ snapshotOrder v = .error .overflow) ∨
    (IsOrder v ∧ ¬ IsHuge v ∧ ∃ order, snapshotOrder v = .ok order) := by
  unfold IsHuge IsOrder Order.ofUpdate snapshotOrder Order.ofSnapshot
  cases Decode.ofValue Order.shape.decode v with
  | error failure => exact Or.inl ⟨failure, rfl, rfl⟩
  | ok order =>
    have hsum : order.baseSize? = none ↔
        Decimal.edge ≤ |order.cumulativeQuantity.toRat + order.leavesQuantity.toRat| := by
      unfold Order.baseSize?
      rw [Option.map_eq_none_iff, Decimal.add?_eq_none_iff]
    cases hsize : order.baseSize? with
    | none => exact Or.inr (Or.inl ⟨⟨order, rfl, hsum.1 hsize⟩, by simp only [hsize]⟩)
    | some size =>
      refine Or.inr (Or.inr ⟨⟨order, rfl⟩, ?_, ?_⟩)
      · rintro ⟨other, hother, hhuge⟩
        cases hother
        rw [hsum.2 hhuge] at hsize
        cases hsize
      · simp only [hsize]
        exact ⟨_, rfl⟩

/-- Orders are read in turn up to the first that cannot be read or has too large a sum. -/
private theorem snapshotOrders_overflow_iff (orders : List Json) :
    orders.mapM snapshotOrder = .error .overflow ↔ Reaches IsOrder (fun _ => IsHuge) orders := by
  induction orders with
  | nil => exact iff_of_false (fun h => nomatch h) not_reaches_nil
  | cons v rest ih =>
    rw [reaches_cons_iff, List.mapM_cons]
    rcases snapshotOrder_cases v with ⟨failure, hread, hv⟩ | ⟨hhuge, hv⟩ | ⟨horder, hfits, order, hv⟩
    · -- nothing behind what cannot be read is summed up
      have hunread : ¬ IsOrder v := by
        rintro ⟨order, h⟩
        rw [hread] at h
        cases h
      rw [hv]
      refine iff_of_false (fun h => nomatch h) ?_
      rintro (⟨order, h, -⟩ | ⟨horder, -⟩)
      · exact hunread ⟨order, h⟩
      · exact hunread horder
    · rw [hv]
      exact iff_of_true rfl (Or.inl hhuge)
    · have hrest : (Except.ok order >>= fun order => rest.mapM snapshotOrder >>= fun orders => pure (order :: orders)) =
          (Except.error EventFailure.overflow : Except EventFailure (List Order)) ↔
          rest.mapM snapshotOrder = .error .overflow := by
        cases rest.mapM snapshotOrder with
        | ok orders => exact iff_of_false (fun h => nomatch h) (fun h => nomatch h)
        | error failure => exact ⟨fun h => h, fun h => h⟩
      rw [hv, hrest, ih]
      refine ⟨fun h => Or.inr ⟨horder, h⟩, ?_⟩
      rintro (hhuge | ⟨-, h⟩)
      · exact absurd hhuge hfits
      · exact h

/-! ## Events -/

/-- Reading a record has no sums. -/
private theorem read_ne_overflow {α : Type} (shape : Decode.Shape α) (event : Json) :
    read shape event ≠ .error .overflow := by
  unfold read
  cases Decode.ofValue shape.decode event <;> exact fun h => nomatch h

private theorem positionsOf_ne_overflow (event : Json) : positionsOf event ≠ .error .overflow := by
  unfold positionsOf
  split
  · exact fun h => nomatch h
  · exact fun h => nomatch h
  · exact read_ne_overflow positionsShape _

private theorem updateOrder_ne_overflow (v : Json) : updateOrder v ≠ .error .overflow := by
  unfold updateOrder
  cases Order.ofUpdate v <;> exact fun h => nomatch h

/-- Where nothing that follows gets out of range, the first step has to. -/
theorem bind_overflow_iff {α β : Type} {r : Except EventFailure α} {next : α → Except EventFailure β}
    (hnext : ∀ a, next a ≠ .error .overflow) : (r >>= next) = .error .overflow ↔ r = .error .overflow := by
  cases r with
  | ok a => exact iff_of_false (hnext a) (fun h => nomatch h)
  | error failure =>
    show (Except.error failure : Except EventFailure β) = _ ↔ _
    rw [Except.error.injEq, Except.error.injEq]

private theorem bind_ne_overflow {α β : Type} {r : Except EventFailure α} {next : α → Except EventFailure β}
    (hr : r ≠ .error .overflow) (hnext : ∀ a, next a ≠ .error .overflow) : (r >>= next) ≠ .error .overflow :=
  fun h => hr ((bind_overflow_iff hnext).1 h)

private theorem ok_ne_overflow {α : Type} (a : α) : (Except.ok a : Except EventFailure α) ≠ .error .overflow :=
  fun h => nomatch h

/-- Updates have no sums. -/
theorem updateOrders_ne_overflow (orders : List Json) : orders.mapM updateOrder ≠ .error .overflow := by
  induction orders with
  | nil => exact ok_ne_overflow []
  | cons v rest ih =>
    rw [List.mapM_cons]
    exact bind_ne_overflow (updateOrder_ne_overflow v) fun order => bind_ne_overflow ih fun _ => ok_ne_overflow _

/-- Nor do updates of an account get out of range, nor its positions. -/
theorem ofAccountEvent_overflow_iff (kind : EventKind) (event : Json) :
    ofAccountEvent kind event = .error .overflow ↔
      kind = .snapshot ∧ Reaches IsOrder (fun _ => IsHuge) (ordersOf event) := by
  unfold ofAccountEvent
  cases kind with
  | update =>
    refine iff_of_false ?_ (fun h => nomatch h.1)
    exact bind_ne_overflow (updateOrders_ne_overflow _) fun _ => ok_ne_overflow _
  | snapshot =>
    rw [← snapshotOrders_overflow_iff]
    refine (bind_overflow_iff ?_).trans ⟨fun h => ⟨rfl, h⟩, And.right⟩
    exact fun _ => bind_ne_overflow (positionsOf_ne_overflow event) fun _ => ok_ne_overflow _

/-- Only the sums for orders of an account snapshot get out of range when an event is read. -/
theorem ofEvent_overflow_iff (topic : Topic) (time : Int) (event : Json) :
    ofEvent topic time event = .error .overflow ↔
      topic = .account ∧ kindOf? event = some .snapshot ∧ Reaches IsOrder (fun _ => IsHuge) (ordersOf event) := by
  unfold ofEvent
  cases kindOf? event with
  | none => exact iff_of_false (ok_ne_overflow none) (fun h => nomatch h.2.1)
  | some kind =>
    simp only
    cases topic with
    | account =>
      refine (bind_overflow_iff fun _ => ok_ne_overflow _).trans ?_
      rw [ofAccountEvent_overflow_iff, Option.some.injEq]
      exact ⟨fun h => ⟨rfl, h⟩, And.right⟩
    | control => exact iff_of_false (ok_ne_overflow none) (fun h => nomatch h.1)
    | unknown => exact iff_of_false (ok_ne_overflow none) (fun h => nomatch h.1)
    | _ =>
      refine iff_of_false ?_ (fun h => nomatch h.1)
      exact bind_ne_overflow (read_ne_overflow _ event) fun _ => ok_ne_overflow _

/-! ## Effects -/

/-- Of all payloads only trades can be too much for the books. -/
theorem applyTo_eq_none_iff {bs : Books} (h : bs.Positive) (p : Payload) : (p.applyTo bs).1 = none ↔
    ∃ ts, p = .trades .update ts ∧ Reaches (fun _ => True) (fun front t => (bs.trade front).2.TooMuch t) ts := by
  cases p with
  | trades kind ts =>
    cases kind with
    | snapshot =>
      refine iff_of_false (fun h => nomatch h) ?_
      rintro ⟨_, hts, -⟩
      cases hts
    | update =>
      refine (Books.tradeAll_eq_none_iff h .zero ts).trans ⟨fun hmuch => ⟨ts, rfl, hmuch⟩, ?_⟩
      rintro ⟨_, hts, hmuch⟩
      cases hts
      exact hmuch
  | levels kind batch =>
    refine iff_of_false ?_ ?_
    · cases kind <;> exact fun h => nomatch h
    · rintro ⟨_, hts, -⟩
      cases hts
  | _ =>
    refine iff_of_false (fun h => nomatch h) ?_
    rintro ⟨_, hts, -⟩
    cases hts

/-- That an event gets out of range: in the sum for an order of an account snapshot, or in what a trade leaves at its
level. -/
def Overflows (topic : Topic) (time : Int) (bs : Books) (event : Json) : Prop :=
  (topic = .account ∧ kindOf? event = some .snapshot ∧ Reaches IsOrder (fun _ => IsHuge) (ordersOf event)) ∨
  ∃ ts, ofEvent topic time event = .ok (some (.trades .update ts)) ∧
    Reaches (fun _ => True) (fun front t => (bs.trade front).2.TooMuch t) ts

/-- An event that is read gets out of range in what it does to the books or not at all. -/
theorem overflows_iff {topic : Topic} {time : Int} {bs : Books} (h : bs.Positive) {event : Json}
    {said : Option Payload} (hevent : ofEvent topic time event = .ok said) :
    Overflows topic time bs event ↔ ∃ p, said = some p ∧ (p.applyTo bs).1 = none := by
  unfold Overflows
  rw [← ofEvent_overflow_iff topic time event, hevent]
  constructor
  · rintro (hsum | ⟨ts, hts, hmuch⟩)
    · cases hsum
    · exact ⟨.trades .update ts, Except.ok.inj hts, (applyTo_eq_none_iff h _).2 ⟨ts, rfl, hmuch⟩⟩
  · rintro ⟨p, rfl, hp⟩
    obtain ⟨ts, rfl, hmuch⟩ := (applyTo_eq_none_iff h p).1 hp
    exact Or.inr ⟨ts, rfl, hmuch⟩

end Payload

/-- That an event of a message gets out of range upon the books that those before it leave, all of which can be read. -/
def Envelope.Overflows (e : Envelope) (bs : Books) : Prop :=
  Reaches (fun v => ∃ said, Payload.ofEvent (.ofChannel e.channel) e.time v = .ok said)
    (fun front event => Payload.Overflows (.ofChannel e.channel) e.time
      (Payload.applyAll (Payload.said (.ofChannel e.channel) e.time front) bs) event) e.events

namespace Desk

/-- The events are judged one by one, each upon the books that it is applied to. -/
theorem takeEvents_overflow_iff {d : Desk} (h : d.books.Positive) (o : Origin) (topic : Topic) (time sequence : Int)
    (events : List Json) :
    (takeEvents o topic time sequence d events).ending = .overflow ↔
      Reaches (fun v => ∃ said, Payload.ofEvent topic time v = .ok said)
        (fun front event =>
          Payload.Overflows topic time (Payload.applyAll (Payload.said topic time front) d.books) event) events := by
  induction events generalizing d with
  | nil => exact iff_of_false Ending.noConfusion not_reaches_nil
  | cons event rest ih =>
    rw [reaches_cons_iff]
    have hread := Payload.ofEvent_overflow_iff topic time event
    cases hevent : Payload.ofEvent topic time event with
    | error failure =>
      rw [takeEvents, hevent]
      cases failure with
      | overflow => exact iff_of_true rfl (Or.inl (Or.inl (hread.1 hevent)))
      | decode failure =>
        refine iff_of_false Ending.noConfusion ?_
        rintro ((hsum | ⟨ts, hts, -⟩) | ⟨⟨said, hsaid⟩, -⟩)
        · rw [hread.2 hsum] at hevent
          cases hevent
        · rw [hevent] at hts
          cases hts
        · cases hsaid
    | ok said =>
      have hover := Payload.overflows_iff h hevent
      cases said with
      | none =>
        simp only [Payload.said_cons_none hevent]
        rw [takeEvents_cons_none o topic time sequence hevent, ih h]
        refine ⟨fun hrest => Or.inr ⟨⟨none, rfl⟩, hrest⟩, ?_⟩
        rintro (hhere | ⟨-, hrest⟩)
        · obtain ⟨p, hp, -⟩ := hover.1 hhere
          cases hp
        · exact hrest
      | some p =>
        obtain ⟨d', hbooks, -, hstep⟩ := takeEvents_cons_some o topic time sequence hevent d
        rcases hstep with ⟨hnone, hstep⟩ | ⟨hsome, hstep⟩
        · rw [hstep]
          exact iff_of_true rfl (Or.inl (hover.2 ⟨p, rfl, hnone⟩))
        · -- the event fits, and the books that it leaves have no quantity below zero either
          have hpositive : d'.books.Positive := by
            rw [hbooks, Payload.applyTo_edits]
            exact h.edited p.edits
          have hfits : ¬ Payload.Overflows topic time d.books event := by
            intro hhere
            obtain ⟨q, hq, hnone⟩ := hover.1 hhere
            obtain rfl := Option.some.inj hq
            exact hsome hnone
          have hsame (ps : List Payload) :
              Payload.applyAll (p :: ps) d.books = Payload.applyAll ps d'.books :=
            congrArg (Payload.applyAll ps) hbooks.symm
          simp only [Payload.said_cons_some hevent, hsame]
          rw [hstep]
          refine (ih hpositive).trans ⟨fun hlater => Or.inr ⟨⟨some p, rfl⟩, hlater⟩, ?_⟩
          rintro (hhere | ⟨-, hlater⟩)
          · exact absurd hhere hfits
          · exact hlater

/-- The check of the sequence number comes before the events and is no matter here. -/
theorem takeEnvelope_overflow_iff {d : Desk} (h : d.books.Positive) (o : Origin) (e : Envelope) :
    (d.takeEnvelope o e).ending = .overflow ↔ e.Overflows d.books := by
  obtain ⟨d', hbooks, -, heq⟩ := exists_takeEnvelope_eq o d e
  have hall := heq e.events
  unfold Envelope.Overflows
  rw [hall, ← hbooks]
  exact takeEvents_overflow_iff (hbooks.symm ▸ h) o _ e.time e.sequence e.events

/-- In every run of a desk: a message comes to its end exactly if none of its events gets out of range, each upon the
books that those before it leave. -/
theorem finished_iff (moves : List Move) (o : Origin) (bytes : Bytes) :
    ((empty.after moves).take o bytes).ending = .finished ↔
      ¬ ∃ e, Envelope.read bytes = .ok e ∧ e.Overflows (empty.after moves).books := by
  have h := positive_after moves
  generalize empty.after moves = d at *
  unfold take
  cases hread : Envelope.read bytes with
  | error failure =>
    refine iff_of_true rfl ?_
    rintro ⟨e, he, -⟩
    cases he
  | ok e =>
    have hover := takeEnvelope_overflow_iff (d := { d with tally := d.tally.message }) h o e
    simp only
    constructor
    · rintro hfinished ⟨e', he', hover'⟩
      cases he'
      rw [hover.2 hover'] at hfinished
      cases hfinished
    · intro hnot
      cases hend : (takeEnvelope { d with tally := d.tally.message } o e).ending with
      | finished => rfl
      | overflow => exact absurd ⟨e, rfl, hover.1 hend⟩ hnot

/-- An account snapshot with one order, as much of it done as a decimal can hold and one more to go. -/
def fullOrder : Bytes := String.toUTF8 (
    "\x7b\"channel\":\"user\",\"sequence_num\":0,\"events\":[\x7b\"type\":\"snapshot\",\"orders\":[\x7b" ++
    "\"order_id\":\"o\",\"product_id\":\"BTC-USD\",\"order_side\":\"BUY\"," ++
    "\"cumulative_quantity\":\"79228162514264337593543950335\",\"leaves_quantity\":\"1\"\x7d]\x7d]\x7d") |>.data.toList

/-- A snapshot of one level with as much as a decimal can hold. -/
def fullLevel : Bytes := String.toUTF8 (
    "\x7b\"channel\":\"l2_data\",\"sequence_num\":0,\"events\":[\x7b\"type\":\"snapshot\"," ++
    "\"product_id\":\"BTC-USD\",\"updates\":[\x7b\"side\":\"bid\",\"price_level\":\"1\"," ++
    "\"new_quantity\":\"79228162514264337593543950335\"\x7d]\x7d]\x7d") |>.data.toList

/-- A trade at that level with a size of minus one. -/
def addingTrade : Bytes := String.toUTF8 (
    "\x7b\"channel\":\"market_trades\",\"sequence_num\":1,\"events\":[\x7b\"type\":\"update\",\"trades\":[\x7b" ++
    "\"trade_id\":\"1\",\"product_id\":\"BTC-USD\",\"price\":\"1\",\"size\":\"-1\",\"side\":\"BUY\"," ++
    "\"time\":\"2024-01-01T00:00:00Z\"\x7d]\x7d]\x7d") |>.data.toList

/-- Both ways to stop a message without a notice. -/
theorem not_finished_overflow :
    ((empty.after []).take ⟨⟨0, 1⟩, .user⟩ fullOrder).ending ≠ .finished ∧
      ((empty.after [.callback (.data ⟨⟨0, 1⟩, .market⟩ fullLevel)]).take ⟨⟨0, 1⟩, .market⟩ addingTrade).ending ≠
        .finished := by
  decide +kernel

end Desk

end Pipeline

end MarketFeed
