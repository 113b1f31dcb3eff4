import MarketFeed.Proofs.Books.Times
import MarketFeed.Proofs.Pipeline.Accounts

/-!
# Pipeline.Redelivery — a message that comes again

A message whose sequence number was seen before is reported as a gap and then taken like
any other, so what comes again is handed to the books again. There it does nothing,
because every book has seen every time in the message and takes only what is later than
its own:

> `Desk.handle_again`: a message without a snapshot that came to its end comes to its end
> again, after any run without a snapshot. It leaves the books as they are, and each
> change and each trade in it is counted as stale or as having no book.

Three facts make it up. After a payload is applied, the books cover what it brought
(`Payload.applyTo_covers`). Nothing but a snapshot of levels sets a book back
(`after_follows`), so they cover it still when it comes again. And what is covered is only
counted (`Payload.applyTo_of_covers`). What it means for books to cover an entry, and to
follow others in time, is in `Books.Times`.

Snapshots are left out on both sides: a snapshot in the message is applied whatever its
time, and one in between may bring an earlier time.
-/

namespace MarketFeed

open Pipeline

namespace Pipeline

/-! ## Payloads -/

namespace Payload

/-- The changes and trades that a payload hands to the books. -/
def entries : Payload → List Books.Entry
  | levels .update batch => batch.changes.map fun c => ⟨batch.product, c.time⟩
  | trades .update ts => ts.map fun t => ⟨t.product, t.time⟩
  | _ => []

/-- Whether a payload is a snapshot of levels. -/
def renews : Payload → Bool
  | levels .snapshot _ => true
  | _ => false

variable {p : Payload} {ps : List Payload} {bs : Books}

/-- Only a snapshot of levels sets a book back. -/
theorem applyTo_follows (h : p.renews = false) (bs : Books) : (p.applyTo bs).2.Follows bs := by
  cases p with
  | levels kind batch =>
    cases kind with
    | snapshot => cases h
    | update => exact (Books.change_follows bs batch.product batch.changes).1
  | trades kind ts =>
    cases kind with
    | snapshot => exact .refl bs
    | update => exact Books.tradeAll_follows bs .zero ts
  | _ => exact .refl bs

/-- Nor do several payloads, none of them a snapshot of levels. -/
theorem applyAll_follows (h : ∀ p ∈ ps, p.renews = false) (bs : Books) : (applyAll ps bs).Follows bs := by
  induction ps generalizing bs with
  | nil => exact .refl bs
  | cons p rest ih =>
    obtain ⟨hp, hrest⟩ := List.forall_mem_cons.1 h
    exact (ih hrest (p.applyTo bs).2).trans (applyTo_follows hp bs)

/-- What a payload hands to the books has been seen there afterwards. -/
theorem applyTo_covers (hfit : (p.applyTo bs).1 ≠ none) : ∀ e ∈ p.entries, (p.applyTo bs).2.Covers e := by
  cases p with
  | levels kind batch =>
    cases kind with
    | snapshot => exact fun e he => (List.not_mem_nil he).elim
    | update => exact List.forall_mem_map.2 (Books.change_follows bs batch.product batch.changes).2
  | trades kind ts =>
    cases kind with
    | snapshot => exact fun e he => (List.not_mem_nil he).elim
    | update => exact List.forall_mem_map.2 (Books.tradeAll_covers hfit)
  | _ => exact fun e he => (List.not_mem_nil he).elim

/-- What the first payloads bring is covered still when the last one is applied. -/
theorem applyAll_covers (h : ∀ p ∈ ps, p.renews = false) (hfit : Fit ps bs) :
    ∀ p ∈ ps, ∀ e ∈ p.entries, (applyAll ps bs).Covers e := by
  induction ps generalizing bs with
  | nil => exact fun p hp => (List.not_mem_nil hp).elim
  | cons p rest ih =>
    obtain ⟨-, hrest⟩ := List.forall_mem_cons.1 h
    obtain ⟨hp, hfits⟩ := hfit
    refine List.forall_mem_cons.2 ⟨fun e he => ?_, ih hrest hfits⟩
    exact (applyTo_covers hp e he).follows (applyAll_follows hrest (p.applyTo bs).2)

/-- What has been seen is only counted. -/
theorem applyTo_of_covers (h : p.renews = false) (hcovers : ∀ e ∈ p.entries, bs.Covers e) :
    ∃ outcome : BatchOutcome, outcome.Idle p.entries.length ∧ p.applyTo bs = (some outcome, bs) := by
  cases p with
  | levels kind batch =>
    cases kind with
    | snapshot => cases h
    | update =>
      obtain ⟨outcome, hidle, hchange⟩ := Books.change_of_covers (List.forall_mem_map.1 hcovers)
      refine ⟨outcome, ?_, ?_⟩
      · rw [entries, List.length_map]
        exact hidle
      · rw [applyTo, hchange]
  | trades kind ts =>
    cases kind with
    | snapshot => exact ⟨.zero, ⟨rfl, rfl⟩, rfl⟩
    | update =>
      obtain ⟨outcome, hidle, htrade⟩ := Books.trade_of_covers (List.forall_mem_map.1 hcovers)
      refine ⟨outcome, ?_, htrade⟩
      rw [entries, List.length_map]
      exact hidle
  | _ => exact ⟨.zero, ⟨rfl, rfl⟩, rfl⟩

/-- What becomes of payloads that have been seen. -/
structure Idles (ps : List Payload) (bs : Books) : Prop where
  fit : Fit ps bs
  books : applyAll ps bs = bs
  outcomes : List.Forall₂ (fun (p : Payload) (outcome : BatchOutcome) => outcome.Idle p.entries.length) ps
    (outcomes ps bs)
  counted : (bookToll (Payload.outcomes ps bs)).idle = .ofNat (ps.flatMap entries).length

/-- Payloads that have been seen are counted one by one. -/
theorem idles_of_covers (h : ∀ p ∈ ps, p.renews = false) (hcovers : ∀ p ∈ ps, ∀ e ∈ p.entries, bs.Covers e) :
    Idles ps bs := by
  induction ps with
  | nil => exact ⟨trivial, rfl, .nil, rfl⟩
  | cons p rest ih =>
    obtain ⟨hp, hrest⟩ := List.forall_mem_cons.1 h
    obtain ⟨hseen, hothers⟩ := List.forall_mem_cons.1 hcovers
    obtain ⟨outcome, hidle, happly⟩ := applyTo_of_covers hp hseen
    obtain ⟨hfit, hbooks, houtcomes, hcounted⟩ := ih hrest hothers
    have hall : outcomes (p :: rest) bs = outcome :: outcomes rest bs := by
      rw [outcomes, happly, Option.getD_some]
    refine ⟨?_, ?_, ?_, ?_⟩
    · rw [Fit, happly]
      exact ⟨Option.some_ne_none outcome, hfit⟩
    · rw [applyAll, List.foldl_cons, happly]
      exact hbooks
    · rw [hall]
      exact .cons hidle houtcomes
    · rw [hall, bookToll_cons, Tally.idle_add, hcounted, Tally.idle_ofOutcome, hidle.2, List.flatMap_cons,
        List.length_append, UInt64.ofNat_add]

end Payload

end Pipeline

/-! ## Callbacks -/

namespace Callback

/-- Whether a callback brings a snapshot of levels. -/
def renews (c : Callback) : Bool := c.payloads.any Payload.renews

private theorem renews_eq_false_iff {c : Callback} : c.renews = false ↔ ∀ p ∈ c.payloads, p.renews = false := by
  simp only [renews, List.any_eq_false, Bool.not_eq_true]

/-- What is told and what is taken in are counted apart from what had no effect on a book. -/
theorem idle_toll (c : Callback) (contents : List Content) : (c.toll + tollOf contents).idle = 0 := by
  have htoll : c.toll.idle = 0 := by
    unfold toll
    cases c.signal with
    | data =>
      cases Envelope.read c.payload with
      | error failure => rfl
      | ok e =>
        simp only [Envelope.toll]
        split <;> rfl
    | _ => rfl
  have htold : (tollOf contents).idle = 0 := by
    induction contents with
    | nil => rfl
    | cons content rest ih =>
      rw [tollOf_cons, Tally.idle_add, ih]
      cases content <;> rfl
  rw [Tally.idle_add, htoll, htold]
  rfl

end Callback

namespace Pipeline.Desk

/-- Whether a move may set the time of a book back. -/
def Move.renews : Move → Bool
  | .callback c => c.renews
  | .retire _ => false
  | .edit e => e.renews

/-- However a message ends, its payloads are applied up to some point. -/
theorem takeEvents_books (o : Origin) (topic : Topic) (time sequence : Int) (d : Desk) (events : List Json) :
    ∃ ps, ps <+: (Payload.readAll topic time events).1 ∧
      (takeEvents o topic time sequence d events).state.books = Payload.applyAll ps d.books := by
  induction events generalizing d with
  | nil => exact ⟨[], List.nil_prefix, rfl⟩
  | cons event rest ih =>
    rw [Payload.readAll]
    cases hevent : Payload.ofEvent topic time event with
    | error failure =>
      rw [takeEvents, hevent]
      cases failure <;> exact ⟨[], List.nil_prefix, rfl⟩
    | ok said =>
      cases said with
      | none =>
        rw [takeEvents_cons_none o topic time sequence hevent]
        exact ih d
      | some p =>
        obtain ⟨d', hbooks, -, hstep⟩ := takeEvents_cons_some o topic time sequence hevent d
        rcases hstep with ⟨-, hstep⟩ | ⟨-, hstep⟩
        · rw [hstep]
          exact ⟨[p], List.cons_prefix_cons.2 ⟨rfl, List.nil_prefix⟩, hbooks⟩
        · obtain ⟨ps, hfront, hps⟩ := ih d'
          rw [hstep]
          refine ⟨p :: ps, List.cons_prefix_cons.2 ⟨rfl, hfront⟩, hps.trans ?_⟩
          rw [hbooks]
          rfl

/-- However a callback ends, its payloads are applied up to some point. -/
theorem handle_books (d : Desk) (c : Callback) :
    ∃ ps, ps <+: c.payloads ∧ (d.handle c).state.books = Payload.applyAll ps d.books := by
  unfold handle Callback.payloads Callback.reading
  cases c.signal with
  | data =>
    unfold take
    cases Envelope.read c.payload with
    | error failure => exact ⟨[], List.nil_prefix, rfl⟩
    | ok e =>
      simp only [takeEnvelope_eq]
      exact takeEvents_books c.origin (.ofChannel e.channel) e.time e.sequence _ e.events
  | _ => exact ⟨[], List.nil_prefix, rfl⟩

/-- A move without a snapshot sets no book back. -/
theorem apply_follows (d : Desk) {move : Move} (h : move.renews = false) : (move.apply d).books.Follows d.books := by
  cases move with
  | callback c =>
    obtain ⟨ps, hfront, hbooks⟩ := handle_books d c
    have hps : ∀ p ∈ ps, p.renews = false := fun p hp => Callback.renews_eq_false_iff.1 h p (hfront.subset hp)
    rw [Move.apply, hbooks]
    exact Payload.applyAll_follows hps d.books
  | retire o => exact .refl d.books
  | edit e => exact Books.follows_apply d.books h

/-- Nor does a run without snapshots set any book back. -/
theorem after_follows (d : Desk) {run : List Move} (h : ∀ move ∈ run, move.renews = false) :
    (d.after run).books.Follows d.books := by
  induction run generalizing d with
  | nil => exact .refl d.books
  | cons move rest ih =>
    obtain ⟨hmove, hrest⟩ := List.forall_mem_cons.1 h
    exact (ih (move.apply d) hrest).trans (apply_follows d hmove)

/-- A message without a snapshot that came to its end comes to its end again, however much happened since, as long as
no snapshot did. It leaves the books as they are: every change and every trade in it is too old or has no book, and is
counted so. -/
theorem handle_again {d : Desk} {c : Callback} {run : List Move} (hc : c.renews = false)
    (hrun : ∀ move ∈ run, move.renews = false) (hend : (d.handle c).ending = .finished) :
    let before := (d.handle c).state.after run
    let again := before.handle c
    again.ending = .finished ∧ again.state.books = before.books ∧
      List.Forall₂ (fun (p : Payload) (outcome : BatchOutcome) => outcome.Idle p.entries.length) c.payloads
        (Payload.outcomes c.payloads before.books) ∧
      again.state.tally.idle = before.tally.idle + .ofNat (c.payloads.flatMap Payload.entries).length := by
  intro before again
  obtain ⟨hreading, hfit⟩ := fit_of_handle hend
  have hpayloads := Callback.renews_eq_false_iff.1 hc
  have hcovers : ∀ p ∈ c.payloads, ∀ e ∈ p.entries, before.books.Covers e := by
    intro p hp e he
    have hfirst : (d.handle c).state.books.Covers e := by
      rw [(handle_settles hreading hfit).books]
      exact Payload.applyAll_covers hpayloads hfit p hp e he
    exact hfirst.follows (after_follows _ hrun)
  have hidles := Payload.idles_of_covers hpayloads hcovers
  have hsettles : Settles c before again := handle_settles hreading hidles.fit
  refine ⟨hsettles.ending, hsettles.books.trans hidles.books, hidles.outcomes, ?_⟩
  rw [hsettles.tally, Tally.idle_add, Tally.idle_add, hidles.counted, Callback.idle_toll, UInt64.zero_add]

/-- A snapshot of the levels of one product. -/
def listing : Callback := .data ⟨⟨0, 1⟩, .market⟩ <| String.toUTF8 (
    "\x7b\"channel\":\"l2_data\",\"sequence_num\":0,\"events\":[\x7b\"type\":\"snapshot\"," ++
    "\"product_id\":\"A\",\"updates\":[\x7b\"side\":\"bid\",\"price_level\":\"1\"," ++
    "\"new_quantity\":\"2\"\x7d]\x7d]\x7d") |>.data.toList

/-- Two changes of that product, the second for an earlier time than the first, and one of a product without a book. -/
def revision : Callback := .data ⟨⟨0, 1⟩, .market⟩ <| String.toUTF8 (
    "\x7b\"channel\":\"l2_data\",\"sequence_num\":1,\"events\":[\x7b\"type\":\"update\",\"product_id\":\"A\"," ++
    "\"updates\":[\x7b\"side\":\"bid\",\"event_time\":\"2024-01-01T00:00:02Z\",\"price_level\":\"1\"," ++
    "\"new_quantity\":\"5\"\x7d,\x7b\"side\":\"offer\",\"event_time\":\"2024-01-01T00:00:01Z\"," ++
    "\"price_level\":\"3\",\"new_quantity\":\"4\"\x7d]\x7d,\x7b\"type\":\"update\",\"product_id\":\"B\"," ++
    "\"updates\":[\x7b\"side\":\"bid\",\"price_level\":\"1\",\"new_quantity\":\"1\"\x7d]\x7d]\x7d") |>.data.toList

/-- A trade of that product, later than both. -/
def trade : Callback := .data ⟨⟨0, 1⟩, .market⟩ <| String.toUTF8 (
    "\x7b\"channel\":\"market_trades\",\"sequence_num\":2,\"events\":[\x7b\"type\":\"update\",\"trades\":[\x7b" ++
    "\"trade_id\":\"1\",\"product_id\":\"A\",\"price\":\"1\",\"size\":\"3\",\"side\":\"BUY\"," ++
    "\"time\":\"2024-01-01T00:00:04Z\"\x7d]\x7d]\x7d") |>.data.toList

/-- A desk with the book of one product. -/
def listed : Desk := empty.after [.callback listing]

/-- A trade and a lost connection. -/
def meanwhile : List Move := [.callback trade, .callback (.disconnected ⟨⟨0, 1⟩, .market⟩)]

/-- The changes come again after a trade and a lost connection, and three entries more are counted. -/
theorem handle_again_revision : (listed.handle revision).state.books ≠ listed.books ∧
    ((listed.handle revision).state.after meanwhile).books ≠ (listed.handle revision).state.books ∧
    (((listed.handle revision).state.after meanwhile).handle revision).state.books =
      ((listed.handle revision).state.after meanwhile).books ∧
    (((listed.handle revision).state.after meanwhile).handle revision).state.tally.idle =
      ((listed.handle revision).state.after meanwhile).tally.idle + 3 := by
  have hrevision : revision.renews = false := by decide +kernel
  have hrun : ∀ move ∈ meanwhile, move.renews = false := by decide +kernel
  have hend : (listed.handle revision).ending = .finished := by decide +kernel
  have hcount : (revision.payloads.flatMap Payload.entries).length = 3 := by decide +kernel
  obtain ⟨-, hbooks, -, hidle⟩ := handle_again hrevision hrun hend
  rw [hcount] at hidle
  exact ⟨by decide +kernel, by decide +kernel, hbooks, hidle⟩

end Pipeline.Desk

end MarketFeed
