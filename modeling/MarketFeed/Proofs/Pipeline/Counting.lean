import MarketFeed.Proofs.Books.Fates
import MarketFeed.Proofs.Pipeline.Interleaving

/-!
# Pipeline.Counting — the counters account for everything

Counters go up at many places: where callbacks find no room, where connections have been
replaced, where messages come in, where something is told, and where entries find their
books too late or not at all. Still nothing is counted twice or not at all. What one
callback adds is what was told of it, whether it was taken in, and what became of its
entries; so in every run each counter is a number of things that happened:

> `Counts`: events are the notices that were told, gaps and failures to read the notices
> of these, messages the data that was taken in, retired records the callbacks that were
> not, and stale and unknown entries the fates of these kinds.
>
> `accounts`: whether callbacks are delivered at once or through a queue of any size and
> policy, the counters count (`Accounts`), and all callbacks and all entries are accounted
> for.

Counters have 64 bits and wrap; the equations hold in them, so no bound on the length of a
run is needed. `Counts` is additive (`Counts.add`), which makes the run an induction with
one step (`deliver_counts`, `feed_counts`), and the step a sum of what `Pipeline.Accounts`
says of one callback.

The queue comes in at the end: of a passage through it, every callback was dropped, is
still on the queue, was delivered and either taken in or not, or has a producer that waits
for room (`Passage.Accounted`, from `Pipeline.Refinement`). No number may get out of range
in the run, for a message that ends early is told only in part.
-/

namespace MarketFeed.Pipeline

open Relay

/-! ## What is told -/

namespace Content

def isGap : Content → Bool
  | gap _ _ _ => true
  | _ => false

def isMalformed : Content → Bool
  | malformed _ _ => true
  | _ => false

def payload? : Content → Option Payload
  | event _ p => some p
  | _ => none

end Content

/-- The payloads among what was told. -/
def payloadsIn (told : List Delivery) : List Payload := told.filterMap (·.notice.content.payload?)

private theorem payloadsIn_append (front back : List Delivery) :
    payloadsIn (front ++ back) = payloadsIn front ++ payloadsIn back := List.filterMap_append

/-- Of a callback, all payloads are told. -/
theorem payload?_contents (c : Callback) (verdict : Option Continuity.Verdict) :
    (c.contents verdict).filterMap Content.payload? = c.payloads := by
  unfold Callback.contents Callback.payloads Callback.reading
  cases c.signal with
  | data =>
    cases Envelope.read c.payload with
    | error failure => rfl
    | ok e =>
      have hgap : (gapContents c.origin.feed (verdict.getD .accepted)).filterMap Content.payload? = [] := by
        cases verdict.getD .accepted <;> rfl
      have hfault : (faultContents c.origin.feed e.reading.2).filterMap Content.payload? = [] := by
        unfold faultContents
        cases e.reading.2.bind EventFailure.reported? <;> rfl
      have hevents : (e.reading.1.map (Content.event e.sequence)).filterMap Content.payload? = e.reading.1 := by
        rw [List.filterMap_map]
        exact List.filterMap_some
      simp only [Envelope.contents, List.filterMap_append, hgap, hfault, hevents, List.nil_append, List.append_nil]
  | _ => rfl

/-! ## What becomes of entries -/

namespace Payload

/-- The changes and the trades of an update. -/
def items : Payload → List Books.Item
  | levels .update batch => batch.changes.map (.change batch.product)
  | trades .update ts => ts.map .trade
  | _ => []

/-- What becomes of the entries of payloads in turn. -/
def fates : List Payload → Books → List (Option Effect)
  | [], _ => []
  | p :: rest, bs => Books.fates p.items bs ++ fates rest (p.applyTo bs).2

/-- Later payloads meet the books as earlier ones have left them. -/
theorem fates_append (ps qs : List Payload) (bs : Books) :
    fates (ps ++ qs) bs = fates ps bs ++ fates qs (applyAll ps bs) := by
  induction ps generalizing bs with
  | nil => rfl
  | cons p rest ih =>
    rw [List.cons_append, fates, fates, ih, List.append_assoc]
    rfl

/-- Every entry of a payload has a fate. -/
theorem length_fates (ps : List Payload) (bs : Books) : (fates ps bs).length = (ps.flatMap items).length := by
  induction ps generalizing bs with
  | nil => rfl
  | cons p rest ih => rw [fates, List.length_append, Books.length_fates, ih, List.flatMap_cons, List.length_append]

/-- The outcome of a payload tells what becomes of its entries, one by one. -/
theorem outcome_eq_ofFates {p : Payload} {bs : Books} {o : BatchOutcome} (h : (p.applyTo bs).1 = some o) :
    o = .ofFates (Books.fates p.items bs) := by
  cases p with
  | levels kind batch =>
    cases kind with
    | snapshot => exact (Option.some.inj h).symm
    | update => exact (Option.some.inj h).symm.trans (Books.change_eq_ofFates bs batch.product batch.changes)
  | trades kind ts =>
    cases kind with
    | snapshot => exact (Option.some.inj h).symm
    | update => exact Books.trade_eq_ofFates h
  | _ => exact (Option.some.inj h).symm

end Payload

/-! ## What counters are numbers of -/

/-- Whether a callback brought data and was taken in. -/
def Report.isMessage (r : Report) : Bool := r.admitted && decide (r.callback.signal = .data)

/-- That counters are the numbers of what was told, of what was done with callbacks, and of what became of entries. -/
structure Counts (t : Tally) (told : List Delivery) (reports : List Report) (fates : List (Option Effect)) : Prop where
  events : t.events = .ofNat told.length
  gaps : t.gaps = .ofNat (told.countP (·.notice.content.isGap))
  parseErrors : t.parseErrors = .ofNat (told.countP (·.notice.content.isMalformed))
  messages : t.messages = .ofNat (reports.countP (·.isMessage))
  retired : t.retired = .ofNat (reports.countP (!·.admitted))
  stale : t.stale = .ofNat (fates.count (some .stale))
  unknownProducts : t.unknownProducts = .ofNat (fates.count none)

namespace Counts

variable {t t' : Tally} {told told' : List Delivery} {reports reports' : List Report}
  {fates fates' : List (Option Effect)}

/-- Nothing has happened, and the counters are at zero. -/
theorem zero : Counts 0 [] [] [] := ⟨rfl, rfl, rfl, rfl, rfl, rfl, rfl⟩

/-- A number of things in a list is that of its front and that of its back, in counters that wrap too. -/
theorem number_append {α : Type} {number : List α → Nat} {front back : List α} {m n : UInt64}
    (hnumber : number (front ++ back) = number front + number back) (hm : m = .ofNat (number front))
    (hn : n = .ofNat (number back)) : m + n = .ofNat (number (front ++ back)) := by
  rw [hnumber, UInt64.ofNat_add, hm, hn]

/-- One thing after the other. -/
theorem add (h : Counts t told reports fates) (h' : Counts t' told' reports' fates') :
    Counts (t + t') (told ++ told') (reports ++ reports') (fates ++ fates') where
  events := number_append List.length_append h.events h'.events
  gaps := number_append List.countP_append h.gaps h'.gaps
  parseErrors := number_append List.countP_append h.parseErrors h'.parseErrors
  messages := number_append List.countP_append h.messages h'.messages
  retired := number_append List.countP_append h.retired h'.retired
  stale := number_append List.count_append h.stale h'.stale
  unknownProducts := number_append List.count_append h.unknownProducts h'.unknownProducts

/-- A notice counts by its content. -/
theorem told_one (delivery : Delivery) : Counts delivery.notice.content.toll [delivery] [] [] := by
  obtain ⟨⟨connection, content⟩, books⟩ := delivery
  cases content <;> exact ⟨rfl, rfl, rfl, rfl, rfl, rfl, rfl⟩

/-- Notices count one by one. -/
theorem told_all (told : List Delivery) : Counts (tollOf (saidIn told)) told [] [] := by
  induction told with
  | nil => exact zero
  | cons delivery rest ih => exact (told_one delivery).add ih

/-- The outcome of a batch counts the fates of its entries. -/
theorem outcome (fates : List (Option Effect)) : Counts (Tally.ofOutcome (.ofFates fates)) [] [] fates :=
  ⟨rfl, rfl, rfl, rfl, rfl, rfl, rfl⟩

/-- So do the outcomes of all batches of a message that fits. -/
theorem outcomes {ps : List Payload} {bs : Books} (h : Payload.Fit ps bs) :
    Counts (bookToll (Payload.outcomes ps bs)) [] [] (Payload.fates ps bs) := by
  induction ps generalizing bs with
  | nil => exact zero
  | cons p rest ih =>
    obtain ⟨hp, hrest⟩ := h
    obtain ⟨o, ho⟩ := Option.ne_none_iff_exists'.1 hp
    rw [Payload.outcomes, bookToll_cons, ho, Option.getD_some, Payload.outcome_eq_ofFates ho]
    exact (outcome _).add (ih hrest)

/-- A callback that is taken in counts if it is a message. -/
theorem taken {r : Report} (h : r.admitted = true) : Counts r.callback.toll [] [r] [] := by
  obtain ⟨c, admitted, verdict, notices⟩ := r
  obtain rfl : admitted = true := h
  unfold Callback.toll
  cases hsignal : c.signal with
  | data =>
    have hmessage : [(⟨c, true, verdict, notices⟩ : Report)].countP (·.isMessage) = 1 := by
      simp only [List.countP_singleton, Report.isMessage, hsignal, decide_true, Bool.and_self, if_true]
    have hunread (u : Tally) (hu : u = 0 ∨ u = { unknownChannels := 1 }) :
        Counts ({ messages := 1 } + u) [] [⟨c, true, verdict, notices⟩] [] := by
      rcases hu with rfl | rfl <;> exact ⟨rfl, rfl, rfl, by rw [hmessage]; rfl, rfl, rfl, rfl⟩
    cases Envelope.read c.payload with
    | error failure => exact hunread 0 (Or.inl rfl)
    | ok e =>
      apply hunread
      unfold Envelope.toll
      split
      · exact Or.inr rfl
      · exact Or.inl rfl
  | _ =>
    have hmessage : [(⟨c, true, verdict, notices⟩ : Report)].countP (·.isMessage) = 0 := by
      simp [Report.isMessage, hsignal]
    exact ⟨rfl, rfl, rfl, by rw [hmessage]; rfl, rfl, rfl, rfl⟩

/-- A callback of a replaced connection counts as such, and as nothing else. -/
theorem refused {r : Report} (h : r.admitted = false) : Counts { retired := 1 } [] [r] [] := by
  obtain ⟨c, admitted, verdict, notices⟩ := r
  obtain rfl : admitted = false := h
  exact ⟨rfl, rfl, rfl, rfl, rfl, rfl, rfl⟩

end Counts

/-! ## Runs -/

namespace Intake

variable {c : Callback} {cs : List Callback} {i : Intake}

/-- There is one report for each callback. -/
theorem length_journal (cs : List Callback) (i : Intake) : (journal cs i).length = cs.length := by
  induction cs generalizing i with
  | nil => rfl
  | cons c rest ih => exact congrArg (· + 1) (ih (i.deliver c).state)

/-- What is told follows from the verdict, and of a callback that is not taken in nothing is told. -/
theorem notices_report (h : Delivers c i) : (i.report c).notices = if (i.report c).admitted then
    (c.contents (i.report c).verdict).map (Notice.mk c.origin.connection) else [] := by
  rw [h.report]
  rfl

/-- The payloads that are told are those that are handed to the books. -/
theorem payloadsIn_deliver (h : Delivers c i) : payloadsIn (i.deliver c).deliveries = (i.report c).payloads := by
  have hnotices : payloadsIn (i.deliver c).deliveries =
      (i.report c).notices.filterMap fun n => n.content.payload? := by
    show _ = ((i.deliver c).deliveries.map (·.notice)).filterMap _
    rw [List.filterMap_map]
    rfl
  rw [hnotices, notices_report h, Report.payloads]
  cases (i.report c).admitted with
  | false => rfl
  | true =>
    simp only [if_true]
    rw [List.filterMap_map]
    exact payload?_contents c _

private theorem deliveries_of_refused (h : Delivers c i) (hrefused : (i.report c).admitted = false) :
    (i.deliver c).deliveries = [] := by
  have hnotices := notices_report h
  rw [hrefused] at hnotices
  exact List.map_eq_nil_iff.1 hnotices

private theorem fit_of_finished (hend : (i.deliver c).ending = .finished) :
    Payload.Fit (i.report c).payloads i.desk.books := by
  unfold Report.payloads
  split
  next hadmitted =>
    have haccept : i.roster.accept c.origin.connection = (true, (i.roster.accept c.origin.connection).2) :=
      Prod.ext hadmitted rfl
    rw [deliver_of_admitted haccept] at hend
    exact (Desk.fit_of_handle hend).2
  next => exact trivial

/-- The step: what one delivery adds to the counters. -/
theorem deliver_counts (hend : (i.deliver c).ending = .finished) : ∃ t, (i.deliver c).state.desk.tally =
    i.desk.tally + t ∧ Counts t (i.deliver c).deliveries [i.report c]
      (Payload.fates (payloadsIn (i.deliver c).deliveries) i.desk.books) := by
  have hdelivers := delivers_of_finished hend
  refine ⟨_, hdelivers.tally, ?_⟩
  rw [payloadsIn_deliver hdelivers]
  have hbooks := Counts.outcomes (fit_of_finished hend)
  have hsaid : saidIn (i.deliver c).deliveries = (i.report c).notices.map (·.content) := by
    show _ = ((i.deliver c).deliveries.map (·.notice)).map (·.content)
    rw [List.map_map]
    rfl
  cases hadmitted : (i.report c).admitted with
  | false =>
    have htoll : (i.report c).toll = { retired := 1 } := by
      rw [Report.toll, hadmitted]
      rfl
    rw [htoll, deliveries_of_refused hdelivers hadmitted]
    exact (Counts.refused hadmitted).add hbooks
  | true =>
    have htoll : (i.report c).toll = (i.report c).callback.toll + tollOf (saidIn (i.deliver c).deliveries) := by
      rw [Report.toll, hadmitted, hsaid]
      rfl
    rw [htoll]
    have hall := ((Counts.taken hadmitted).add (Counts.told_all (i.deliver c).deliveries)).add hbooks
    simpa only [List.nil_append, List.append_nil] using hall

/-- The run: what deliveries in turn add to the counters. -/
theorem feed_counts (hend : Finishes cs i) : ∃ t, (feed cs i).2.desk.tally = i.desk.tally + t ∧
    Counts t (feed cs i).1 (journal cs i) (Payload.fates (payloadsIn (feed cs i).1) i.desk.books) := by
  induction cs generalizing i with
  | nil => exact ⟨0, (add_zero _).symm, .zero⟩
  | cons c rest ih =>
    obtain ⟨hfirst, hrest⟩ := hend
    have hdelivers := delivers_of_finished hfirst
    obtain ⟨t, ht, hcounts⟩ := deliver_counts hfirst
    obtain ⟨u, hu, hlater⟩ := ih hrest
    refine ⟨t + u, ?_, ?_⟩
    · rw [← add_assoc, ← ht]
      exact hu
    · -- the entries of the rest come to the books that this delivery leaves
      have hbooks : (i.deliver c).state.desk.books =
          Payload.applyAll (payloadsIn (i.deliver c).deliveries) i.desk.books := by
        rw [payloadsIn_deliver hdelivers]
        exact hdelivers.books
      show Counts (t + u) ((i.deliver c).deliveries ++ (feed rest (i.deliver c).state).1)
        ([i.report c] ++ journal rest (i.deliver c).state) _
      rw [hbooks] at hlater
      rw [feed, payloadsIn_append, Payload.fates_append]
      exact hcounts.add hlater

end Intake

/-! ## Everything is accounted for -/

/-- What the counters say of a run: what was told, and what was done with the callbacks that were delivered. -/
structure Accounts (t : Tally) (told : List Delivery) (reports : List Report) : Prop where
  counts : Counts t told reports (Payload.fates (payloadsIn told) .empty)
  /-- Every change and every trade in the updates that were told had an effect, came too late or found no book. -/
  entries : t.stale + t.unknownProducts +
      .ofNat ((Payload.fates (payloadsIn told) .empty).count (some .applied)) =
    .ofNat ((payloadsIn told).flatMap Payload.items).length

/-- What counts also accounts for all entries. -/
theorem accounts_of_counts {t : Tally} {told : List Delivery} {reports : List Report}
    (h : Counts t told reports (Payload.fates (payloadsIn told) .empty)) : Accounts t told reports := by
  refine ⟨h, ?_⟩
  rw [h.stale, h.unknownProducts, ← UInt64.ofNat_add, ← UInt64.ofNat_add, ← Payload.length_fates _ .empty]
  exact congrArg UInt64.ofNat (BatchOutcome.total_ofFates _)

/-- The count of callbacks that found no room is kept apart from all this. -/
theorem Accounts.withDropped {t : Tally} {told : List Delivery} {reports : List Report} (h : Accounts t told reports)
    (n : UInt64) : Accounts { t with dropped := n } told reports :=
  ⟨⟨h.counts.events, h.counts.gaps, h.counts.parseErrors, h.counts.messages, h.counts.retired, h.counts.stale,
    h.counts.unknownProducts⟩, h.entries⟩

namespace Intake

variable {cs : List Callback}

/-- Delivered at once, callbacks are accounted for. -/
theorem accounts_feed (hend : Finishes cs .empty) :
    Accounts (feed cs .empty).2.desk.tally (feed cs .empty).1 (journal cs .empty) := by
  obtain ⟨t, ht, hcounts⟩ := feed_counts hend
  rw [ht]
  exact accounts_of_counts ((zero_add t).symm ▸ hcounts)

/-- Delivered at once, no callback is dropped for want of room. -/
theorem dropped_feed (cs : List Callback) : (feed cs .empty).2.desk.tally.dropped = 0 := by
  have hfeed : feed cs (empty.withDropped 0) = ((feed cs .empty).1, (feed cs .empty).2.withDropped 0) :=
    feed_withDropped
  exact congrArg (fun r : List Delivery × Intake => r.2.desk.tally.dropped) hfeed

/-- A callback is taken in, or it is counted as one of a replaced connection. -/
theorem length_eq {t : Tally} {told : List Delivery} (h : Accounts t told (journal cs .empty)) :
    .ofNat cs.length = t.retired + .ofNat ((journal cs .empty).countP (·.admitted)) := by
  have hsplit := List.length_eq_countP_add_countP (·.admitted) (l := journal cs .empty)
  rw [h.counts.retired, ← UInt64.ofNat_add, ← length_journal cs .empty, hsplit, Nat.add_comm]
  simp only [Bool.not_eq_true, Bool.decide_eq_false]

end Intake

namespace Passage

/-- What was taken off the queue. -/
def delivered (p : Passage) : List Callback := p.granted.take p.taken

/-- What the counters say of a passage: besides what they say of what was taken off the queue, that every callback was
dropped, is still on the queue, was delivered and either taken in or not, or has a producer that waits for room. -/
structure Accounted (p : Passage) (moves : List Move) : Prop where
  delivered : Accounts p.conveyor.intake.desk.tally p.told (Intake.journal p.delivered .empty)
  callbacks : ∃ queue : List Callback, p.conveyor.ring.Queues (queue.map Parcel.encode) ∧
    .ofNat (callsOf moves).length = p.conveyor.intake.desk.tally.dropped + .ofNat queue.length +
      p.conveyor.intake.desk.tally.retired + .ofNat ((Intake.journal p.delivered .empty).countP (·.admitted)) +
        .ofNat p.blocked.length

/-- A passage that tracks its queue is accounted for. -/
theorem Tracks.accounted {p : Passage} {moves : List Move} (h : p.Tracks) (hall : p.all.Perm (callsOf moves))
    (hend : Intake.Finishes p.delivered .empty) : p.Accounted moves := by
  obtain ⟨⟨hbound, htold, hintake⟩, hqueue⟩ := h
  have htally : p.conveyor.intake.desk.tally =
      { (Intake.empty.feed p.delivered).2.desk.tally with dropped := .ofNat p.refused.length } :=
    congrArg (·.desk.tally) hintake
  have haccounts : Accounts p.conveyor.intake.desk.tally p.told (Intake.journal p.delivered .empty) := by
    rw [htally, htold]
    exact (Intake.accounts_feed hend).withDropped _
  refine ⟨haccounts, p.granted.drop p.taken, hqueue, ?_⟩
  have hdropped : p.conveyor.intake.desk.tally.dropped = .ofNat p.refused.length := by rw [htally]
  have hlength : (callsOf moves).length =
      p.refused.length + (p.granted.drop p.taken).length + p.delivered.length + p.blocked.length := by
    rw [← hall.length_eq, all, List.length_append, List.length_append, List.length_map, List.length_drop,
      Passage.delivered, List.length_take]
    omega
  rw [hlength, UInt64.ofNat_add, UInt64.ofNat_add, UInt64.ofNat_add, Intake.length_eq haccounts, hdropped,
    ← UInt64.add_assoc]

/-- In every run without a number out of range, whether callbacks are delivered at once or through a queue of any size
and policy: events are the notices told, gaps and unreadable messages the notices of these, messages the data taken in,
retired records the callbacks not taken in; and of the changes and trades in the updates that were told, each had an
effect, came too late or found no book. No callback is left out. -/
theorem accounts :
    (∀ cs, Intake.Finishes cs .empty →
      Accounts (Intake.empty.feed cs).2.desk.tally (Intake.empty.feed cs).1 (Intake.journal cs .empty) ∧
      (Intake.empty.feed cs).2.desk.tally.dropped = 0 ∧
      .ofNat cs.length = (Intake.empty.feed cs).2.desk.tally.retired +
        .ofNat ((Intake.journal cs .empty).countP (·.admitted))) ∧
    ∀ sizing moves, Intake.Finishes ((ofSizing sizing).run moves).delivered .empty →
      ((ofSizing sizing).run moves).Accounted moves := by
  refine ⟨?_, ?_⟩
  · intro cs hend
    have haccounts := Intake.accounts_feed hend
    exact ⟨haccounts, Intake.dropped_feed cs, Intake.length_eq haccounts⟩
  · intro sizing moves hend
    have hperm := (ofSizing sizing).all_run moves
    rw [show (ofSizing sizing).all = [] from rfl, List.append_nil] at hperm
    exact ((tracks_ofSizing sizing).run moves).accounted hperm hend

/-- Data of an opening of one slot. -/
def message (generation : UInt32) (text : String) : Callback :=
  .data ⟨⟨0, generation⟩, .market⟩ text.toUTF8.data.toList

/-- A snapshot of one product; behind a gap a new level, a level of an earlier time and one of another product; what
cannot be read; and data of a connection that has been replaced. -/
def eventful : List Callback := [
  message 2 ("\x7b\"channel\":\"l2_data\",\"sequence_num\":0,\"events\":[\x7b\"type\":\"snapshot\"," ++
    "\"product_id\":\"A\",\"updates\":[]\x7d]\x7d"),
  message 2 ("\x7b\"channel\":\"l2_data\",\"sequence_num\":5,\"events\":[\x7b\"type\":\"update\"," ++
    "\"product_id\":\"A\",\"updates\":[\x7b\"side\":\"bid\",\"event_time\":\"2024-01-01T00:00:02Z\"," ++
    "\"price_level\":\"1\",\"new_quantity\":\"5\"\x7d,\x7b\"side\":\"offer\"," ++
    "\"event_time\":\"2024-01-01T00:00:01Z\",\"price_level\":\"3\",\"new_quantity\":\"4\"\x7d]\x7d," ++
    "\x7b\"type\":\"update\",\"product_id\":\"B\",\"updates\":[\x7b\"side\":\"bid\"," ++
    "\"price_level\":\"1\",\"new_quantity\":\"1\"\x7d]\x7d]\x7d"),
  message 2 "?", message 1 "?"]

/-- Through a small queue: what is taken in, what cannot be read, what comes from a connection that has been replaced,
what is too long, and what nobody takes off. -/
def crowded : List Move := [
  .call ⟨.connected ⟨⟨0, 2⟩, .market⟩, by decide⟩, .call ⟨message 2 "?", by decide +kernel⟩, .process 2,
  .call ⟨.connected ⟨⟨0, 1⟩, .market⟩, by decide⟩, .drain, .call ⟨message 2 "longer than fits", by decide +kernel⟩,
  .call ⟨.disconnected ⟨⟨0, 2⟩, .market⟩, by decide⟩]

/-- Where `crowded` leads, at a queue of 64 bytes that refuses what does not fit. -/
def squeezed : Passage := (ofSizing ⟨64, .reject⟩).run crowded

/-- The equations with the numbers of these runs put in. -/
theorem accounts_crowded :
    ((Intake.empty.feed eventful).2.desk.tally.events = 5 ∧
      (Intake.empty.feed eventful).2.desk.tally.stale + (Intake.empty.feed eventful).2.desk.tally.unknownProducts + 1 =
        3) ∧
    ∃ queue : List Callback, squeezed.conveyor.ring.Queues (queue.map Parcel.encode) ∧
      (5 : UInt64) = 1 + .ofNat queue.length + 1 + 2 + 0 := by
  have hdirect := (accounts.1 eventful (by decide +kernel)).1
  have hevents := hdirect.counts.events
  have hentries := hdirect.entries
  have hcalls := (accounts.2 ⟨64, .reject⟩ crowded (by decide +kernel)).callbacks
  have htold : (Intake.empty.feed eventful).1.length = 5 := by decide +kernel
  have happlied : (Payload.fates (payloadsIn (Intake.empty.feed eventful).1) .empty).count (some .applied) = 1 := by
    decide +kernel
  have hitems : ((payloadsIn (Intake.empty.feed eventful).1).flatMap Payload.items).length = 3 := by decide +kernel
  have hmade : (callsOf crowded).length = 5 := by decide +kernel
  have hdropped : squeezed.conveyor.intake.desk.tally.dropped = 1 := by decide +kernel
  have hretired : squeezed.conveyor.intake.desk.tally.retired = 1 := by decide +kernel
  have htaken : (Intake.journal squeezed.delivered .empty).countP (·.admitted) = 2 := by decide +kernel
  have hblocked : squeezed.blocked.length = 0 := by decide +kernel
  rw [htold] at hevents
  rw [happlied, hitems] at hentries
  rw [← squeezed, hmade, hdropped, hretired, htaken, hblocked] at hcalls
  exact ⟨⟨hevents, hentries⟩, hcalls⟩

end Passage

end MarketFeed.Pipeline
