import MarketFeed.Proofs.Books.Reach
import MarketFeed.Proofs.Continuity
import MarketFeed.Proofs.Pipeline.Accounts
import MarketFeed.Proofs.Pipeline.Refinement
import MarketFeed.Proofs.Roster

/-!
# Pipeline.Interleaving — connections that do not know of each other

All connections share one desk. What is told of a callback is decided by the newest
connection of its slot and the last number of its origin (`Gate.pass`), so callbacks of
other slots make no difference to it. They share the books too, but these matter only for
the counts of entries that had no effect, and only where both have entries of one product.
So the order in which the callbacks of two connections arrive makes no difference to
either:

> `Intake.feed_interleaved`: two sequences of callbacks on different slots can be
> delivered in any mix; each connection is reported on alike, and newest connections, last
> numbers and counters are left the same, but for the counts of changes and trades without
> effect. If no product has changes or trades in both, these counts and the books are left
> the same as well.

What a run comes to is split in two. The gate has the roster and the sequence numbers, and
stays at the slot of a callback (`Gate.staysAt_pass`); the work has the books, and stays
at the products of what is handed to them (`Payload.staysAt_work`). That a delivery is
these two and nothing else is `Delivers`, from `Pipeline.Accounts`. Each of them is then a
matter of steps that do not meet, and the general theorem applies twice
(`Interleaves.steps`).

The runs are assumed to come to their ends, each mix by itself: where a number gets out of
range can depend on the order.
-/

namespace MarketFeed

open Pipeline

/-! ## Last numbers -/

/-- The verdict on a callback and the sequence numbers after it; one of a replaced connection is not judged. -/
def Callback.follow (c : Callback) (admitted : Bool) (k : Continuity) : Option Continuity.Verdict × Continuity :=
  if admitted then c.judge k else (none, if c.signal = .disconnected then k.reset c.origin else k)

/-- The verdict on a callback looks at the number of its origin only. -/
theorem Callback.staysAt_follow (c : Callback) (admitted : Bool) :
    StaysAt Continuity.last? (· = c.origin) (c.follow admitted) := by
  unfold follow judge
  cases admitted with
  | false =>
    cases c.signal with
    | disconnected => exact Continuity.staysAt_reset c.origin
    | _ => exact .pure Continuity.last? _ none
  | true =>
    simp only [if_true]
    cases c.signal with
    | data =>
      cases Envelope.read c.payload with
      | error failure => exact .pure Continuity.last? _ none
      | ok e => exact (Continuity.staysAt_check c.origin e.sequence).map some
    | _ => exact Continuity.staysAt_reset c.origin

namespace Pipeline

/-! ## Reports -/

/-- What the intake makes of a callback. -/
structure Report where
  callback : Callback
  /-- Whether the connection is the newest of its slot. -/
  admitted : Bool
  /-- The verdict on its number, if it has one. -/
  verdict : Option Continuity.Verdict
  notices : List Notice

namespace Report

/-- What the callback adds to the counters apart from what becomes of its entries. -/
def toll (r : Report) : Tally :=
  if r.admitted then r.callback.toll + tollOf (r.notices.map (·.content)) else { retired := 1 }

/-- What the callback hands to the books. -/
def payloads (r : Report) : List Payload := if r.admitted then r.callback.payloads else []

end Report

/-- What decides on the reports. -/
structure Gate where
  roster : Roster
  continuity : Continuity

namespace Gate

/-- The newest generation of a slot, and the last number of each generation of it. -/
def look (g : Gate) (slot : UInt32) : Option UInt32 × (UInt32 → Feed → Option Int) :=
  (g.roster.newest? slot, fun generation feed => g.continuity.last? ⟨⟨slot, generation⟩, feed⟩)

/-- The report on a callback, and the gate after it. -/
def pass (c : Callback) (g : Gate) : Report × Gate :=
  let (admitted, roster) := g.roster.accept c.origin.connection
  let (verdict, continuity) := c.follow admitted g.continuity
  (⟨c, admitted, verdict, if admitted then (c.contents verdict).map (Notice.mk c.origin.connection) else []⟩,
    ⟨roster, continuity⟩)

private theorem ext_look {g g' : Gate} (h : ∀ slot, g.look slot = g'.look slot) : g = g' := by
  have hroster : g.roster = g'.roster :=
    congrArg Roster.mk (SortedMap.ext_get? fun slot => congrArg Prod.fst (h slot))
  have hcontinuity : g.continuity = g'.continuity :=
    congrArg Continuity.mk (SortedMap.ext_get? fun o =>
      congrFun (congrFun (congrArg Prod.snd (h o.connection.slot)) o.connection.generation) o.feed)
  cases g
  cases g'
  exact congr (congrArg Gate.mk hroster) hcontinuity

private theorem alike_look_iff {slot : UInt32} {g g' : Gate} : Alike look (· = slot) g g' ↔
    Alike Roster.newest? (· = slot) g.roster g'.roster ∧
      Alike Continuity.last? (·.connection.slot = slot) g.continuity g'.continuity := by
  constructor
  · intro h
    refine ⟨fun s hs => congrArg Prod.fst (h s hs), ?_⟩
    intro o ho
    exact congrFun (congrFun (congrArg Prod.snd (h o.connection.slot ho)) o.connection.generation) o.feed
  · rintro ⟨hroster, hcontinuity⟩ s hs
    refine Prod.ext (hroster s hs) ?_
    funext generation feed
    exact hcontinuity ⟨⟨s, generation⟩, feed⟩ hs

/-- The report on a callback depends on its slot only. -/
theorem staysAt_pass (c : Callback) : StaysAt look (· = c.origin.connection.slot) (pass c) := by
  have haccept := Roster.staysAt_accept c.origin.connection
  have hfollow (admitted : Bool) :
      StaysAt Continuity.last? (·.connection.slot = c.origin.connection.slot) (c.follow admitted) :=
    (c.staysAt_follow admitted).mono fun o ho => by rw [ho]
  refine ⟨?_, ?_, ?_⟩
  · intro g g' h
    obtain ⟨hroster, hcontinuity⟩ := alike_look_iff.1 h
    unfold pass
    simp only
    rw [haccept.answer hroster, (hfollow _).answer hcontinuity]
  · intro g g' h
    obtain ⟨hroster, hcontinuity⟩ := alike_look_iff.1 h
    refine alike_look_iff.2 ⟨haccept.writes hroster, ?_⟩
    unfold pass
    simp only
    rw [haccept.answer hroster]
    exact (hfollow _).writes hcontinuity
  · intro slot hslot g
    refine Prod.ext (haccept.frame hslot g.roster) ?_
    funext generation feed
    exact (hfollow _).frame hslot g.continuity

end Gate

/-! ## Books -/

namespace Payload

/-- The products whose books a payload looks at. -/
def products : Payload → List Product
  | levels _ batch => [batch.product]
  | trades .update ts => ts.map (·.product)
  | _ => []

/-- A payload looks at the books of its products only. -/
theorem staysAt_applyTo (p : Payload) : StaysAt Books.get? (· ∈ p.products) fun bs => p.applyTo bs := by
  cases p with
  | levels kind batch =>
    cases kind with
    | snapshot =>
      have h := (Books.staysAt_snapshot batch.product batch.changes).map fun _ => some BatchOutcome.zero
      exact h.mono fun p hp => List.mem_singleton.2 hp
    | update =>
      have h := (Books.staysAt_change batch.product batch.changes).map some
      exact h.mono fun p hp => List.mem_singleton.2 hp
  | trades kind ts =>
    cases kind with
    | snapshot => exact .pure Books.get? _ (some BatchOutcome.zero)
    | update => exact Books.staysAt_trade ts
  | _ => exact .pure Books.get? _ (some BatchOutcome.zero)

/-- What becomes of the entries of payloads, and the books afterwards. -/
def work (ps : List Payload) (bs : Books) : List BatchOutcome × Books := (outcomes ps bs, applyAll ps bs)

/-- So do payloads in turn. -/
theorem staysAt_work (ps : List Payload) : StaysAt Books.get? (· ∈ ps.flatMap products) (work ps) := by
  induction ps with
  | nil => exact .pure Books.get? _ []
  | cons p rest ih =>
    have hfirst : StaysAt Books.get? (· ∈ (p :: rest).flatMap products) fun bs => p.applyTo bs :=
      p.staysAt_applyTo.mono fun product hproduct => by
        rw [List.flatMap_cons]
        exact List.mem_append_left _ hproduct
    have hrest : StaysAt Books.get? (· ∈ (p :: rest).flatMap products) (work rest) :=
      ih.mono fun product hproduct => by
        rw [List.flatMap_cons]
        exact List.mem_append_right _ hproduct
    exact hfirst.next fun outcome => hrest.map (outcome.getD .zero :: ·)

end Payload

end Pipeline

/-- The products whose books a callback looks at. -/
def Callback.products (c : Callback) : List Product := c.payloads.flatMap Payload.products

namespace Pipeline

/-! ## The intake -/

namespace Intake

/-- The newest connections and the last numbers of an intake. -/
def gate (i : Intake) : Gate := ⟨i.roster, i.desk.continuity⟩

/-- The report on a callback that is delivered. -/
def report (i : Intake) (c : Callback) : Report where
  callback := c
  admitted := (i.roster.accept c.origin.connection).1
  verdict := (c.follow (i.roster.accept c.origin.connection).1 i.desk.continuity).1
  notices := (i.deliver c).deliveries.map (·.notice)

/-- The reports on callbacks that are delivered in turn. -/
def journal : List Callback → Intake → List Report
  | [], _ => []
  | c :: rest, i => i.report c :: journal rest (i.deliver c).state

/-- That callbacks in turn all come to their end, without a number out of range. -/
def Finishes : List Callback → Intake → Prop
  | [], _ => True
  | c :: rest, i => (i.deliver c).ending = .finished ∧ Finishes rest (i.deliver c).state

instance decidableFinishes : (cs : List Callback) → (i : Intake) → Decidable (Finishes cs i)
  | [], _ => .isTrue trivial
  | c :: rest, i =>
    have := decidableFinishes rest (i.deliver c).state
    inferInstanceAs (Decidable ((i.deliver c).ending = .finished ∧ Finishes rest (i.deliver c).state))

/-- A callback of a replaced connection does not get to the desk. -/
theorem deliver_of_retired {c : Callback} {i : Intake} {roster : Roster}
    (h : i.roster.accept c.origin.connection = (false, roster)) :
    i.deliver c = ⟨[], { i with roster }.drop c, .finished⟩ := by
  rw [deliver, h]

/-- Any other callback is handled by the desk. -/
theorem deliver_of_admitted {c : Callback} {i : Intake} {roster : Roster}
    (h : i.roster.accept c.origin.connection = (true, roster)) :
    i.deliver c = (i.desk.handle c).map fun desk => ⟨desk, roster⟩ := by
  rw [deliver, h]

/-- The gate after a delivery, whether it comes to its end or not. -/
theorem gate_deliver (i : Intake) (c : Callback) : (i.deliver c).state.gate = (Gate.pass c i.gate).2 := by
  have hpass : (Gate.pass c i.gate).2 = ⟨(i.roster.accept c.origin.connection).2,
      (c.follow (i.roster.accept c.origin.connection).1 i.desk.continuity).2⟩ := rfl
  rw [hpass]
  rcases haccept : i.roster.accept c.origin.connection with ⟨_ | _, roster⟩
  · rw [deliver_of_retired haccept]
    unfold drop Callback.follow gate
    split <;> rfl
  · rw [deliver_of_admitted haccept]
    exact congrArg (Gate.mk roster) (i.desk.handle_continuity c)

/-- The gate after a run. -/
theorem gate_feed (cs : List Callback) (i : Intake) : (feed cs i).2.gate = stateAfter Gate.pass cs i.gate := by
  induction cs generalizing i with
  | nil => rfl
  | cons c rest ih =>
    rw [stateAfter, ← gate_deliver]
    exact ih (i.deliver c).state

/-- What a delivery comes to. -/
structure Delivers (c : Callback) (i : Intake) : Prop where
  report : i.report c = (Gate.pass c i.gate).1
  gate : (i.deliver c).state.gate = (Gate.pass c i.gate).2
  books : (i.deliver c).state.desk.books = Payload.applyAll (i.report c).payloads i.desk.books
  tally : (i.deliver c).state.desk.tally =
    i.desk.tally + ((i.report c).toll + bookToll (Payload.outcomes (i.report c).payloads i.desk.books))

/-- A callback of a replaced connection is dropped and counted. -/
theorem delivers_of_retired {c : Callback} {i : Intake} {roster : Roster}
    (h : i.roster.accept c.origin.connection = (false, roster)) : Delivers c i := by
  have hdeliver := deliver_of_retired h
  have hreport : i.report c = ⟨c, false, (c.follow false i.desk.continuity).1, []⟩ := by
    simp only [report, h, hdeliver, List.map_nil]
  have hpass : Gate.pass c i.gate =
      (⟨c, false, (c.follow false i.desk.continuity).1, []⟩, ⟨roster, (c.follow false i.desk.continuity).2⟩) := by
    simp only [Gate.pass, gate, h]
    rfl
  refine ⟨?_, ?_, ?_, ?_⟩
  · rw [hreport, hpass]
  · exact gate_deliver i c
  · rw [hreport, hdeliver]
    unfold drop
    split <;> rfl
  · have htally : ({ i with roster }.drop c).desk.tally = i.desk.tally.retire := by
      unfold drop
      split <;> rfl
    have hnothing : bookToll (Payload.outcomes [] i.desk.books) = 0 := rfl
    rw [hreport, hdeliver]
    simp only [Report.payloads, Report.toll, Bool.false_eq_true, if_false, hnothing, add_zero]
    exact htally.trans (Tally.retire_eq i.desk.tally)

/-- Any other comes to what it comes to on the desk. -/
theorem delivers_of_admitted {c : Callback} {i : Intake} {roster : Roster}
    (h : i.roster.accept c.origin.connection = (true, roster)) (hend : (i.deliver c).ending = .finished) :
    Delivers c i := by
  have hdeliver := deliver_of_admitted h
  rw [hdeliver] at hend
  obtain ⟨hreading, hfit⟩ := Desk.fit_of_handle hend
  have hsettles := Desk.handle_settles hreading hfit
  have hreport : i.report c = ⟨c, true, (c.judge i.desk.continuity).1,
      (c.contents (c.judge i.desk.continuity).1).map (Notice.mk c.origin.connection)⟩ := by
    rw [← hsettles.notices]
    simp only [report, h, hdeliver]
    rfl
  have hpass : Gate.pass c i.gate = (⟨c, true, (c.judge i.desk.continuity).1,
      (c.contents (c.judge i.desk.continuity).1).map (Notice.mk c.origin.connection)⟩,
      ⟨roster, (c.judge i.desk.continuity).2⟩) := by
    simp only [Gate.pass, gate, h]
    rfl
  refine ⟨?_, ?_, ?_, ?_⟩
  · rw [hreport, hpass]
  · exact gate_deliver i c
  · rw [hreport, hdeliver]
    exact hsettles.books
  · rw [hreport, hdeliver]
    simp only [Report.payloads, Report.toll, if_true, Desk.contents_notices]
    exact hsettles.tally

/-- The report on a callback that comes to its end is the gate's, and what it hands to the books follows from it. -/
theorem delivers_of_finished {c : Callback} {i : Intake} (h : (i.deliver c).ending = .finished) : Delivers c i := by
  rcases haccept : i.roster.accept c.origin.connection with ⟨_ | _, roster⟩
  · exact delivers_of_retired haccept
  · exact delivers_of_admitted haccept h

/-! ## Runs -/

/-- What the entries of the callbacks in a journal come to, report by report. -/
def outcomesOf (reports : List Report) (bs : Books) : List (List BatchOutcome) :=
  answers Payload.work (reports.map Report.payloads) bs

/-- What a run comes to. -/
structure Runs (cs : List Callback) (i : Intake) : Prop where
  journal : journal cs i = answers Gate.pass cs i.gate
  gate : (feed cs i).2.gate = stateAfter Gate.pass cs i.gate
  books : (feed cs i).2.desk.books = stateAfter Payload.work ((Intake.journal cs i).map Report.payloads) i.desk.books
  tally : (feed cs i).2.desk.tally = i.desk.tally + (((Intake.journal cs i).map Report.toll).sum +
    ((outcomesOf (Intake.journal cs i) i.desk.books).map bookToll).sum)

/-- A run that comes to its end is a run of the gate and of the work. -/
theorem runs_of_finishes {cs : List Callback} {i : Intake} (h : Finishes cs i) : Runs cs i := by
  induction cs generalizing i with
  | nil => exact ⟨rfl, rfl, rfl, (add_zero i.desk.tally).symm⟩
  | cons c rest ih =>
    obtain ⟨hend, hrest⟩ := h
    obtain ⟨hreport, hgate, hbooks, htally⟩ := delivers_of_finished hend
    obtain ⟨hjournal, -, hall, hsum⟩ := ih hrest
    rw [hgate] at hjournal
    refine ⟨?_, gate_feed (c :: rest) i, ?_, ?_⟩
    · rw [Intake.journal, answers, ← hreport, hjournal]
    · rw [hbooks] at hall
      exact hall
    · rw [hbooks, htally] at hsum
      refine hsum.trans ?_
      simp only [Intake.journal, outcomesOf, List.map_cons, List.sum_cons, answers, Payload.work]
      ac_rfl

/-- What was told in a run is what the reports say in turn. -/
theorem notices_feed (cs : List Callback) (i : Intake) :
    (feed cs i).1.map (·.notice) = (journal cs i).flatMap (·.notices) := by
  induction cs generalizing i with
  | nil => rfl
  | cons c rest ih =>
    rw [journal, List.flatMap_cons, ← ih]
    exact List.map_append

private theorem callback_mem {cs : List Callback} {g : Gate} {r : Report} (h : r ∈ answers Gate.pass cs g) :
    r.callback ∈ cs := by
  induction cs generalizing g with
  | nil => cases h
  | cons c rest ih =>
    rcases List.mem_cons.1 h with rfl | hrest
    · exact List.mem_cons_self
    · exact List.mem_cons_of_mem c (ih hrest)

private theorem products_subset {r : Report} {p : Product} (h : p ∈ r.payloads.flatMap Payload.products) :
    p ∈ r.callback.products := by
  unfold Report.payloads at h
  split at h
  next => exact h
  next => cases h

private theorem withoutBooks_bookTolls (outcomes : List (List BatchOutcome)) :
    ((outcomes.map bookToll).sum).withoutBooks = 0 := by
  induction outcomes with
  | nil => rfl
  | cons first rest ih =>
    rw [List.map_cons, List.sum_cons, Tally.withoutBooks_add, ih, bookToll, Tally.withoutBooks_sum_ofOutcome, add_zero]

variable {xs ys zs zs' : List Callback} {i : Intake}

/-- The reports in a mix are a mix of what would be reported of each sequence alone, and the gate is left the same. -/
theorem mixes (hslots : ∀ x ∈ xs, ∀ y ∈ ys, x.origin.connection.slot ≠ y.origin.connection.slot)
    (hzs : Interleaves xs ys zs) (hend : Finishes zs i) :
    (feed zs i).2.gate = stateAfter Gate.pass ys (stateAfter Gate.pass xs i.gate) ∧
      Interleaves (answers Gate.pass xs i.gate) (answers Gate.pass ys i.gate) (journal zs i) := by
  have hruns := runs_of_finishes hend
  rw [hruns.gate, hruns.journal]
  exact hzs.steps Gate.staysAt_pass (fun _ _ => Gate.ext_look)
    (fun x hx y hy slot hslot hslot' => hslots x hx y hy (hslot.symm.trans hslot')) i.gate

/-- When the entries are for different products, the books are left the same as well, and the counts of entries without
effect are a mix. -/
theorem mixes_books (hproducts : ∀ x ∈ xs, ∀ y ∈ ys, ∀ p ∈ x.products, p ∉ y.products) {g : Gate}
    {reports : List Report} (h : Interleaves (answers Gate.pass xs g) (answers Gate.pass ys g) reports) (bs : Books) :
    stateAfter Payload.work (reports.map Report.payloads) bs =
        stateAfter Payload.work ((answers Gate.pass ys g).map Report.payloads)
          (stateAfter Payload.work ((answers Gate.pass xs g).map Report.payloads) bs) ∧
      Interleaves (outcomesOf (answers Gate.pass xs g) bs) (outcomesOf (answers Gate.pass ys g) bs)
        (outcomesOf reports bs) := by
  refine (h.map Report.payloads).steps Payload.staysAt_work (fun _ _ => Books.ext_get?) ?_ bs
  intro ps hps qs hqs p hp hp'
  obtain ⟨r, hr, rfl⟩ := List.mem_map.1 hps
  obtain ⟨r', hr', rfl⟩ := List.mem_map.1 hqs
  exact hproducts _ (callback_mem hr) _ (callback_mem hr') p (products_subset hp) (products_subset hp')

/-- Two sequences of callbacks on different slots can be delivered in any mix: each connection is reported on alike, and
newest connections, last numbers and counters are left the same, but for the counts of changes and trades without
effect. If no product has changes or trades in both, these counts and the books are left the same as well. -/
theorem feed_interleaved (hslots : ∀ x ∈ xs, ∀ y ∈ ys, x.origin.connection.slot ≠ y.origin.connection.slot)
    (hzs : Interleaves xs ys zs) (hzs' : Interleaves xs ys zs') (hend : Finishes zs i) (hend' : Finishes zs' i) :
    (∀ k : Connection, (journal zs i).filter (·.callback.origin.connection = k) =
      (journal zs' i).filter (·.callback.origin.connection = k)) ∧
    (feed zs i).2.roster = (feed zs' i).2.roster ∧
    (feed zs i).2.desk.continuity = (feed zs' i).2.desk.continuity ∧
    (feed zs i).2.desk.tally.withoutBooks = (feed zs' i).2.desk.tally.withoutBooks ∧
    ((∀ x ∈ xs, ∀ y ∈ ys, ∀ p ∈ x.products, p ∉ y.products) →
      (feed zs i).2.desk.books = (feed zs' i).2.desk.books ∧ (feed zs i).2.desk.tally = (feed zs' i).2.desk.tally) := by
  obtain ⟨hgate, hmix⟩ := mixes hslots hzs hend
  obtain ⟨hgate', hmix'⟩ := mixes hslots hzs' hend'
  have hsame : (feed zs i).2.gate = (feed zs' i).2.gate := hgate.trans hgate'.symm
  have htolls : ((journal zs i).map Report.toll).sum = ((journal zs' i).map Report.toll).sum :=
    ((hmix.perm.trans hmix'.perm.symm).map Report.toll).sum_eq
  have hruns := runs_of_finishes hend
  have hruns' := runs_of_finishes hend'
  refine ⟨fun k => ?_, congrArg Gate.roster hsame, congrArg Gate.continuity hsame, ?_, fun hproducts => ?_⟩
  · -- a connection is on one side only
    by_cases hk : ∃ y ∈ ys, y.origin.connection = k
    · obtain ⟨y, hy, rfl⟩ := hk
      have hother : ∀ r ∈ answers Gate.pass xs i.gate,
          decide (r.callback.origin.connection = y.origin.connection) = false := fun r hr =>
        decide_eq_false fun h => hslots _ (callback_mem hr) y hy (congrArg Connection.slot h)
      rw [hmix.symm.filter_left hother, hmix'.symm.filter_left hother]
    · have hother : ∀ r ∈ answers Gate.pass ys i.gate, decide (r.callback.origin.connection = k) = false :=
        fun r hr => decide_eq_false fun h => hk ⟨_, callback_mem hr, h⟩
      rw [hmix.filter_left hother, hmix'.filter_left hother]
  · rw [hruns.tally, hruns'.tally, htolls]
    simp only [Tally.withoutBooks_add, withoutBooks_bookTolls]
  · obtain ⟨hbooks, houtcomes⟩ := mixes_books hproducts hmix i.desk.books
    obtain ⟨hbooks', houtcomes'⟩ := mixes_books hproducts hmix' i.desk.books
    have hcounts := ((houtcomes.perm.trans houtcomes'.perm.symm).map bookToll).sum_eq
    refine ⟨?_, ?_⟩
    · rw [hruns.books, hruns'.books, hbooks, hbooks']
    · rw [hruns.tally, hruns'.tally, htolls, hcounts]

/-- A snapshot of one level of a product. -/
def listing (slot : UInt32) (product sequence : String) : Callback :=
  .data ⟨⟨slot, 1⟩, .market⟩ <| String.toUTF8 (
    "\x7b\"channel\":\"l2_data\",\"sequence_num\":" ++ sequence ++ ",\"events\":[\x7b\"type\":\"snapshot\"," ++
    "\"product_id\":\"" ++ product ++ "\",\"updates\":[\x7b\"side\":\"bid\",\"price_level\":\"1\"," ++
    "\"new_quantity\":\"2\"\x7d]\x7d]\x7d") |>.data.toList

/-- Two numbers of one connection with a gap in between. -/
def gapped : List Callback := [listing 0 "A" "0", listing 0 "A" "5"]

/-- A message and the end of another connection. -/
def lost : List Callback := [listing 1 "B" "3", .disconnected ⟨⟨1, 1⟩, .market⟩]

/-- With a gap on the one connection and the loss of the other, two mixes leave the same desk. -/
theorem feed_interleaved_lost :
    let byTurns := [listing 1 "B" "3", listing 0 "A" "0", .disconnected ⟨⟨1, 1⟩, .market⟩, listing 0 "A" "5"]
    byTurns ≠ gapped ++ lost ∧
    ((journal byTurns .empty).filter (·.callback.origin.connection = ⟨0, 1⟩)).map (·.verdict) =
      [some .accepted, some (.gap 0 5)] ∧
    (journal (gapped ++ lost) .empty).filter (·.callback.origin.connection = ⟨0, 1⟩) =
      (journal byTurns .empty).filter (·.callback.origin.connection = ⟨0, 1⟩) ∧
    (feed (gapped ++ lost) .empty).2.desk.books = (feed byTurns .empty).2.desk.books := by
  intro byTurns
  have hslots : ∀ x ∈ gapped, ∀ y ∈ lost, x.origin.connection.slot ≠ y.origin.connection.slot := by decide +kernel
  have hproducts : ∀ x ∈ gapped, ∀ y ∈ lost, ∀ p ∈ x.products, p ∉ y.products := by decide +kernel
  have hfirst : Interleaves gapped lost (gapped ++ lost) := .left _ (.left _ (.right _ (.right _ .nil)))
  have hturns : Interleaves gapped lost byTurns := .right _ (.left _ (.right _ (.left _ .nil)))
  have hend : Finishes (gapped ++ lost) .empty := by decide +kernel
  have hend' : Finishes byTurns .empty := by decide +kernel
  obtain ⟨hreports, -, -, -, hbooks⟩ := feed_interleaved hslots hfirst hturns hend hend'
  exact ⟨by decide +kernel, by decide +kernel, hreports ⟨0, 1⟩, (hbooks hproducts).1⟩

end Intake

end Pipeline

end MarketFeed
