import MarketFeed.Proofs.Books.Edits
import MarketFeed.Proofs.Interleaving

/-!
# Books.Reach — which books an edit looks at

A snapshot, a batch of changes and a single trade look at the book of their product and
may put another in its place; no other book plays a part. All three are the same visit to
the books with another way to treat what is found there (`visit`), so it is enough to show
once that a visit stays at its product:

> `staysAt_visit`: a visit to the book of a product looks at no other book and changes
> none.
>
> `staysAt_trade`: a batch of trades stays at the books of its products, also if it ends
> early.

The batch is a sequence of visits in which a later one depends on whether an earlier one
could be made (`tradeRest`), which is why `StaysAt.next` lets a step depend on an answer.

With that, edits of different products commute (`Interleaving`), edits of one product can
be told apart from all others (`Books.Products`), and two connections whose messages are
about different products can be mixed in any way (`Pipeline.Interleaving`).
-/

namespace MarketFeed

namespace Books

/-- Looks at the book of a product, and perhaps puts another in its place. -/
def visit {β : Type} (p : Product) (f : Option Book → β × Option Book) (bs : Books) : β × Books :=
  match f (bs.get? p) with
  | (answer, none) => (answer, bs)
  | (answer, some b) => (answer, bs.put p b)

/-- Books are the same if every product has the same book. -/
theorem ext_get? {bs bs' : Books} (h : ∀ p, bs.get? p = bs'.get? p) : bs = bs' :=
  congrArg Books.mk (SortedMap.ext_get? h)

/-- The book of a product afterwards is as the visit to it leaves it, and every other as it was. -/
theorem get?_visit {β : Type} (p : Product) (f : Option Book → β × Option Book) (bs : Books) (q : Product) :
    (visit p f bs).2.get? q = if q = p then (f (bs.get? p)).2.or (bs.get? p) else bs.get? q := by
  unfold visit
  split
  next answer heq =>
    rw [heq]
    split
    next hq => rw [hq, Option.none_or]
    next => rfl
  next answer b heq =>
    rw [heq]
    exact get?_put bs p b q

private theorem visit_answer {β : Type} (p : Product) (f : Option Book → β × Option Book) (bs : Books) :
    (visit p f bs).1 = (f (bs.get? p)).1 := by
  unfold visit
  rcases f (bs.get? p) with ⟨answer, _ | b⟩ <;> rfl

/-- A visit to the book of a product stays there. -/
theorem staysAt_visit {β : Type} (p : Product) (f : Option Book → β × Option Book) :
    StaysAt get? (· = p) (visit p f) := by
  refine ⟨?_, ?_, ?_⟩
  · intro bs bs' h
    rw [visit_answer, visit_answer, h p rfl]
  · intro bs bs' h q hq
    rw [get?_visit, get?_visit, if_pos hq, if_pos hq, h p rfl]
  · intro q hq bs
    rw [get?_visit, if_neg hq]

/-- A snapshot puts a book in the place of the one it finds. -/
theorem staysAt_snapshot (p : Product) (changes : List LevelChange) :
    StaysAt get? (· = p) fun bs => ((), bs.snapshot p changes) :=
  staysAt_visit p fun found => ((), some ((found.getD (.empty p)).snapshot changes))

/-- What changes make of the book they find. -/
def changeFound (changes : List LevelChange) (found : Option Book) : BatchOutcome × Option Book :=
  match found with
  | none => (⟨0, 0, changes.length⟩, none)
  | some b =>
    (⟨changes.length - (b.changeAll changes).1, (b.changeAll changes).1, 0⟩, some (b.changeAll changes).2)

/-- A batch of changes stays at the book of its product. -/
theorem staysAt_change (p : Product) (changes : List LevelChange) :
    StaysAt get? (· = p) fun bs => bs.change p changes := by
  have heq : (fun bs : Books => bs.change p changes) = visit p (changeFound changes) := by
    funext bs
    unfold change visit
    cases bs.get? p <;> rfl
  rw [heq]
  exact staysAt_visit p (changeFound changes)

/-- What a trade makes of the book it finds; without an outcome it leaves it as it is. -/
def tradeFound (t : Trade) (o : BatchOutcome) (found : Option Book) : Option BatchOutcome × Option Book :=
  match found with
  | none => (some o.countUnknown, none)
  | some b =>
    match b.trade? t.side t.price t.size t.time with
    | none => (none, none)
    | some (effect, b) => (some (o.count effect), some b)

/-- One trade of a batch. -/
def tradeStep (t : Trade) (o : BatchOutcome) (bs : Books) : Option BatchOutcome × Books :=
  match bs.trade? o t with
  | none => (none, bs)
  | some (o, bs) => (some o, bs)

/-- A trade stays at the book of its product. -/
theorem staysAt_tradeStep (t : Trade) (o : BatchOutcome) : StaysAt get? (· = t.product) (tradeStep t o) := by
  have heq : tradeStep t o = visit t.product (tradeFound t o) := by
    funext bs
    unfold tradeStep trade? visit tradeFound
    cases bs.get? t.product with
    | none => rfl
    | some b =>
      simp only
      cases b.trade? t.side t.price t.size t.time <;> rfl
  rw [heq]
  exact staysAt_visit t.product (tradeFound t o)

/-- The rest of a batch, unless it has ended. -/
def tradeRest (trades : List Trade) : Option BatchOutcome → Books → Option BatchOutcome × Books
  | none, bs => (none, bs)
  | some o, bs => tradeAll bs o trades

private theorem tradeAll_cons (t : Trade) (rest : List Trade) (o : BatchOutcome) (bs : Books) :
    tradeAll bs o (t :: rest) = tradeRest rest (tradeStep t o bs).1 (tradeStep t o bs).2 := by
  rw [tradeAll, tradeStep]
  cases bs.trade? o t <;> rfl

/-- The rest of a batch stays at the books of its products, however it ends. -/
theorem staysAt_tradeAll (o : BatchOutcome) (trades : List Trade) :
    StaysAt get? (· ∈ trades.map (·.product)) fun bs => tradeAll bs o trades := by
  induction trades generalizing o with
  | nil => exact .pure get? _ (some o)
  | cons t rest ih =>
    have hfirst : StaysAt get? (· ∈ (t :: rest).map (·.product)) (tradeStep t o) :=
      (staysAt_tradeStep t o).mono fun p hp => hp ▸ List.mem_cons_self
    have hrest (answer : Option BatchOutcome) :
        StaysAt get? (· ∈ (t :: rest).map (·.product)) (tradeRest rest answer) := by
      cases answer with
      | none => exact .pure get? _ none
      | some o => exact (ih o).mono fun p hp => List.mem_cons_of_mem _ hp
    simp only [tradeAll_cons]
    exact hfirst.next hrest

/-- A batch of trades stays at the books of its products. -/
theorem staysAt_trade (trades : List Trade) :
    StaysAt get? (· ∈ trades.map (·.product)) fun bs => bs.trade trades := staysAt_tradeAll .zero trades

end Books

end MarketFeed
