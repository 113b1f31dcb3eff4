import MarketFeed.Proofs.Books.Edits

/-!
# Books.Ladders — what can be read off a book

The levels of a side are listed with the best first: bids downwards, asks upwards.
Everything else that a reader of a book asks for can be told from these two lists: how
deep it is, the best level of each side, and the quantity at a price. That the readings
agree with the lists, and that the lists are in order, is one record:

> `Orderly`: every quantity is above zero, no two levels of a side stand at one number,
> bids descend and asks ascend strictly, and depths, best levels and quantities are those
> of the lists.
>
> `orderly_edited`: every book is orderly after any edits whatsoever.

A book may have been through edits with quantities and prices below zero, zeros, and one
price given twice in different spellings. Still no level of it is empty, which is the
invariant of `Books.Edits`. That no two levels have one price is owed to amounts without
trailing zeros: the order of prices is the order of the numbers that they stand for
(`Price.compare_eq_lt_iff`), and a side is a map in that order. So of all that is promised
only the quantities depend on what has been done to the book.
-/

namespace MarketFeed

namespace Price

/-- Prices are in the order of their numbers. -/
theorem compare_eq_lt_iff {p q : Price} : compare p q = .lt ↔ p.value.toRat < q.value.toRat :=
  Decimal.order_eq_lt_iff

end Price

namespace Book

/-! ## The two lists -/

/-- The levels of one side, the best first. -/
def ladder (b : Book) : Side → List Level
  | .buy => b.bidLevels
  | .sell => b.askLevels

/-- What a reader of a book can rely on. -/
structure Orderly (b : Book) : Prop where
  positive : ∀ s, ∀ l ∈ b.ladder s, 0 < l.quantity.value.toRat
  /-- No two levels of a side stand at one number. -/
  apart : ∀ s, (b.ladder s).Pairwise fun l m => l.price.value.toRat ≠ m.price.value.toRat
  descending : b.bidLevels.Pairwise fun l m => m.price.value.toRat < l.price.value.toRat
  ascending : b.askLevels.Pairwise fun l m => l.price.value.toRat < m.price.value.toRat
  depth : ∀ n, (b.depth n).bids = b.bidLevels.take n ∧ (b.depth n).asks = b.askLevels.take n
  best : b.bestBid? = b.bidLevels.head? ∧ b.bestAsk? = b.askLevels.head?
  quantityAt : ∀ s p q, b.quantityAt? s p = some q ↔ ⟨p, q⟩ ∈ b.ladder s

variable (b : Book)

/-- Asks are listed strictly upwards. -/
theorem askLevels_pairwise : b.askLevels.Pairwise fun l m => l.price.value.toRat < m.price.value.toRat := by
  unfold askLevels
  rw [List.pairwise_map]
  exact b.asks.ascending.imp fun h => Price.compare_eq_lt_iff.1 h

/-- Bids are listed strictly downwards. -/
theorem bidLevels_pairwise : b.bidLevels.Pairwise fun l m => m.price.value.toRat < l.price.value.toRat := by
  unfold bidLevels
  rw [List.pairwise_reverse, List.pairwise_map]
  exact b.bids.ascending.imp fun h => Price.compare_eq_lt_iff.1 h

private theorem ladder_apart (s : Side) :
    (b.ladder s).Pairwise fun l m => l.price.value.toRat ≠ m.price.value.toRat := by
  cases s with
  | buy => exact b.bidLevels_pairwise.imp fun h => h.ne'
  | sell => exact b.askLevels_pairwise.imp fun h => h.ne

/-- The best ask comes first in the map and in the list. -/
theorem bestAsk?_eq_head? : b.bestAsk? = b.askLevels.head? := by
  show b.asks.entries.head?.map _ = (b.asks.entries.map _).head?
  rw [List.head?_map]

/-- The best bid has the greatest price, so it comes last in the map and first in the list. -/
theorem bestBid?_eq_head? : b.bestBid? = b.bidLevels.head? := by
  show b.bids.entries.getLast?.map _ = (b.bids.entries.map _).reverse.head?
  rw [List.head?_reverse, List.getLast?_map]

private theorem mem_map_level {levels : Levels} {p : Price} {q : Quantity} :
    (⟨p, q⟩ : Level) ∈ levels.entries.map (fun e => ⟨e.1, e.2⟩) ↔ levels.get? p = some q := by
  rw [← SortedMap.mem_entries_iff, List.mem_map]
  constructor
  · rintro ⟨e, he, heq⟩
    obtain ⟨rfl, rfl⟩ := Level.mk.inj heq
    exact he
  · intro he
    exact ⟨(p, q), he, rfl⟩

/-- Looking up a price finds what the list says. -/
theorem quantityAt?_eq_some_iff (s : Side) (p : Price) (q : Quantity) :
    b.quantityAt? s p = some q ↔ ⟨p, q⟩ ∈ b.ladder s := by
  cases s with
  | buy =>
    show b.bids.get? p = some q ↔ _ ∈ (b.bids.entries.map _).reverse
    rw [List.mem_reverse, mem_map_level]
  | sell => exact mem_map_level.symm

variable {b}

/-- Of all this, only the quantities depend on what has been done to the book. -/
theorem Positive.orderly (h : b.Positive) : b.Orderly where
  positive := by
    intro s l hl
    exact h s l.price l.quantity ((b.quantityAt?_eq_some_iff s l.price l.quantity).2 hl)
  apart := b.ladder_apart
  descending := b.bidLevels_pairwise
  ascending := b.askLevels_pairwise
  depth := fun n => ⟨rfl, rfl⟩
  best := ⟨b.bestBid?_eq_head?, b.bestAsk?_eq_head?⟩
  quantityAt := b.quantityAt?_eq_some_iff

end Book

/-! ## All books -/

namespace Books

/-- Whatever edits there were, and whatever the amounts in them: every level of every book has a quantity above zero and
a price of its own, bids are listed strictly downwards and asks strictly upwards, and depths, best levels and quantities
are read off these lists. -/
theorem orderly_edited (edits : List Edit) {p : Product} {b : Book} (h : (empty.edited edits).get? p = some b) :
    b.Orderly :=
  (positive_empty.edited edits p b h).orderly

/-- An amount by its digits and how many of them stand behind the point. -/
def amount (coefficient : Int) (scale : Nat) : Decimal := (Decimal.ofParts? coefficient scale).getD .zero

/-- One price in two spellings, a price below zero, and levels without a quantity; then a level that is emptied, and
trades with a size below zero and with one that is too large. -/
def awkward : List Edit :=
  let product : Product := ⟨"A"⟩
  let level (side : Side) (time : Int) (price quantity : Decimal) : LevelChange :=
    ⟨side, time, .ofDecimal price, .ofDecimal quantity⟩
  let trade (side : Side) (time : Int) (price size : Decimal) : Trade :=
    ⟨"", product, .ofDecimal price, .ofDecimal size, side, time⟩
  [.snapshot product [level .buy 1 (amount 1000 1) (amount 1 0), level .buy 1 (amount 100 0) (amount 250 2),
      level .buy 0 (amount (-5) 0) (amount 3 0), level .sell 1 (amount 101 0) (amount 0 2),
      level .sell 1 (amount 102 0) (amount (-1) 0), level .sell 1 (amount 103 0) (amount 4 0),
      level .sell 1 (amount 104 0) (amount 1 0)],
    .change product [level .sell 2 (amount 1030 1) (amount (-2) 0), level .buy 3 (amount 99 0) (amount 1 0)],
    .trade [trade .buy 4 (amount 100 0) (amount (-1) 0), trade .buy 5 (amount 99 0) (amount 7 0)],
    .remove ⟨"B"⟩]

/-- Two bids and one ask are left of them, in their order. -/
theorem orderly_edited_awkward : ∃ b, (empty.edited awkward).get? ⟨"A"⟩ = some b ∧ b.Orderly ∧
    b.bidLevels = [⟨.ofDecimal (amount 100 0), .ofDecimal (amount 35 1)⟩,
      ⟨.ofDecimal (amount (-5) 0), .ofDecimal (amount 3 0)⟩] ∧
    b.askLevels = [⟨.ofDecimal (amount 104 0), .ofDecimal (amount 1 0)⟩] := by
  cases h : (empty.edited awkward).get? ⟨"A"⟩ with
  | none =>
    have hsome : ((empty.edited awkward).get? ⟨"A"⟩).isSome = true := by decide +kernel
    rw [h] at hsome
    cases hsome
  | some b =>
    have hlists : ((empty.edited awkward).get? ⟨"A"⟩).map (fun b => (b.bidLevels, b.askLevels)) =
        some ([⟨.ofDecimal (amount 100 0), .ofDecimal (amount 35 1)⟩,
          ⟨.ofDecimal (amount (-5) 0), .ofDecimal (amount 3 0)⟩],
          [⟨.ofDecimal (amount 104 0), .ofDecimal (amount 1 0)⟩]) := by decide +kernel
    rw [h] at hlists
    obtain ⟨hbids, hasks⟩ := Prod.mk.inj (Option.some.inj hlists)
    exact ⟨b, rfl, orderly_edited awkward h, hbids, hasks⟩

end Books

end MarketFeed
