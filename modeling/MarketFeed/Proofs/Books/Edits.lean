import MarketFeed.Books
import MarketFeed.Proofs.Quantities
import MarketFeed.Proofs.SortedMap

/-!
# Books.Edits — what is done to books, and what every edit keeps

The client keeps one book for each product, and the books of all products are changed by a
few edits only: a snapshot of a product, a batch of changes of a product, a batch of
trades of any products, and removals (`Edit`). Whatever is done to books by a run of the
client is a list of edits, so what every edit keeps holds of the books in every run. The
first thing of this kind is that quantities are above zero:

> `Positive.edited`: whatever the edits, a level that is kept has a quantity above zero,
> also if quantities came in below zero, or a batch of trades ended early.

It is shown for the levels of a side first (`AllPositive`), where there are two
operations, setting a level and depleting one; then for one book, where a snapshot starts
from nothing and a late change leaves it alone; and then for all books.

With that, a difference of quantities can only get out of range when the size of a trade
is below zero:

> `trade?_eq_none_iff`: a trade of a product is out of range exactly if it is in time,
> something rests at its level, its size is below zero, and the difference reaches the
> limit of decimals.

Which messages end in such an overflow is then a question about decimals, which
`Pipeline.Overflow` answers.
-/

namespace MarketFeed

/-! ## Levels -/

namespace Book

/-- That every level of a side has a quantity above zero. -/
def AllPositive (levels : Levels) : Prop := ∀ p q, levels.get? p = some q → 0 < q.value.toRat

variable {levels : Levels} {price : Price} {quantity : Quantity}

private theorem allPositive_empty : AllPositive .empty := by
  intro p q h
  cases h

/-- A quantity above zero is added. -/
theorem AllPositive.insert (h : AllPositive levels) (hq : 0 < quantity.value.toRat) (price : Price) :
    AllPositive (levels.insert price quantity) := by
  intro p q hp
  rw [SortedMap.get?_insert] at hp
  split at hp
  next =>
    obtain rfl := Option.some.inj hp
    exact hq
  next => exact h p q hp

/-- Without a level the others are as before. -/
theorem AllPositive.erase (h : AllPositive levels) (price : Price) : AllPositive (levels.erase price) := by
  intro p q hp
  rw [SortedMap.get?_erase] at hp
  split at hp
  next => cases hp
  next => exact h p q hp

/-- A level is set only with a quantity above zero, and otherwise removed. -/
theorem AllPositive.setLevel (h : AllPositive levels) (price : Price) (quantity : Quantity) :
    AllPositive (setLevel price quantity levels) := by
  unfold Book.setLevel
  split
  next => exact h.erase price
  next hq => exact h.insert (Quantity.toRat_pos_of_not_isEmpty hq) price

/-- What is left of a level is above zero, or the level goes. -/
theorem AllPositive.deplete? (h : AllPositive levels) {size : Quantity} {left : Levels}
    (hleft : deplete? price size levels = some left) : AllPositive left := by
  unfold Book.deplete? at hleft
  split at hleft
  next =>
    obtain rfl := Option.some.inj hleft
    exact h
  next resting _ =>
    obtain ⟨q, hq, rfl⟩ := Option.map_eq_some_iff.1 hleft
    split
    next => exact h.erase price
    next hzero => exact h.insert (Quantity.toRat_pos_of_minus? hq hzero) price

/-- Depleting fails exactly if something rests there and the difference is out of range. -/
theorem deplete?_eq_none_iff {size : Quantity} : deplete? price size levels = none ↔
    ∃ resting, levels.get? price = some resting ∧ resting.minus? size = none := by
  unfold Book.deplete?
  split
  next hnone =>
    rw [hnone]
    exact iff_of_false (Option.some_ne_none _) fun ⟨_, h, _⟩ => Option.some_ne_none _ h.symm
  next resting hresting =>
    rw [hresting, Option.map_eq_none_iff]
    exact ⟨fun h => ⟨resting, rfl, h⟩, fun ⟨_, hsome, h⟩ => Option.some.inj hsome ▸ h⟩

/-! ## One book -/

/-- That every level of a book has a quantity above zero. -/
def Positive (b : Book) : Prop := ∀ s, AllPositive (b.side s)

variable {b : Book}

/-- Levels are given to one side, and the other is as before. -/
theorem side_onSide (b : Book) (s t : Side) (f : Levels → Levels) :
    (b.onSide s f).side t = if t = s then f (b.side s) else b.side t := by
  cases s <;> cases t <;> rfl

/-- Only the side that is given other levels has to be looked at. -/
theorem Positive.onSide (h : b.Positive) (s : Side) {f : Levels → Levels} (hf : AllPositive (f (b.side s))) :
    (b.onSide s f).Positive := by
  intro t
  rw [side_onSide]
  split
  next => exact hf
  next => exact h t

private theorem Positive.withTime (h : b.Positive) (time : Int) : Positive { b with time } := by
  intro s
  cases s
  · exact h .buy
  · exact h .sell

/-- An empty book has no level. -/
theorem positive_empty (product : Product) : (empty product).Positive := by
  intro s
  cases s <;> exact allPositive_empty

/-- An entry of a snapshot is taken only with a quantity above zero. -/
theorem Positive.addEntry (h : b.Positive) (c : LevelChange) : (b.addEntry c).Positive := by
  unfold Book.addEntry
  split
  next => exact h
  next hq => exact h.onSide c.side ((h c.side).insert (Quantity.toRat_pos_of_not_isEmpty hq) c.price)

/-- A snapshot starts from nothing. -/
theorem positive_snapshot (b : Book) (changes : List LevelChange) : (b.snapshot changes).Positive := by
  have hentries (c : Book) (hc : c.Positive) : (changes.foldl Book.addEntry c).Positive := by
    induction changes generalizing c with
    | nil => exact hc
    | cons entry rest ih => exact ih _ (hc.addEntry entry)
  refine (hentries { b with bids := .empty, asks := .empty } ?_).withTime _
  intro s
  cases s <;> exact allPositive_empty

/-- A change sets one level, or is too late and does nothing. -/
theorem Positive.change (h : b.Positive) (c : LevelChange) : (b.change c).2.Positive := by
  unfold Book.change
  split
  next => exact h
  next => exact (h.onSide c.side ((h c.side).setLevel c.price c.quantity)).withTime c.time

/-- So does every change of a batch. -/
theorem Positive.changeAll (h : b.Positive) (changes : List LevelChange) : (b.changeAll changes).2.Positive := by
  induction changes generalizing b with
  | nil => exact h
  | cons c rest ih => exact ih (h.change c)

/-- A trade takes from one level, or is too late and does nothing. -/
theorem Positive.trade? (h : b.Positive) {side : Side} {size : Quantity} {time : Int} {r : Effect × Book}
    (hr : b.trade? side price size time = some r) : r.2.Positive := by
  unfold Book.trade? at hr
  split at hr
  next =>
    obtain rfl := Option.some.inj hr
    exact h
  next =>
    obtain ⟨levels, hlevels, rfl⟩ := Option.map_eq_some_iff.1 hr
    exact (h.onSide side ((h side).deplete? hlevels)).withTime time

end Book

/-! ## All books -/

namespace Books

/-- What can be done to books. -/
inductive Edit where
  | snapshot (product : Product) (changes : List LevelChange)
  | change (product : Product) (changes : List LevelChange)
  | trade (trades : List Trade)
  | remove (product : Product)
  | clear

/-- The books after an edit. -/
def Edit.apply (bs : Books) : Edit → Books
  | .snapshot product changes => bs.snapshot product changes
  | .change product changes => (bs.change product changes).2
  | .trade trades => (bs.trade trades).2
  | .remove product => bs.remove product
  | .clear => .empty

/-- The books after edits in turn. -/
def edited (bs : Books) (edits : List Edit) : Books := edits.foldl Edit.apply bs

/-- That every level of every book has a quantity above zero. -/
def Positive (bs : Books) : Prop := ∀ p b, bs.get? p = some b → b.Positive

variable {bs : Books} {b : Book}

/-- Edits go on from what the edits before them have left. -/
theorem edited_append (bs : Books) (before after : List Edit) :
    bs.edited (before ++ after) = (bs.edited before).edited after := List.foldl_append

/-- A book is put in the place of its product. -/
theorem get?_put (bs : Books) (p : Product) (b : Book) (j : Product) :
    (bs.put p b).get? j = if j = p then some b else bs.get? j := SortedMap.get?_insert bs.shelf p b j

/-- A product that is removed has no book. -/
theorem get?_remove (bs : Books) (p j : Product) : (bs.remove p).get? j = if j = p then none else bs.get? j :=
  SortedMap.get?_erase bs.shelf p j

/-- Where there are no books there are no levels. -/
theorem positive_empty : empty.Positive := by
  intro p b h
  cases h

/-- Only the book that is put has to be looked at. -/
theorem Positive.put (h : bs.Positive) (hb : b.Positive) (p : Product) : (bs.put p b).Positive := by
  intro q c hc
  rw [get?_put] at hc
  split at hc
  next =>
    obtain rfl := Option.some.inj hc
    exact hb
  next => exact h q c hc

/-- Without a book the others are as before. -/
theorem Positive.remove (h : bs.Positive) (p : Product) : (bs.remove p).Positive := by
  intro q c hc
  rw [get?_remove] at hc
  split at hc
  next => cases hc
  next => exact h q c hc

/-- A batch of changes goes to the book of its product, if there is one. -/
theorem Positive.change (h : bs.Positive) (p : Product) (changes : List LevelChange) :
    (bs.change p changes).2.Positive := by
  unfold Books.change
  split
  next => exact h
  next b hb => exact h.put ((h p b hb).changeAll changes) p

/-- A trade goes to the book of its product, if there is one. -/
theorem Positive.trade? (h : bs.Positive) {o : BatchOutcome} {t : Trade} {r : BatchOutcome × Books}
    (hr : bs.trade? o t = some r) : r.2.Positive := by
  unfold Books.trade? at hr
  split at hr
  next =>
    obtain rfl := Option.some.inj hr
    exact h
  next b hb =>
    obtain ⟨⟨effect, c⟩, hc, rfl⟩ := Option.map_eq_some_iff.1 hr
    exact h.put ((h t.product b hb).trade? hc) t.product

/-- A batch of trades keeps quantities above zero, also where it ends early. -/
theorem Positive.tradeAll (h : bs.Positive) (o : BatchOutcome) (trades : List Trade) :
    (tradeAll bs o trades).2.Positive := by
  induction trades generalizing bs o with
  | nil => exact h
  | cons t rest ih =>
    unfold Books.tradeAll
    split
    next => exact h
    next o' bs' hr => exact ih (h.trade? hr) o'

/-- The step: every edit keeps the quantities of all books above zero. -/
theorem Positive.apply (h : bs.Positive) (e : Edit) : (e.apply bs).Positive := by
  cases e with
  | snapshot p changes => exact h.put (Book.positive_snapshot _ changes) p
  | change p changes => exact h.change p changes
  | trade trades => exact h.tradeAll .zero trades
  | remove p => exact h.remove p
  | clear => exact positive_empty

/-- So does every run of edits. -/
theorem Positive.edited (h : bs.Positive) (edits : List Edit) : (bs.edited edits).Positive := by
  induction edits generalizing bs with
  | nil => exact h
  | cons e rest ih => exact ih (h.apply e)

/-- A trade of a product is out of range exactly if it brings more to its level than fits. -/
theorem trade?_eq_none_iff (h : bs.Positive) (o : BatchOutcome) (t : Trade) :
    bs.trade? o t = none ↔ ∃ b resting, bs.get? t.product = some b ∧ b.time < t.time ∧
      b.quantityAt? t.side t.price = some resting ∧ t.size.value.toRat < 0 ∧
      Decimal.edge ≤ resting.value.toRat - t.size.value.toRat := by
  unfold Books.trade?
  split
  next hnone =>
    rw [hnone]
    exact iff_of_false (Option.some_ne_none _) fun ⟨_, _, h, _⟩ => Option.some_ne_none _ h.symm
  next b hb =>
    rw [Option.map_eq_none_iff]
    unfold Book.trade?
    constructor
    · intro hnone
      split at hnone
      next => cases hnone
      next hlate =>
        rw [Option.map_eq_none_iff, Book.deplete?_eq_none_iff] at hnone
        obtain ⟨resting, hresting, hminus⟩ := hnone
        have hpositive := h t.product b hb t.side t.price resting hresting
        exact ⟨b, resting, hb, not_le.1 hlate, hresting, (Quantity.minus?_eq_none_iff hpositive.le).1 hminus⟩
    · rintro ⟨c, resting, hc, hlate, hresting, hrange⟩
      obtain rfl := Option.some.inj (hb.symm.trans hc)
      have hpositive := h t.product b hb t.side t.price resting hresting
      rw [if_neg (not_le.2 hlate), Option.map_eq_none_iff, Book.deplete?_eq_none_iff]
      exact ⟨resting, hresting, (Quantity.minus?_eq_none_iff hpositive.le).2 hrange⟩

end Books

end MarketFeed
