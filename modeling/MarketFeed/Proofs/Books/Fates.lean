import MarketFeed.Proofs.Books.Edits

/-!
# Books.Fates — what becomes of each entry

Changes and trades come to the books in batches, and of a batch only three numbers are
reported: how many entries were applied, came too late, or found no book. What is counted
here is the fate of each entry, handed over one by one (`Item.fate`).

> `change_eq_ofFates`, `trade_eq_ofFates`: the numbers of a batch are those of the fates
> of its entries, each of which meets the books as the entries before it have left them.

So the numbers of a batch add up to all of its entries (`total_ofFates`), and the counters
of a whole run are sums over the entries of all batches (`Pipeline.Counting`).

For changes the step is that the number of stale changes is counted and the others are
applied, since a batch has one product and either finds its book or does not. A batch of
trades counts as it goes (`trade?_eq`), and ends early where a quantity gets out of range;
then nothing is reported of it, and the statement is about the batches that are reported.
-/

namespace MarketFeed

namespace BatchOutcome

/-- An outcome together with more entries of some fates; without a book there is no effect. -/
def plus (o : BatchOutcome) (fates : List (Option Effect)) : BatchOutcome :=
  ⟨o.applied + fates.count (some .applied), o.stale + fates.count (some .stale), o.unknown + fates.count none⟩

/-- The numbers of entries with each fate. -/
def ofFates (fates : List (Option Effect)) : BatchOutcome :=
  ⟨fates.count (some .applied), fates.count (some .stale), fates.count none⟩

private theorem zero_plus (fates : List (Option Effect)) : zero.plus fates = ofFates fates := by
  simp only [plus, zero, Nat.zero_add, ofFates]

private theorem plus_cons (o : BatchOutcome) (fate : Option Effect) (rest : List (Option Effect)) :
    (o.plus [fate]).plus rest = o.plus (fate :: rest) := by
  simp only [plus, List.count_cons, List.count_nil, Nat.zero_add, mk.injEq]
  refine ⟨?_, ?_, ?_⟩ <;> omega

/-- Every entry has one fate. -/
theorem total_ofFates (fates : List (Option Effect)) :
    (ofFates fates).stale + (ofFates fates).unknown + (ofFates fates).applied = fates.length := by
  induction fates with
  | nil => rfl
  | cons fate rest ih =>
    simp only [ofFates, List.count_cons, List.length_cons] at ih ⊢
    rcases fate with _ | _ | _ <;> simp <;> omega

private theorem plus_effect (o : BatchOutcome) (effect : Effect) : o.plus [some effect] = o.count effect := by
  cases effect <;> rfl

end BatchOutcome

namespace Books

/-- A change of a product, or a trade. -/
inductive Item where
  | change (p : Product) (c : LevelChange)
  | trade (t : Trade)

/-- What becomes of an entry; nothing without a book, or with a quantity out of range. -/
def Item.fate (bs : Books) : Item → Option Effect
  | change p c => (bs.get? p).map fun b => (b.change c).1
  | trade t => (bs.get? t.product).bind fun b => (b.trade? t.side t.price t.size t.time).map (·.1)

/-- The books with an entry. -/
def Item.apply (bs : Books) : Item → Books
  | change p c =>
    match bs.get? p with
    | none => bs
    | some b => bs.put p (b.change c).2
  | trade t =>
    match bs.trade? .zero t with
    | none => bs
    | some (_, bs) => bs

/-- What becomes of entries in turn. -/
def fates : List Item → Books → List (Option Effect)
  | [], _ => []
  | x :: rest, bs => x.fate bs :: fates rest (x.apply bs)

/-- Every entry has a fate. -/
theorem length_fates (items : List Item) (bs : Books) : (fates items bs).length = items.length := by
  induction items generalizing bs with
  | nil => rfl
  | cons x rest ih => exact congrArg (· + 1) (ih (x.apply bs))

variable {bs : Books} {p : Product}

/-! ## Changes -/

private theorem fates_of_none (h : bs.get? p = none) (changes : List LevelChange) :
    fates (changes.map (Item.change p)) bs = List.replicate changes.length none := by
  induction changes with
  | nil => rfl
  | cons c rest ih =>
    have hfate : (Item.change p c).fate bs = none := by rw [Item.fate, h]; rfl
    have happly : (Item.change p c).apply bs = bs := by simp only [Item.apply, h]
    rw [List.map_cons, fates, hfate, happly, ih]
    rfl

/-- The number of stale changes in a batch, and what the other fates are. -/
theorem fates_of_some {b : Book} (h : bs.get? p = some b) (changes : List LevelChange) :
    let fs := fates (changes.map (Item.change p)) bs
    fs.count (some .stale) = (b.changeAll changes).1 ∧
      fs.count (some .applied) + fs.count (some .stale) = changes.length ∧ fs.count none = 0 := by
  induction changes generalizing bs b with
  | nil => exact ⟨rfl, rfl, rfl⟩
  | cons c rest ih =>
    have hfate : (Item.change p c).fate bs = some (b.change c).1 := by rw [Item.fate, h]; rfl
    have happly : (Item.change p c).apply bs = bs.put p (b.change c).2 := by simp only [Item.apply, h]
    have hget : (bs.put p (b.change c).2).get? p = some (b.change c).2 := by rw [get?_put, if_pos rfl]
    have hall : (b.changeAll (c :: rest)).1 =
        ((b.change c).2.changeAll rest).1 + if (b.change c).1 = .stale then 1 else 0 := rfl
    obtain ⟨hstale, hlength, hnone⟩ := ih hget
    intro fs
    have hfs : fs = some (b.change c).1 :: fates (rest.map (Item.change p)) (bs.put p (b.change c).2) := by
      rw [← hfate, ← happly]
      rfl
    rw [hfs, hall, List.count_cons, List.count_cons, List.count_cons, hstale, hnone, List.length_cons]
    rw [hstale] at hlength
    generalize (b.change c).1 = effect
    cases effect with
    | applied => exact ⟨rfl, by simp; omega, rfl⟩
    | stale => exact ⟨rfl, by simp; omega, rfl⟩

/-- A batch of changes is reported as its changes come out one by one. -/
theorem change_eq_ofFates (bs : Books) (p : Product) (changes : List LevelChange) :
    (bs.change p changes).1 = .ofFates (fates (changes.map (Item.change p)) bs) := by
  unfold change
  split
  next hnone =>
    rw [fates_of_none hnone, BatchOutcome.ofFates, List.count_replicate_self, List.count_replicate,
      List.count_replicate]
    rfl
  next b hb =>
    obtain ⟨hstale, hlength, hunknown⟩ := fates_of_some hb changes
    show BatchOutcome.mk (changes.length - (b.changeAll changes).1) (b.changeAll changes).1 0 = _
    rw [BatchOutcome.ofFates, hunknown, hstale, ← hlength, hstale, Nat.add_sub_cancel]

/-! ## Trades -/

/-- A trade that can be taken away is counted by its fate. -/
theorem trade?_eq {o : BatchOutcome} {t : Trade} {r : BatchOutcome × Books} (h : bs.trade? o t = some r) :
    r = (o.plus [(Item.trade t).fate bs], (Item.trade t).apply bs) := by
  unfold trade? at h
  unfold Item.fate Item.apply trade?
  split at h
  next hnone =>
    simp only [hnone]
    exact (Option.some.inj h).symm
  next b hb =>
    obtain ⟨⟨effect, b'⟩, hb', rfl⟩ := Option.map_eq_some_iff.1 h
    simp only [hb, hb', Option.map_some, Option.bind_some, BatchOutcome.plus_effect]

/-- A batch of trades that can all be taken away is reported as they come out one by one. -/
theorem tradeAll_ofFates {o o' : BatchOutcome} {trades : List Trade} (h : (tradeAll bs o trades).1 = some o') :
    o' = o.plus (fates (trades.map Item.trade) bs) := by
  induction trades generalizing bs o with
  | nil => exact (Option.some.inj h).symm
  | cons t rest ih =>
    unfold tradeAll at h
    split at h
    next => cases h
    next o₁ bs₁ hr =>
      obtain ⟨rfl, rfl⟩ := Prod.mk.inj (trade?_eq hr)
      rw [ih h, BatchOutcome.plus_cons]
      rfl

/-- What is reported of a batch of trades are the fates of its entries. -/
theorem trade_eq_ofFates {o : BatchOutcome} {trades : List Trade} (h : (bs.trade trades).1 = some o) :
    o = .ofFates (fates (trades.map Item.trade) bs) :=
  (tradeAll_ofFates h).trans (BatchOutcome.zero_plus _)

end Books

end MarketFeed
