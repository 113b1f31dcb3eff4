import MarketFeed.Proofs.Books.Edits

/-!
# Books.Times — what has been seen stays seen

The time of a book is the latest event time that it has seen. No edit sets it back but a
snapshot:

> `follows_apply`: after any other edit each book was there before, at an earlier time or
> the same (`Follows`).

So entries that were handed to the books once are no later than their books from then on
(`Covers`), as long as no snapshot comes. Handed over again they all come too late, or
have no book any more, and the books stay as they are:

> `change_of_covers`, `trade_of_covers`: of a batch that the books have seen no entry is
> applied, every one counts as stale or unknown, and the books are left alone.

`Follows` is a preorder on books and `Covers` is monotone in it, so the two facts that are
needed of each edit, that it follows and that it covers its own entries, carry over to
runs. What a message does when it is delivered twice is derived from them in
`Pipeline.Redelivery`; what the times of a book do in a run with snapshots is the matter
of `Books.Rewinding`.
-/

namespace MarketFeed

/-! ## One book -/

namespace Book

/-- A change that is not taken is no later than the book. -/
theorem time_le_change (b : Book) (c : LevelChange) :
    b.time ≤ (b.change c).2.time ∧ c.time ≤ (b.change c).2.time := by
  unfold change
  split
  next hstale => exact ⟨le_rfl, hstale⟩
  next hlate => exact ⟨(not_le.1 hlate).le, le_rfl⟩

private theorem time_le_changeAll (b : Book) (changes : List LevelChange) :
    b.time ≤ (b.changeAll changes).2.time ∧ ∀ c ∈ changes, c.time ≤ (b.changeAll changes).2.time := by
  induction changes generalizing b with
  | nil => exact ⟨le_rfl, fun c hc => (List.not_mem_nil hc).elim⟩
  | cons c rest ih =>
    obtain ⟨hbook, hchange⟩ := b.time_le_change c
    obtain ⟨hnext, hrest⟩ := ih (b.change c).2
    exact ⟨hbook.trans hnext, List.forall_mem_cons.2 ⟨hchange.trans hnext, hrest⟩⟩

/-- Nor is a trade that is not taken. -/
theorem time_le_trade? {b : Book} {side : Side} {price : Price} {size : Quantity} {time : Int} {r : Effect × Book}
    (h : b.trade? side price size time = some r) : b.time ≤ r.2.time ∧ time ≤ r.2.time := by
  unfold trade? at h
  split at h
  next hstale =>
    obtain rfl := Option.some.inj h
    exact ⟨le_rfl, hstale⟩
  next hlate =>
    obtain ⟨levels, -, rfl⟩ := Option.map_eq_some_iff.1 h
    exact ⟨(not_le.1 hlate).le, le_rfl⟩

/-- Changes that the book has seen are all stale. -/
theorem changeAll_of_seen {b : Book} {changes : List LevelChange} (h : ∀ c ∈ changes, c.time ≤ b.time) :
    b.changeAll changes = (changes.length, b) := by
  induction changes with
  | nil => rfl
  | cons c rest ih =>
    obtain ⟨hc, hrest⟩ := List.forall_mem_cons.1 h
    have hstale : b.change c = (.stale, b) := if_pos hc
    simp only [changeAll, hstale, ih hrest, if_true, List.length_cons]

/-- A trade that the book has seen is stale. -/
theorem trade?_of_seen {b : Book} {time : Int} (h : time ≤ b.time) (side : Side) (price : Price) (size : Quantity) :
    b.trade? side price size time = some (.stale, b) := if_pos h

end Book

/-! ## All books -/

/-- That a number of entries was counted, and none of them applied. -/
def BatchOutcome.Idle (o : BatchOutcome) (entries : Nat) : Prop := o.applied = 0 ∧ o.stale + o.unknown = entries

namespace Books

/-- What a change or a trade says to the books: its product and its event time. -/
structure Entry where
  product : Product
  time : Int

/-- That the book of an entry, if there is one, has seen its time. -/
def Covers (bs : Books) (e : Entry) : Prop := ∀ b, bs.get? e.product = some b → e.time ≤ b.time

/-- That each book was there before, at an earlier time or the same. -/
def Follows (bs' bs : Books) : Prop :=
  ∀ p b', bs'.get? p = some b' → ∃ b, bs.get? p = some b ∧ b.time ≤ b'.time

/-- Whether an edit may set the time of a book back. -/
def Edit.renews : Edit → Bool
  | .snapshot _ _ => true
  | _ => false

variable {bs bs' bs'' : Books}

/-- Books follow themselves. -/
theorem Follows.refl (bs : Books) : bs.Follows bs := fun _ b hb => ⟨b, hb, le_rfl⟩

/-- What follows books that follow others follows those. -/
theorem Follows.trans (h' : bs''.Follows bs') (h : bs'.Follows bs) : bs''.Follows bs := by
  intro p b'' hb''
  obtain ⟨b', hb', hlater⟩ := h' p b'' hb''
  obtain ⟨b, hb, hlate⟩ := h p b' hb'
  exact ⟨b, hb, hlate.trans hlater⟩

/-- What books have seen, later books have seen. -/
theorem Covers.follows {e : Entry} (h : bs.Covers e) (hfollows : bs'.Follows bs) : bs'.Covers e := by
  intro b' hb'
  obtain ⟨b, hb, hlate⟩ := hfollows e.product b' hb'
  exact (h b hb).trans hlate

private theorem put_self {p : Product} {b : Book} (h : bs.get? p = some b) : bs.put p b = bs :=
  congrArg Books.mk (SortedMap.insert_self h)

private theorem follows_put {p : Product} {b b' : Book} (hb : bs.get? p = some b) (htime : b.time ≤ b'.time) :
    (bs.put p b').Follows bs := by
  intro q c hc
  rw [get?_put] at hc
  split at hc
  next hq =>
    obtain rfl := Option.some.inj hc
    exact ⟨b, hq ▸ hb, htime⟩
  next => exact ⟨c, hc, le_rfl⟩

/-- A product without a book has none that could have gone back. -/
theorem follows_remove (bs : Books) (p : Product) : (bs.remove p).Follows bs := by
  intro q c hc
  rw [get?_remove] at hc
  split at hc
  next => cases hc
  next => exact ⟨c, hc, le_rfl⟩

/-- The book a change or a trade went to has seen it. -/
theorem covers_put (bs : Books) {p : Product} {b : Book} {time : Int} (htime : time ≤ b.time) :
    (bs.put p b).Covers ⟨p, time⟩ := by
  intro c hc
  rw [get?_put, if_pos rfl] at hc
  obtain rfl := Option.some.inj hc
  exact htime

private theorem covers_of_none {p : Product} (h : bs.get? p = none) (time : Int) : bs.Covers ⟨p, time⟩ := by
  intro b hb
  rw [h] at hb
  cases hb

/-- A batch of changes sets its book forward, and has been seen from then on. -/
theorem change_follows (bs : Books) (p : Product) (changes : List LevelChange) :
    (bs.change p changes).2.Follows bs ∧ ∀ c ∈ changes, (bs.change p changes).2.Covers ⟨p, c.time⟩ := by
  unfold change
  split
  next hnone => exact ⟨.refl bs, fun c _ => covers_of_none hnone c.time⟩
  next b hb =>
    obtain ⟨hbook, hall⟩ := b.time_le_changeAll changes
    exact ⟨follows_put hb hbook, fun c hc => covers_put bs (hall c hc)⟩

/-- A trade sets its book forward, and has been seen from then on. -/
theorem trade?_follows {o : BatchOutcome} {t : Trade} {r : BatchOutcome × Books} (h : bs.trade? o t = some r) :
    r.2.Follows bs ∧ r.2.Covers ⟨t.product, t.time⟩ := by
  unfold trade? at h
  split at h
  next hnone =>
    obtain rfl := Option.some.inj h
    exact ⟨.refl bs, covers_of_none hnone t.time⟩
  next b hb =>
    obtain ⟨⟨effect, b'⟩, hb', rfl⟩ := Option.map_eq_some_iff.1 h
    obtain ⟨hbook, htrade⟩ := Book.time_le_trade? hb'
    exact ⟨follows_put hb hbook, covers_put bs htrade⟩

/-- Also if the batch ends early. -/
theorem tradeAll_follows (bs : Books) (o : BatchOutcome) (trades : List Trade) :
    (tradeAll bs o trades).2.Follows bs := by
  induction trades generalizing bs o with
  | nil => exact .refl bs
  | cons t rest ih =>
    unfold tradeAll
    split
    next => exact .refl bs
    next o' bs' hr => exact (ih bs' o').trans (trade?_follows hr).1

/-- A batch of trades that comes to its end has been seen from then on. -/
theorem tradeAll_covers {o : BatchOutcome} {trades : List Trade} (h : (tradeAll bs o trades).1 ≠ none) :
    ∀ t ∈ trades, (tradeAll bs o trades).2.Covers ⟨t.product, t.time⟩ := by
  induction trades generalizing bs o with
  | nil => exact fun t ht => (List.not_mem_nil ht).elim
  | cons t rest ih =>
    unfold tradeAll at h ⊢
    split at h
    next => exact absurd rfl h
    next o' bs' hr =>
      exact List.forall_mem_cons.2 ⟨(trade?_follows hr).2.follows (tradeAll_follows bs' o' rest), ih h⟩

/-- No edit sets a book back but a snapshot. -/
theorem follows_apply (bs : Books) {e : Edit} (h : e.renews = false) : (e.apply bs).Follows bs := by
  cases e with
  | snapshot p changes => cases h
  | change p changes => exact (change_follows bs p changes).1
  | trade trades => exact tradeAll_follows bs .zero trades
  | remove p => exact follows_remove bs p
  | clear =>
    intro p b hb
    cases hb

/-! ## Handing over again -/

/-- Of changes that have been seen none is applied again. -/
theorem change_of_covers {p : Product} {changes : List LevelChange} (h : ∀ c ∈ changes, bs.Covers ⟨p, c.time⟩) :
    ∃ outcome : BatchOutcome, outcome.Idle changes.length ∧ bs.change p changes = (outcome, bs) := by
  unfold change
  split
  next => exact ⟨⟨0, 0, changes.length⟩, ⟨rfl, Nat.zero_add _⟩, rfl⟩
  next b hb =>
    have hseen : b.changeAll changes = (changes.length, b) := Book.changeAll_of_seen fun c hc => h c hc b hb
    refine ⟨⟨0, changes.length, 0⟩, ⟨rfl, rfl⟩, ?_⟩
    simp only [hseen, Nat.sub_self, put_self hb]

private theorem trade?_of_covers {t : Trade} (h : bs.Covers ⟨t.product, t.time⟩) (o : BatchOutcome) :
    ∃ o' : BatchOutcome, o'.applied = o.applied ∧ o'.stale + o'.unknown = o.stale + o.unknown + 1 ∧
      bs.trade? o t = some (o', bs) := by
  unfold trade?
  split
  next => exact ⟨o.countUnknown, rfl, rfl, rfl⟩
  next b hb =>
    refine ⟨o.count .stale, rfl, Nat.add_right_comm .., ?_⟩
    rw [Book.trade?_of_seen (h b hb)]
    exact congrArg (fun bs' => some (o.count .stale, bs')) (put_self hb)

private theorem tradeAll_of_covers {trades : List Trade} (h : ∀ t ∈ trades, bs.Covers ⟨t.product, t.time⟩)
    (o : BatchOutcome) : ∃ o' : BatchOutcome, o'.applied = o.applied ∧
      o'.stale + o'.unknown = o.stale + o.unknown + trades.length ∧ tradeAll bs o trades = (some o', bs) := by
  induction trades generalizing o with
  | nil => exact ⟨o, rfl, rfl, rfl⟩
  | cons t rest ih =>
    obtain ⟨ht, hrest⟩ := List.forall_mem_cons.1 h
    obtain ⟨first, hfirst, hcount, htrade⟩ := trade?_of_covers ht o
    obtain ⟨last, hlast, hall, hother⟩ := ih hrest first
    refine ⟨last, hlast.trans hfirst, ?_, ?_⟩
    · rw [hall, hcount, List.length_cons, Nat.add_assoc, Nat.add_comm 1]
    · rw [tradeAll, htrade]
      exact hother

/-- Of trades that have been seen none is applied again. -/
theorem trade_of_covers {trades : List Trade} (h : ∀ t ∈ trades, bs.Covers ⟨t.product, t.time⟩) :
    ∃ outcome : BatchOutcome, outcome.Idle trades.length ∧ bs.trade trades = (some outcome, bs) := by
  obtain ⟨outcome, happlied, hcount, htrade⟩ := tradeAll_of_covers h .zero
  exact ⟨outcome, ⟨happlied, hcount.trans (Nat.zero_add _)⟩, htrade⟩

end Books

end MarketFeed
