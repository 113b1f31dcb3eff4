import Mathlib.Algebra.BigOperators.Group.List.Basic
import MarketFeed.Books
import MarketFeed.Tally

/-!
# Tally — counters add up

The counters of a client (its metrics) only ever go up, so what happens one after the
other adds to them, and the order does not matter: tallies are an additive commutative
monoid, counter by counter, in 64 bits that wrap around.

Each step that counts something is then an addition of its own tally (`message_eq`,
`event_eq` and so on), and what a batch of changes or trades leaves uncounted on a book is
the tally of its outcome (`ofOutcome`). With that, what a whole message adds is the sum of
what its events add, and sums can be taken apart and put in another order where the
counters themselves could not.

Two of the counters depend on the books, and all others do not: `withoutBooks` forgets the
two, so that courses can be compared in which the books differ, and `idle` is their sum,
which is the number of entries that had no effect.
-/

namespace MarketFeed

namespace Tally

instance : Add Tally where
  add t u := ⟨t.messages + u.messages, t.events + u.events, t.parseErrors + u.parseErrors, t.gaps + u.gaps,
    t.unknownChannels + u.unknownChannels, t.stale + u.stale, t.unknownProducts + u.unknownProducts,
    t.dropped + u.dropped, t.retired + u.retired⟩

instance : Zero Tally where
  zero := {}

private theorem add_eq (t u : Tally) : t + u = ⟨t.messages + u.messages, t.events + u.events, t.parseErrors + u.parseErrors,
    t.gaps + u.gaps, t.unknownChannels + u.unknownChannels, t.stale + u.stale,
    t.unknownProducts + u.unknownProducts, t.dropped + u.dropped, t.retired + u.retired⟩ := rfl

private theorem zero_eq : (0 : Tally) = {} := rfl

instance : AddCommMonoid Tally where
  add_assoc t u v := by simp only [add_eq, UInt64.add_assoc]
  add_comm t u := by simp only [add_eq, UInt64.add_comm]
  zero_add t := by simp only [add_eq, zero_eq, UInt64.zero_add]
  add_zero t := by simp only [add_eq, zero_eq, UInt64.add_zero]
  nsmul := nsmulRec

/-! ## What each step adds -/

/-- What the outcome of a batch adds. -/
def ofOutcome (o : BatchOutcome) : Tally := { stale := .ofNat o.stale, unknownProducts := .ofNat o.unknown }

/-- A message counts once. -/
theorem message_eq (t : Tally) : t.message = t + { messages := 1 } := by
  simp only [message, add_eq, UInt64.add_zero]

/-- So does every event that is told. -/
theorem event_eq (t : Tally) : t.event = t + { events := 1 } := by
  simp only [event, add_eq, UInt64.add_zero]

/-- A failure to read is an event and counts as a failure too. -/
theorem event_parseError_eq (t : Tally) : t.parseError.event = t + { events := 1, parseErrors := 1 } := by
  simp only [event, parseError, add_eq, UInt64.add_zero]

/-- A gap is an event and counts as a gap too. -/
theorem event_gap_eq (t : Tally) : t.gap.event = t + { events := 1, gaps := 1 } := by
  simp only [event, gap, add_eq, UInt64.add_zero]

/-- A message of an unknown channel counts as such. -/
theorem unknownChannel_eq (t : Tally) : t.unknownChannel = t + { unknownChannels := 1 } := by
  simp only [unknownChannel, add_eq, UInt64.add_zero]

/-- A callback of a retired connection counts as retired. -/
theorem retire_eq (t : Tally) : t.retire = t + { retired := 1 } := by
  simp only [retire, add_eq, UInt64.add_zero]

/-- A batch adds the tally of its outcome. -/
theorem addOutcome_eq (t : Tally) (o : BatchOutcome) :
    (t.addStale o.stale).addUnknownProducts o.unknown = t + ofOutcome o := by
  simp only [addStale, addUnknownProducts, ofOutcome, add_eq, UInt64.add_zero]

/-! ## The counters that depend on the books -/

/-- The counters but for those of changes and trades that had no effect on a book. -/
def withoutBooks (t : Tally) : Tally := { t with stale := 0, unknownProducts := 0 }

/-- How many changes and trades had no effect on a book. -/
def idle (t : Tally) : UInt64 := t.stale + t.unknownProducts

/-- Forgetting the counters of the books commutes with adding. -/
theorem withoutBooks_add (t u : Tally) : (t + u).withoutBooks = t.withoutBooks + u.withoutBooks := by
  simp only [withoutBooks, add_eq, UInt64.add_zero]

private theorem withoutBooks_ofOutcome (o : BatchOutcome) : (ofOutcome o).withoutBooks = 0 := rfl

/-- Batches add to nothing but the counters of the books. -/
theorem withoutBooks_sum_ofOutcome (os : List BatchOutcome) : ((os.map ofOutcome).sum).withoutBooks = 0 := by
  induction os with
  | nil => rfl
  | cons o rest ih => rw [List.map_cons, List.sum_cons, withoutBooks_add, ih, withoutBooks_ofOutcome, add_zero]

/-- What had no effect adds up. -/
theorem idle_add (t u : Tally) : (t + u).idle = t.idle + u.idle := by
  simp only [idle, add_eq]
  ac_rfl

/-- Without effect in a batch are the entries that were stale or had no book. -/
theorem idle_ofOutcome (o : BatchOutcome) : (ofOutcome o).idle = .ofNat (o.stale + o.unknown) :=
  (UInt64.ofNat_add o.stale o.unknown).symm

end Tally

end MarketFeed
