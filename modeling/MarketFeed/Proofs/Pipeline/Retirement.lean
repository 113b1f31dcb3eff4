import MarketFeed.Proofs.Pipeline.Interleaving

/-!
# Pipeline.Retirement — connections that have been replaced

A client that opens a connection in place of another can still be sent what the old one
reports. It is delivered until something arrives from a later opening of its slot, and
from then on it is dropped, and counted as `retired`:

> `Intake.deliver_arrival`: an arrival gets to the desk exactly if nothing from a later
> opening of its slot has arrived before. If it does, it is handled as if there were no
> roster; if not, it is dropped.

Here openings are numbered without end (`Opening`), while the roster knows them by their
generations only, which are the same numbers on a circle of 32 bits. As long as what
arrives is not half the circle away from the newest (`Opening.Near`) no wrap can deceive
it, which is `Roster.seen_isRetired` put to use.

A dropped callback changes neither books nor roster and tells nothing (`Dropped`). It is
not without a trace: it is counted, and the loss of a replaced connection still makes its
number forgotten, without which numbers would pile up.
-/

namespace MarketFeed

/-- A callback of a connection that is known by the number of its opening. -/
structure Arrival where
  opening : Opening
  feed : Feed
  signal : Signal
  payload : Bytes
deriving DecidableEq

namespace Arrival

def origin (a : Arrival) : Origin := ⟨a.opening.connection, a.feed⟩

def callback (a : Arrival) : Callback := ⟨a.origin, a.signal, a.payload⟩

end Arrival

namespace Pipeline.Intake

/-- Whether a callback gets to the desk. -/
def Admits (i : Intake) (c : Callback) : Prop := i.roster.isRetired c.origin.connection = false

instance (i : Intake) (c : Callback) : Decidable (i.Admits c) := inferInstanceAs (Decidable (_ = false))

/-- What becomes of a callback that does not get there. -/
structure Dropped (c : Callback) (i : Intake) : Prop where
  deliveries : (i.deliver c).deliveries = []
  ending : (i.deliver c).ending = .finished
  roster : (i.deliver c).state.roster = i.roster
  books : (i.deliver c).state.desk.books = i.desk.books
  tally : (i.deliver c).state.desk.tally = i.desk.tally.retire
  /-- Only the last report of a connection makes its numbers forgotten. -/
  last? : ∀ o, (i.deliver c).state.desk.continuity.last? o =
    if o = c.origin ∧ c.signal = .disconnected then none else i.desk.continuity.last? o

variable {c : Callback} {i : Intake}

/-- What is admitted makes its own opening the newest of its slot. -/
theorem deliver_of_admits (h : i.Admits c) : i.deliver c = (i.desk.handle c).map fun desk =>
    ⟨desk, ⟨i.roster.generations.insert c.origin.connection.slot c.origin.connection.generation⟩⟩ :=
  deliver_of_admitted (by rw [Roster.accept, h]; rfl)

/-- What is not admitted is dropped. -/
theorem dropped_of_not_admits (h : ¬ i.Admits c) : Dropped c i := by
  have hretired : i.roster.isRetired c.origin.connection = true := eq_true_of_ne_false h
  have hdeliver : i.deliver c = ⟨[], i.drop c, .finished⟩ :=
    deliver_of_retired (by rw [Roster.accept, hretired]; rfl)
  have hdrop : (i.drop c).roster = i.roster ∧ (i.drop c).desk.books = i.desk.books ∧
      (i.drop c).desk.tally = i.desk.tally.retire := by
    unfold drop
    split <;> exact ⟨rfl, rfl, rfl⟩
  refine ⟨?_, ?_, ?_, ?_, ?_, ?_⟩ <;> rw [hdeliver]
  · exact hdrop.1
  · exact hdrop.2.1
  · exact hdrop.2.2
  · intro o
    unfold drop
    split
    next hsignal =>
      simp only [hsignal, and_true]
      exact Continuity.last?_reset i.desk.continuity c.origin o
    next hsignal => rw [if_neg fun h => hsignal h.2]

/-- The roster of an intake is the one of the openings that were seen. -/
theorem roster_feed (as : List Arrival) (desk : Desk) :
    (feed (as.map Arrival.callback) ⟨desk, .empty⟩).2.roster = Roster.seen (as.map Arrival.opening) := by
  have hgate (g : Gate) : (stateAfter Gate.pass (as.map Arrival.callback) g).roster =
      (as.map Arrival.opening).foldl (fun r o => (r.accept o.connection).2) g.roster := by
    induction as generalizing g with
    | nil => rfl
    | cons a rest ih => exact ih (Gate.pass a.callback g).2
  have hroster := congrArg Gate.roster (gate_feed (as.map Arrival.callback) ⟨desk, .empty⟩)
  exact hroster.trans (hgate _)

/-- An arrival gets to the desk exactly if nothing from a later opening of its slot has arrived before. If it does, it
is handled as if there were no roster; if not, it is dropped. -/
theorem deliver_arrival {front back : List Arrival} {a : Arrival}
    (h : Opening.Near ((front ++ a :: back).map Arrival.opening)) (desk : Desk) :
    let i := (feed (front.map Arrival.callback) ⟨desk, .empty⟩).2
    (i.Admits a.callback ↔ ¬ ∃ b ∈ front, b.opening.slot = a.opening.slot ∧ a.opening.number < b.opening.number) ∧
    (i.Admits a.callback → (i.deliver a.callback).deliveries = (i.desk.handle a.callback).deliveries ∧
      (i.deliver a.callback).state.desk = (i.desk.handle a.callback).state ∧
      (i.deliver a.callback).ending = (i.desk.handle a.callback).ending) ∧
    (¬ i.Admits a.callback → Dropped a.callback i) := by
  intro i
  refine ⟨?_, ?_, dropped_of_not_admits⟩
  · have hnear : Opening.Near (front.map Arrival.opening ++ [a.opening]) := by
      refine Opening.Near.of_append (back.map Arrival.opening) ?_
      rwa [List.append_assoc, List.singleton_append, ← List.map_cons, ← List.map_append]
    have hretired := Roster.isRetired_seen hnear
    have hroster : i.roster = Roster.seen (front.map Arrival.opening) := roster_feed front desk
    rw [Admits, ← Bool.not_eq_true, hroster]
    refine not_congr (hretired.trans ?_)
    simp only [List.mem_map, exists_exists_and_eq_and]
  · intro hadmits
    rw [deliver_of_admits hadmits]
    exact ⟨rfl, rfl, rfl⟩

/-- The last opening before the count wraps. -/
def beforeWrap : Opening := ⟨0, UInt32.size - 1⟩

/-- The first one behind. -/
def behindWrap : Opening := ⟨0, UInt32.size⟩

/-- A report of the last opening before the wrap is dropped behind the first one after it. -/
theorem deliver_arrival_aroundWrap :
    let old : Arrival := ⟨beforeWrap, .market, .connected, []⟩
    let new : Arrival := ⟨behindWrap, .market, .connected, []⟩
    let late : Arrival := ⟨beforeWrap, .market, .error, []⟩
    new.origin.connection.generation < old.origin.connection.generation ∧
    (feed [old.callback] .empty).2.Admits new.callback ∧
    Dropped late.callback (feed [old.callback, new.callback] .empty).2 := by
  intro old new late
  have hold : Opening.Near ([] ++ [beforeWrap]) := Opening.near_concat_iff.2 ⟨Opening.near_nil, by decide⟩
  have hnew : Opening.Near ([beforeWrap] ++ [behindWrap]) := Opening.near_concat_iff.2 ⟨hold, by decide⟩
  have hlate : Opening.Near ([beforeWrap, behindWrap] ++ [beforeWrap]) :=
    Opening.near_concat_iff.2 ⟨hnew, by decide⟩
  have hfirst : Opening.Near (([old] ++ new :: []).map Arrival.opening) := hnew
  have hsecond : Opening.Near (([old, new] ++ late :: []).map Arrival.opening) := hlate
  obtain ⟨hadmits, -, -⟩ := deliver_arrival hfirst .empty
  obtain ⟨hretired, -, hdropped⟩ := deliver_arrival hsecond .empty
  refine ⟨by decide, hadmits.2 (by decide), hdropped ?_⟩
  rw [hretired]
  decide

end Pipeline.Intake

end MarketFeed
