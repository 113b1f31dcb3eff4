import Mathlib.Data.List.Induction
import MarketFeed.Proofs.Books.Calls

/-!
# Books.Snapshots — what a snapshot leaves

A snapshot lays its entries onto empty levels, one after the other. So of the book before
it nothing is left but the product and, if no entry has an event time, the time:

> `snapshot_alike`: after the same snapshot two books of one product have the same levels,
> are the same book exactly if the snapshot has an event time or their times were the
> same, and then nothing that follows tells them apart; and a snapshot that comes once
> more changes nothing.

The second subject is how a snapshot compares with changes. An entry without a quantity is
passed over by a snapshot (`lay`), while the same entry taken as a change removes its
level (`setTo`). So each level has the quantity of its last entry with one, where changes
would leave it as its last entry says. The two differ exactly if some level's last entry
takes back what an entry before it has laid:

> `snapshot_eq_changes_iff`: the entries, handed to an empty book as changes at ascending
> times, leave the levels of the snapshot exactly if it withdraws none (`Withdraws`).

Both are read off the quantities that the entries give one level, in order (`givenAt`):
what rests at a level after a snapshot or a run of changes is a fold over that list. The
times of the changes ascend because a book takes no change that is not later than itself.
-/

namespace MarketFeed

namespace Book

variable {b c e : Book} {changes entries : List LevelChange} {times : List Int}

/-! ## The levels of a snapshot -/

/-- The quantities that changes give one level, in order. -/
def givenAt (s : Side) (p : Price) (changes : List LevelChange) : List Quantity :=
  (changes.filter fun c => s = c.side ∧ p = c.price).map (·.quantity)

private theorem givenAt_cons (s : Side) (p : Price) (c : LevelChange) (rest : List LevelChange) :
    givenAt s p (c :: rest) =
      if s = c.side ∧ p = c.price then c.quantity :: givenAt s p rest else givenAt s p rest := by
  unfold givenAt
  rw [List.filter_cons]
  simp only [decide_eq_true_eq]
  split <;> rfl

/-- A quantity is laid if there is one. -/
def lay (resting : Option Quantity) (q : Quantity) : Option Quantity :=
  if 0 < q.value.toRat then some q else resting

/-- A quantity is set, or nothing if there is none. -/
def setTo (_resting : Option Quantity) (q : Quantity) : Option Quantity :=
  if 0 < q.value.toRat then some q else none

private theorem quantityAt?_addEntry (b : Book) (c : LevelChange) (s : Side) (p : Price) :
    (b.addEntry c).quantityAt? s p =
      if s = c.side ∧ p = c.price then lay (b.quantityAt? s p) c.quantity else b.quantityAt? s p := by
  unfold addEntry lay
  split
  next hempty => rw [if_neg (Quantity.isEmpty_iff.1 hempty), ite_self]
  next hsome =>
    unfold quantityAt?
    rw [if_pos (Quantity.toRat_pos_of_not_isEmpty hsome), side_onSide]
    by_cases hs : s = c.side
    · rw [if_pos hs, SortedMap.get?_insert, hs]
      exact if_congr (and_iff_right rfl).symm rfl rfl
    · rw [if_neg hs, if_neg fun h => hs h.1]

private theorem quantityAt?_foldl_addEntry (b : Book) (changes : List LevelChange) (s : Side) (p : Price) :
    (changes.foldl addEntry b).quantityAt? s p = (givenAt s p changes).foldl lay (b.quantityAt? s p) := by
  induction changes generalizing b with
  | nil => rfl
  | cons c rest ih =>
    rw [List.foldl_cons, ih, quantityAt?_addEntry, givenAt_cons]
    split <;> rfl

/-- What rests anywhere after a snapshot is what its own entries lay there. -/
theorem quantityAt?_snapshot (b : Book) (changes : List LevelChange) (s : Side) (p : Price) :
    (b.snapshot changes).quantityAt? s p = (givenAt s p changes).foldl lay none := by
  have hblank : quantityAt? { b with bids := .empty, asks := .empty } s p = none := by cases s <;> rfl
  rw [← hblank, ← quantityAt?_foldl_addEntry]
  cases s <;> rfl

private theorem side_eq_of_quantityAt? {s : Side} (h : ∀ p, b.quantityAt? s p = c.quantityAt? s p) :
    b.side s = c.side s :=
  SortedMap.ext_get? h

private theorem side_snapshot (b c : Book) (changes : List LevelChange) (s : Side) :
    (b.snapshot changes).side s = (c.snapshot changes).side s := by
  apply side_eq_of_quantityAt?
  intro p
  rw [quantityAt?_snapshot, quantityAt?_snapshot]

/-! ## Books after the same snapshot -/

private theorem product_snapshot (b : Book) (changes : List LevelChange) :
    (b.snapshot changes).product = b.product := by
  -- of any book, for the entries are not laid onto `b` itself
  have hentries (c : Book) : (changes.foldl addEntry c).product = c.product := by
    induction changes generalizing c with
    | nil => rfl
    | cons entry rest ih =>
      rw [List.foldl_cons, ih]
      unfold addEntry
      split
      next => rfl
      next => exact c.product_onSide entry.side _
  exact hentries { b with bids := .empty, asks := .empty }

/-- There is no latest time if no entry has a time. -/
theorem latest?_eq_none_iff : latest? changes = none ↔ ¬ ∃ x ∈ changes, x.time ≠ 0 := by
  unfold latest?
  rw [List.max?_eq_none_iff, List.filter_eq_nil_iff, List.forall_mem_map]
  simp only [decide_eq_true_eq, not_exists, not_and]

/-- The only thing that two books can still differ in is the time, and that only if the snapshot has none. -/
theorem snapshot_eq_iff (h : b.product = c.product) (changes : List LevelChange) :
    b.snapshot changes = c.snapshot changes ↔ (∃ x ∈ changes, x.time ≠ 0) ∨ b.time = c.time := by
  have htime : b.snapshot changes = c.snapshot changes ↔
      (latest? changes).getD b.time = (latest? changes).getD c.time := by
    refine ⟨congrArg time, fun htime => ?_⟩
    -- field by field: product and levels are the same anyway
    rw [mk.injEq]
    refine ⟨?_, b.side_snapshot c changes .buy, b.side_snapshot c changes .sell, htime⟩
    exact (b.product_snapshot changes).trans (h.trans (c.product_snapshot changes).symm)
  rw [htime]
  cases hlatest : latest? changes with
  | none =>
    have huntimed := latest?_eq_none_iff.1 hlatest
    exact ⟨Or.inr, fun heq => heq.resolve_left huntimed⟩
  | some latest =>
    have htimed : ∃ x ∈ changes, x.time ≠ 0 := by
      by_contra huntimed
      rw [latest?_eq_none_iff.2 huntimed] at hlatest
      cases hlatest
    exact iff_of_true rfl (Or.inl htimed)

/-- A snapshot that comes once more changes nothing. -/
theorem snapshot_again (b : Book) (changes : List LevelChange) :
    (b.snapshot changes).snapshot changes = b.snapshot changes := by
  rw [snapshot_eq_iff (b.product_snapshot changes)]
  by_cases htimed : ∃ x ∈ changes, x.time ≠ 0
  · exact Or.inl htimed
  · right
    show (latest? changes).getD b.time = b.time
    rw [latest?_eq_none_iff.2 htimed]
    rfl

/-- What operations come to in turn, each with the book behind it. -/
def outcomes (b : Book) : List Op → List (Option (Effect × Book))
  | [] => []
  | op :: rest => op.outcome? b :: (op.apply b).outcomes rest

/-- After the same snapshot two books of one product have the same levels, whatever they have been through. They are the
same book if the snapshot has an event time or they had the same time before, and only then; so after a snapshot with an
event time nothing that follows tells them apart. A snapshot that comes once more changes nothing. -/
theorem snapshot_alike (h : b.product = c.product) (changes : List LevelChange) :
    (b.snapshot changes).bids = (c.snapshot changes).bids ∧ (b.snapshot changes).asks = (c.snapshot changes).asks ∧
      (b.snapshot changes = c.snapshot changes ↔ (∃ x ∈ changes, x.time ≠ 0) ∨ b.time = c.time) ∧
      ((∃ x ∈ changes, x.time ≠ 0) → ∀ ops, (b.snapshot changes).outcomes ops = (c.snapshot changes).outcomes ops ∧
        (b.snapshot changes).after ops = (c.snapshot changes).after ops) ∧
      (b.snapshot changes).snapshot changes = b.snapshot changes := by
  refine ⟨b.side_snapshot c changes .buy, b.side_snapshot c changes .sell, snapshot_eq_iff h changes, ?_,
    b.snapshot_again changes⟩
  intro htimed ops
  rw [(snapshot_eq_iff h changes).2 (Or.inl htimed)]
  exact ⟨rfl, rfl⟩

/-- Two histories of one product, and a snapshot with a time that is earlier than the one book and later than the other;
the same snapshot without a time leaves the books apart. -/
theorem snapshot_alike_apart :
    unseen.snapshot [bidAt 10] ≠ unseen.snapshot [bidAt 40] ∧
      (unseen.snapshot [bidAt 10]).snapshot [bidAt 20, bidAt 0] =
        (unseen.snapshot [bidAt 40]).snapshot [bidAt 20, bidAt 0] ∧
      ((unseen.snapshot [bidAt 10]).snapshot [bidAt 20, bidAt 0]).outcomes [.change (bidAt 30)] =
        ((unseen.snapshot [bidAt 40]).snapshot [bidAt 20, bidAt 0]).outcomes [.change (bidAt 30)] ∧
      (unseen.snapshot [bidAt 10]).snapshot [bidAt 0] ≠ (unseen.snapshot [bidAt 40]).snapshot [bidAt 0] := by
  have hproduct : (unseen.snapshot [bidAt 10]).product = (unseen.snapshot [bidAt 40]).product := rfl
  have htimed : ∃ x ∈ [bidAt 20, bidAt 0], x.time ≠ 0 := ⟨bidAt 20, List.mem_cons_self, by decide⟩
  obtain ⟨-, -, hsame, hfollow, -⟩ := snapshot_alike hproduct [bidAt 20, bidAt 0]
  obtain ⟨-, -, hapart, -, -⟩ := snapshot_alike hproduct [bidAt 0]
  refine ⟨by decide +kernel, hsame.2 (Or.inl htimed), (hfollow htimed [.change (bidAt 30)]).1, ?_⟩
  rw [ne_eq, hapart]
  decide +kernel

/-! ## Entries as changes -/

/-- Entries with other event times. -/
def dated (entries : List LevelChange) (times : List Int) : List LevelChange :=
  List.zipWith (fun c time => { c with time }) entries times

private theorem dated_cons (c : LevelChange) (rest : List LevelChange) (time : Int) (later : List Int) :
    dated (c :: rest) (time :: later) = { c with time } :: dated rest later := rfl

private theorem map_time_dated (h : times.length = entries.length) : (dated entries times).map (·.time) = times := by
  induction entries generalizing times with
  | nil => rw [List.length_eq_zero_iff.1 h]; rfl
  | cons c rest ih =>
    cases times with
    | nil => cases h
    | cons time later => rw [dated_cons, List.map_cons, ih (Nat.succ.inj h)]

private theorem givenAt_dated (h : times.length = entries.length) (s : Side) (p : Price) :
    givenAt s p (dated entries times) = givenAt s p entries := by
  induction entries generalizing times with
  | nil => rfl
  | cons c rest ih =>
    cases times with
    | nil => cases h
    | cons time later =>
      rw [dated_cons, givenAt_cons, givenAt_cons, ih (Nat.succ.inj h)]

/-- Changes at ascending times are all applied, and leave each level as its last change says. -/
theorem changeAll_of_ascending (h : (b.time :: changes.map (·.time)).Pairwise (· < ·)) :
    (b.changeAll changes).1 = 0 ∧ ∀ s p,
      (b.changeAll changes).2.quantityAt? s p = (givenAt s p changes).foldl setTo (b.quantityAt? s p) := by
  induction changes generalizing b with
  | nil => exact ⟨rfl, fun _ _ => rfl⟩
  | cons c rest ih =>
    obtain ⟨hfirst, hrest⟩ := List.pairwise_cons.1 h
    have hlate : b.time < c.time := hfirst c.time List.mem_cons_self
    have hchange : b.change c = (.applied, _) := if_neg (not_le.2 hlate)
    obtain ⟨hstale, hlevels⟩ := ih (b := { b.onSide c.side (setLevel c.price c.quantity) with time := c.time }) hrest
    simp only [changeAll, hchange]
    refine ⟨by rw [hstale]; rfl, fun s p => ?_⟩
    rw [hlevels, (b.acts_change c).quantityAt?, givenAt_cons]
    simp only [Call.isAt, decide_eq_true_eq]
    split <;> rfl

/-- That a list of quantities ends with none, behind one that is above zero. -/
def TakenBack (qs : List Quantity) : Prop :=
  ∃ front q, qs = front ++ [q] ∧ ¬ 0 < q.value.toRat ∧ ∃ earlier ∈ front, 0 < earlier.value.toRat

private theorem foldl_lay_eq_none_iff (qs : List Quantity) :
    qs.foldl lay none = none ↔ ∀ q ∈ qs, ¬ 0 < q.value.toRat := by
  induction qs using List.reverseRecOn with
  | nil => exact iff_of_true rfl fun q hq => (List.not_mem_nil hq).elim
  | append_singleton front q ih =>
    rw [List.foldl_concat, lay, List.forall_mem_append, List.forall_mem_singleton, ← ih]
    split
    next hsome => exact iff_of_false (Option.some_ne_none q) fun h => h.2 hsome
    next hnone => exact ⟨fun h => ⟨h, hnone⟩, fun h => h.1⟩

/-- Laid and set quantities come to the same unless they are taken back. -/
theorem foldl_lay_eq_iff (qs : List Quantity) : qs.foldl lay none = qs.foldl setTo none ↔ ¬ TakenBack qs := by
  -- from the back, since what is set depends on the last quantity alone
  induction qs using List.reverseRecOn with
  | nil => exact iff_of_true rfl fun ⟨front, q, heq, _⟩ => by simp at heq
  | append_singleton front q _ =>
    have htaken : TakenBack (front ++ [q]) ↔
        ¬ 0 < q.value.toRat ∧ ∃ earlier ∈ front, 0 < earlier.value.toRat := by
      constructor
      · rintro ⟨front', q', heq, h⟩
        obtain ⟨rfl, rfl⟩ := List.append_singleton_inj.1 heq
        exact h
      · exact fun h => ⟨front, q, rfl, h⟩
    rw [htaken, List.foldl_concat, List.foldl_concat, lay, setTo]
    split
    next hsome => exact iff_of_true rfl fun h => h.1 hsome
    next hnone =>
      rw [foldl_lay_eq_none_iff]
      push Not
      exact ⟨fun h _ => h, fun h => h (not_lt.1 hnone)⟩

/-- That the last entry of some level has no quantity, and an earlier entry of it has one. -/
def Withdraws (entries : List LevelChange) : Prop := ∃ s p, TakenBack (givenAt s p entries)

private theorem quantityAt?_of_isEmpty (h : e.isEmpty = true) (s : Side) (p : Price) : e.quantityAt? s p = none := by
  unfold isEmpty SortedMap.isEmpty at h
  rw [Bool.and_eq_true, List.isEmpty_iff, List.isEmpty_iff] at h
  unfold quantityAt? SortedMap.get?
  cases s with
  | buy => show (e.bids.entries.find? _).map _ = none; rw [h.1]; rfl
  | sell => show (e.asks.entries.find? _).map _ = none; rw [h.2]; rfl

/-- The entries of a snapshot, handed to an empty book as changes at ascending times, are all applied. They leave the
levels that the snapshot leaves exactly if the snapshot withdraws no level. -/
theorem snapshot_eq_changes_iff (b : Book) (hempty : e.isEmpty = true) (hlength : times.length = entries.length)
    (hascending : (e.time :: times).Pairwise (· < ·)) :
    (e.changeAll (dated entries times)).1 = 0 ∧
      ((b.snapshot entries).bids = (e.changeAll (dated entries times)).2.bids ∧
          (b.snapshot entries).asks = (e.changeAll (dated entries times)).2.asks ↔ ¬ Withdraws entries) := by
  obtain ⟨hstale, hlevels⟩ := changeAll_of_ascending (b := e) (by rwa [map_time_dated hlength])
  refine ⟨hstale, ?_⟩
  -- both ways of taking the entries see a level through the quantities given to it, and no other entry
  have hlevel (s : Side) (p : Price) : (b.snapshot entries).quantityAt? s p =
      (e.changeAll (dated entries times)).2.quantityAt? s p ↔ ¬ TakenBack (givenAt s p entries) := by
    rw [quantityAt?_snapshot, hlevels, givenAt_dated hlength, quantityAt?_of_isEmpty hempty, foldl_lay_eq_iff]
  constructor
  · rintro ⟨hbids, hasks⟩ ⟨s, p, htaken⟩
    refine (hlevel s p).1 ?_ htaken
    cases s with
    | buy => exact congrArg (SortedMap.get? · p) hbids
    | sell => exact congrArg (SortedMap.get? · p) hasks
  · intro hkeeps
    have hside (s : Side) : (b.snapshot entries).side s = (e.changeAll (dated entries times)).2.side s :=
      side_eq_of_quantityAt? fun p => (hlevel s p).2 fun htaken => hkeeps ⟨s, p, htaken⟩
    exact ⟨hside .buy, hside .sell⟩

/-- A bid and an ask that are withdrawn and given again, one that has no quantity from the start, and one below zero. -/
def regiven : List LevelChange :=
  let entry (side : Side) (price quantity : Int) : LevelChange :=
    ⟨side, 7, .ofDecimal (units price), .ofDecimal (units quantity)⟩
  [entry .buy 100 1, entry .buy 100 0, entry .sell 101 4, entry .buy 100 2, entry .sell 101 (-1), entry .sell 103 0,
    entry .sell 101 3, entry .buy 99 (-2)]

/-- No level is withdrawn for good, so both leave the same bids. -/
theorem snapshot_eq_changes_iff_regiven :
    unseen.isEmpty = true ∧ (unseen.time :: [1, 2, 3, 4, 5, 6, 8, 9]).Pairwise (· < ·) ∧ ¬ Withdraws regiven ∧
      (rested.snapshot regiven).bids = (unseen.changeAll (dated regiven [1, 2, 3, 4, 5, 6, 8, 9])).2.bids := by
  have hempty : unseen.isEmpty = true := rfl
  have hlength : [1, 2, 3, 4, 5, 6, 8, 9].length = regiven.length := rfl
  have hascending : (unseen.time :: [1, 2, 3, 4, 5, 6, 8, 9]).Pairwise (· < ·) := by decide
  obtain ⟨-, hiff⟩ := snapshot_eq_changes_iff rested hempty hlength hascending
  have hlevels : (rested.snapshot regiven).bids = (unseen.changeAll (dated regiven [1, 2, 3, 4, 5, 6, 8, 9])).2.bids ∧
      (rested.snapshot regiven).asks = (unseen.changeAll (dated regiven [1, 2, 3, 4, 5, 6, 8, 9])).2.asks := by
    decide +kernel
  exact ⟨hempty, hascending, hiff.1 hlevels, hlevels.1⟩

/-- A bid, and an entry that takes it back. -/
def withdrawn : List LevelChange := [bidAt 10, { bidAt 10 with quantity := .zero }]

/-- The snapshot keeps the bid, and the changes do not. -/
theorem not_snapshot_eq_changes_withdrawn :
    unseen.isEmpty = true ∧ (unseen.time :: [1, 2]).Pairwise (· < ·) ∧
      (unseen.snapshot withdrawn).bidLevels = [⟨.ofDecimal (units 100), .ofDecimal (units 1)⟩] ∧
      (unseen.changeAll (dated withdrawn [1, 2])).2.bidLevels = [] ∧
      ¬ ((unseen.snapshot withdrawn).bids = (unseen.changeAll (dated withdrawn [1, 2])).2.bids ∧
        (unseen.snapshot withdrawn).asks = (unseen.changeAll (dated withdrawn [1, 2])).2.asks) := by
  decide +kernel

end Book

end MarketFeed
