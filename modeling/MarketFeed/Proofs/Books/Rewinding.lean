import MarketFeed.Proofs.Books.Times

/-!
# Books.Rewinding — when the time of a book goes back

A change or a trade has to be later than the book, so it cannot set the book back. A
snapshot is a new beginning: it is taken whatever its times are, and its latest becomes
the book's. So the time of a book goes back exactly when a snapshot comes that has event
times, all of them earlier:

> `Op.time_apply_lt_iff`: the one way in which an operation sets a book back
> (`Op.Rewinds`).

Over a run of operations that gives both what can be promised of the times and what
cannot:

> `onward_iff_ascending`: the times of a book ascend through a run exactly if no snapshot
> of the run rewinds it; and then no change or trade that is reflected in the book, or was
> superseded by it, acts again.

`Onward` says of a run that no operation of it rewinds, and is checked operation by
operation; `Spent` says of a change or a trade that the book has had a time that was not
earlier. In a run that goes onward, the time of the last book is the greatest of all
(`Onward.times_le`), and what is no later than a book is passed over
(`Op.outcome?_of_seen`).

A venue that sends an older snapshot behind newer changes makes the difference visible:
the book goes back, and a change that it reflected is applied once more
(`not_ascending_rewound`).
-/

namespace MarketFeed

namespace Book

/-- What is done to one book. -/
inductive Op where
  | snapshot (changes : List LevelChange)
  | change (c : LevelChange)
  | trade (side : Side) (price : Price) (size : Quantity) (time : Int)

/-- The latest time of a snapshot is earlier than a book if there is a time at all, and every one is earlier. -/
theorem latest?_getD_lt_iff {changes : List LevelChange} {time : Int} :
    (latest? changes).getD time < time ↔
      (∃ c ∈ changes, c.time ≠ 0) ∧ ∀ c ∈ changes, c.time ≠ 0 → c.time < time := by
  have hmem (t : Int) : t ∈ (changes.map (·.time)).filter (· ≠ 0) ↔ ∃ c ∈ changes, c.time = t ∧ t ≠ 0 := by
    rw [List.mem_filter, List.mem_map, decide_eq_true_iff]
    constructor
    · rintro ⟨⟨c, hc, hct⟩, ht⟩
      exact ⟨c, hc, hct, ht⟩
    · rintro ⟨c, hc, hct, ht⟩
      exact ⟨⟨c, hc, hct⟩, ht⟩
  cases hlatest : latest? changes with
  | none =>
    have hnil := List.max?_eq_none_iff.1 hlatest
    -- without times of its own a snapshot leaves the time of the book
    refine iff_of_false (lt_irrefl time) ?_
    rintro ⟨⟨c, hc, hset⟩, -⟩
    have hin := (hmem c.time).2 ⟨c, hc, rfl, hset⟩
    rw [hnil] at hin
    exact List.not_mem_nil hin
  | some latest =>
    obtain ⟨hin, hmax⟩ := List.max?_eq_some_iff.1 hlatest
    obtain ⟨c, hc, hct, hset⟩ := (hmem latest).1 hin
    show latest < time ↔ _
    constructor
    · intro hlt
      refine ⟨⟨c, hc, hct ▸ hset⟩, ?_⟩
      intro d hd hdset
      exact (hmax d.time ((hmem d.time).2 ⟨d, hd, rfl, hdset⟩)).trans_lt hlt
    · rintro ⟨-, hall⟩
      have hlt := hall c hc (hct ▸ hset)
      omega

namespace Op

/-- Does an operation to a book; `none` when the quantity that a trade leaves is out of range. -/
def outcome? (b : Book) : Op → Option (Effect × Book)
  | .snapshot changes => some (.applied, b.snapshot changes)
  | .change c => some (b.change c)
  | .trade side price size time => b.trade? side price size time

/-- The book after an operation; the book as it was if there is no outcome. -/
def apply (b : Book) (op : Op) : Book := ((op.outcome? b).map (·.2)).getD b

/-- The event time of a change or a trade. -/
def time? : Op → Option Int
  | .snapshot _ => none
  | .change c => some c.time
  | .trade _ _ _ time => some time

/-- That an operation is a snapshot with event times, and all of them are earlier than the book. -/
def Rewinds (b : Book) : Op → Prop
  | .snapshot changes => (∃ c ∈ changes, c.time ≠ 0) ∧ ∀ c ∈ changes, c.time ≠ 0 → c.time < b.time
  | _ => False

variable {b : Book} {op : Op} {time : Int}

/-- What an operation comes to is the book after it. -/
theorem apply_of_some {r : Effect × Book} (h : op.outcome? b = some r) : op.apply b = r.2 := by
  show ((op.outcome? b).map (·.2)).getD b = r.2
  rw [h]
  rfl

/-- The step: one operation, and the one way in which a book goes back. -/
theorem time_apply_lt_iff (b : Book) (op : Op) : (op.apply b).time < b.time ↔ op.Rewinds b := by
  cases op with
  | snapshot changes => exact latest?_getD_lt_iff
  | change c => exact iff_of_false (not_lt.2 (b.time_le_change c).1) id
  | trade side price size time =>
    refine iff_of_false (not_lt.2 ?_) id
    cases htrade : (Op.trade side price size time).outcome? b with
    | none =>
      show b.time ≤ (((Op.trade side price size time).outcome? b).map (·.2) |>.getD b).time
      rw [htrade]
      rfl
    | some r =>
      rw [apply_of_some htrade]
      exact (time_le_trade? htrade).1

/-- A change or a trade that was handed over is no later than the book from then on. -/
theorem time_le_apply {r : Effect × Book} (ht : op.time? = some time) (h : op.outcome? b = some r) :
    time ≤ (op.apply b).time := by
  rw [apply_of_some h]
  cases op with
  | snapshot changes => cases ht
  | change c =>
    obtain rfl := Option.some.inj ht
    obtain rfl := Option.some.inj h
    exact (b.time_le_change c).2
  | trade side price size t =>
    obtain rfl := Option.some.inj ht
    exact (time_le_trade? h).2

/-- What is no later than the book is passed over. -/
theorem outcome?_of_seen (ht : op.time? = some time) (hseen : time ≤ b.time) : op.outcome? b = some (.stale, b) := by
  cases op with
  | snapshot changes => cases ht
  | change c =>
    obtain rfl := Option.some.inj ht
    exact congrArg some (if_pos hseen)
  | trade side price size t =>
    obtain rfl := Option.some.inj ht
    exact trade?_of_seen hseen side price size

end Op

/-! ## Runs -/

def after (b : Book) (ops : List Op) : Book := ops.foldl Op.apply b

/-- The time of a book before a run, and after each operation of it. -/
def times (b : Book) : List Op → List Int
  | [] => [b.time]
  | op :: rest => b.time :: (op.apply b).times rest

/-- That no operation of a run sets the book back. -/
def Onward (b : Book) : List Op → Prop
  | [] => True
  | op :: rest => ¬ op.Rewinds b ∧ (op.apply b).Onward rest

/-- That a change or a trade is reflected in the book, as it was handed over in a run, or superseded, as the book has
had a time that was not earlier. -/
def Spent (b : Book) (ops : List Op) (op : Op) : Prop :=
  ∃ time, op.time? = some time ∧
    ((∃ front back, ops = front ++ op :: back ∧ (op.outcome? (b.after front)).isSome = true) ∨
      ∃ seen ∈ b.times ops, time ≤ seen)

variable {b : Book} {ops : List Op}

private theorem exists_times_eq (b : Book) (ops : List Op) : ∃ later, b.times ops = b.time :: later := by
  cases ops with
  | nil => exact ⟨[], rfl⟩
  | cons op rest => exact ⟨(op.apply b).times rest, rfl⟩

/-- The times of a run do not descend anywhere exactly if no operation sets the book back. -/
theorem onward_iff (b : Book) (ops : List Op) : b.Onward ops ↔ (b.times ops).Pairwise (· ≤ ·) := by
  induction ops generalizing b with
  | nil => exact iff_of_true trivial (List.pairwise_singleton _ _)
  | cons op rest ih =>
    obtain ⟨later, hlater⟩ := exists_times_eq (op.apply b) rest
    show ¬ op.Rewinds b ∧ (op.apply b).Onward rest ↔ (b.time :: (op.apply b).times rest).Pairwise (· ≤ ·)
    rw [ih, hlater, ← List.isChain_iff_pairwise, ← List.isChain_iff_pairwise, List.isChain_cons_cons,
      ← Op.time_apply_lt_iff, not_lt]

private theorem time_mem_times (b : Book) (ops : List Op) : b.time ∈ b.times ops := by
  obtain ⟨later, hlater⟩ := exists_times_eq b ops
  rw [hlater]
  exact List.mem_cons_self

private theorem time_after_mem_times (b : Book) (front back : List Op) :
    (b.after front).time ∈ b.times (front ++ back) := by
  induction front generalizing b with
  | nil => exact b.time_mem_times back
  | cons op rest ih => exact List.mem_cons_of_mem _ (ih (op.apply b))

/-- In a run that goes onward the last time is the greatest. -/
theorem Onward.times_le (h : b.Onward ops) : ∀ seen ∈ b.times ops, seen ≤ (b.after ops).time := by
  induction ops generalizing b with
  | nil =>
    intro seen hseen
    exact (List.mem_singleton.1 hseen).le
  | cons op rest ih =>
    intro seen hseen
    obtain ⟨hop, hrest⟩ := h
    rcases List.mem_cons.1 hseen with rfl | hlater
    · rw [← Op.time_apply_lt_iff, not_lt] at hop
      exact hop.trans (ih hrest _ (time_mem_times _ rest))
    · exact ih hrest seen hlater

/-- Being reflected is a case of being superseded. -/
theorem Spent.exists_seen {op : Op} (h : b.Spent ops op) :
    ∃ time, op.time? = some time ∧ ∃ seen ∈ b.times ops, time ≤ seen := by
  obtain ⟨time, ht, ⟨front, back, rfl, hsome⟩ | hseen⟩ := h
  · obtain ⟨r, hr⟩ := Option.isSome_iff_exists.1 hsome
    have hafter : b.after (front ++ [op]) = op.apply (b.after front) := List.foldl_append
    have hmem := b.time_after_mem_times (front ++ [op]) back
    rw [List.append_assoc, hafter] at hmem
    exact ⟨time, ht, _, hmem, Op.time_le_apply ht hr⟩
  · exact ⟨time, ht, hseen⟩

/-- The times of a book ascend through a run exactly if no snapshot of it rewinds the book. Then no change or trade that
is reflected in the book or superseded by it acts again. -/
theorem onward_iff_ascending (b : Book) (ops : List Op) :
    (b.Onward ops ↔ (b.times ops).Pairwise (· ≤ ·)) ∧
      (b.Onward ops → ∀ op, b.Spent ops op → op.outcome? (b.after ops) = some (.stale, b.after ops)) := by
  refine ⟨b.onward_iff ops, ?_⟩
  intro honward op hspent
  obtain ⟨time, ht, seen, hseen, hle⟩ := hspent.exists_seen
  exact Op.outcome?_of_seen ht (hle.trans (honward.times_le seen hseen))

def unseen : Book := empty ⟨"BTC-USD"⟩

/-- One bid, at a time. -/
def bidAt (time : Int) : LevelChange :=
  ⟨.buy, time, .ofDecimal ((Decimal.ofParts? 100 0).getD .zero), .ofDecimal ((Decimal.ofParts? 1 0).getD .zero)⟩

/-- Snapshots, of which one has the time of the book and one has no time. -/
def renewed : List Op := [.snapshot [bidAt 10], .change (bidAt 20), .snapshot [bidAt 20, bidAt 5], .snapshot [bidAt 0]]

/-- The snapshots do not rewind the book, and the change is not applied again. -/
theorem onward_iff_ascending_renewed :
    unseen.times renewed = [0, 10, 20, 20, 20] ∧
      (Op.change (bidAt 20)).outcome? (unseen.after renewed) = some (.stale, unseen.after renewed) := by
  have htimes : unseen.times renewed = [0, 10, 20, 20, 20] := by decide +kernel
  obtain ⟨hiff, hstale⟩ := onward_iff_ascending unseen renewed
  refine ⟨htimes, hstale (hiff.2 ?_) (.change (bidAt 20)) ?_⟩
  · rw [htimes]
    decide
  · exact ⟨20, rfl, Or.inl ⟨[.snapshot [bidAt 10]], _, rfl, rfl⟩⟩

/-- A change, and then a snapshot from before it. -/
def rewound : List Op := [.snapshot [bidAt 10], .change (bidAt 20), .snapshot [bidAt 5]]

/-- The book goes back, and the change that it reflected is applied once more. -/
theorem not_ascending_rewound :
    ¬ (unseen.times rewound).Pairwise (· ≤ ·) ∧ unseen.Spent rewound (.change (bidAt 20)) ∧
      ((Op.change (bidAt 20)).outcome? (unseen.after rewound)).map (·.1) = some .applied := by
  refine ⟨by decide +kernel, ?_, by decide +kernel⟩
  exact ⟨20, rfl, Or.inl ⟨[.snapshot [bidAt 10]], [.snapshot [bidAt 5]], rfl, rfl⟩⟩

end Book

end MarketFeed
