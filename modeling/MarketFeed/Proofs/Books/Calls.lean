import MarketFeed.Proofs.Books.Depletion

/-!
# Books.Calls — which changes and trades take effect

Between snapshots a book is called with changes and trades, one after the other. Whether a
call takes effect is decided by the times alone: it has to be later than the book was at
first and later than all calls before it, whether those took effect or not. All other
calls leave no trace. What rests at a level in the end is what the calls that took effect
there have left of it, each of what the one before it had left (`Call.leaves`), and the
book has the latest of all times.

These facts are gathered in `Reckons`, a statement about the calls and their times that
does not run the book.

> `run?_isSome_iff`: a run of calls comes to its end exactly if no quantity in it gets out
> of range.
>
> `reckons_run`: a run that comes to its end has the effects, the levels and the time that
> `Reckons` tells. A batch of changes is such a run, and never gets out of range; of its
> effects only the number of stale ones is reported.

The step is `Call.outcome?_cases`: a call that is not later than the book is passed over,
any other acts on its level and sets the time. The rest is induction over the calls, from
the front for the range and the levels, and by cutting the run at a call for its effect
(`effect_run?`), since which call took effect depends on the ones before it by their times
only.
-/

namespace MarketFeed

namespace Book

/-! ## Calls -/

/-- What a book is called with between snapshots. -/
inductive Call where
  | change (c : LevelChange)
  | trade (side : Side) (price : Price) (size : Quantity) (time : Int)

namespace Call

def op : Call → Op
  | change c => .change c
  | trade side price size time => .trade side price size time

def time : Call → Int
  | change c => c.time
  | trade _ _ _ time => time

/-- Whether a call is about the level at a price on a side. -/
def isAt (s : Side) (p : Price) : Call → Bool
  | change c => s = c.side ∧ p = c.price
  | trade side price _ _ => s = side ∧ p = price

/-- What a call leaves at its level when it takes effect. A change sets the quantity, or removes the level if it is
not above zero. A trade takes its size away from what rests there, and removes the level if there was no more than
that. -/
def leaves : Call → Option Quantity → Option Quantity
  | change c, _ => if 0 < c.quantity.value.toRat then some c.quantity else none
  | trade _ _ size _, resting => resting.bind fun q =>
      if q.value.toRat ≤ size.value.toRat then none else (Decimal.sub? q.value size.value).map .ofDecimal

/-- That a call does not take a decimal out of range: the difference that a trade in time leaves rounds to no more than
the greatest decimal. -/
def InRange (b : Book) : Call → Prop
  | change _ => True
  | trade side price size time => b.time < time → ∀ resting, b.quantityAt? side price = some resting →
      |resting.value.toRat - size.value.toRat| < Decimal.edge

end Call

variable {b last : Book} {x : Call} {calls : List Call} {effects : List Effect}

/-! ## One call -/

/-- What is left of a level: nothing if there was no more than what is taken away, and the difference if there was. -/
theorem remainder?_of_minus? {size resting left : Quantity} (h : resting.minus? size = some left) :
    remainder? size resting =
      if resting.value.toRat ≤ size.value.toRat then none
      else (Decimal.sub? resting.value size.value).map .ofDecimal := by
  obtain ⟨r, hr, ⟨hle, rfl⟩ | ⟨hlt, hpos, rfl⟩⟩ := Quantity.minus?_cases h
  · rw [remainder?, h, if_pos hle]
    exact Option.filter_some_neg (by decide)
  · have hkept : (!(Quantity.ofDecimal r).isZero) = true := by
      rw [Bool.not_eq_true', Bool.eq_false_iff]
      exact Quantity.not_isZero_of_toRat_pos (by rwa [Quantity.toRat_ofDecimal])
    rw [remainder?, h, hr, if_neg (not_le.2 hlt)]
    exact Option.filter_some_pos hkept

private theorem get?_setLevel (price : Price) (quantity : Quantity) (levels : Levels) (p : Price) :
    (setLevel price quantity levels).get? p =
      if p = price then (if 0 < quantity.value.toRat then some quantity else none) else levels.get? p := by
  unfold setLevel
  split
  next hempty => rw [SortedMap.get?_erase, if_neg (Quantity.isEmpty_iff.1 hempty)]
  next hsome => rw [SortedMap.get?_insert, if_pos (Quantity.toRat_pos_of_not_isEmpty hsome)]

/-- That a book becomes another by a call that takes effect. -/
structure Call.Acts (x : Call) (b after : Book) : Prop where
  product : after.product = b.product
  time : after.time = x.time
  quantityAt? : ∀ s p,
    after.quantityAt? s p = if x.isAt s p then x.leaves (b.quantityAt? s p) else b.quantityAt? s p

/-- A side with other levels is a side of a book of the same product. -/
theorem product_onSide (b : Book) (s : Side) (f : Levels → Levels) : (b.onSide s f).product = b.product := by
  cases s <;> rfl

/-- A change acts on the level at its price. -/
theorem acts_change (b : Book) (c : LevelChange) :
    (Call.change c).Acts b { b.onSide c.side (setLevel c.price c.quantity) with time := c.time } where
  product := b.product_onSide c.side _
  time := rfl
  quantityAt? := by
    intro s p
    simp only [Call.isAt, decide_eq_true_eq]
    rw [quantityAt?_onSide, get?_setLevel]
    by_cases hs : s = c.side
    · rw [if_pos hs, hs]
      by_cases hp : p = c.price
      · have hat : c.side = c.side ∧ p = c.price := ⟨rfl, hp⟩
        rw [if_pos hp, if_pos hat, Call.leaves]
      · rw [if_neg hp, if_neg fun h => hp h.2]
        rfl
    · rw [if_neg hs, if_neg fun h => hs h.1]

private theorem acts_trade {side : Side} {price : Price} {size : Quantity} {levels : Levels}
    (h : deplete? price size (b.side side) = some levels) (time : Int) :
    (Call.trade side price size time).Acts b { b.onSide side (fun _ => levels) with time } where
  product := b.product_onSide side _
  time := rfl
  quantityAt? := by
    intro s p
    simp only [Call.isAt, decide_eq_true_eq]
    rw [quantityAt?_withLevels h]
    split
    next hat =>
      obtain ⟨rfl, rfl⟩ := hat
      show (b.quantityAt? s p).bind _ = (b.quantityAt? s p).bind _
      cases hresting : b.quantityAt? s p with
      | none => rfl
      | some resting =>
        rw [deplete?, show (b.side s).get? p = some resting from hresting] at h
        obtain ⟨left, hleft, -⟩ := Option.map_eq_some_iff.1 h
        rw [Option.bind_some, Option.bind_some, remainder?_of_minus? hleft]
    next => rfl

/-- The step: a call that is not later than the book is passed over, and any other acts. -/
theorem Call.outcome?_cases {r : Effect × Book} (h : x.op.outcome? b = some r) :
    x.time ≤ b.time ∧ r = (.stale, b) ∨ b.time < x.time ∧ r.1 = .applied ∧ x.Acts b r.2 := by
  rcases le_or_gt x.time b.time with hseen | hlate
  · have ht : x.op.time? = some x.time := by cases x <;> rfl
    rw [Op.outcome?_of_seen ht hseen] at h
    exact Or.inl ⟨hseen, (Option.some.inj h).symm⟩
  · refine Or.inr ⟨hlate, ?_⟩
    cases x with
    | change c =>
      have hc : b.change c = _ := if_neg (not_le.2 hlate)
      obtain rfl := Option.some.inj h
      rw [hc]
      exact ⟨rfl, b.acts_change c⟩
    | trade side price size time =>
      have ht : b.trade? side price size time = _ := if_neg (not_le.2 hlate)
      obtain ⟨levels, hlevels, rfl⟩ := Option.map_eq_some_iff.1 (ht.symm.trans h)
      exact ⟨rfl, acts_trade hlevels time⟩

/-- A call fails exactly if it takes a quantity out of range. -/
theorem Call.outcome?_eq_none_iff : x.op.outcome? b = none ↔ ¬ x.InRange b := by
  cases x with
  | change c => exact iff_of_false (Option.some_ne_none _) (not_not.2 trivial)
  | trade side price size time =>
    show b.trade? side price size time = none ↔ _
    unfold trade? InRange
    rcases le_or_gt time b.time with hseen | hlate
    · rw [if_pos hseen]
      exact iff_of_false (Option.some_ne_none _) (not_not.2 fun hlate => absurd hseen (not_le.2 hlate))
    · rw [if_neg (not_le.2 hlate), Option.map_eq_none_iff, deplete?_eq_none_iff]
      push Not
      simp only [Quantity.minus?, Option.map_eq_none_iff, Decimal.sub?_eq_none_iff]
      exact ⟨fun h => ⟨hlate, h⟩, fun h => h.2⟩

/-! ## Runs -/

/-- What becomes of calls in turn, and the book behind them; `none` when a quantity gets out of range. -/
def run? (b : Book) : List Call → Option (List Effect × Book)
  | [] => some ([], b)
  | x :: rest => (x.op.outcome? b).bind fun (effect, next) =>
      (next.run? rest).map fun (later, last) => (effect :: later, last)

/-- That no call of a run takes a decimal out of range. -/
def InRange (b : Book) : List Call → Prop
  | [] => True
  | x :: rest => x.InRange b ∧ (x.op.apply b).InRange rest

private theorem run?_cons_eq_some_iff {rest : List Call} : b.run? (x :: rest) = some (effects, last) ↔
    ∃ effect next later, x.op.outcome? b = some (effect, next) ∧ next.run? rest = some (later, last) ∧
      effects = effect :: later := by
  rw [run?, Option.bind_eq_some_iff]
  constructor
  · rintro ⟨⟨effect, next⟩, hx, h⟩
    obtain ⟨⟨later, last'⟩, hrest, heq⟩ := Option.map_eq_some_iff.1 h
    obtain ⟨rfl, rfl⟩ := Prod.mk.inj heq
    exact ⟨effect, next, later, hx, hrest, rfl⟩
  · rintro ⟨effect, next, later, hx, hrest, rfl⟩
    exact ⟨(effect, next), hx, by simp only [hrest, Option.map_some]⟩

/-- A run comes to its end exactly if it stays in range. -/
theorem run?_isSome_iff (b : Book) (calls : List Call) : (b.run? calls).isSome ↔ b.InRange calls := by
  induction calls generalizing b with
  | nil => exact iff_of_true rfl trivial
  | cons x rest ih =>
    rw [run?, InRange]
    cases hx : x.op.outcome? b with
    | none => exact iff_of_false Bool.false_ne_true fun h => Call.outcome?_eq_none_iff.1 hx h.1
    | some r =>
      have hrange : x.InRange b := by
        by_contra hout
        rw [Call.outcome?_eq_none_iff.2 hout] at hx
        cases hx
      rw [Op.apply_of_some hx, Option.bind_some, Option.isSome_map, ih]
      exact ⟨fun h => ⟨hrange, h⟩, fun h => h.2⟩

private theorem exists_of_run?_append {front back : List Call} (h : b.run? (front ++ back) = some (effects, last)) :
    ∃ before mid later, b.run? front = some (before, mid) ∧ mid.run? back = some (later, last) ∧
      effects = before ++ later ∧ before.length = front.length := by
  induction front generalizing b effects with
  | nil => exact ⟨[], b, effects, rfl, h, rfl, rfl⟩
  | cons x rest ih =>
    obtain ⟨effect, next, others, hx, hrest, rfl⟩ := run?_cons_eq_some_iff.1 h
    obtain ⟨before, mid, later, hfront, hback, rfl, hlength⟩ := ih hrest
    exact ⟨effect :: before, mid, later, run?_cons_eq_some_iff.2 ⟨effect, next, before, hx, hfront, rfl⟩, hback, rfl,
      congrArg (· + 1) hlength⟩

/-! ## What a run comes to -/

/-- A book after a call has the later of the two times. -/
theorem Call.time_eq_max {r : Effect × Book} (h : x.op.outcome? b = some r) : r.2.time = max b.time x.time := by
  rcases outcome?_cases h with ⟨hseen, rfl⟩ | ⟨hlate, -, hacts⟩
  · exact (max_eq_left hseen).symm
  · rw [hacts.time, max_eq_right hlate.le]

/-- A book behind a run has the latest time that was seen. -/
theorem max?_time_run? (h : b.run? calls = some (effects, last)) :
    (b.time :: calls.map Call.time).max? = some last.time := by
  -- as a fold from the time of the book, which moves with it from call to call
  rw [List.max?_cons']
  induction calls generalizing b effects with
  | nil =>
    obtain ⟨-, rfl⟩ := Prod.mk.inj (Option.some.inj h)
    rfl
  | cons x rest ih =>
    obtain ⟨effect, next, later, hx, hrest, rfl⟩ := run?_cons_eq_some_iff.1 h
    rw [List.map_cons, List.foldl_cons, ← Call.time_eq_max hx]
    exact ih hrest

/-- A later call than the book behind a run is later than the book before it and than all calls of the run. -/
theorem time_run?_lt_iff (h : b.run? calls = some (effects, last)) (time : Int) :
    last.time < time ↔ b.time < time ∧ ∀ y ∈ calls, y.time < time := by
  obtain ⟨hmem, hmax⟩ := List.max?_eq_some_iff.1 (max?_time_run? h)
  rw [List.forall_mem_cons, List.forall_mem_map] at hmax
  constructor
  · exact fun hlt => ⟨hmax.1.trans_lt hlt, fun y hy => (hmax.2 y hy).trans_lt hlt⟩
  · rintro ⟨hb, hcalls⟩
    rcases List.mem_cons.1 hmem with heq | hin
    · rwa [heq]
    · obtain ⟨y, hy, heq⟩ := List.mem_map.1 hin
      exact heq ▸ hcalls y hy

/-- The calls that took effect. -/
def taking (calls : List Call) (effects : List Effect) : List Call :=
  ((calls.zip effects).filter fun xe => xe.2 = .applied).map (·.1)

/-- Of the calls that took effect, those at a level make up what rests there, and no other call plays a part. -/
theorem quantityAt?_run? (h : b.run? calls = some (effects, last)) (s : Side) (p : Price) :
    last.quantityAt? s p =
      ((taking calls effects).filter (·.isAt s p)).foldl (fun resting x => x.leaves resting) (b.quantityAt? s p) := by
  induction calls generalizing b effects with
  | nil =>
    obtain ⟨rfl, rfl⟩ := Prod.mk.inj (Option.some.inj h)
    rfl
  | cons x rest ih =>
    obtain ⟨effect, next, later, hx, hrest, rfl⟩ := run?_cons_eq_some_iff.1 h
    rw [ih hrest]
    rcases Call.outcome?_cases hx with ⟨-, heq⟩ | ⟨-, rfl, hacts⟩
    · obtain ⟨rfl, rfl⟩ := Prod.mk.inj heq
      rfl
    · -- a call at another level is filtered out, and leaves this one alone
      have htaking : taking (x :: rest) (.applied :: later) = x :: taking rest later := rfl
      rw [htaking, List.filter_cons, hacts.quantityAt?]
      split <;> rfl

private theorem product_run? (h : b.run? calls = some (effects, last)) : last.product = b.product := by
  induction calls generalizing b effects with
  | nil =>
    obtain ⟨-, rfl⟩ := Prod.mk.inj (Option.some.inj h)
    rfl
  | cons x rest ih =>
    obtain ⟨effect, next, later, hx, hrest, rfl⟩ := run?_cons_eq_some_iff.1 h
    rw [ih hrest]
    rcases Call.outcome?_cases hx with ⟨-, heq⟩ | ⟨-, -, hacts⟩
    · rw [(Prod.mk.inj heq).2]
    · exact hacts.product

/-- That the effects of calls on a book, and the book behind them, follow from the times and the levels of the calls. -/
structure Reckons (b : Book) (calls : List Call) (effects : List Effect) (last : Book) : Prop where
  length : effects.length = calls.length
  /-- Applied is what is later than the book and than all calls before it. -/
  applied : ∀ front x back, calls = front ++ x :: back →
    (effects[front.length]? = some .applied ↔ b.time < x.time ∧ ∀ y ∈ front, y.time < x.time)
  /-- Any other call is stale and leaves the book as the calls before it have left it. -/
  stale : ∀ front x back, calls = front ++ x :: back → ¬ (b.time < x.time ∧ ∀ y ∈ front, y.time < x.time) →
    effects[front.length]? = some .stale ∧
      ∃ before mid, b.run? front = some (before, mid) ∧ b.run? (front ++ [x]) = some (before ++ [.stale], mid)
  time : (b.time :: calls.map Call.time).max? = some last.time
  quantityAt? : ∀ s p, last.quantityAt? s p =
    ((taking calls effects).filter (·.isAt s p)).foldl (fun resting x => x.leaves resting) (b.quantityAt? s p)
  product : last.product = b.product

private theorem run?_concat {front : List Call} {before : List Effect} {mid : Book} {r : Effect × Book}
    (hfront : b.run? front = some (before, mid)) (hx : x.op.outcome? mid = some r) :
    b.run? (front ++ [x]) = some (before ++ [r.1], r.2) := by
  induction front generalizing b before with
  | nil =>
    obtain ⟨rfl, rfl⟩ := Prod.mk.inj (Option.some.inj hfront)
    exact run?_cons_eq_some_iff.2 ⟨r.1, r.2, [], hx, rfl, rfl⟩
  | cons y rest ih =>
    obtain ⟨effect, next, later, hy, hrest, rfl⟩ := run?_cons_eq_some_iff.1 hfront
    exact run?_cons_eq_some_iff.2 ⟨effect, next, later ++ [r.1], hy, ih hrest, rfl⟩

/-- What becomes of a call depends on the calls before it by their times only. -/
theorem effect_run? {front back : List Call} (h : b.run? (front ++ x :: back) = some (effects, last)) :
    b.time < x.time ∧ (∀ y ∈ front, y.time < x.time) ∧ effects[front.length]? = some .applied ∨
      ¬ (b.time < x.time ∧ ∀ y ∈ front, y.time < x.time) ∧ effects[front.length]? = some .stale ∧
        ∃ before mid, b.run? front = some (before, mid) ∧
          b.run? (front ++ [x]) = some (before ++ [.stale], mid) := by
  obtain ⟨before, mid, others, hfront, hback, rfl, hlength⟩ := exists_of_run?_append h
  obtain ⟨effect, next, later, hx, -, rfl⟩ := run?_cons_eq_some_iff.1 hback
  -- the effect of `x` is the one that the book behind `front` decides, by its time
  have hat : (before ++ effect :: later)[front.length]? = some effect := by
    rw [← hlength, List.getElem?_append_right le_rfl, Nat.sub_self]
    rfl
  rw [← time_run?_lt_iff hfront, hat]
  rcases Call.outcome?_cases hx with ⟨hseen, heq⟩ | ⟨hlate, rfl, -⟩
  · obtain ⟨rfl, rfl⟩ := Prod.mk.inj heq
    exact Or.inr ⟨not_lt.2 hseen, rfl, before, next, hfront, run?_concat hfront hx⟩
  · obtain ⟨hbook, hcalls⟩ := (time_run?_lt_iff hfront x.time).1 hlate
    exact Or.inl ⟨hbook, hcalls, rfl⟩

/-- Whatever a run comes to is told by the times and levels of its calls. -/
theorem Reckons.of_run? (h : b.run? calls = some (effects, last)) : Reckons b calls effects last where
  length := by
    rw [← List.append_nil calls] at h
    obtain ⟨before, mid, later, -, hnil, rfl, hlength⟩ := exists_of_run?_append h
    obtain ⟨rfl, -⟩ := Prod.mk.inj (Option.some.inj hnil)
    rw [List.append_nil, hlength]
  applied := by
    rintro front x back rfl
    rcases effect_run? h with ⟨hbook, hcalls, happlied⟩ | ⟨hbehind, hstale, -⟩
    · exact iff_of_true happlied ⟨hbook, hcalls⟩
    · refine iff_of_false ?_ hbehind
      rw [hstale]
      intro heq
      cases heq
  stale := by
    rintro front x back rfl hbehind
    rcases effect_run? h with ⟨hbook, hcalls, -⟩ | ⟨-, hstale, hkept⟩
    · exact absurd ⟨hbook, hcalls⟩ hbehind
    · exact ⟨hstale, hkept⟩
  time := max?_time_run? h
  quantityAt? := quantityAt?_run? h
  product := product_run? h

/-- A batch of changes comes to what its changes come to one by one. -/
theorem exists_run?_changes (b : Book) (changes : List LevelChange) : ∃ effects last,
    b.run? (changes.map .change) = some (effects, last) ∧ b.changeAll changes = (effects.count .stale, last) := by
  induction changes generalizing b with
  | nil => exact ⟨[], b, rfl, rfl⟩
  | cons c rest ih =>
    obtain ⟨later, last, hrun, hall⟩ := ih (b.change c).2
    refine ⟨(b.change c).1 :: later, last, run?_cons_eq_some_iff.2 ⟨_, _, later, rfl, hrun, rfl⟩, ?_⟩
    simp only [changeAll, hall, List.count_cons, beq_iff_eq]

/-- A run of changes and trades comes to its end if no decimal gets out of range, and then its effects and its book
are as the times and levels of the calls tell. A batch of changes is such a run, and its answer is the number of stale
ones. -/
theorem reckons_run (b : Book) :
    (∀ calls, b.InRange calls → ∃ effects last, b.run? calls = some (effects, last) ∧ Reckons b calls effects last) ∧
      ∀ changes : List LevelChange, ∃ effects last, b.run? (changes.map .change) = some (effects, last) ∧
        b.changeAll changes = (effects.count .stale, last) := by
  refine ⟨?_, b.exists_run?_changes⟩
  intro calls hrange
  obtain ⟨⟨effects, last⟩, hrun⟩ := Option.isSome_iff_exists.1 ((b.run?_isSome_iff calls).2 hrange)
  exact ⟨effects, last, hrun, .of_run? hrun⟩

/-- A book with one bid, at the time 10. -/
def rested : Book := unseen.snapshot [bidAt 10]

/-- Changes and trades that come in time, at the time of another, and too late; one trade leaves a part of its level,
one is for more than its level has, and one finds none. -/
def mixed : List Call :=
  let price (n : Int) : Price := .ofDecimal (units n)
  let tenths (n : Int) : Quantity := .ofDecimal ((Decimal.ofParts? n 1).getD .zero)
  [.change ⟨.sell, 11, price 101, tenths 20⟩, .change ⟨.buy, 11, price 100, tenths 50⟩,
    .trade .buy (price 100) (tenths 4) 12, .trade .sell (price 102) (tenths 10) 13,
    .change ⟨.sell, 12, price 101, tenths 0⟩, .change ⟨.sell, 14, price 103, tenths 30⟩,
    .trade .sell (price 101) (tenths 70) 20]

/-- Of seven calls five take effect, and one bid and one ask rest in the end. -/
theorem reckons_run_mixed : ∃ effects last, rested.run? mixed = some (effects, last) ∧
    Reckons rested mixed effects last ∧
    effects = [.applied, .stale, .applied, .applied, .stale, .applied, .applied] ∧ last.time = 20 ∧
    last.bidLevels = [⟨.ofDecimal (units 100), .ofDecimal ((Decimal.ofParts? 6 1).getD .zero)⟩] ∧
    last.askLevels = [⟨.ofDecimal (units 103), .ofDecimal (units 3)⟩] := by
  have hrange : rested.InRange mixed := (rested.run?_isSome_iff mixed).1 (by decide +kernel)
  obtain ⟨effects, last, hrun, hreckons⟩ := (reckons_run rested).1 mixed hrange
  have hend : (rested.run? mixed).map (fun r => (r.1, r.2.time, r.2.bidLevels, r.2.askLevels)) =
      some ([.applied, .stale, .applied, .applied, .stale, .applied, .applied], 20,
        [⟨.ofDecimal (units 100), .ofDecimal ((Decimal.ofParts? 6 1).getD .zero)⟩],
        [⟨.ofDecimal (units 103), .ofDecimal (units 3)⟩]) := by decide +kernel
  rw [hrun] at hend
  simp only [Option.map_some, Option.some.injEq, Prod.mk.injEq] at hend
  exact ⟨effects, last, hrun, hreckons, hend⟩

end Book

end MarketFeed
