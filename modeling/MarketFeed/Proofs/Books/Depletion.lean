import MarketFeed.Proofs.Books.Rewinding
import MarketFeed.Proofs.Quantities

/-!
# Books.Depletion — what a trade takes from a book

A trade acts on the level at its price on its side, and on nothing else: no level comes
into being by it, and every other level stays as it was. What rests at that level becomes
less or stays, also where the difference has to be rounded (`Quantities`). That is what
depleting means (`Depletes`), and two statements lead to it:

> `traded_others`: no trade changes any level but its own.
>
> `traded_lessens`: what rests after a trade rested before, or is what it left of its
> level.

The one exception is a size below zero, which no reading of a trade refuses: it brings
quantity to the level. When that happens is said exactly by `Raises`: the trade is in
time, something rests at its level, and what it adds is in range and not rounded away.

> `depletes_iff`: in every reachable book, a trade depletes exactly if it does not raise.

Reachable means: after any operations on an empty book. All that is used of that is that
quantities that rest are above zero (`Positive.after`); a level at zero or below would be
taken away by any trade, and one below zero would grow. The input on which the exception
shows is a trade as the venue might send it, with the size -1 (`not_depletes_brought`).
-/

namespace MarketFeed

namespace Book

variable {b : Book} {t : Trade}

/-! ## One level -/

/-- What is left of a level; a level of which nothing is left goes. -/
def remainder? (size resting : Quantity) : Option Quantity := (resting.minus? size).filter (!·.isZero)

private theorem get?_deplete? {levels left : Levels} {price : Price} {size : Quantity}
    (h : deplete? price size levels = some left) (p : Price) :
    left.get? p = if p = price then (levels.get? price).bind (remainder? size) else levels.get? p := by
  unfold deplete? at h
  split at h
  next hnone =>
    obtain rfl := Option.some.inj h
    split
    next hp => rw [hp, hnone]; rfl
    next => rfl
  next resting hresting =>
    obtain ⟨q, hq, hleft⟩ := Option.map_eq_some_iff.1 h
    rw [hresting, Option.bind_some, remainder?, hq]
    split at hleft
    next hzero =>
      subst hleft
      rw [SortedMap.get?_erase, Option.filter_some_neg (by simpa using hzero)]
    next hzero =>
      subst hleft
      rw [SortedMap.get?_insert, Option.filter_some_pos (by simpa using hzero)]

/-- A trade as an operation. -/
def Op.ofTrade (t : Trade) : Op := .trade t.side t.price t.size t.time

/-- The book after a trade; as it was if the remaining quantity is out of range. -/
def traded (b : Book) (t : Trade) : Book := (Op.ofTrade t).apply b

private theorem traded_eq (b : Book) (t : Trade) :
    b.traded t = ((b.trade? t.side t.price t.size t.time).map (·.2)).getD b := rfl

private theorem traded_of_depleted {levels : Levels} (hlate : b.time < t.time)
    (h : deplete? t.price t.size (b.side t.side) = some levels) :
    b.traded t = { b.onSide t.side (fun _ => levels) with time := t.time } := by
  rw [traded_eq, trade?, if_neg (not_le.2 hlate), h]
  rfl

/-- A trade that comes too late, or that leaves a quantity out of range, does nothing; any other acts on one side. -/
theorem traded_cases (b : Book) (t : Trade) : b.traded t = b ∨ b.time < t.time ∧
    ∃ levels, deplete? t.price t.size (b.side t.side) = some levels ∧
      b.traded t = { b.onSide t.side (fun _ => levels) with time := t.time } := by
  by_cases hlate : b.time < t.time
  · cases hlevels : deplete? t.price t.size (b.side t.side) with
    | none =>
      rw [traded_eq, trade?, if_neg (not_le.2 hlate), hlevels]
      exact Or.inl rfl
    | some levels => exact Or.inr ⟨hlate, levels, rfl, traded_of_depleted hlate hlevels⟩
  · rw [traded_eq, trade?, if_pos (not_lt.1 hlate)]
    exact Or.inl rfl

/-- What rests where after one side has been given other levels. -/
theorem quantityAt?_onSide (b : Book) (side : Side) (f : Levels → Levels) (time : Int) (s : Side) (p : Price) :
    quantityAt? { b.onSide side f with time } s p =
      if s = side then (f (b.side side)).get? p else b.quantityAt? s p := by
  have hside : Book.side { b.onSide side f with time } s = (b.onSide side f).side s := by cases s <;> rfl
  unfold quantityAt?
  rw [hside, side_onSide]
  split <;> rfl

/-- Where a level is depleted, what rests there is the remainder, and nothing else changes. -/
theorem quantityAt?_withLevels {side : Side} {price : Price} {size : Quantity} {time : Int} {levels : Levels}
    (h : deplete? price size (b.side side) = some levels) (s : Side) (p : Price) :
    quantityAt? { b.onSide side (fun _ => levels) with time } s p =
      if s = side ∧ p = price then (b.quantityAt? s p).bind (remainder? size) else b.quantityAt? s p := by
  rw [quantityAt?_onSide]
  by_cases hs : s = side
  · subst hs
    rw [if_pos rfl, get?_deplete? h]
    by_cases hp : p = price
    · rw [if_pos hp, if_pos ⟨rfl, hp⟩, hp]
      rfl
    · rw [if_neg hp, if_neg fun h => hp h.2]
      rfl
  · rw [if_neg hs, if_neg fun h => hs h.1]

/-! ## Depletion -/

/-- That a trade takes away at most, and at most at its level. -/
structure Depletes (b : Book) (t : Trade) : Prop where
  /-- A quantity that rests anywhere rested there before, and was no less. -/
  lessens : ∀ s p left, (b.traded t).quantityAt? s p = some left →
    ∃ resting, b.quantityAt? s p = some resting ∧ left.value.toRat ≤ resting.value.toRat
  others : ∀ s p, ¬ (s = t.side ∧ p = t.price) → (b.traded t).quantityAt? s p = b.quantityAt? s p

/-- That a trade brings quantity: its size is below zero, it is not too late, and something rests at its level, to which
it adds what is in range and is not rounded away. -/
def Raises (b : Book) (t : Trade) : Prop :=
  t.size.value.toRat < 0 ∧ b.time < t.time ∧
    ∃ resting left, b.quantityAt? t.side t.price = some resting ∧ resting.minus? t.size = some left ∧ left ≠ resting

/-- No trade changes any other level. -/
theorem traded_others (b : Book) (t : Trade) (s : Side) (p : Price) (h : ¬ (s = t.side ∧ p = t.price)) :
    (b.traded t).quantityAt? s p = b.quantityAt? s p := by
  rcases b.traded_cases t with hkept | ⟨-, levels, hlevels, htraded⟩
  · rw [hkept]
  · rw [htraded, quantityAt?_withLevels hlevels, if_neg h]

/-- What rests anywhere after a trade is what rested there, or what the trade has left of it. -/
theorem traded_lessens {s : Side} {p : Price} {left : Quantity} (h : (b.traded t).quantityAt? s p = some left) :
    b.quantityAt? s p = some left ∨ b.time < t.time ∧ s = t.side ∧ p = t.price ∧
      ∃ resting, b.quantityAt? s p = some resting ∧ resting.minus? t.size = some left := by
  rcases b.traded_cases t with hkept | ⟨hlate, levels, hlevels, htraded⟩
  · exact Or.inl (hkept ▸ h)
  · rw [htraded, quantityAt?_withLevels hlevels] at h
    split at h
    next hlevel =>
      obtain ⟨resting, hresting, hleft⟩ := Option.bind_eq_some_iff.1 h
      exact Or.inr ⟨hlate, hlevel.1, hlevel.2, resting, hresting, (Option.filter_eq_some_iff.1 hleft).1⟩
    next => exact Or.inl h

/-- What a trade in time finds at its level, it leaves less its size. -/
theorem quantityAt?_traded {resting left : Quantity} (hlate : b.time < t.time)
    (hresting : b.quantityAt? t.side t.price = some resting) (hleft : resting.minus? t.size = some left)
    (hsome : left.isZero = false) : (b.traded t).quantityAt? t.side t.price = some left := by
  have hlevels : deplete? t.price t.size (b.side t.side) =
      some (if left.isZero then (b.side t.side).erase t.price else (b.side t.side).insert t.price left) := by
    unfold quantityAt? at hresting
    rw [deplete?, hresting]
    show (resting.minus? t.size).map _ = _
    rw [hleft]
    rfl
  rw [traded_of_depleted hlate hlevels, quantityAt?_withLevels hlevels, if_pos ⟨rfl, rfl⟩, hresting, Option.bind_some,
    remainder?, hleft, Option.filter_some_pos (by rw [hsome]; rfl)]

/-- A level that a trade raises holds more than before. -/
theorem Raises.not_depletes (h : b.Raises t) (hb : b.Positive) : ¬ b.Depletes t := by
  intro hdepletes
  obtain ⟨hsize, hlate, resting, left, hresting, hleft, hne⟩ := h
  have hpositive := hb t.side t.price resting hresting
  have hlt : resting.value.toRat < left.value.toRat :=
    lt_of_le_of_ne (Quantity.le_minus? hleft hpositive hsize.le) fun heq => hne (Quantity.eq_of_toRat_eq heq.symm)
  have hsome : left.isZero = false :=
    Bool.eq_false_iff.2 (Quantity.not_isZero_of_toRat_pos (hpositive.trans hlt))
  obtain ⟨before, hbefore, hle⟩ := hdepletes.lessens _ _ _ (quantityAt?_traded hlate hresting hleft hsome)
  obtain rfl := Option.some.inj (hresting.symm.trans hbefore)
  exact absurd hlt (not_lt.2 hle)

private theorem depletes_of_not_raises (hb : b.Positive) (h : ¬ b.Raises t) : b.Depletes t where
  lessens := by
    intro s p left hafter
    rcases traded_lessens hafter with hkept | ⟨hlate, rfl, rfl, resting, hresting, hleft⟩
    · exact ⟨left, hkept, le_rfl⟩
    · refine ⟨resting, hresting, ?_⟩
      rcases le_or_gt 0 t.size.value.toRat with hsize | hsize
      · exact Quantity.minus?_le hleft (hb t.side t.price resting hresting).le hsize
      · by_contra hmore
        exact h ⟨hsize, hlate, resting, left, hresting, hleft, fun heq => hmore (heq ▸ le_rfl)⟩
  others := b.traded_others t

/-! ## Reachable books -/

/-- The step: every operation keeps quantities above zero. -/
theorem Positive.apply (h : b.Positive) (op : Op) : (op.apply b).Positive := by
  cases hop : op.outcome? b with
  | none =>
    have happly : op.apply b = b := by rw [Op.apply, hop]; rfl
    rwa [happly]
  | some r =>
    rw [Op.apply_of_some hop]
    cases op with
    | snapshot changes =>
      obtain rfl := Option.some.inj hop
      exact positive_snapshot b changes
    | change c =>
      obtain rfl := Option.some.inj hop
      exact h.change c
    | trade side price size time => exact h.trade? hop

/-- So does every sequence of operations. -/
theorem Positive.after (h : b.Positive) (ops : List Op) : (b.after ops).Positive := by
  induction ops generalizing b with
  | nil => exact h
  | cons op rest ih => exact ih (h.apply op)

/-- Whatever has been done to a book: a trade depletes it exactly if it does not bring quantity to it. -/
theorem depletes_iff (product : Product) (ops : List Op) (t : Trade) :
    ((empty product).after ops).Depletes t ↔ ¬ ((empty product).after ops).Raises t := by
  have hb := (positive_empty product).after ops
  exact ⟨fun hdepletes hraises => hraises.not_depletes hb hdepletes, depletes_of_not_raises hb⟩

/-- An amount without fraction digits. -/
def units (n : Int) : Decimal := (Decimal.ofParts? n 0).getD .zero

/-- A trade as it may be sent, with a size below zero. -/
def brought : Json :=
  .object [("trade_id", .string "1"), ("product_id", .string "BTC-USD"), ("price", .string "100"),
    ("size", .string "-1"), ("side", .string "BUY"), ("time", .string "1970-01-01T00:00:01Z")]

/-- It is read as a trade, and where one unit rested, two rest after it. -/
theorem not_depletes_brought : ∃ t, Decode.ofValue Trade.shape.decode brought = .ok t ∧
    ¬ (unseen.after [.snapshot [bidAt 10]]).Depletes t := by
  let t : Trade :=
    ⟨"1", ⟨"BTC-USD"⟩, .ofDecimal (units 100), .ofDecimal (units (-1)), .buy, 1000000000⟩
  have hread : Decode.ofValue Trade.shape.decode brought = .ok t := by decide +kernel
  have hsize : t.size.value.toRat < 0 := by
    rw [← not_le, Decimal.toRat_nonneg_iff]
    decide +kernel
  refine ⟨t, hread, Raises.not_depletes ⟨hsize, by decide +kernel, .ofDecimal (units 1), .ofDecimal (units 2),
    by decide +kernel, by decide +kernel, by decide +kernel⟩ ?_⟩
  exact (positive_empty ⟨"BTC-USD"⟩).after [.snapshot [bidAt 10]]

end Book

end MarketFeed
