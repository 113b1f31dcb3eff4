import MarketFeed.Proofs.Decimal.Range
import MarketFeed.Proofs.Decode.Given
import MarketFeed.Wire.Account

/-!
# Wire.Terms — the terms of an order of a snapshot

An order of a snapshot is read as the same order of an update is, and its terms are worked
out from what was read:

> `Order.snapshot_as_update`: while sizes are in range, an order of a snapshot is the
> order of an update, or fails as it does, but for its terms: it has them if the prices
> needed are set, and they are those prices and the size.

It has terms if its type has and if the prices that the type needs are set, which is told
from the value it was read from: a price is set if its field is given and not null
(`Order.Sets`). The size is what is done and what is left, `cumulative_quantity` and
`leaves_quantity`; a stop order and a stop limit order have the same terms.

The empty text is not null. Read leniently it is a price of zero like any blank one
(`Price.decode_blank`), so an order with an empty stop price has a stop price of zero, and
its terms (`Order.not_unset_emptyText`).

That the optional prices of an order are those of its value is `price_of_ofUpdate`, for
any field of that kind; the two fields are cases of it.
-/

namespace MarketFeed

open Decode

/-- A blank text is a price of zero. -/
theorem Price.decode_blank {s : String} (h : Text.trim s.toList = []) :
    ofValue Price.decode (.string s) = .ok .zero := by
  have hread : Decimal.read? s = some .zero := by
    unfold Decimal.read? Decimal.readChars?
    rw [h]
  simp only [ofValue, Json.Draft.ofValue, Price.decode, decimal, hread]
  rfl

namespace Order

/-! ## Prices -/

/-- What a value gives for a field of an order. -/
def given? (v : Json) (name : String) : Option Json := v.given? shape.fields.names name

/-- That a value sets a price. -/
def Sets (v : Json) (name : String) : Prop := ∃ w, given? v name = some w ∧ w ≠ .null

/-- That a value sets a price to this one. -/
def SetsTo (v : Json) (name : String) (p : Price) : Prop :=
  ∃ w, given? v name = some w ∧ w ≠ .null ∧ ofValue Price.decode w = .ok p

variable {v : Json} {o : Order} {name : String}

/-- An optional price is there if it is set, and is then the one it is set to. -/
theorem optionalPrice_of_given {p? : Option Price}
    (h : match given? v name with
      | none => (Wire.optionalPrice name).absent = some p? ∨ (Wire.optionalPrice name).short = some p?
      | some w => ofValue (Wire.optionalPrice name).decode w = .ok p?) :
    (p?.isSome = true ↔ Sets v name) ∧ ∀ p, p? = some p → SetsTo v name p := by
  unfold Sets SetsTo
  cases hgiven : given? v name with
  | none =>
    have hnone : p? = none := by
      rw [hgiven] at h
      rcases h with habsent | hshort
      · exact (Option.some.inj habsent).symm
      · exact (Option.some.inj hshort).symm
    subst hnone
    simp
  | some w =>
    rw [hgiven] at h
    by_cases hnull : w = .null
    · subst hnull
      obtain rfl := Except.ok.inj h
      simp
    · have hread : (ofValue Price.decode w).map some = .ok p? := by
        cases w with
        | null => exact absurd rfl hnull
        | _ => exact h
      obtain ⟨p, hp, rfl⟩ := exists_of_map_eq_ok hread
      refine ⟨iff_of_true rfl ⟨w, rfl, hnull⟩, ?_⟩
      intro q hq
      obtain rfl := Option.some.inj hq
      exact ⟨w, rfl, hnull, hp⟩

/-- An optional price of an order that was read is there if its field sets one. -/
theorem price_of_ofUpdate (price : Order → Option Price) {get : Row shape.types → Option Price}
    {slot : Slots shape.types → Option (Option Price)} (hat : shape.fields.At (Wire.optionalPrice name) get slot)
    (hprice : ∀ row, price (shape.make row) = get row) (h : ofUpdate v = .ok o) :
    ((price o).isSome = true ↔ Sets v name) ∧ ∀ p, price o = some p → SetsTo v name p := by
  obtain ⟨row, rfl, hgiven⟩ := shape.of_ofValue hat (by decide) h
  rw [hprice]
  exact optionalPrice_of_given hgiven

private theorem limitPrice_of_ofUpdate (h : ofUpdate v = .ok o) :
    (o.limitPrice.isSome = true ↔ Sets v "limit_price") ∧ ∀ p, o.limitPrice = some p → SetsTo v "limit_price" p :=
  price_of_ofUpdate limitPrice
    (.later <| .later <| .later <| .later <| .later <| .later <| .later <| .later <| .later <| .later <| .later <|
      .later <| .later <| .later <| .later <| .later <| .later .here) (fun _ => rfl) h

private theorem stopPrice_of_ofUpdate (h : ofUpdate v = .ok o) :
    (o.stopPrice.isSome = true ↔ Sets v "stop_price") ∧ ∀ p, o.stopPrice = some p → SetsTo v "stop_price" p :=
  price_of_ofUpdate stopPrice
    (.later <| .later <| .later <| .later <| .later <| .later <| .later <| .later <| .later <| .later <| .later <|
      .later <| .later <| .later <| .later <| .later <| .later <| .later .here) (fun _ => rfl) h

/-! ## Terms -/

/-- That the type of an order has terms, and the prices they need are set. -/
def Priced (v : Json) (o : Order) : Prop :=
  o.type = .market ∨
  (o.type = .limit ∧ Sets v "limit_price") ∨
  ((o.type = .stop ∨ o.type = .stopLimit) ∧ Sets v "limit_price" ∧ Sets v "stop_price")

/-- The size of an order: what is done and what is left. -/
def IsSize (o : Order) (q : Quantity) : Prop :=
  ∃ total, Decimal.add? o.cumulativeQuantity o.leavesQuantity = some total ∧ q = .ofDecimal total

/-- That terms are those of the order, with the prices that the value sets. -/
def Carries (v : Json) (o : Order) : OrderTerms → Prop
  | .market q => o.type = .market ∧ o.IsSize q
  | .limit t q p postOnly =>
    o.type = .limit ∧ o.IsSize q ∧ SetsTo v "limit_price" p ∧ t = o.timeInForce ∧ postOnly = o.postOnly
  | .stopLimit t q p s =>
    (o.type = .stop ∨ o.type = .stopLimit) ∧ o.IsSize q ∧ SetsTo v "limit_price" p ∧ SetsTo v "stop_price" s ∧
      t = o.timeInForce

/-- An order that was read has terms if its prices are set. -/
theorem isSome_termsFor_iff (h : ofUpdate v = .ok o) (size : Quantity) :
    (o.termsFor size).isSome = true ↔ Priced v o := by
  unfold Priced termsFor
  rw [← (limitPrice_of_ofUpdate h).1, ← (stopPrice_of_ofUpdate h).1]
  cases o.type <;> cases o.limitPrice <;> cases o.stopPrice <;> simp

/-- They are of the order's type, with the prices that were set. -/
theorem carries_of_termsFor (h : ofUpdate v = .ok o) {size : Quantity} (hsize : o.IsSize size) {terms : OrderTerms}
    (hterms : o.termsFor size = some terms) : Carries v o terms := by
  have hlimit := (limitPrice_of_ofUpdate h).2
  have hstop := (stopPrice_of_ofUpdate h).2
  have hstopLimit (htype : o.type = .stop ∨ o.type = .stopLimit) (hterms : (o.limitPrice.bind fun p =>
      o.stopPrice.map fun s => OrderTerms.stopLimit o.timeInForce size p s) = some terms) : Carries v o terms := by
    obtain ⟨p, hp, hmore⟩ := Option.bind_eq_some_iff.1 hterms
    obtain ⟨s, hs, rfl⟩ := Option.map_eq_some_iff.1 hmore
    exact ⟨htype, hsize, hlimit p hp, hstop s hs, rfl⟩
  unfold termsFor at hterms
  split at hterms
  next htype =>
    obtain rfl := Option.some.inj hterms
    exact ⟨htype, hsize⟩
  next htype =>
    obtain ⟨p, hp, rfl⟩ := Option.map_eq_some_iff.1 hterms
    exact ⟨htype, hsize, hlimit p hp, rfl, rfl⟩
  next htype => exact hstopLimit (.inl htype) hterms
  next htype => exact hstopLimit (.inr htype) hterms
  next => cases hterms

/-- While sizes are in range, an order of a snapshot is the order of an update, or fails as it does, but for its terms:
it has them if the prices needed are set, and they are those prices and the size. Blank texts set a price to zero. -/
theorem snapshot_as_update (v : Json)
    (hfits : ∀ o, ofUpdate v = .ok o → |o.cumulativeQuantity.toRat + o.leavesQuantity.toRat| < Decimal.edge) :
    ((∃ o, ofSnapshot v = .ok o) ↔ ∃ o, ofUpdate v = .ok o) ∧
    (∀ failure, ofUpdate v = .error failure → ofSnapshot v = .error (.decode failure)) ∧
    (∀ o, ofUpdate v = .ok o → ∃ terms, ofSnapshot v = .ok { o with terms := terms } ∧
      (terms.isSome = true ↔ Priced v o) ∧ ∀ t, terms = some t → Carries v o t) ∧
    ∀ name s, given? v name = some (.string s) → Text.trim s.toList = [] → SetsTo v name .zero := by
  have hfailed (failure : Failure) (h : ofUpdate v = .error failure) : ofSnapshot v = .error (.decode failure) := by
    unfold ofSnapshot
    rw [show ofValue shape.decode v = .error failure from h]
  -- the sum is made before the type is looked at, so it has to be in range for every order
  have hread (o : Order) (h : ofUpdate v = .ok o) : ∃ terms, ofSnapshot v = .ok { o with terms := terms } ∧
      (terms.isSome = true ↔ Priced v o) ∧ ∀ t, terms = some t → Carries v o t := by
    cases hsum : Decimal.add? o.cumulativeQuantity o.leavesQuantity with
    | none => exact absurd ((Decimal.add?_eq_none_iff _ _).1 hsum) (not_le.2 (hfits o h))
    | some total =>
      have hsize : o.baseSize? = some (.ofDecimal total) := congrArg (Option.map Quantity.ofDecimal) hsum
      have hcarries (t : OrderTerms) (ht : o.termsFor (.ofDecimal total) = some t) : Carries v o t :=
        carries_of_termsFor h ⟨total, hsum, rfl⟩ ht
      refine ⟨o.termsFor (.ofDecimal total), ?_, isSome_termsFor_iff h _, hcarries⟩
      unfold ofSnapshot
      rw [show ofValue shape.decode v = .ok o from h]
      simp only
      rw [hsize]
  refine ⟨?_, hfailed, hread, ?_⟩
  · cases hv : ofUpdate v with
    | error failure => simp [hfailed failure hv]
    | ok o =>
      obtain ⟨terms, hterms, -⟩ := hread o hv
      simp [hterms]
  · intro name s hgiven hblank
    exact ⟨.string s, hgiven, Json.noConfusion, Price.decode_blank hblank⟩

/-- A stop order of one unit, a quarter of it done, with the given stop price. -/
def stopAt (price : String) : Json :=
  .object [("order_id", .string "o-1"), ("product_id", .string "BTC-USD"), ("order_side", .string "BUY"),
    ("order_type", .string "STOP"), ("cumulative_quantity", .string "0.25"), ("leaves_quantity", .string "0.75"),
    ("limit_price", .string "20000"), ("stop_price", .string price)]

private theorem fits_of_all (h : (ofUpdate v).toOption.all (fun o =>
      (Decimal.add? o.cumulativeQuantity o.leavesQuantity).isSome) = true) (ho : ofUpdate v = .ok o) :
    |o.cumulativeQuantity.toRat + o.leavesQuantity.toRat| < Decimal.edge := by
  rw [ho] at h
  refine lt_of_not_ge fun hover => ?_
  rw [← Decimal.add?_eq_none_iff] at hover
  simp [Except.toOption, hover] at h

/-- A stop order with its stop price, and the same one with an empty text. -/
theorem snapshot_as_update_stop :
    (∀ o, ofUpdate (stopAt "19999") = .ok o →
      |o.cumulativeQuantity.toRat + o.leavesQuantity.toRat| < Decimal.edge) ∧
    ∃ o t, ofSnapshot (stopAt "19999") = .ok o ∧ o.terms = some t ∧ Carries (stopAt "19999") o t := by
  have hfits (o : Order) : ofUpdate (stopAt "19999") = .ok o →
      |o.cumulativeQuantity.toRat + o.leavesQuantity.toRat| < Decimal.edge := fits_of_all (by decide +kernel)
  obtain ⟨-, -, hread, -⟩ := snapshot_as_update (stopAt "19999") hfits
  have htypes : (ofUpdate (stopAt "19999")).toOption.map (·.type) = some .stop := by decide +kernel
  obtain ⟨o, ho⟩ : ∃ o, ofUpdate (stopAt "19999") = .ok o := by
    cases hv : ofUpdate (stopAt "19999") with
    | error failure =>
      rw [hv] at htypes
      cases htypes
    | ok o => exact ⟨o, rfl⟩
  rw [ho] at htypes
  obtain ⟨terms, hsnapshot, hsome, hcarries⟩ := hread o ho
  have hpriced : Priced (stopAt "19999") o := .inr <| .inr ⟨.inl (Option.some.inj htypes),
    ⟨.string "20000", rfl, Json.noConfusion⟩, ⟨.string "19999", rfl, Json.noConfusion⟩⟩
  obtain ⟨t, ht⟩ := Option.isSome_iff_exists.1 (hsome.2 hpriced)
  exact ⟨hfits, _, t, hsnapshot, ht, hcarries t ht⟩

/-- That a price is set, and not to the empty text. -/
def Fills (v : Json) (name : String) : Prop := ∃ w, given? v name = some w ∧ w ≠ .null ∧ w ≠ .string ""

/-- A stop price of the empty text counts as one that is set. -/
theorem not_unset_emptyText : ¬ ∀ v : Json,
    (∀ o, ofUpdate v = .ok o → |o.cumulativeQuantity.toRat + o.leavesQuantity.toRat| < Decimal.edge) →
    ∀ o, ofSnapshot v = .ok o →
      (o.terms.isSome = true ↔ o.type = .market ∨ (o.type = .limit ∧ Fills v "limit_price") ∨
        ((o.type = .stop ∨ o.type = .stopLimit) ∧ Fills v "limit_price" ∧ Fills v "stop_price")) := by
  intro h
  have hfound : (ofSnapshot (stopAt "")).toOption.map (fun o => (o.type, o.terms.isSome)) = some (.stop, true) := by
    decide +kernel
  cases hv : ofSnapshot (stopAt "") with
  | error failure =>
    rw [hv] at hfound
    cases hfound
  | ok o =>
    rw [hv] at hfound
    obtain ⟨htype, hterms⟩ := Prod.mk.inj (Option.some.inj hfound)
    rcases (h (stopAt "") (fun o => fits_of_all (by decide +kernel)) o hv).1 hterms with hmarket | ⟨hlimit, -⟩ |
      ⟨-, -, w, hw, -, hfilled⟩
    · rw [htype] at hmarket
      cases hmarket
    · rw [htype] at hlimit
      cases hlimit
    · exact hfilled (Option.some.inj hw).symm

end Order

end MarketFeed
