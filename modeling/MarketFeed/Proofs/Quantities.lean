import MarketFeed.Amount
import MarketFeed.Proofs.Decimal.Monotone

/-!
# Quantities — taking one quantity from another

What is left of a quantity is the difference, rounded once, and nothing if there was no
more than what is taken away (`minus?_cases`). The two may be written with up to 28
fraction digits each, and on their common denominator they may be far beyond the limit of
a coefficient; only the difference has to fit, and it is the difference that is rounded.

Two properties of rounding carry the proofs, both from `Decimal.Monotone`: it does not
pass a decimal, so what is left is never more than there was, and it rounds no difference
of decimals to zero, so nothing is left exactly if there was no more. The result is about
quantities that are read from a text, which are never below zero:

> `remains_of_read`: a quantity that was read can be taken from any other without getting
> out of range, and what is left is as expected (`Remains`): not below zero, not more than
> there was, zero exactly if there was no more, without trailing zeros, and exact wherever
> some decimal is the exact difference.

Getting out of range is a result of its own, since a trade may carry a size below zero: it
happens only then (`minus?_eq_none_iff`). What a trade does to the level of a book is
derived from the same lemmas in `Books.Depletion`.
-/

namespace MarketFeed

namespace Quantity

variable {a b left q : Quantity}

/-! ## Values -/

/-- A quantity has no trailing zeros, so its value determines it. -/
theorem eq_of_toRat_eq (h : a.value.toRat = b.value.toRat) : a = b := by
  have hvalue := Decimal.eq_of_toRat_eq a.normal b.normal h
  cases a
  cases b
  cases hvalue
  rfl

/-- The least quantity is zero. -/
theorem toRat_zero : zero.value.toRat = 0 := Decimal.toRat_of_isZero rfl

/-- Making a quantity of a decimal keeps its value. -/
theorem toRat_ofDecimal (d : Decimal) : (ofDecimal d).value.toRat = d.toRat := d.toRat_normalize

/-- Empty is what is not above zero. -/
theorem isEmpty_iff : q.isEmpty = true ↔ ¬ 0 < q.value.toRat := by
  rw [Decimal.toRat_pos_iff, not_lt]
  exact decide_eq_true_iff

/-- A quantity that is not empty is above zero. -/
theorem toRat_pos_of_not_isEmpty (h : ¬ q.isEmpty = true) : 0 < q.value.toRat :=
  not_not.1 (mt isEmpty_iff.2 h)

/-- What is above zero is not zero. -/
theorem not_isZero_of_toRat_pos (h : 0 < q.value.toRat) : ¬ q.isZero = true :=
  fun hzero => h.ne' (Decimal.toRat_of_isZero hzero)

/-! ## What is left -/

/-- Either there was no more than what is taken away, and nothing is left, or there was more, and the rounded difference
is left, which is not rounded away. -/
theorem minus?_cases (h : a.minus? b = some left) : ∃ r, Decimal.sub? a.value b.value = some r ∧
    (a.value.toRat ≤ b.value.toRat ∧ left = zero ∨
      b.value.toRat < a.value.toRat ∧ 0 < r.toRat ∧ left = ofDecimal r) := by
  obtain ⟨r, hr, hleft⟩ := Option.map_eq_some_iff.1 h
  have hpos : 0 < r.toRat ↔ b.value.toRat < a.value.toRat := Decimal.sub?_pos_iff hr
  refine ⟨r, hr, ?_⟩
  split at hleft
  next hnothing =>
    have hsign : ¬ 0 < r.toRat := mt Decimal.toRat_pos_iff.1 (not_lt.2 hnothing)
    exact Or.inl ⟨not_lt.1 (mt hpos.2 hsign), hleft.symm⟩
  next hsome =>
    have hsign : 0 < r.toRat := Decimal.toRat_pos_iff.2 (not_le.1 hsome)
    exact Or.inr ⟨hpos.1 hsign, hsign, hleft.symm⟩

/-- What is left of a quantity is nothing, or above zero. -/
theorem toRat_pos_of_minus? (h : a.minus? b = some left) (hleft : ¬ left.isZero = true) : 0 < left.value.toRat := by
  obtain ⟨r, -, ⟨-, rfl⟩ | ⟨-, hr, rfl⟩⟩ := minus?_cases h
  · exact absurd rfl hleft
  · rw [toRat_ofDecimal]
    exact hr

private theorem isZero_minus?_iff (h : a.minus? b = some left) :
    left.isZero = true ↔ a.value.toRat ≤ b.value.toRat := by
  obtain ⟨r, -, ⟨hle, rfl⟩ | ⟨hlt, hr, rfl⟩⟩ := minus?_cases h
  · exact iff_of_true rfl hle
  · exact iff_of_false (not_isZero_of_toRat_pos (by rwa [toRat_ofDecimal])) (not_le.2 hlt)

/-- Taking something away leaves no more than there was. -/
theorem minus?_le (h : a.minus? b = some left) (ha : 0 ≤ a.value.toRat) (hb : 0 ≤ b.value.toRat) :
    left.value.toRat ≤ a.value.toRat := by
  obtain ⟨r, hr, ⟨-, rfl⟩ | ⟨-, -, rfl⟩⟩ := minus?_cases h
  · rw [toRat_zero]
    exact ha
  · rw [toRat_ofDecimal]
    exact Decimal.sub?_le hr ha hb

/-- Taking less than nothing away leaves no less than there was. -/
theorem le_minus? (h : a.minus? b = some left) (ha : 0 < a.value.toRat) (hb : b.value.toRat ≤ 0) :
    a.value.toRat ≤ left.value.toRat := by
  obtain ⟨r, hr, ⟨hle, -⟩ | ⟨-, -, rfl⟩⟩ := minus?_cases h
  · linarith
  · rw [toRat_ofDecimal]
    exact Decimal.le_sub? hr ha.le hb

/-- A difference that is a decimal is what is left, without its trailing zeros. -/
theorem eq_of_minus? {d : Decimal} (h : a.minus? b = some left) (hlt : b.value.toRat < a.value.toRat)
    (hd : d.toRat = a.value.toRat - b.value.toRat) : left = ofDecimal d := by
  obtain ⟨r, hr, ⟨hle, -⟩ | ⟨-, -, rfl⟩⟩ := minus?_cases h
  · exact absurd hlt (not_lt.2 hle)
  · apply eq_of_toRat_eq
    rw [toRat_ofDecimal, toRat_ofDecimal]
    exact Decimal.toRat_of_sub? hr hlt.le hd

/-- Taking away from a quantity gets out of range only if what is taken away is below zero. -/
theorem minus?_eq_none_iff (ha : 0 ≤ a.value.toRat) :
    a.minus? b = none ↔ b.value.toRat < 0 ∧ Decimal.edge ≤ a.value.toRat - b.value.toRat := by
  have haedge := (abs_lt.1 (Decimal.abs_toRat_lt a.value)).2
  have hbedge := (abs_lt.1 (Decimal.abs_toRat_lt b.value)).2
  unfold minus?
  rw [Option.map_eq_none_iff, Decimal.sub?_eq_none_iff, le_abs]
  constructor
  · rintro (hover | hunder)
    · exact ⟨by linarith, hover⟩
    · linarith
  · exact fun h => Or.inl h.2

/-! ## Quantities that are read -/

/-- No text is read as a quantity below zero. -/
theorem toRat_nonneg_of_read {s : String} (h : read s = .ok a) : 0 ≤ a.value.toRat := by
  unfold read at h
  split at h
  next => cases h
  next d _ =>
    split at h
    next => cases h
    next hsign =>
      obtain rfl := Except.ok.inj h
      rw [toRat_ofDecimal, Decimal.toRat_nonneg_iff, ← not_lt]
      exact fun hneg => hsign (decide_eq_true hneg)

/-- That what is left of a quantity is what can be expected when another is taken away. -/
structure Remains (a b left : Quantity) : Prop where
  nonneg : 0 ≤ left.value.toRat
  le : left.value.toRat ≤ a.value.toRat
  /-- Something is left if there was any more than what is taken away, however little. -/
  isZero_iff : left.isZero = true ↔ a.value.toRat ≤ b.value.toRat
  normal : left.value.Normal
  /-- Where there is more and some decimal is the exact difference, that is left. -/
  unrounded : ∀ d : Decimal, b.value.toRat < a.value.toRat → d.toRat = a.value.toRat - b.value.toRat → left = ofDecimal d

/-- Whenever something is left of two quantities that are not below zero, it is as expected. -/
theorem remains_of_minus? (h : a.minus? b = some left) (ha : 0 ≤ a.value.toRat) (hb : 0 ≤ b.value.toRat) :
    a.Remains b left where
  nonneg := by
    by_cases hzero : left.isZero = true
    · exact (Decimal.toRat_of_isZero hzero).ge
    · exact (toRat_pos_of_minus? h hzero).le
  le := minus?_le h ha hb
  isZero_iff := isZero_minus?_iff h
  normal := left.normal
  unrounded := fun _ hlt hd => eq_of_minus? h hlt hd

/-- A quantity that was read can be taken from any other, without getting out of range, and what is left is as expected,
however many digits the two have. -/
theorem remains_of_read {s t : String} (ha : read s = .ok a) (hb : read t = .ok b) :
    ∃ left, a.minus? b = some left ∧ a.Remains b left := by
  have hnonneg := toRat_nonneg_of_read ha
  have hnonneg' := toRat_nonneg_of_read hb
  cases hleft : a.minus? b with
  | none => exact absurd ((minus?_eq_none_iff hnonneg).1 hleft).1 (not_lt.2 hnonneg')
  | some left => exact ⟨left, rfl, remains_of_minus? hleft hnonneg hnonneg'⟩

/-- Eight units with the fraction digits of the other are more than a coefficient holds; the difference is not. -/
theorem remains_of_read_wide : ∃ a b left, read "8" = .ok a ∧ read "7.9228162514264337593543950335" = .ok b ∧
    a.minus? b = some left ∧ a.Remains b left ∧ left.render = "0.0771837485735662406456049665" := by
  let a := ofDecimal ⟨8, 0, false, by decide, by decide, by simp⟩
  let b := ofDecimal ⟨79228162514264337593543950335, 28, false, by decide, by decide, by simp⟩
  let d : Decimal := ⟨771837485735662406456049665, 28, false, by decide, by decide, by simp⟩
  have ha : read "8" = .ok a := by decide +kernel
  have hb : read "7.9228162514264337593543950335" = .ok b := by decide +kernel
  have hlt : b.value.toRat < a.value.toRat := Decimal.order_eq_lt_iff.1 (by decide +kernel)
  have hd : d.toRat = a.value.toRat - b.value.toRat := by decide +kernel
  obtain ⟨left, hleft, hremains⟩ := remains_of_read ha hb
  obtain rfl := hremains.unrounded d hlt hd
  exact ⟨a, b, _, ha, hb, hleft, hremains, by decide +kernel⟩

/-- At the limit the least quantity there is does not round it up, and is not taken for nothing either. -/
example : ∃ a b, read "79228162514264337593543950335" = .ok a ∧ read "0.0000000000000000000000000001" = .ok b ∧
    a.minus? b = some a :=
  ⟨ofDecimal ⟨79228162514264337593543950335, 0, false, by decide, by decide, by simp⟩,
    ofDecimal ⟨1, 28, false, by decide, by decide, by simp⟩, by decide +kernel⟩

end Quantity

end MarketFeed
