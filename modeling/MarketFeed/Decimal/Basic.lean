import MarketFeed.Powers

/-!
# Decimal — exact amounts with a bounded coefficient

A decimal is an integer coefficient and a count of fraction digits: `coefficient / 10 ^
scale`. The coefficient stays below `2 ^ 96` in absolute value and there are at most 28
fraction digits; both bounds are part of the type, so an operation that cannot keep them
has to say so.

Trailing fraction zeros are kept (`1.50` is not `1.5`) until `normalize` strips them. An
amount below zero all of whose digits are rounded away leaves a zero with a minus sign,
which `normalize` strips too. Comparison is by value.

> `normal_normalize`: normalising leaves a decimal without trailing zeros.
>
> `eq_of_value_eq`: normal decimals of one value are one decimal.

So a normal decimal can be a key. `strip` takes one zero at a time and stops at the point,
and its lemmas say that it keeps the value and never adds a digit.
-/

namespace MarketFeed

/-- A coefficient's absolute value stays below this, the least number of more than 96 bits. -/
abbrev Decimal.limit : Nat := 79228162514264337593543950336

/-- The most fraction digits a decimal can have. -/
abbrev Decimal.maxScale : Nat := 28

/-- `coefficient / 10 ^ scale`. -/
structure Decimal where
  coefficient : Int
  scale : Nat
  /-- Whether a zero shows a minus sign. -/
  minusZero : Bool := false
  coefficient_lt : coefficient.natAbs < Decimal.limit
  scale_le : scale ≤ Decimal.maxScale
  coefficient_eq : minusZero = true → coefficient = 0 := by simp
deriving DecidableEq, Repr

namespace Decimal

/-- The decimal with this coefficient and scale, when both are within bounds. -/
def ofParts? (coefficient : Int) (scale : Nat) : Option Decimal :=
  if h : coefficient.natAbs < limit ∧ scale ≤ maxScale then
    some { coefficient, scale, coefficient_lt := h.1, scale_le := h.2 }
  else none

/-- The same digits with the point at another place, when there are not too many behind it. -/
def withScale? (d : Decimal) (scale : Nat) : Option Decimal :=
  if h : scale ≤ maxScale then some { d with scale, scale_le := h } else none

/-- Zero, without fraction digits. -/
def zero : Decimal where
  coefficient := 0
  scale := 0
  coefficient_lt := by decide
  scale_le := by decide

instance : Inhabited Decimal := ⟨zero⟩

/-- The integer `n`, when it fits. -/
def ofInt? (n : Int) : Option Decimal := ofParts? n 0

/-- Whether the value is zero, whatever the scale. -/
def isZero (d : Decimal) : Bool := d.coefficient == 0

/-- Whether the value is below zero. -/
def isNegative (d : Decimal) : Bool := d.coefficient < 0

/-- The value with the other sign; a zero has none. -/
def neg (d : Decimal) : Decimal where
  coefficient := -d.coefficient
  scale := d.scale
  coefficient_lt := by rw [Int.natAbs_neg]; exact d.coefficient_lt
  scale_le := d.scale_le

/-- Comparison by value: both sides brought to the common denominator. -/
def order (a b : Decimal) : Ordering :=
  compare (a.coefficient * tenTo b.scale) (b.coefficient * tenTo a.scale)

/-- Whether `a` is at most `b` in value. -/
def le (a b : Decimal) : Bool := (a.order b).isLE

/-! ## Trailing zeros -/

/-- Drops trailing zeros of the coefficient, one fraction digit each. -/
def strip (c : Int) : Nat → Int × Nat
  | 0 => (c, 0)
  | s + 1 => if c % 10 = 0 then strip (c / 10) s else (c, s + 1)

/-- Stripping adds no digit behind the point. -/
theorem strip_scale_le (c : Int) (s : Nat) : (strip c s).2 ≤ s := by
  induction s generalizing c with
  | zero => simp [strip]
  | succ s ih =>
    simp only [strip]
    split
    · exact Nat.le_succ_of_le (ih _)
    · exact Nat.le_refl _

/-- Stripping makes no coefficient greater. -/
theorem natAbs_strip_le (c : Int) (s : Nat) : (strip c s).1.natAbs ≤ c.natAbs := by
  induction s generalizing c with
  | zero => simp [strip]
  | succ s ih =>
    simp only [strip]
    split
    · exact Nat.le_trans (ih _) (by omega)
    · exact Nat.le_refl _

/-- Stripping keeps the value. -/
theorem strip_value (c : Int) (s : Nat) : (strip c s).1 * tenTo s = c * tenTo (strip c s).2 := by
  induction s generalizing c with
  | zero => simp [strip]
  | succ s ih =>
    simp only [strip]
    split
    next h =>
      have hc : c = c / 10 * 10 := by omega
      rw [natCast_tenTo_succ, ← Int.mul_assoc, ih, Int.mul_assoc, Int.mul_comm (tenTo _) 10,
        ← Int.mul_assoc, ← hc]
    next => rfl

/-- No fraction digits, or a last fraction digit other than zero. -/
def IsNormal (c : Int) (s : Nat) : Prop := s = 0 ∨ c % 10 ≠ 0

instance (c : Int) (s : Nat) : Decidable (IsNormal c s) := inferInstanceAs (Decidable (_ ∨ _))

/-- What is left has no trailing zero to strip. -/
theorem strip_isNormal (c : Int) (s : Nat) : IsNormal (strip c s).1 (strip c s).2 := by
  induction s generalizing c with
  | zero => exact Or.inl rfl
  | succ s ih =>
    simp only [strip]
    split
    · exact ih _
    next h => exact Or.inr h

/-- The same value with the fewest fraction digits. -/
def normalize (d : Decimal) : Decimal where
  coefficient := (strip d.coefficient d.scale).1
  scale := (strip d.coefficient d.scale).2
  coefficient_lt := Nat.lt_of_le_of_lt (natAbs_strip_le _ _) d.coefficient_lt
  scale_le := Nat.le_trans (strip_scale_le _ _) d.scale_le

/-- Whether a decimal has no trailing fraction zero, nor a zero its minus sign. -/
def Normal (d : Decimal) : Prop := IsNormal d.coefficient d.scale ∧ d.minusZero = false

instance (d : Decimal) : Decidable d.Normal := inferInstanceAs (Decidable (_ ∧ _))

/-- Normalising makes a decimal normal. -/
theorem normal_normalize (d : Decimal) : d.normalize.Normal := ⟨strip_isNormal _ _, rfl⟩

/-- Zero is normal. -/
theorem normal_zero : zero.Normal := ⟨Or.inl rfl, rfl⟩

/-! ## Equal values

Two normal decimals of one value are the same decimal, which is what lets them key a map. -/

/-- A number without a trailing zero has the fewest fraction digits among all of its value. -/
theorem scale_le_of_value {c d : Int} {s t : Nat} (hc : IsNormal d t)
    (h : c * tenTo t = d * tenTo s) : t ≤ s := by
  apply Nat.le_of_not_lt
  intro hst
  obtain ⟨k, rfl⟩ : ∃ k, t = s + (k + 1) := ⟨t - s - 1, by omega⟩
  have h' : c * tenTo (k + 1) * tenTo s = d * tenTo s := by
    rw [← h, natCast_tenTo_add s (k + 1), Int.mul_assoc, Int.mul_comm (tenTo (k + 1))]
  have hd : c * tenTo (k + 1) = d := Int.eq_of_mul_eq_mul_right (natCast_tenTo_ne_zero s) h'
  rcases hc with hc | hc
  · omega
  · apply hc
    rw [← hd, natCast_tenTo_succ, ← Int.mul_assoc]
    exact Int.mul_emod_left _ _

/-- Normal decimals of equal value are equal. -/
theorem eq_of_value_eq {a b : Decimal} (ha : a.Normal) (hb : b.Normal)
    (h : a.coefficient * tenTo b.scale = b.coefficient * tenTo a.scale) : a = b := by
  have hs : a.scale = b.scale :=
    Nat.le_antisymm (scale_le_of_value ha.1 h.symm) (scale_le_of_value hb.1 h)
  have hc : a.coefficient = b.coefficient := by
    rw [hs] at h
    exact Int.eq_of_mul_eq_mul_right (natCast_tenTo_ne_zero _) h
  have hz : a.minusZero = b.minusZero := ha.2.trans hb.2.symm
  cases a; cases b; simp_all

end Decimal

end MarketFeed
