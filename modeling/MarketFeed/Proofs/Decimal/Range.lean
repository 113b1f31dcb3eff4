import Mathlib.Algebra.Order.Field.Basic
import Mathlib.Algebra.Order.Field.Rat
import Mathlib.Tactic.FieldSimp
import Mathlib.Tactic.Linarith
import MarketFeed.Decimal.Rounding

/-!
# Decimal.Range — when a sum is out of range

A decimal is a coefficient below 2⁹⁶ with at most 28 fraction digits, and stands for a
rational number (`Decimal.toRat`). Sums and differences are exact first and rounded once,
to the most fraction digits that fit. There is no result exactly if even without fraction
digits the coefficient is too large:

> `add?_eq_none_iff`, `sub?_eq_none_iff`: a sum or a difference is out of range exactly if
> the exact one is at least half below the limit in absolute value.

The limit is even, so the half itself rounds up to it, which is why the bound is `edge =
limit - 1/2` and is attained (`Rounding.le_halfEven_iff`). That no more fraction digits
need to be tried is `nearestFrom_eq_none_iff`: what does not fit without fraction digits
fits with none.

The module also ties decimals to their numbers: moving the point keeps the value
(`coefficient_mul_tenTo`), so does dropping trailing zeros (`toRat_normalize`), decimals
without trailing zeros are their numbers (`eq_of_toRat_eq`), and comparing decimals is
comparing numbers (`order_eq_lt_iff`). All later statements about amounts are about
rational numbers by these.
-/

namespace MarketFeed

/-- Rounding to the even neighbour reaches an even bound from half below it on. -/
theorem Rounding.le_halfEven_iff {n d bound : Nat} (hd : 0 < d) (heven : bound % 2 = 0) (hbound : 0 < bound) :
    bound ≤ halfEven n d ↔ (2 * bound - 1) * d ≤ 2 * n := by
  have hn : d * (n / d) + n % d = n := Nat.div_add_mod n d
  have hr : n % d < d := Nat.mod_lt n hd
  unfold halfEven
  generalize n / d = q at *
  generalize n % d = r at *
  subst hn
  -- a quotient that is one short of the bound is odd, so it rounds up from the half on
  rcases Nat.lt_trichotomy (q + 1) bound with hlow | hnext | hhigh
  · obtain ⟨k, rfl⟩ : ∃ k, bound = q + 2 + k := ⟨bound - q - 2, by omega⟩
    have hexpand : (2 * (q + 2 + k) - 1) * d = 2 * (d * q) + 3 * d + 2 * (k * d) := by
      rw [show 2 * (q + 2 + k) - 1 = 2 * q + 3 + 2 * k by omega, Nat.add_mul, Nat.add_mul, Nat.mul_assoc,
        Nat.mul_comm q d, Nat.mul_assoc]
    rw [hexpand]
    split <;> [skip; split] <;> omega
  · subst hnext
    have hexpand : (2 * (q + 1) - 1) * d = 2 * (d * q) + d := by
      rw [show 2 * (q + 1) - 1 = 2 * q + 1 by omega, Nat.add_mul, Nat.mul_assoc, Nat.mul_comm q d, Nat.one_mul]
    rw [hexpand]
    split <;> [skip; split] <;> omega
  · obtain ⟨k, rfl⟩ : ∃ k, q = bound + k := ⟨q - bound, by omega⟩
    obtain ⟨j, rfl⟩ : ∃ j, bound = j + 1 := ⟨bound - 1, by omega⟩
    have hexpand : (2 * (j + 1) - 1) * d = 2 * (d * j) + d := by
      rw [show 2 * (j + 1) - 1 = 2 * j + 1 by omega, Nat.add_mul, Nat.mul_assoc, Nat.mul_comm j d, Nat.one_mul]
    have hproduct : d * (j + 1 + k) = d * j + d + d * k := by rw [Nat.mul_add, Nat.mul_add, Nat.mul_one]
    rw [hexpand, hproduct]
    split <;> [skip; split] <;> omega

/-- Powers of ten grow with their exponent. -/
theorem tenTo_le_tenTo {m n : Nat} (h : m ≤ n) : tenTo m ≤ tenTo n := by
  obtain ⟨k, rfl⟩ := Nat.exists_eq_add_of_le h
  rw [tenTo_add]
  exact Nat.le_mul_of_pos_right _ (tenTo_pos k)

namespace Decimal

/-! ## Rounding -/

/-- Rounding goes by the absolute value. -/
theorem natAbs_coefficientAt (n : Int) (s t : Nat) :
    (coefficientAt n s t).natAbs = Rounding.halfEven n.natAbs (tenTo (s - t)) := by
  have hpos := tenTo_pos (s - t)
  unfold coefficientAt Rounding.signed
  rw [Int.natAbs_mul, Int.natAbs_natCast]
  by_cases hn : n = 0
  · subst hn
    simp [Rounding.halfEven, hpos]
  · rw [Int.natAbs_sign_of_ne_zero hn, Nat.one_mul]

private theorem ofParts?_eq_none_iff {c : Int} {t : Nat} (ht : t ≤ maxScale) :
    ofParts? c t = none ↔ limit ≤ c.natAbs := by
  unfold ofParts?
  split
  next h =>
    refine ⟨?_, fun hle => absurd h.1 (Nat.not_lt.2 hle)⟩
    intro hnone
    cases hnone
  next h => exact ⟨fun _ => Nat.not_lt.1 fun hlt => h ⟨hlt, ht⟩, fun _ => rfl⟩

/-- At `t` fraction digits the coefficient fits unless it rounds to the limit. -/
theorem ofParts?_coefficientAt_eq_none_iff {t : Nat} (ht : t ≤ maxScale) (n : Int) (s : Nat) :
    ofParts? (coefficientAt n s t) t = none ↔ (2 * limit - 1) * tenTo (s - t) ≤ 2 * n.natAbs := by
  rw [ofParts?_eq_none_iff ht, natAbs_coefficientAt]
  exact Rounding.le_halfEven_iff (tenTo_pos _) (by decide) (by decide)

/-- What does not fit without fraction digits fits with none. -/
theorem nearestFrom_eq_none_iff (n : Int) (s : Nat) {t : Nat} (ht : t ≤ maxScale) :
    nearestFrom n s t = none ↔ (2 * limit - 1) * tenTo s ≤ 2 * n.natAbs := by
  induction t with
  | zero => exact ofParts?_coefficientAt_eq_none_iff ht n s
  | succ t ih =>
    rw [nearestFrom, Option.or_eq_none_iff, ih (Nat.le_of_succ_le ht), ofParts?_coefficientAt_eq_none_iff ht]
    refine ⟨And.right, fun h => ⟨Nat.le_trans ?_ h, h⟩⟩
    exact Nat.mul_le_mul_left _ (tenTo_le_tenTo (Nat.sub_le s (t + 1)))

/-- From here on numbers round to the limit. -/
def edge : ℚ := limit - 1 / 2

private theorem two_mul_edge : 2 * edge = ((2 * limit - 1 : ℕ) : ℚ) := by
  norm_num [edge, limit]

/-- A number has no nearest decimal exactly if it rounds to the limit or beyond. -/
theorem nearest?_eq_none_iff (n : Int) (s : Nat) : nearest? n s = none ↔ edge ≤ |(n : ℚ) / tenTo s| := by
  have hpos : (0 : ℚ) < tenTo s := by exact_mod_cast tenTo_pos s
  have habs : |(n : ℚ)| = (n.natAbs : ℚ) := by rw [Nat.cast_natAbs, Int.cast_abs]
  unfold nearest?
  rw [nearestFrom_eq_none_iff n s (Nat.min_le_right s maxScale), abs_div, abs_of_pos hpos, habs, le_div_iff₀ hpos,
    ← Nat.cast_le (α := ℚ), Nat.cast_mul, Nat.cast_mul, ← two_mul_edge, Nat.cast_ofNat, mul_assoc]
  exact mul_le_mul_iff_right₀ two_pos

/-! ## Values -/

/-- The number that a decimal stands for. -/
def toRat (d : Decimal) : ℚ := d.coefficient / tenTo d.scale

variable {a b : Decimal}

private theorem natCast_tenTo_ne_zero_rat (n : ℕ) : (tenTo n : ℚ) ≠ 0 := by exact_mod_cast (tenTo_pos n).ne'

/-- Every decimal is in range. -/
theorem abs_toRat_lt (d : Decimal) : |d.toRat| < edge := by
  have hpos : (0 : ℚ) < tenTo d.scale := by exact_mod_cast tenTo_pos d.scale
  have hone : 1 ≤ tenTo d.scale := tenTo_pos d.scale
  have habs : |(d.coefficient : ℚ)| = (d.coefficient.natAbs : ℚ) := by rw [Nat.cast_natAbs, Int.cast_abs]
  have hnat : 2 * d.coefficient.natAbs < (2 * limit - 1) * tenTo d.scale :=
    calc 2 * d.coefficient.natAbs < 2 * limit - 1 := by have := d.coefficient_lt; omega
      _ ≤ (2 * limit - 1) * tenTo d.scale := Nat.le_mul_of_pos_right _ hone
  have hrat : (2 : ℚ) * d.coefficient.natAbs < 2 * edge * tenTo d.scale := by
    rw [two_mul_edge]
    exact_mod_cast hnat
  unfold toRat
  rw [abs_div, abs_of_pos hpos, div_lt_iff₀ hpos, habs]
  linarith

/-- What is zero stands for zero. -/
theorem toRat_of_isZero (h : a.isZero = true) : a.toRat = 0 := by
  unfold isZero at h
  unfold toRat
  rw [eq_of_beq h, Int.cast_zero, zero_div]

/-- Numbers over powers of ten are compared crosswise. -/
theorem toRat_eq_div_iff {n : ℤ} {s : ℕ} :
    a.toRat = (n : ℚ) / tenTo s ↔ a.coefficient * tenTo s = n * tenTo a.scale := by
  unfold toRat
  rw [div_eq_div_iff (natCast_tenTo_ne_zero_rat _) (natCast_tenTo_ne_zero_rat _)]
  exact_mod_cast Iff.rfl

/-- Trailing zeros do not count. -/
theorem toRat_normalize (a : Decimal) : a.normalize.toRat = a.toRat := by
  show a.normalize.toRat = a.coefficient / tenTo a.scale
  rw [toRat_eq_div_iff]
  exact strip_value a.coefficient a.scale

/-- Decimals without trailing zeros are the same if they stand for the same number. -/
theorem eq_of_toRat_eq (ha : a.Normal) (hb : b.Normal) (h : a.toRat = b.toRat) : a = b :=
  eq_of_value_eq ha hb (toRat_eq_div_iff.1 h)

/-- A decimal is above zero just when its coefficient is. -/
theorem toRat_pos_iff : 0 < a.toRat ↔ 0 < a.coefficient := by
  have hpos : (0 : ℚ) < tenTo a.scale := by exact_mod_cast tenTo_pos a.scale
  unfold toRat
  rw [div_pos_iff_of_pos_right hpos, Int.cast_pos]

/-- Comparing decimals is comparing the numbers that they stand for. -/
theorem order_eq_lt_iff : a.order b = .lt ↔ a.toRat < b.toRat := by
  have ha : (0 : ℚ) < tenTo a.scale := by exact_mod_cast tenTo_pos a.scale
  have hb : (0 : ℚ) < tenTo b.scale := by exact_mod_cast tenTo_pos b.scale
  unfold order toRat
  rw [Int.compare_eq_lt, div_lt_div_iff₀ ha hb]
  exact_mod_cast Iff.rfl

/-- A coefficient moved to more fraction digits keeps its value. -/
theorem coefficient_mul_tenTo (d : Decimal) {s : ℕ} (h : d.scale ≤ s) :
    ((d.coefficient * tenTo (s - d.scale) : ℤ) : ℚ) / tenTo s = d.toRat := by
  obtain ⟨k, rfl⟩ := Nat.exists_eq_add_of_le h
  unfold toRat
  rw [Nat.add_sub_cancel_left, tenTo_add]
  have hk := natCast_tenTo_ne_zero_rat k
  have hs := natCast_tenTo_ne_zero_rat d.scale
  push_cast
  field_simp

/-! ## Arithmetic -/

/-- There is no sum exactly if the exact one rounds to a whole number that is too large. -/
theorem add?_eq_none_iff (a b : Decimal) : a.add? b = none ↔ edge ≤ |a.toRat + b.toRat| := by
  have ha := abs_toRat_lt a
  have hb := abs_toRat_lt b
  unfold add?
  split
  next hzero =>
    rw [toRat_of_isZero hzero, zero_add]
    exact iff_of_false (Option.some_ne_none _) (not_le.2 hb)
  next =>
    split
    next hzero =>
      rw [toRat_of_isZero hzero, add_zero]
      exact iff_of_false (Option.some_ne_none _) (not_le.2 ha)
    next =>
      simp only
      rw [nearest?_eq_none_iff, Int.cast_add, add_div, coefficient_mul_tenTo a (Nat.le_max_left _ _),
        coefficient_mul_tenTo b (Nat.le_max_right _ _)]

/-- Nor a difference. -/
theorem sub?_eq_none_iff (a b : Decimal) : a.sub? b = none ↔ edge ≤ |a.toRat - b.toRat| := by
  have ha := abs_toRat_lt a
  have hb := abs_toRat_lt b
  unfold sub?
  split
  next hzero =>
    rw [toRat_of_isZero hzero, zero_sub, abs_neg]
    exact iff_of_false (Option.some_ne_none _) (not_le.2 hb)
  next =>
    split
    next hzero =>
      rw [toRat_of_isZero hzero, sub_zero]
      exact iff_of_false (Option.some_ne_none _) (not_le.2 ha)
    next =>
      simp only
      rw [nearest?_eq_none_iff, Int.cast_sub, sub_div, coefficient_mul_tenTo a (Nat.le_max_left _ _),
        coefficient_mul_tenTo b (Nat.le_max_right _ _)]

end Decimal

end MarketFeed
