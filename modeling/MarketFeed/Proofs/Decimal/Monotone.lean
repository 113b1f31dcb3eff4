import MarketFeed.Proofs.Decimal.Range

/-!
# Decimal.Monotone — rounding does not pass a decimal

Rounding looks for the most fraction digits that fit. With as many digits as a given
decimal has, an exact number on one side of it rounds to the same side, or to the decimal
itself; and fewer digits are only taken where the exact number is too large for more. So
rounding keeps the order to every decimal that is not below zero:

> `nearest?_le`, `le_nearest?`: a number that is at most, or at least, a decimal is
> rounded to one that is.

The second needs an argument about what is lost: where one fraction digit more does not
fit, a tenth of the limit is left in the coefficient (`tenth_le_coefficientAt`), so the
result has enough digits to stay on its side of any decimal with more of them.

Differences are rounded once, from the exact difference (`sub?_cases`), so what holds of
rounding holds of them:

> `sub?_le`, `le_sub?`: taking away what is not below zero leaves no more, and taking away
> what is not above zero leaves no less.
>
> `sub?_pos_iff`: the difference of two different decimals is not rounded away, and keeps
> its sign.
>
> `toRat_of_sub?`: a difference that is a decimal is exact.

The last two take as the decimal to compare with the least one of the same digits, and the
exact difference itself. Quantities are taken from each other by this (`Quantities`).
-/

namespace MarketFeed

namespace Rounding

private theorem halfEven_le {n d bound : Nat} (hd : 0 < d) (h : n ≤ bound * d) : halfEven n d ≤ bound := by
  have hn : d * (n / d) + n % d = n := Nat.div_add_mod n d
  have hq : n / d ≤ bound := Nat.div_le_of_le_mul (Nat.mul_comm bound d ▸ h)
  unfold halfEven
  rcases Nat.lt_or_ge (n / d) bound with hlow | hhigh
  · split <;> [skip; split] <;> omega
  · -- at the bound itself nothing is left to round up
    have heq : n / d = bound := Nat.le_antisymm hq hhigh
    rw [heq, Nat.mul_comm d bound] at hn
    have hrest : n % d = 0 := by omega
    rw [hrest, if_pos (by omega)]
    exact hq

private theorem le_halfEven {n d bound : Nat} (hd : 0 < d) (h : bound * d ≤ n) : bound ≤ halfEven n d := by
  have hq : bound ≤ n / d := (Nat.le_div_iff_mul_le hd).2 h
  unfold halfEven
  split <;> [skip; split] <;> omega

end Rounding

namespace Decimal

variable {n : ℤ} {m s t u : ℕ} {a b d r : Decimal}

/-! ## The digits that are kept -/

/-- With `t` fraction digits, what is at most a number of them rounds to at most that number. -/
theorem coefficientAt_le {c : ℕ} (h : n ≤ c * tenTo (s - t)) : coefficientAt n s t ≤ c := by
  unfold coefficientAt Rounding.signed
  rcases le_or_gt n 0 with hn | hn
  · have hsign := Int.sign_nonpos_iff.2 hn
    nlinarith
  · obtain ⟨m, rfl⟩ := Int.eq_ofNat_of_zero_le hn.le
    rw [Int.natAbs_natCast, Int.sign_eq_one_of_pos hn, one_mul]
    exact_mod_cast Rounding.halfEven_le (tenTo_pos _) (by exact_mod_cast h)

private theorem le_coefficientAt {c : ℕ} (h : c * tenTo (s - t) ≤ n) : c ≤ coefficientAt n s t := by
  unfold coefficientAt Rounding.signed
  obtain ⟨m, rfl⟩ := Int.eq_ofNat_of_zero_le (le_trans (by positivity) h)
  have hle : c ≤ Rounding.halfEven m (tenTo (s - t)) := Rounding.le_halfEven (tenTo_pos _) (by exact_mod_cast h)
  rcases Nat.eq_zero_or_pos m with rfl | hm
  · have hzero : Rounding.halfEven 0 (tenTo (s - t)) = 0 := by simp [Rounding.halfEven, tenTo_pos]
    simpa [hzero] using hle
  · rw [Int.natAbs_natCast, Int.sign_eq_one_of_pos (by exact_mod_cast hm), one_mul]
    exact_mod_cast hle

/-- A decimal is made of the parts that it is given. -/
theorem ofParts?_eq_some {c : ℤ} (h : ofParts? c t = some r) : r.coefficient = c ∧ r.scale = t := by
  unfold ofParts? at h
  split at h
  next =>
    obtain rfl := Option.some.inj h
    exact ⟨rfl, rfl⟩
  next => cases h

/-- The most fraction digits that fit are taken: with any more the coefficient is too large. -/
theorem exists_of_nearestFrom (h : nearestFrom n s t = some r) : ∃ u ≤ t, r.scale = u ∧
    r.coefficient = coefficientAt n s u ∧ ∀ v, u < v → v ≤ t → ofParts? (coefficientAt n s v) v = none := by
  induction t with
  | zero =>
    obtain ⟨hc, hs⟩ := ofParts?_eq_some h
    exact ⟨0, le_rfl, hs, hc, fun v hv hle => absurd hle (Nat.not_le.2 hv)⟩
  | succ t ih =>
    rw [nearestFrom] at h
    cases hfits : ofParts? (coefficientAt n s (t + 1)) (t + 1) with
    | some r' =>
      rw [hfits, Option.some_or] at h
      obtain rfl := Option.some.inj h
      obtain ⟨hc, hs⟩ := ofParts?_eq_some hfits
      exact ⟨t + 1, le_rfl, hs, hc, fun v hv hle => absurd hle (Nat.not_le.2 hv)⟩
    | none =>
      rw [hfits, Option.none_or] at h
      obtain ⟨u, hu, hs, hc, hmore⟩ := ih h
      refine ⟨u, Nat.le_succ_of_le hu, hs, hc, ?_⟩
      intro v hv hle
      rcases Nat.lt_or_eq_of_le hle with hlt | rfl
      · exact hmore v hv (Nat.le_of_lt_succ hlt)
      · exact hfits

/-! ## The order to a decimal -/

/-- Numbers with `s` fraction digits are compared with a decimal by moving its point. -/
theorem div_le_toRat_iff (h : d.scale ≤ s) : (n : ℚ) / tenTo s ≤ d.toRat ↔ n ≤ d.coefficient * tenTo (s - d.scale) := by
  have hpos : (0 : ℚ) < tenTo s := by exact_mod_cast tenTo_pos s
  rw [← coefficient_mul_tenTo d h, div_le_div_iff_of_pos_right hpos, Int.cast_le]

private theorem toRat_le_div_iff (h : d.scale ≤ s) :
    d.toRat ≤ (n : ℚ) / tenTo s ↔ d.coefficient * tenTo (s - d.scale) ≤ n := by
  have hpos : (0 : ℚ) < tenTo s := by exact_mod_cast tenTo_pos s
  rw [← coefficient_mul_tenTo d h, div_le_div_iff_of_pos_right hpos, Int.cast_le]

/-- A decimal is not below zero just when its coefficient is not. -/
theorem toRat_nonneg_iff : 0 ≤ d.toRat ↔ 0 ≤ d.coefficient := by
  have hpos : (0 : ℚ) < tenTo d.scale := by exact_mod_cast tenTo_pos d.scale
  unfold toRat
  rw [le_div_iff₀ hpos, zero_mul, Int.cast_nonneg_iff]

/-- A number that is at most a decimal is rounded to one that is at most the decimal. -/
theorem nearest?_le (h : nearest? n s = some r) (hs : d.scale ≤ s) (hd : 0 ≤ d.toRat)
    (hle : (n : ℚ) / tenTo s ≤ d.toRat) : r.toRat ≤ d.toRat := by
  obtain ⟨c, hc⟩ := Int.eq_ofNat_of_zero_le (toRat_nonneg_iff.1 hd)
  obtain ⟨u, hu, rfl, hcoefficient, hmore⟩ := exists_of_nearestFrom h
  rw [div_le_toRat_iff hs, hc] at hle
  rcases Nat.lt_or_ge r.scale d.scale with hfew | hmany
  · -- a number above zero would have fitted with the digits of the decimal
    have hover := hmore d.scale hfew (Nat.le_min.2 ⟨hs, d.scale_le⟩)
    rw [ofParts?_coefficientAt_eq_none_iff d.scale_le] at hover
    have hclt : c < limit := by have := d.coefficient_lt; omega
    have hn : n ≤ 0 := by
      by_contra hpos
      obtain ⟨m, rfl⟩ := Int.eq_ofNat_of_zero_le (not_le.1 hpos).le
      have hm : m ≤ c * tenTo (s - d.scale) := by exact_mod_cast hle
      have hstep : (c + 1) * tenTo (s - d.scale) ≤ limit * tenTo (s - d.scale) := Nat.mul_le_mul_right _ hclt
      have hunit := tenTo_pos (s - d.scale)
      rw [Int.natAbs_natCast, Nat.sub_mul, one_mul, mul_assoc] at hover
      rw [Nat.add_mul, one_mul] at hstep
      omega
    have hr : r.coefficient ≤ 0 := hcoefficient ▸ mod_cast coefficientAt_le (c := 0) (by simpa using hn)
    exact le_trans (not_lt.1 fun hpos => absurd (toRat_pos_iff.1 hpos) (not_lt.2 hr)) hd
  · refine (div_le_toRat_iff hmany).2 ?_
    rw [hcoefficient, hc]
    refine mod_cast coefficientAt_le (c := c * tenTo (r.scale - d.scale)) ?_
    push_cast
    rwa [mul_assoc, ← natCast_tenTo_add,
      show r.scale - d.scale + (s - r.scale) = s - d.scale by have := Nat.min_le_left s maxScale; omega]

/-- A tenth of the limit, rounded up. -/
def tenth : ℕ := 7922816251426433759354395034

/-- What is too large with one fraction digit more has a tenth of the limit left. -/
theorem tenth_le_coefficientAt (hn : 0 ≤ n) (hts : t + 1 ≤ s) (ht : t + 1 ≤ maxScale)
    (h : ofParts? (coefficientAt n s (t + 1)) (t + 1) = none) : tenth ≤ coefficientAt n s t := by
  rw [ofParts?_coefficientAt_eq_none_iff ht] at h
  have hshort : tenTo (s - t) = tenTo (s - (t + 1)) * 10 := by
    rw [← tenTo_succ, show s - (t + 1) + 1 = s - t by omega]
  have hnonneg : 0 ≤ coefficientAt n s t := mod_cast le_coefficientAt (c := 0) (by simpa using hn)
  have habs : tenth ≤ (coefficientAt n s t).natAbs := by
    rw [natAbs_coefficientAt, Rounding.le_halfEven_iff (tenTo_pos _) (by decide) (by decide), hshort]
    calc (2 * tenth - 1) * (tenTo (s - (t + 1)) * 10)
        = (2 * tenth - 1) * 10 * tenTo (s - (t + 1)) := by rw [Nat.mul_comm (tenTo _) 10, Nat.mul_assoc]
      _ ≤ (2 * limit - 1) * tenTo (s - (t + 1)) := Nat.mul_le_mul_right _ (by decide)
      _ ≤ 2 * n.natAbs := h
  omega

/-- A number that is at least a decimal is rounded to one that is at least the decimal. -/
theorem le_nearest? (h : nearest? n s = some r) (hs : d.scale ≤ s) (hd : 0 ≤ d.toRat)
    (hle : d.toRat ≤ (n : ℚ) / tenTo s) : d.toRat ≤ r.toRat := by
  obtain ⟨c, hc⟩ := Int.eq_ofNat_of_zero_le (toRat_nonneg_iff.1 hd)
  obtain ⟨u, hu, rfl, hcoefficient, hmore⟩ := exists_of_nearestFrom h
  rw [toRat_le_div_iff hs, hc] at hle
  rcases Nat.lt_or_ge r.scale d.scale with hfew | hmany
  · -- with one digit more the number was too large, and what is left of that is still more than the decimal
    have hover := hmore (r.scale + 1) (Nat.lt_succ_self _) (hfew.trans_le (Nat.le_min.2 ⟨hs, d.scale_le⟩))
    have hr : tenth ≤ r.coefficient := hcoefficient ▸
      tenth_le_coefficientAt (le_trans (by positivity) hle) (hfew.trans_le hs) (hfew.trans_le d.scale_le) hover
    have hclt : c < limit := by have := d.coefficient_lt; omega
    have hcross : c * tenTo r.scale ≤ tenth * tenTo d.scale :=
      calc c * tenTo r.scale ≤ tenth * 10 * tenTo r.scale := Nat.mul_le_mul_right _ (hclt.le.trans (by decide))
        _ = tenth * tenTo (r.scale + 1) := by rw [tenTo_succ, Nat.mul_comm (tenTo _) 10, Nat.mul_assoc]
        _ ≤ tenth * tenTo d.scale := Nat.mul_le_mul_left _ (tenTo_le_tenTo hfew)
    have hproduct : (c : ℤ) * tenTo r.scale ≤ r.coefficient * tenTo d.scale :=
      le_trans (mod_cast hcross) (mul_le_mul_of_nonneg_right hr (by positivity))
    have hposr : (0 : ℚ) < tenTo r.scale := by exact_mod_cast tenTo_pos r.scale
    have hposd : (0 : ℚ) < tenTo d.scale := by exact_mod_cast tenTo_pos d.scale
    unfold toRat
    rw [div_le_div_iff₀ hposd hposr, hc]
    exact_mod_cast hproduct
  · refine (toRat_le_div_iff hmany).2 ?_
    rw [hcoefficient, hc]
    refine mod_cast le_coefficientAt (c := c * tenTo (r.scale - d.scale)) ?_
    push_cast
    rwa [mul_assoc, ← natCast_tenTo_add,
      show r.scale - d.scale + (s - r.scale) = s - d.scale by have := Nat.min_le_left s maxScale; omega]

/-- A number that is a decimal is not rounded. -/
theorem toRat_of_nearest? (h : nearest? n s = some r) (hd : 0 ≤ d.toRat) (hexact : d.toRat = (n : ℚ) / tenTo s) :
    r.toRat = d.toRat := by
  -- without trailing zeros, the decimal has no more digits than the number is given with
  rw [← toRat_normalize d] at hd hexact ⊢
  have hscale : d.normalize.scale ≤ s := scale_le_of_value d.normal_normalize.1 (toRat_eq_div_iff.1 hexact).symm
  exact le_antisymm (nearest?_le h hscale hd hexact.ge) (le_nearest? h hscale hd hexact.le)

/-! ## Differences -/

/-- A decimal with the other sign is the other number. -/
theorem toRat_neg (d : Decimal) : d.neg.toRat = -d.toRat := by
  unfold neg toRat
  rw [Int.cast_neg, neg_div]

/-- A difference is exact, or the exact difference rounded; it is rounded with all the digits that either side has. -/
theorem sub?_cases (h : a.sub? b = some r) : r.toRat = a.toRat - b.toRat ∨
    ∃ n s, nearest? n s = some r ∧ (n : ℚ) / tenTo s = a.toRat - b.toRat ∧ a.scale ≤ s ∧ s ≤ maxScale := by
  unfold sub? at h
  split at h
  next ha =>
    left
    obtain rfl := Option.some.inj h
    rw [toRat_of_isZero ha, zero_sub]
    split
    next hb => rw [toRat_of_isZero hb, neg_zero]
    next => exact toRat_neg b
  next =>
    split at h
    next hb =>
      left
      obtain rfl := Option.some.inj h
      rw [toRat_of_isZero hb, sub_zero]
    next =>
      right
      refine ⟨_, _, h, ?_, Nat.le_max_left _ _, Nat.max_le.2 ⟨a.scale_le, b.scale_le⟩⟩
      rw [Int.cast_sub, sub_div, coefficient_mul_tenTo a (Nat.le_max_left _ _),
        coefficient_mul_tenTo b (Nat.le_max_right _ _)]

/-- Taking away what is not below zero leaves no more. -/
theorem sub?_le (h : a.sub? b = some r) (ha : 0 ≤ a.toRat) (hb : 0 ≤ b.toRat) : r.toRat ≤ a.toRat := by
  rcases sub?_cases h with hexact | ⟨n, s, hnearest, hexact, hs, -⟩
  · linarith
  · exact nearest?_le hnearest hs ha (by linarith)

/-- Taking away what is not above zero leaves no less. -/
theorem le_sub? (h : a.sub? b = some r) (ha : 0 ≤ a.toRat) (hb : b.toRat ≤ 0) : a.toRat ≤ r.toRat := by
  rcases sub?_cases h with hexact | ⟨n, s, hnearest, hexact, hs, -⟩
  · linarith
  · exact le_nearest? hnearest hs ha (by linarith)

/-- A difference that is a decimal is not rounded. -/
theorem toRat_of_sub? (h : a.sub? b = some r) (hle : b.toRat ≤ a.toRat) (hd : d.toRat = a.toRat - b.toRat) :
    r.toRat = d.toRat := by
  rcases sub?_cases h with hexact | ⟨n, s, hnearest, hexact, -⟩
  · rw [hexact, hd]
  · exact toRat_of_nearest? hnearest (by linarith) (hd.trans hexact.symm)

/-- Zero is zero. -/
theorem toRat_zero : zero.toRat = 0 := toRat_of_isZero rfl

/-- The least decimal above zero with `s` fraction digits. -/
def unit (s : ℕ) (hs : s ≤ maxScale) : Decimal where
  coefficient := 1
  scale := s
  coefficient_lt := by decide
  scale_le := hs

/-- Of two different decimals, the difference is not rounded away, and it does not change its sign. -/
theorem sub?_pos_iff (h : a.sub? b = some r) : 0 < r.toRat ↔ b.toRat < a.toRat := by
  rcases sub?_cases h with hexact | ⟨n, s, hnearest, hexact, -, hs⟩
  · rw [hexact, sub_pos]
  · rw [← sub_pos (b := b.toRat), ← hexact]
    constructor
    · intro hr
      by_contra hn
      have hzero : r.toRat ≤ zero.toRat :=
        nearest?_le hnearest (Nat.zero_le s) toRat_zero.ge (toRat_zero ▸ not_lt.1 hn)
      rw [toRat_zero] at hzero
      exact absurd hr (not_lt.2 hzero)
    · intro hn
      have hpos : (0 : ℚ) < tenTo s := by exact_mod_cast tenTo_pos s
      have hunit : 0 < (unit s hs).toRat := toRat_pos_iff.2 Int.one_pos
      -- the exact difference is a whole number of these units
      have hle : (unit s hs).toRat ≤ (n : ℚ) / tenTo s := by
        rw [div_pos_iff_of_pos_right hpos, Int.cast_pos] at hn
        show ((1 : ℤ) : ℚ) / tenTo s ≤ _
        rw [div_le_div_iff_of_pos_right hpos, Int.cast_le]
        exact hn
      exact hunit.trans_le (le_nearest? hnearest le_rfl hunit.le hle)

end Decimal

end MarketFeed
