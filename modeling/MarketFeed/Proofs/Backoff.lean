import MarketFeed.Backoff
import MarketFeed.Powers

/-!
# Backoff — when the delay doubles

The delay before an attempt to reconnect is meant to be the initial one, doubled for each
attempt before it, and the greatest one from where that is reached. What is promised of
the delays is one record:

> `Doubles`: the closed form, and with it that the delays never fall and never leave the
> bounds, for every attempt that 32 bits can count.

The policy does not compute the closed form. It doubles in a loop, and each round looks at
whole milliseconds in 64 bits, so every delay but the first is a number of milliseconds
below 2⁶⁴ (`exists_grow_succ_eq`), whatever the initial and the greatest delay were. When
nothing is lost by that is decided here for all durations, which are natural numbers of
nanoseconds:

> `doubles_iff`: the delays double as promised exactly if nothing is to be doubled, or the
> greatest delay is a number of milliseconds in 64 bits and the initial one is too, or
> needs no doubling but the one that reaches the greatest (`Whole`).

From right to left the loop is followed by induction (`min_grow_of_whole`); from left to
right two attempts are enough, the second, which shows what the first doubling cuts off,
and the 65th, which shows the bound of 64 bits (`Doubles.whole`). Settings that are read
from a number of milliseconds are on the good side (`doubles_ofMilliseconds`).
-/

namespace MarketFeed.Backoff

/-- What is promised of the delays before attempts, which are counted in 32 bits. -/
structure Doubles (initial greatest : Nat) : Prop where
  exact : ∀ attempt : UInt32,
    (automatic initial greatest).delay? attempt.toNat = some (min (initial * twoTo attempt.toNat) greatest)
  ascending : ∀ m n : UInt32, m ≤ n → ∀ d e, (automatic initial greatest).delay? m.toNat = some d →
    (automatic initial greatest).delay? n.toNat = some e → d ≤ e
  between : ∀ n : UInt32, ∀ d, (automatic initial greatest).delay? n.toNat = some d →
    min initial greatest ≤ d ∧ d ≤ greatest

/-- That no doubling cuts anything off: there is nothing to double, or the greatest delay is a number of milliseconds
in 64 bits, and so is the initial one unless its whole milliseconds reach the greatest with the first doubling. -/
def Whole (initial greatest : Nat) : Prop :=
  initial = 0 ∨ (millisecond ∣ greatest ∧ greatest / millisecond < UInt64.size ∧
    (millisecond ∣ initial ∨ greatest / millisecond ≤ initial / millisecond * 2))

instance (initial greatest : Nat) : Decidable (Whole initial greatest) := inferInstanceAs (Decidable (_ ∨ _))

variable {initial greatest delay : Nat}

/-! ## One doubling -/

private theorem double_eq (greatest delay : Nat) : ∃ k, k < UInt64.size ∧ k ≤ delay / millisecond * 2 ∧
    k ≤ greatest / millisecond ∧ double greatest delay = k * millisecond := by
  have hle := Nat.mod_le (min (delay / millisecond * 2) (greatest / millisecond)) UInt64.size
  exact ⟨_, Nat.mod_lt _ (by decide), by omega, by omega, rfl⟩

/-- A doubled delay is not above the greatest one, also where that is no number of milliseconds. -/
private theorem double_le (greatest delay : Nat) : double greatest delay ≤ greatest := by
  obtain ⟨k, -, -, hk, heq⟩ := double_eq greatest delay
  simp only [millisecond] at *
  omega

/-- Below the bound of 64 bits, the whole milliseconds are doubled exactly. -/
theorem double_of_lt (h : greatest / millisecond < UInt64.size) :
    double greatest delay = min (delay / millisecond * 2) (greatest / millisecond) * millisecond := by
  rw [double, Nat.mod_eq_of_lt (by omega)]

/-- What is a number of milliseconds is doubled exactly, up to the greatest delay. -/
theorem double_of_whole (hd : millisecond ∣ delay) (hg : millisecond ∣ greatest)
    (h : greatest / millisecond < UInt64.size) : double greatest delay = min (delay * 2) greatest := by
  rw [double_of_lt h]
  simp only [millisecond] at *
  omega

/-! ## Doubling on -/

private theorem grow_one (greatest delay : Nat) : grow greatest 1 delay = double greatest delay := by
  simp only [grow]
  split
  · rfl
  · split
    next h => exact h.symm
    next => rfl

/-- From the first doubling on, a delay is a number of milliseconds in 64 bits, and not above the greatest. -/
theorem exists_grow_succ_eq (greatest n : Nat) : ∀ delay, ∃ k, k < UInt64.size ∧ k ≤ greatest / millisecond ∧
    grow greatest (n + 1) delay = k * millisecond := by
  induction n with
  | zero =>
    intro delay
    obtain ⟨k, hk, -, hle, heq⟩ := double_eq greatest delay
    exact ⟨k, hk, hle, by rw [grow_one, heq]⟩
  | succ n ih =>
    intro delay
    obtain ⟨k, hk, -, hle, heq⟩ := double_eq greatest delay
    rw [grow]
    split
    · exact ⟨k, hk, hle, heq⟩
    · split
      next h => exact ⟨k, hk, hle, by rw [← heq]; exact h.symm⟩
      next => exact ih _

/-- Whole milliseconds are doubled exactly until the greatest delay is reached. -/
theorem min_grow_of_whole (hg : millisecond ∣ greatest) (h : greatest / millisecond < UInt64.size) (n : Nat) :
    ∀ delay, millisecond ∣ delay → min (grow greatest n delay) greatest = min (delay * twoTo n) greatest := by
  induction n with
  | zero =>
    intro delay _
    rw [grow]
    exact congrArg (min · greatest) (Nat.mul_one delay).symm
  | succ n ih =>
    intro delay hd
    have hpow : delay * twoTo (n + 1) = delay * 2 * twoTo n := by
      show delay * (2 ^ n * 2) = delay * 2 * 2 ^ n
      rw [Nat.mul_comm (2 ^ n), Nat.mul_assoc]
    have hone : 0 < twoTo n := Nat.pow_pos (by decide)
    rw [grow, double_of_whole hd hg h, hpow]
    split
    next hreached =>
      -- the greatest is reached, and more doubling would lead beyond it
      have hle : delay * 2 ≤ delay * 2 * twoTo n := Nat.le_mul_of_pos_right _ hone
      omega
    next hbelow =>
      have hnext : min (delay * 2) greatest = delay * 2 := by omega
      rw [hnext]
      split
      next hstill =>
        obtain rfl : delay = 0 := by omega
        simp
      next => exact ih _ (Nat.dvd_mul_right_of_dvd hd 2)

/-! ## The law -/

private theorem delay?_eq (initial greatest n : Nat) :
    (automatic initial greatest).delay? n = some (min (grow greatest n initial) greatest) := rfl

/-- The closed form says the rest. -/
theorem Doubles.of_exact (h : ∀ attempt : UInt32, (automatic initial greatest).delay? attempt.toNat =
    some (min (initial * twoTo attempt.toNat) greatest)) : Doubles initial greatest where
  exact := h
  ascending := by
    intro m n hmn d e hd he
    obtain rfl := Option.some.inj ((h m).symm.trans hd)
    obtain rfl := Option.some.inj ((h n).symm.trans he)
    have hpow : twoTo m.toNat ≤ twoTo n.toNat := Nat.pow_le_pow_right (by decide) (UInt32.le_iff_toNat_le.1 hmn)
    have hle := Nat.mul_le_mul_left initial hpow
    omega
  between := by
    intro n d hd
    obtain rfl := Option.some.inj ((h n).symm.trans hd)
    have hle : initial ≤ initial * twoTo n.toNat := Nat.le_mul_of_pos_right _ (Nat.pow_pos (by decide))
    omega

/-- When the first doubling reaches the greatest delay, it does not matter what it cuts off. -/
private theorem min_grow_of_reached (hg : millisecond ∣ greatest) (h : greatest / millisecond < UInt64.size)
    (hreached : greatest / millisecond ≤ initial / millisecond * 2) (n : Nat) :
    min (grow greatest n initial) greatest = min (initial * twoTo n) greatest := by
  cases n with
  | zero => exact congrArg (min · greatest) (Nat.mul_one initial).symm
  | succ n =>
    have hdouble : double greatest initial = greatest := by
      rw [double_of_lt h, Nat.min_eq_right hreached, Nat.div_mul_cancel hg]
    have hpow : initial * 2 ≤ initial * twoTo (n + 1) := by
      apply Nat.mul_le_mul_left
      exact Nat.le_mul_of_pos_left 2 (Nat.pow_pos (by decide))
    rw [grow, hdouble, if_pos (Nat.le_refl _)]
    simp only [millisecond] at *
    omega

/-- Nothing stays nothing. -/
theorem grow_zero (greatest n : Nat) : grow greatest n 0 = 0 := by
  have hdouble : double greatest 0 = 0 := by simp [double]
  cases n with
  | zero => rfl
  | succ n =>
    rw [grow, hdouble]
    split
    · rfl
    · exact if_pos rfl

/-- With nothing cut off the closed form holds for every attempt. -/
theorem doubles_of_whole (h : Whole initial greatest) : Doubles initial greatest := by
  apply Doubles.of_exact
  intro attempt
  rw [delay?_eq]
  congr 1
  rcases h with rfl | ⟨hg, hlt, hinitial | hreached⟩
  · rw [grow_zero, Nat.zero_mul]
  · exact min_grow_of_whole hg hlt _ _ hinitial
  · exact min_grow_of_reached hg hlt hreached _

/-- The second delay shows what the first doubling cuts off, and the 65th what the bound of 64 bits does. -/
theorem Doubles.whole (h : Doubles initial greatest) : Whole initial greatest := by
  by_cases hzero : initial = 0
  · exact Or.inl hzero
  right
  have hfirst : double greatest initial = min (initial * 2) greatest := by
    have hexact := Option.some.inj (h.exact 1)
    have hle := double_le greatest initial
    rw [show (1 : UInt32).toNat = 1 from rfl, grow_one, show twoTo 1 = 2 from rfl] at hexact
    omega
  obtain ⟨k, hk, hdoubled, hcut, heq⟩ := double_eq greatest initial
  rcases Nat.lt_or_ge greatest (initial * 2) with hreached | hbelow
  · -- the first doubling reaches the greatest delay
    have hgreatest : greatest = k * millisecond := by omega
    simp only [millisecond] at *
    omega
  · have hinitial : millisecond ∣ initial := by
      simp only [millisecond] at *
      omega
    -- 64 doublings of a millisecond are more than 64 bits hold
    have hlast := Option.some.inj (h.exact 64)
    obtain ⟨k, hk, hle, hgrown⟩ := exists_grow_succ_eq greatest 63 initial
    rw [show (64 : UInt32).toNat = 63 + 1 from rfl, hgrown, show twoTo (63 + 1) = UInt64.size from rfl] at hlast
    have hlong : millisecond * UInt64.size ≤ initial * UInt64.size :=
      Nat.mul_le_mul_right _ (Nat.le_of_dvd (Nat.pos_of_ne_zero hzero) hinitial)
    have hgreatest : greatest = k * millisecond := by
      simp only [millisecond, UInt64.size] at *
      omega
    simp only [millisecond] at *
    omega

/-- Delays that are given in milliseconds double as promised. -/
theorem doubles_ofMilliseconds (initial greatest : UInt64) :
    Doubles (initial.toNat * millisecond) (greatest.toNat * millisecond) := by
  have hgreatest : greatest.toNat * millisecond / millisecond = greatest.toNat := Nat.mul_div_cancel _ (by decide)
  apply doubles_of_whole
  right
  rw [hgreatest]
  exact ⟨Nat.dvd_mul_left _ _, UInt64.toNat_lt greatest, Or.inl (Nat.dvd_mul_left _ _)⟩

/-- The delays double up to the greatest exactly if no doubling cuts anything off. -/
theorem doubles_iff (initial greatest : Nat) : Doubles initial greatest ↔ Whole initial greatest :=
  ⟨Doubles.whole, doubles_of_whole⟩

/-- Half a millisecond is not doubled to a whole one: the second delay is nothing. -/
theorem not_doubles_halfMillisecond : ¬ Doubles 500000 10000000 := by
  intro h
  have hsecond : (automatic 500000 10000000).delay? 1 = some 0 := by decide
  have hexact := hsecond.symm.trans (h.exact 1)
  exact absurd hexact (by decide)

end MarketFeed.Backoff
