/-!
# Powers — powers of two and of ten

Decimal places are powers of ten and binary places powers of two. Both are functions on
natural numbers with the few laws that moving a point needs: a power is positive, and
places add up. The laws are stated once for natural numbers and once for integers, where
coefficients live.
-/

namespace MarketFeed

/-- `2` to the power `n`. -/
def twoTo (n : Nat) : Nat := Nat.pow 2 n

/-- `10` to the power `n`: the denominator of a number with `n` decimal places. -/
def tenTo (n : Nat) : Nat := Nat.pow 10 n

/-- Signed numbers of 64 bits lie from minus this number up to the one below it. -/
abbrev signedBound : Nat := 9223372036854775808

@[simp] theorem tenTo_zero : tenTo 0 = 1 := rfl

/-- One place more. -/
theorem tenTo_succ (n : Nat) : tenTo (n + 1) = tenTo n * 10 := rfl

/-- Powers are never zero, so they can be divided by. -/
theorem tenTo_pos (n : Nat) : 0 < tenTo n := by
  induction n with
  | zero => exact Nat.one_pos
  | succ n ih => rw [tenTo_succ]; omega

/-- Places add up. -/
theorem tenTo_add (m n : Nat) : tenTo (m + n) = tenTo m * tenTo n := by
  induction n with
  | zero => rw [Nat.add_zero, tenTo_zero, Nat.mul_one]
  | succ n ih => rw [← Nat.add_assoc, tenTo_succ, ih, tenTo_succ, Nat.mul_assoc]

/-! ## As integers -/

/-- One place more. -/
theorem natCast_tenTo_succ (n : Nat) : (tenTo (n + 1) : Int) = tenTo n * 10 := by
  rw [tenTo_succ, Int.natCast_mul]
  rfl

/-- Places add up. -/
theorem natCast_tenTo_add (m n : Nat) : (tenTo (m + n) : Int) = tenTo m * tenTo n := by
  rw [tenTo_add, Int.natCast_mul]

theorem natCast_tenTo_pos (n : Nat) : (0 : Int) < tenTo n := Int.natCast_pos.2 (tenTo_pos n)

theorem natCast_tenTo_ne_zero (n : Nat) : (tenTo n : Int) ≠ 0 := Int.ne_of_gt (natCast_tenTo_pos n)

end MarketFeed
