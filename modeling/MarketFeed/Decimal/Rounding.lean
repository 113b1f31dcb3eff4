import MarketFeed.Decimal.Basic
import MarketFeed.Rounding

/-!
# Decimal.Rounding — the nearest decimal to an exact quotient

Arithmetic on decimals is exact first and rounded once: `nearest? n s` stands for the
number `n / 10 ^ s`, where `n` and `s` are unbounded, and finds the decimal with the most
fraction digits that can hold it, a half going to the even neighbour. It fails only when
the integer part alone is too large.

- `add?` and `sub?` bring both numbers to the greater scale first. Where the result fits
  at that scale nothing is rounded, and trailing zeros stay; a zero on one side leaves the
  other as it is;
- `mul?` adds the scales, and `half?` is the mean's division by two;
- an operator without an answer (`none`) is one that stops the program, since it is used
  without a check.
-/

namespace MarketFeed

namespace Decimal

/-- The coefficient of `n / 10 ^ s` at `t` fraction digits. -/
def coefficientAt (n : Int) (s t : Nat) : Int := Rounding.signed Rounding.halfEven n (tenTo (s - t))

/-- Tries `t` fraction digits, then one fewer, down to none. -/
def nearestFrom (n : Int) (s : Nat) : Nat → Option Decimal
  | 0 => ofParts? (coefficientAt n s 0) 0
  | t + 1 => (ofParts? (coefficientAt n s (t + 1)) (t + 1)).or (nearestFrom n s t)

/-- The decimal nearest to `n / 10 ^ s`, with as many of its `s` fraction digits as fit. -/
def nearest? (n : Int) (s : Nat) : Option Decimal := nearestFrom n s (min s maxScale)

/-! ## Arithmetic

Every operation that can leave the range gives `none`. -/

/-- The sum; a zero leaves the other side as it is. -/
def add? (a b : Decimal) : Option Decimal :=
  if a.isZero then some b
  else if b.isZero then some a
  else
    let s := max a.scale b.scale
    nearest? (a.coefficient * tenTo (s - a.scale) + b.coefficient * tenTo (s - b.scale)) s

/-- The difference; subtracting from zero changes the sign of what has one, subtracting zero leaves the left
side. -/
def sub? (a b : Decimal) : Option Decimal :=
  if a.isZero then some (if b.isZero then b else b.neg)
  else if b.isZero then some a
  else
    let s := max a.scale b.scale
    nearest? (a.coefficient * tenTo (s - a.scale) - b.coefficient * tenTo (s - b.scale)) s

/-- The product; with a zero it is plain zero. -/
def mul? (a b : Decimal) : Option Decimal :=
  if a.isZero || b.isZero then some zero
  else nearest? (a.coefficient * b.coefficient) (a.scale + b.scale)

/-- Half the value: `c / 2` is `5 c` one decimal place further down. -/
def half? (a : Decimal) : Option Decimal :=
  if a.isZero then some zero else nearest? (a.coefficient * 5) (a.scale + 1)

/-- The same value with at most `t` fraction digits, a half going away from zero; the sign stays when nothing else
is left. -/
def shorten? (a : Decimal) (t : Nat) : Option Decimal :=
  if a.scale ≤ t then some a
  else
    (ofParts? (Rounding.signed Rounding.halfUp a.coefficient (tenTo (a.scale - t))) t).map fun r =>
      if h : r.coefficient = 0 then { r with minusZero := a.isNegative, coefficient_eq := fun _ => h } else r

end Decimal

end MarketFeed
