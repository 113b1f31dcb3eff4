/-!
# Rounding — a quotient to the nearest integer

Two rules for the exact middle: to the even neighbour, or away from zero. Arithmetic uses
the first one, shortening the digits of an amount the second. Both are stated on natural
numbers; `signed` applies one to an absolute value and puts the sign back, so that
rounding is symmetric about zero.
-/

namespace MarketFeed.Rounding

/-- `n / d` to the nearest integer; a half goes to the even neighbour. -/
def halfEven (n d : Nat) : Nat :=
  if 2 * (n % d) < d then n / d
  else if d < 2 * (n % d) then n / d + 1
  else n / d + n / d % 2

/-- `n / d` to the nearest integer; a half goes up. -/
def halfUp (n d : Nat) : Nat :=
  if 2 * (n % d) < d then n / d else n / d + 1

/-- Rounds the absolute value of `n / d` and keeps its sign. -/
def signed (rule : Nat → Nat → Nat) (n : Int) (d : Nat) : Int :=
  n.sign * (rule n.natAbs d : Nat)

end MarketFeed.Rounding
