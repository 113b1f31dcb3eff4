import MarketFeed.Powers

/-!
# Text.Integer — whole numbers in settings and string fields

Decimal digits with an optional sign and nothing else: no blanks, no separators, no empty
text. The bounds are those of the field that is read, so they are arguments. A number
without a sign in its type takes a plus sign all the same, but no minus sign, not even in
front of zero; zeros in front are read.
-/

namespace MarketFeed.Text

def digit? (c : Char) : Option Nat :=
  if '0' ≤ c ∧ c ≤ '9' then some (c.toNat - '0'.toNat) else none

/-- The number a run of digits denotes, after the digits already read. -/
def digitsFrom? (acc : Nat) : List Char → Option Nat
  | [] => some acc
  | c :: rest => (digit? c).bind (fun d => digitsFrom? (acc * 10 + d) rest)

def digits? : List Char → Option Nat
  | [] => none
  | cs => digitsFrom? 0 cs

/-- The number a run of digits denotes, after the digits already read, as long as it stays below `bound`. -/
def digitsBelow? (bound acc : Nat) : List Char → Option Nat
  | [] => some acc
  | c :: rest => (digit? c).bind fun d =>
    if acc * 10 + d < bound then digitsBelow? bound (acc * 10 + d) rest else none

/-- One digit or more, below `bound`. -/
def magnitude? (bound : Nat) : List Char → Option Nat
  | [] => none
  | cs => digitsBelow? bound 0 cs

/-- A whole number below `bound`; a plus sign is allowed. -/
def nat? (bound : Nat) : List Char → Option Nat
  | '+' :: rest => magnitude? bound rest
  | cs => magnitude? bound cs

/-- A signed whole number from `-bound` to `bound - 1`. -/
def int? (bound : Nat) : List Char → Option Int
  | '-' :: rest => (magnitude? (bound + 1) rest).map (fun n => -(n : Int))
  | cs => (nat? bound cs).map (fun n => (n : Int))

end MarketFeed.Text
