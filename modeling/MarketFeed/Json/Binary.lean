import MarketFeed.Powers
import MarketFeed.Rounding

/-!
# Json.Binary — binary floating point numbers, exactly

A JSON number with a point or an exponent is read as a binary64: a sign and `mantissa * 2
^ exponent` with a 53-bit mantissa. Both directions are exact arithmetic on natural
numbers. Reading rounds once for the digits and once for the power of ten; writing picks
the fewest digits that read back as the same number, the nearest such digits.

There are two texts of them: `renderChars` is plain digits, and of two digits equally near
it takes the greater; `displayChars`, for messages, has an exponent where the number is
very small or large, and takes the even one.

No operation on floating point numbers is used anywhere. They occur where a message has
one in the place of an amount or of something that is refused, and become a decimal
through their text, or a part of an error message.
-/

namespace MarketFeed.Json

/-- `mantissa * 2 ^ exponent`, with a sign; zero has a sign too. -/
structure Binary where
  negative : Bool
  mantissa : Nat
  exponent : Int
deriving DecidableEq, Repr

namespace Binary

/-- The least exponent of a mantissa. -/
def minExponent : Int := -1074

/-- The greatest exponent of a mantissa. -/
def maxExponent : Int := 971

/-- Mantissas have 53 bits. -/
def mantissaBound : Nat := 9007199254740992

/-- Mantissas above the least exponent have their first bit set. -/
def mantissaLeast : Nat := 4503599627370496

/-- `2 ^ e` as a quotient of natural numbers. -/
def powerOfTwo (e : Int) : Nat × Nat := if 0 ≤ e then (twoTo e.toNat, 1) else (1, twoTo (-e).toNat)

/-- The magnitude nearest to `n / d`, a half going to the even mantissa; `none` beyond the greatest. -/
def round? (n d : Nat) : Option (Nat × Int) :=
  if n = 0 then some (0, minExponent)
  else
    let guess : Int := max minExponent ((n.log2 : Int) - d.log2 - 53)
    let at_ (e : Int) : Nat × Nat := (n * (powerOfTwo e).2, d * (powerOfTwo e).1)
    let e := if (at_ guess).1 / (at_ guess).2 < mantissaBound then guess else guess + 1
    let m := Rounding.halfEven (at_ e).1 (at_ e).2
    let (m, e) := if m = mantissaBound then (mantissaLeast, e + 1) else (m, e)
    if maxExponent < e then none else some (m, e)

/-- A magnitude as a quotient of natural numbers. -/
def quotient (m : Nat) (e : Int) : Nat × Nat := (m * (powerOfTwo e).1, (powerOfTwo e).2)

/-- The greatest power of ten by which a number is scaled in one step. -/
def maxPower : Nat := 308

/-- Scales a magnitude by `10 ^ k`, the power itself rounded first. -/
def scaleByTen? (x : Nat × Int) (k : Int) : Option (Nat × Int) := do
  let p ← round? (tenTo k.natAbs) 1
  let (a, b) := quotient x.1 x.2
  let (c, d) := quotient p.1 p.2
  if 0 ≤ k then round? (a * c) (b * d) else round? (a * d) (b * c)

/-- Scales by any power of ten: a large negative one in steps, a large positive one only from zero. -/
def scale? : (steps : Nat) → Nat × Int → Int → Option (Nat × Int)
  | 0, x, _ => some x
  | steps + 1, x, k =>
    if k.natAbs ≤ maxPower then scaleByTen? x k
    else if x.1 = 0 then some x
    else if 0 ≤ k then none
    else (scaleByTen? x (-maxPower)).bind (fun y => scale? steps y (k + maxPower))

/-- The number nearest to `significand * 10 ^ k`, rounding the significand before it is scaled. -/
def ofScientific? (negative : Bool) (significand : Nat) (k : Int) : Option Binary := do
  let x ← round? significand 1
  -- two steps take every 64-bit significand to zero, the third finds it there
  let (m, e) ← scale? 4 x k
  some ⟨negative, m, e⟩

/-! ## Fewest digits -/

/-- The open or closed interval of numbers that read back as one magnitude, scaled to integers by `4 / 2 ^ e`. -/
structure Interval where
  low : Nat
  value : Nat
  high : Nat
  unit : Nat
  closed : Bool

/-- Everything nearer to this magnitude than to its neighbours; the ends belong to an even mantissa. -/
def interval (m : Nat) (e : Int) : Interval :=
  let (a, b) := powerOfTwo e
  let below := if m = mantissaLeast ∧ minExponent < e then 1 else 2
  ⟨(4 * m - below) * a, 4 * m * a, (4 * m + 2) * a, 4 * b, m % 2 == 0⟩

/-- Whether `n / d` reads back. -/
def Interval.holds (i : Interval) (n d : Nat) : Bool :=
  let low := i.low * d
  let mid := n * i.unit
  let high := i.high * d
  if i.closed then low ≤ mid && mid ≤ high else low < mid && mid < high

/-- `10 ^ p` as a quotient. -/
def powerOfTen (p : Int) : Nat × Nat := if 0 ≤ p then (tenTo p.toNat, 1) else (1, tenTo (-p).toNat)

/-- Where a number halfway between two neighbours goes. -/
inductive Tie where
  /-- To the greater one. -/
  | up
  /-- To the even one. -/
  | even
deriving DecidableEq, Repr

/-- Whether `k` is nearer than `k + 1` to a number `rest / unit` above `k`. -/
def Tie.down (tie : Tie) (k rest unit : Nat) : Bool :=
  2 * rest < unit || (2 * rest == unit && tie == .even && k % 2 == 0)

/-- The better of the two neighbours on the grid of multiples of `10 ^ p`, if either reads back. -/
def onGrid? (tie : Tie) (i : Interval) (p : Int) : Option Nat :=
  let (a, b) := powerOfTen p
  let k := i.value * b / (i.unit * a)
  let fits (k : Nat) : Bool := i.holds (k * a) b
  if tie.down k (i.value * b % (i.unit * a)) (i.unit * a) then
    if fits k then some k else if fits (k + 1) then some (k + 1) else none
  else
    if fits (k + 1) then some (k + 1) else if fits k then some k else none

/-- Tries ever finer grids, from `10 ^ p` down. -/
def digitsFrom (tie : Tie) (i : Interval) : (tries : Nat) → Int → Nat × Int
  | 0, p => (i.value * (powerOfTen p).2 / (i.unit * (powerOfTen p).1), p)
  | tries + 1, p =>
    match onGrid? tie i p with
    -- the neighbour above a run of nines is the next power of ten
    | some k => if k % 10 = 0 then (k / 10, p + 1) else (k, p)
    | none => digitsFrom tie i tries (p - 1)

/-- The position of the first digit of `n / d`. -/
def leading (n d : Nat) : Int :=
  let guess : Int := (Nat.toDigits 10 n).length - (Nat.toDigits 10 d).length
  let (a, b) := powerOfTen guess
  if n * b < d * a then guess - 1 else guess

/-- The fewest digits that read back, and the power of ten they count. -/
def shortest (tie : Tie) (m : Nat) (e : Int) : Nat × Int :=
  if m = 0 then (0, 0)
  else
    let i := interval m e
    digitsFrom tie i 17 (leading i.value i.unit)

/-- Digits without an exponent: zeros behind them or a point among them. -/
def layOut (digits : Nat) (p : Int) : List Char :=
  let ds := Nat.toDigits 10 digits
  if 0 ≤ p then ds ++ List.replicate p.toNat '0'
  else
    let places := (-p).toNat
    let padded := List.replicate (places + 1 - ds.length) '0' ++ ds
    padded.take (padded.length - places) ++ '.' :: padded.drop (padded.length - places)

/-- A minus sign in front of what is below zero. -/
def sign (negative : Bool) (body : List Char) : List Char := if negative then '-' :: body else body

/-- The shortest text that reads back, without an exponent. -/
def renderChars (x : Binary) : List Char :=
  let (digits, p) := shortest .up x.mantissa x.exponent
  sign x.negative (if digits = 0 then ['0'] else layOut digits p)

/-- The least power of ten whose multiples are shown without an exponent. -/
def leastPlain : Int := -5

/-- The greatest power of ten whose multiples are shown without an exponent. -/
def greatestPlain : Int := 15

/-- Digits with an exponent: a point behind the first one, if there are more. -/
def layOutScientific (digits : List Char) (power : Int) : List Char :=
  let point := if digits.length = 1 then [] else ['.']
  digits.take 1 ++ point ++ digits.drop 1 ++
    ['e', if power < 0 then '-' else '+'] ++ Nat.toDigits 10 power.natAbs

/-- The text for messages: plain digits have a fraction, be it zero. -/
def displayChars (x : Binary) : List Char :=
  let (digits, p) := shortest .even x.mantissa x.exponent
  let ds := Nat.toDigits 10 digits
  let power := p + ds.length - 1
  sign x.negative <|
    if leastPlain ≤ power ∧ power ≤ greatestPlain then
      if 0 ≤ p then layOut digits p ++ ['.', '0'] else layOut digits p
    else layOutScientific ds power

end Binary

end MarketFeed.Json
