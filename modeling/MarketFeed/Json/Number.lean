import MarketFeed.Json.Binary

/-!
# Json.Number — whole numbers and floating point numbers

A number written without point or exponent is a whole number as long as it fits 64 bits
(signed below zero, unsigned above); everything else, and a zero with a minus sign, is a
binary64. The significand takes digits while it fits 64 bits; integer digits beyond that
only move the exponent, fraction digits beyond it are dropped.

A `Numeral` is a number as it is written, its digits and its exponent apart, and `value?`
is what it stands for; one beyond the greatest floating point number stands for none. An
exponent with too many digits is cut at a bound that no other number reaches (`clamp`).
-/

namespace MarketFeed.Json

/-- A number of a JSON text. -/
inductive Number where
  | whole (value : Int)
  | binary (value : Binary)
deriving DecidableEq, Repr

/-- The characters of a number, split at the point and the exponent sign. -/
structure Numeral where
  negative : Bool
  whole : List Nat
  fraction : Option (List Nat)
  exponent : Option (Bool × List Nat)
deriving Repr

namespace Numeral

/-- Significands stay below this. -/
def significandBound : Nat := UInt64.size

/-- Exponents stay below this in absolute value. -/
def exponentBound : Nat := UInt32.size / 2

/-- Takes digits into the significand while it fits; counts the digits taken and those left. -/
def takeDigits (n : Nat) : List Nat → Nat × Nat × Nat
  | [] => (n, 0, 0)
  | d :: rest =>
    if n * 10 + d < significandBound then
      let (n, taken, left) := takeDigits (n * 10 + d) rest
      (n, taken + 1, left)
    else (n, 0, rest.length + 1)

/-- The written exponent, held within 32 bits; `none` stands for one beyond them. -/
def writtenExponent? : Option (Bool × List Nat) → Option Int
  | none => some 0
  | some (negative, ds) =>
    let n := ds.foldl (fun n d => min exponentBound (n * 10 + d)) 0
    if n = exponentBound then none else some (if negative then -(n : Int) else n)

/-- Holds an exponent within 32 bits. -/
def clamp (e : Int) : Int := max (-exponentBound) (min (exponentBound - 1) e)

/-- The number a numeral denotes; `none` when it is too large for a binary64. -/
def value? (x : Numeral) : Option Number :=
  let (n, _, left) := takeDigits 0 x.whole
  if left = 0 ∧ x.fraction.isNone ∧ x.exponent.isNone then
    if x.negative = false then some (.whole n)
    else if n = 0 ∨ signedBound < n then (Binary.ofScientific? true n 0).map .binary
    else some (.whole (-(n : Int)))
  else
    let (n, taken, _) := takeDigits n (x.fraction.getD [])
    match writtenExponent? x.exponent with
    | some e => (Binary.ofScientific? x.negative n (clamp ((left : Int) - taken + e))).map .binary
    | none =>
      -- an exponent beyond 32 bits leaves nothing of the number, or too much
      if n = 0 ∨ (x.exponent.map (·.1)) = some true then some (.binary ⟨x.negative, 0, Binary.minExponent⟩)
      else none

end Numeral

/-- The text of a number: a binary64 in the fewest digits, without an exponent. -/
def Number.renderChars : Number → List Char
  | .whole n => (toString n).toList
  | .binary x => x.renderChars

end MarketFeed.Json
