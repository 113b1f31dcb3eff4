import MarketFeed.Decimal.Rounding
import MarketFeed.Text.Blank
import MarketFeed.Text.Integer

/-!
# Decimal.Text — writing and reading decimals

`render` writes every fraction digit the scale asks for. `read?` accepts more than
`render` writes: a sign, underscores between digits, a point at either end, more digits
than a decimal can hold (the first digit that does not fit rounds the rest), scientific
notation, white space around it, and nothing at all for zero.

- a text is tried as a plain number first and in scientific notation where that fails;
- rounding happens once, on the first digit that does not fit, and half goes away from
  zero: the digits behind it are not looked at;
- an underscore behind the last fraction digit there is room for counts as a digit that
  rounds down, unless the coefficient has grown wide by then: a wide one is rounded by the
  next true digit;
- an exponent moves the point of a decimal that has been read already, so digits that it
  would bring back are lost by then.

That `render` is read back, and what else is read, is in `Proofs.Decimal`.
-/

namespace MarketFeed.Decimal

open MarketFeed.Text

/-! ## Writing -/

/-- Digits with a point `scale` places from the right, a zero in front when there is no integer digit. -/
def renderDigits (n scale : Nat) : List Char :=
  let digits := Nat.toDigits 10 n
  let padded := List.replicate (scale + 1 - digits.length) '0' ++ digits
  let whole := padded.take (padded.length - scale)
  let fraction := padded.drop (padded.length - scale)
  if scale = 0 then whole else whole ++ '.' :: fraction

/-- Whether a minus sign is shown. -/
def hasMinus (d : Decimal) : Bool := d.isNegative || d.minusZero

/-- All fraction digits, and a minus sign in front where there is one. -/
def renderChars (d : Decimal) : List Char :=
  if d.hasMinus then '-' :: renderDigits d.coefficient.natAbs d.scale
  else renderDigits d.coefficient.natAbs d.scale

def render (d : Decimal) : String := String.ofList d.renderChars

instance : ToString Decimal := ⟨render⟩

/-! ## Plain notation -/

/-- What is left behind the digit that no longer fits must still be digits. -/
def isTail (cs : List Char) : Bool := cs.all (fun c => (digit? c).isSome || c == '_')

/-- A coefficient this large before its last digit is wide. -/
def wideFrom : Nat := (UInt64.size - 1) / 10 - (UInt8.size - 1)

/-- The digit that no longer fits rounds the coefficient; one that then overflows loses its last digit. -/
def roundInto (n scale d : Nat) : Option (Nat × Nat) :=
  let n := if 5 ≤ d then n + 1 else n
  if n < limit then some (n, scale)
  else match scale with
    | 0 => none
    | s + 1 => some ((n + 4) / 10, s)

/-- Reads an unsigned number: coefficient and scale so far, whether the point has been passed, and whether
there was a digit. -/
def readUnsigned (n scale : Nat) (point seen : Bool) : List Char → Option (Nat × Nat)
  | [] => if seen then some (n, scale) else none
  | c :: rest =>
    match digit? c with
    | some d =>
      if n * 10 + d < limit ∧ (point = false ∨ scale < maxScale) then
        readUnsigned (n * 10 + d) (if point then scale + 1 else scale) point true rest
      else if point ∧ isTail rest then roundInto n scale d
      else none
    | none =>
      if c = '.' ∧ point = false then readUnsigned n scale true seen rest
      else if c = '_' ∧ seen then
        if scale = maxScale ∧ n / 10 < wideFrom then
          if isTail rest then some (n, scale) else none
        else readUnsigned n scale point seen rest
      else none

/-- A number in plain notation with an optional sign. -/
def readPlain? : List Char → Option Decimal
  | '-' :: rest => (readUnsigned 0 0 false false rest).bind (fun p => ofParts? (-(p.1 : Int)) p.2)
  | '+' :: rest => (readUnsigned 0 0 false false rest).bind (fun p => ofParts? p.1 p.2)
  | cs => (readUnsigned 0 0 false false cs).bind (fun p => ofParts? p.1 p.2)

/-! ## Scientific notation -/

/-- Moves the point `e` places to the left, shortening the coefficient when there is no room for it. -/
def scaleDown? (d : Decimal) (e : Nat) : Option Decimal :=
  if maxScale < e then none
  else if d.scale + e ≤ maxScale then d.withScale? (d.scale + e)
  else (d.shorten? (maxScale - e)).bind (fun r => r.withScale? (r.scale + e))

/-- Moves the point `e` places to the right. -/
def scaleUp? (d : Decimal) (e : Nat) : Option Decimal :=
  if e ≤ d.scale then d.withScale? (d.scale - e)
  else if maxScale < e then none
  else if d.isZero then some zero
  else (nearest? (d.coefficient * tenTo e) d.scale).map normalize

/-- Exponents are read as 32-bit numbers. -/
def exponentBound : Nat := UInt32.size

/-- A plain number, then `e` or `E`, then an exponent with an optional sign. -/
def readScientific? (cs : List Char) : Option Decimal :=
  match cs.span (fun c => c != 'e' && c != 'E') with
  | (_, []) => none
  | (base, _ :: exponent) =>
    (readPlain? base).bind fun d =>
      match exponent with
      | '-' :: e => (nat? exponentBound e).bind d.scaleDown?
      | e => (nat? exponentBound e).bind d.scaleUp?

/-! ## Field text -/

/-- A decimal field: trimmed, empty for zero, plain before scientific notation. -/
def readChars? (cs : List Char) : Option Decimal :=
  match trim cs with
  | [] => some zero
  | t => (readPlain? t).or (readScientific? t)

/-- The decimal a field's text denotes. -/
def read? (text : String) : Option Decimal := readChars? text.toList

end MarketFeed.Decimal
