/-!
# Text.Blank — white space around a field

The Unicode White_Space property, and trimming by it. It is wider than the blanks of a
JSON text: a no-break space or an ideographic space around a number counts as well. Texts
of fields, instants and settings are trimmed so; blanks between the tokens of a message
are a matter of `Json.Draft`.
-/

namespace MarketFeed.Text

/-- The code points with the White_Space property. -/
def blankRanges : List (Nat × Nat) :=
  [(0x09, 0x0D), (0x20, 0x20), (0x85, 0x85), (0xA0, 0xA0), (0x1680, 0x1680), (0x2000, 0x200A),
    (0x2028, 0x2029), (0x202F, 0x202F), (0x205F, 0x205F), (0x3000, 0x3000)]

/-- Whether a character is white space. -/
def isBlank (c : Char) : Bool :=
  blankRanges.any (fun r => r.1 ≤ c.toNat && c.toNat ≤ r.2)

/-- The text without white space at either end. -/
def trim (s : List Char) : List Char :=
  ((s.dropWhile isBlank).reverse.dropWhile isBlank).reverse

end MarketFeed.Text
