import MarketFeed.Amount
import MarketFeed.Wire.Identity
import MarketFeed.Wire.Vocabulary

/-!
# Wire.Field — the kinds of fields in the venue's records

Amounts are written as text with all their fraction digits, instants as whole numbers of
nanoseconds, words and texts as they are. Unless a record has to have a field, zero or the
empty text stands in for it.

Each kind is a field codec with a name as its argument, so that a record is a list of
these and nothing else. Two of them read what they do not write: an instant is read from
text only, and a price or a quantity from any of the notations that a decimal has. Signs
are not looked at: an amount below zero is read like any other.
-/

namespace MarketFeed

open Decode

/-- A price in any notation. -/
def Price.decode : Decoder Price := fun src d => (decimal src d).map Price.ofDecimal

def Price.encode (p : Price) : Json := .string p.render

/-- A quantity in any notation. -/
def Quantity.decode : Decoder Quantity := fun src d => (decimal src d).map Quantity.ofDecimal

def Quantity.encode (q : Quantity) : Json := .string q.render

def Decimal.encode (d : Decimal) : Json := .string d.render

namespace Wire

def product (name : String) : FieldCodec Product := required name Product.decode Product.encode

def requiredText (name : String) : FieldCodec String := required name string Json.string

/-- A text, empty when absent or null. -/
def text (name : String) : FieldCodec String := defaulted name stringOrNull Json.string ""

def side (name : String) : FieldCodec Side := required name Side.decode Side.encode

def requiredPrice (name : String) : FieldCodec Price := required name Price.decode Price.encode

/-- A price, zero when absent. -/
def price (name : String) : FieldCodec Price := defaulted name Price.decode Price.encode Price.zero

/-- A price that may be unset. -/
def optionalPrice (name : String) : FieldCodec (Option Price) :=
  defaulted name (optional Price.decode) (fun p => Json.ofOption (p.map Price.encode)) none

def requiredQuantity (name : String) : FieldCodec Quantity :=
  required name Quantity.decode Quantity.encode

/-- A quantity, zero when absent. -/
def quantity (name : String) : FieldCodec Quantity :=
  defaulted name Quantity.decode Quantity.encode Quantity.zero

/-- A decimal as it was written, zero when absent. -/
def decimal (name : String) : FieldCodec Decimal :=
  defaulted name Decode.decimal Decimal.encode Decimal.zero

/-- A whole number, zero when absent. -/
def integer (name : String) : FieldCodec Int := defaulted name Decode.integer Json.int 0

/-- A flag, false when absent. -/
def flag (name : String) : FieldCodec Bool := defaulted name Decode.flag Json.bool false

/-- An instant, zero when absent; it is read as text and written as a number. -/
def instant (name : String) : FieldCodec Int := defaulted name timestamp Json.int 0

/-- A word, unknown when absent. -/
def word {α : Type} [Vocabulary α] (name : String) : FieldCodec α :=
  defaulted name Vocabulary.decode Vocabulary.encode Vocabulary.unknown

end Wire

end MarketFeed
