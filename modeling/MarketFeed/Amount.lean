import MarketFeed.Decimal.Text
import MarketFeed.Text.Quoted

/-!
# Amount — prices and quantities

Both are decimals without trailing fraction zeros, so that one value has one
representation: a price that came in as `100`, `100.0` or `1e2` finds the same level of a
book. The order of prices is the order of their values, and it is a lawful order of the
type (`Std.TransOrd`, `Std.LawfulEqOrd`), which is what a sorted map asks of its keys.

Mirrors the client's numeric types, with these remarks:

- normality is a field of the structure, so a price or a quantity that is not normal
  cannot be built; `ofDecimal` strips a decimal first;
- `read` is the parsing of a text by itself and refuses what is below zero. Fields of a
  message are decoded in `Wire.Field`, where the sign is not looked at;
- `Quantity.minus?` is `saturating_sub`: the difference is computed first and made zero if
  it is not positive, so one that is out of range has no answer (`none`) even where it
  would be below zero. The program stops there.
-/

namespace MarketFeed

/-! ## The order of values -/

namespace Decimal

/-- Comparing the other way round. -/
theorem order_swap (a b : Decimal) : a.order b = (b.order a).swap := by
  simp only [order]
  exact Std.OrientedCmp.eq_swap

/-- Values are compared over a common denominator. -/
theorem isLE_order {a b : Decimal} :
    (a.order b).isLE = true ↔ a.coefficient * tenTo b.scale ≤ b.coefficient * tenTo a.scale := by
  simp only [order]
  exact Int.isLE_compare

/-- Values are equal if they are equal over a common denominator. -/
theorem order_eq {a b : Decimal} :
    a.order b = .eq ↔ a.coefficient * tenTo b.scale = b.coefficient * tenTo a.scale := by
  simp only [order]
  exact Int.compare_eq_eq

/-- The middle one's denominator is multiplied in and divided out again. -/
theorem isLE_order_trans {a b c : Decimal} (hab : (a.order b).isLE = true)
    (hbc : (b.order c).isLE = true) : (a.order c).isLE = true := by
  rw [isLE_order] at hab hbc ⊢
  have h₁ := Int.mul_le_mul_of_nonneg_right hab (Int.le_of_lt (natCast_tenTo_pos c.scale))
  have h₂ := Int.mul_le_mul_of_nonneg_right hbc (Int.le_of_lt (natCast_tenTo_pos a.scale))
  apply Int.le_of_mul_le_mul_right _ (natCast_tenTo_pos b.scale)
  calc a.coefficient * tenTo c.scale * tenTo b.scale
      = a.coefficient * tenTo b.scale * tenTo c.scale := by rw [Int.mul_right_comm]
    _ ≤ b.coefficient * tenTo a.scale * tenTo c.scale := h₁
    _ = b.coefficient * tenTo c.scale * tenTo a.scale := by rw [Int.mul_right_comm]
    _ ≤ c.coefficient * tenTo b.scale * tenTo a.scale := h₂
    _ = c.coefficient * tenTo a.scale * tenTo b.scale := by rw [Int.mul_right_comm]

end Decimal

/-! ## Reading amounts -/

/-- Why a text is no amount. -/
inductive AmountError where
  | invalidDecimal (text : String)
  | negativePrice (text : String)
  | negativeQuantity (text : String)
deriving DecidableEq, Repr

def AmountError.message : AmountError → String
  | .invalidDecimal text => "Invalid decimal: " ++ Text.quote text
  | .negativePrice text => "Price must not be negative: " ++ text
  | .negativeQuantity text => "Quantity must not be negative: " ++ text

/-! ## Prices -/

/-- The price of one unit of a product, without trailing fraction zeros. -/
structure Price where
  value : Decimal
  normal : value.Normal
deriving DecidableEq

namespace Price

def ofDecimal (d : Decimal) : Price := ⟨d.normalize, d.normal_normalize⟩

/-- The price zero, which an empty text is read as. -/
def zero : Price := ⟨Decimal.zero, Decimal.normal_zero⟩

instance : Inhabited Price := ⟨zero⟩

def isZero (p : Price) : Bool := p.value.isZero

def render (p : Price) : String := p.value.render

/-- A price from text; it must not be negative. -/
def read (text : String) : Except AmountError Price :=
  match Decimal.read? text with
  | none => .error (.invalidDecimal text)
  | some d => if d.isNegative then .error (.negativePrice text) else .ok (ofDecimal d)

instance : Ord Price := ⟨fun a b => a.value.order b.value⟩

instance : Std.TransOrd Price where
  eq_swap {a b} := Decimal.order_swap a.value b.value
  isLE_trans hab hbc := Decimal.isLE_order_trans hab hbc

instance : Std.LawfulEqOrd Price where
  compare_self {a} := Decimal.order_eq.2 rfl
  eq_of_compare {a b} h := by
    have hv := Decimal.eq_of_value_eq a.normal b.normal (Decimal.order_eq.1 h)
    cases a; cases b; simp_all

end Price

/-! ## Quantities -/

/-- An amount of a product, without trailing fraction zeros. -/
structure Quantity where
  value : Decimal
  normal : value.Normal
deriving DecidableEq

namespace Quantity

def ofDecimal (d : Decimal) : Quantity := ⟨d.normalize, d.normal_normalize⟩

def zero : Quantity := ⟨Decimal.zero, Decimal.normal_zero⟩

instance : Inhabited Quantity := ⟨zero⟩

def isZero (q : Quantity) : Bool := q.value.isZero

/-- Whether there is nothing to trade: zero, or less than zero by mistake. -/
def isEmpty (q : Quantity) : Bool := q.value.coefficient ≤ 0

def render (q : Quantity) : String := q.value.render

/-- A quantity from text; it must not be negative. -/
def read (text : String) : Except AmountError Quantity :=
  match Decimal.read? text with
  | none => .error (.invalidDecimal text)
  | some d => if d.isNegative then .error (.negativeQuantity text) else .ok (ofDecimal d)

/-- What is left of `a` when `b` is taken away, at least nothing; `none` when the exact difference is out of
range. -/
def minus? (a b : Quantity) : Option Quantity :=
  (Decimal.sub? a.value b.value).map fun r => if r.coefficient ≤ 0 then zero else ofDecimal r

end Quantity

end MarketFeed
