import MarketFeed.Proofs.Decimal.Reading
import MarketFeed.Proofs.Decimal.Text
import MarketFeed.Proofs.Json.Rendering
import MarketFeed.Wire.Field
import Mathlib.Order.Compare

/-!
# Wire.Spellings — equal prices are one key

A price comes as a text, in plain or in scientific notation, or as a JSON integer, and one
number has any number of spellings. The order book has one level for each price, so all of
them have to become the same price:

> `Spelling.ranked_of_gives`: as long as no digit other than zero is lost in reading,
> spellings of one number are one price, shown as one text and at one place of the order;
> those of different numbers are different, shown differently and in the order of the
> numbers.

Both directions rest on one fact: what is read stands for the number that was spelled
(`Spelling.Gives.toRat_eq`). The rest is a matter of prices alone, which are decimals
without trailing zeros: they are equal exactly if their numbers are (`Price.ranked`).

What a text spells is `Decimal.number`, defined from its characters and not by reading it;
that reading gives the number is in `Decimal.Reading`. An integer takes another path,
through the JSON numeral: of 64 bits it is a whole number, longer ones would be floating
point. A zero with a minus sign is not a whole number there, but it comes out as zero all
the same (`value?_integer`).
-/

namespace MarketFeed

open Decode Json

/-! ## Prices and the numbers that they stand for -/

/-- Two prices are to each other what two numbers are. -/
structure Price.Ranked (p q : Price) (x y : ℚ) : Prop where
  /-- Equal numbers are one price, different ones are two. -/
  eq_iff : p = q ↔ x = y
  /-- So are the texts that are shown. -/
  render_eq_iff : p.render = q.render ↔ x = y
  /-- The order of a book's levels is the order of the numbers. -/
  compare_eq : compare p q = cmp x y

/-- Decimals are compared as their numbers are. -/
theorem Decimal.order_eq_cmp (a b : Decimal) : a.order b = cmp a.toRat b.toRat := by
  rcases lt_trichotomy a.toRat b.toRat with h | h | h
  · rw [order_eq_lt_iff.2 h, (cmp_eq_lt_iff _ _).2 h]
  · rw [(cmp_eq_eq_iff _ _).2 h]
    cases horder : a.order b with
    | lt => exact absurd h (order_eq_lt_iff.1 horder).ne
    | eq => rfl
    | gt =>
      rw [order_swap, Ordering.swap_eq_gt] at horder
      exact absurd h (order_eq_lt_iff.1 horder).ne'
  · rw [order_swap, order_eq_lt_iff.2 h, (cmp_eq_gt_iff _ _).2 h]
    rfl

namespace Price

variable {p q : Price}

/-- So are prices. -/
theorem compare_eq_cmp (p q : Price) : compare p q = cmp p.value.toRat q.value.toRat := p.value.order_eq_cmp q.value

/-- Prices have no trailing zeros, so a number is one price. -/
theorem toRat_inj : p.value.toRat = q.value.toRat ↔ p = q := by
  rw [← cmp_eq_eq_iff, ← compare_eq_cmp, Std.LawfulEqOrd.compare_eq_iff_eq]

/-- A price is read back from what is shown of it. -/
theorem render_inj : p.render = q.render ↔ p = q := by
  refine ⟨fun h => ?_, fun h => h ▸ rfl⟩
  have hplain : p.value.plain = q.value.plain := by
    have hread := congrArg Decimal.read? h
    rw [render, render, Decimal.read?_render, Decimal.read?_render] at hread
    exact Option.some.inj hread
  have hvalue : p.value = q.value := by
    rw [← Decimal.normalize_plain p.normal, hplain, Decimal.normalize_plain q.normal]
  cases p
  cases q
  cases hvalue
  rfl

/-- Prices are to each other what the numbers are that they stand for. -/
theorem ranked (p q : Price) : Ranked p q p.value.toRat q.value.toRat where
  eq_iff := toRat_inj.symm
  render_eq_iff := render_inj.trans toRat_inj.symm
  compare_eq := compare_eq_cmp p q

/-- Taking trailing zeros away leaves the number. -/
theorem toRat_ofDecimal (d : Decimal) : (ofDecimal d).value.toRat = d.toRat := d.toRat_normalize

end Price

/-! ## Spellings -/

/-- A price as a message spells it. -/
inductive Spelling where
  /-- In a text. -/
  | text (s : String)
  /-- As a JSON number without a point and without an exponent. -/
  | integer (negative : Bool) (digits : List Char)

namespace Spelling

/-- The number of a row of digits. -/
def magnitude (digits : List Char) : ℕ := Nat.ofDigitChars 10 digits 0

/-- The number that is spelled. -/
def number : Spelling → ℚ
  | text s => Decimal.number s.toList
  | integer negative digits => if negative then -(magnitude digits : ℚ) else magnitude digits

/-- That no digit other than zero of a text is lost, or that an integer has 64 bits, signed or unsigned. -/
def Kept : Spelling → Prop
  | text s => Decimal.Kept s.toList
  | integer negative digits => if negative then magnitude digits ≤ signedBound else magnitude digits < UInt64.size

/-- The value that a decoder is handed. -/
def draft? : Spelling → Option Draft
  | text s => some (.string s)
  | integer negative digits => (Numeral.value? ⟨negative, Draft.values digits, none, none⟩).map .number

/-- The prices that come out of a spelling: a field's value is decoded, or a text is read by itself. -/
inductive Gives : Spelling → Price → Prop where
  | decoded {a : Spelling} {d : Draft} {p : Price} (src : Source) (draft : a.draft? = some d)
      (decode : Price.decode src d = .ok p) : Gives a p
  | read {s : String} {p : Price} (read : Price.read s = .ok p) : Gives (text s) p

/-! ## Texts -/

variable {s : String} {p : Price} {a : Spelling}

private theorem decode_string (src : Source) {d : Decimal} (h : Decimal.read? s = some d) :
    Price.decode src (.string s) = .ok (Price.ofDecimal d) := by
  rw [Price.decode, decimal, h]
  rfl

private theorem toRat_of_decode {src : Source} (h : Price.decode src (.string s) = .ok p) (hkept : (text s).Kept) :
    p.value.toRat = (text s).number := by
  cases hread : Decimal.read? s with
  | none =>
    rw [Price.decode, decimal, hread] at h
    cases h
  | some d =>
    rw [decode_string src hread] at h
    obtain rfl := Except.ok.inj h
    rw [Price.toRat_ofDecimal]
    exact Decimal.toRat_of_readChars? hread hkept

private theorem toRat_of_read (h : Price.read s = .ok p) (hkept : (text s).Kept) : p.value.toRat = (text s).number := by
  unfold Price.read at h
  split at h
  next => cases h
  next d hread =>
    split at h
    next => cases h
    next =>
      obtain rfl := Except.ok.inj h
      rw [Price.toRat_ofDecimal]
      exact Decimal.toRat_of_readChars? hread hkept

/-! ## Integers -/

private theorem ofScientific?_minusZero : Binary.ofScientific? true 0 0 = some ⟨true, 0, Binary.minExponent⟩ := by
  decide +kernel

/-- An integer of 64 bits is read as it is, but a zero with a minus sign as a floating point number. -/
theorem value?_integer {negative : Bool} {digits : List Char} (h : (integer negative digits).Kept) :
    Numeral.value? ⟨negative, Draft.values digits, none, none⟩ =
      some (if negative = true ∧ magnitude digits = 0 then .binary ⟨true, 0, Binary.minExponent⟩
        else .whole (if negative then -(magnitude digits : ℤ) else magnitude digits)) := by
  have hbound : magnitude digits < Numeral.significandBound := by
    cases negative with
    | false => exact h
    | true => exact Nat.lt_of_le_of_lt h (by decide)
  have hdigits := Draft.takeDigits_values digits hbound
  rw [Numeral.value?, hdigits]
  cases negative with
  | false => rfl
  | true =>
    have hsigned : ¬signedBound < magnitude digits := Nat.not_lt.2 h
    change (if magnitude digits = 0 ∨ signedBound < magnitude digits then
      (Binary.ofScientific? true (magnitude digits) 0).map Number.binary
      else some (.whole (-(magnitude digits : ℤ)))) = _
    by_cases hzero : magnitude digits = 0
    · rw [if_pos (Or.inl hzero), if_pos ⟨rfl, hzero⟩, hzero, ofScientific?_minusZero]
      rfl
    · rw [if_neg (not_or.2 ⟨hzero, hsigned⟩), if_neg fun h => hzero h.2]
      rfl

private theorem decimal_minusZero (src : Source) :
    decimal src (.number (.binary ⟨true, 0, Binary.minExponent⟩)) = .ok Decimal.zero := by
  have hread : Decimal.readChars? (Binary.renderChars ⟨true, 0, Binary.minExponent⟩) = some Decimal.zero := by
    decide +kernel
  rw [decimal, hread]

/-- A whole number below the limit is a decimal. -/
theorem decimal_whole (src : Source) {n : ℤ} (h : n.natAbs < Decimal.limit) :
    ∃ d, decimal src (.number (.whole n)) = .ok d ∧ d.toRat = n := by
  have hfits : Decimal.ofInt? n = some ⟨n, 0, false, h, by decide, by simp⟩ := dif_pos ⟨h, by decide⟩
  refine ⟨_, by rw [decimal, hfits], ?_⟩
  rw [Decimal.toRat, tenTo_zero, Nat.cast_one, div_one]

/-- An integer of 64 bits has its price, however the message is decoded. -/
theorem decode_integer {negative : Bool} {digits : List Char} (h : (integer negative digits).Kept) :
    ∃ d, (integer negative digits).draft? = some d ∧ ∀ src, ∃ p, Price.decode src d = .ok p ∧
      p.value.toRat = (integer negative digits).number := by
  refine ⟨_, by rw [draft?, value?_integer h, Option.map_some], ?_⟩
  intro src
  split
  next hzero =>
    refine ⟨_, by rw [Price.decode, decimal_minusZero]; rfl, ?_⟩
    rw [Price.toRat_ofDecimal, Decimal.toRat_zero, number, if_pos hzero.1, hzero.2, Nat.cast_zero, neg_zero]
  next =>
    have hbound : (if negative then -(magnitude digits : ℤ) else magnitude digits).natAbs < Decimal.limit := by
      cases negative with
      | false => exact Nat.lt_of_lt_of_le h (by decide)
      | true =>
        rw [if_pos rfl, Int.natAbs_neg, Int.natAbs_natCast]
        exact Nat.lt_of_le_of_lt h (by decide)
    obtain ⟨d, hd, hvalue⟩ := decimal_whole src hbound
    refine ⟨_, by rw [Price.decode, hd]; rfl, ?_⟩
    rw [Price.toRat_ofDecimal, hvalue, number]
    cases negative with
    | false => rfl
    | true => exact Int.cast_neg _

/-! ## One key -/

/-- What is read stands for the number that was spelled. -/
theorem Gives.toRat_eq (h : a.Gives p) (hkept : a.Kept) : p.value.toRat = a.number := by
  cases h with
  | read hread => exact toRat_of_read hread hkept
  | @decoded _ d _ src hdraft hdecode =>
    cases a with
    | text s =>
      obtain rfl := Option.some.inj hdraft
      exact toRat_of_decode hdecode hkept
    | integer negative digits =>
      obtain ⟨d', hdraft', hdecode'⟩ := decode_integer hkept
      obtain rfl := Option.some.inj (hdraft.symm.trans hdraft')
      obtain ⟨p', hp', hvalue⟩ := hdecode' src
      obtain rfl := Except.ok.inj (hdecode.symm.trans hp')
      exact hvalue

/-- Spellings of one number are one price, shown as one text and at one place of the order; those of different numbers
are different, shown differently and in the order of the numbers. An integer of 64 bits always is a price, also a zero
with a minus sign, which is decoded as a floating point number. -/
theorem ranked_of_gives :
    (∀ {a b : Spelling} {p q : Price}, a.Kept → b.Kept → a.Gives p → b.Gives q → p.Ranked q a.number b.number) ∧
    ∀ {negative : Bool} {digits : List Char}, (integer negative digits).Kept →
      ∃ d, (integer negative digits).draft? = some d ∧ ∀ src, ∃ p, Price.decode src d = .ok p := by
  constructor
  · intro a b p q ha hb hp hq
    rw [← hp.toRat_eq ha, ← hq.toRat_eq hb]
    exact p.ranked q
  · intro negative digits h
    obtain ⟨d, hdraft, hdecode⟩ := decode_integer h
    refine ⟨d, hdraft, fun src => ?_⟩
    obtain ⟨p, hp, -⟩ := hdecode src
    exact ⟨p, hp⟩

/-- The greatest number of 64 bits, with more zeros behind the point than there is room for. -/
def padded : Spelling := .text " +1_8446744073709551.615000000000000000000000e3 "

/-- The same number as an integer. -/
def unpadded : Spelling := .integer false (Nat.toDigits 10 18446744073709551615)

private theorem kept_padded : padded.Kept :=
  ⟨⟨⟨18446744073709551615, 3, false, by decide, by decide, by simp⟩, by decide +kernel⟩,
    ⟨⟨18446744073709551615, 0, false, by decide, by decide, by simp⟩, by decide +kernel⟩⟩

private theorem gives_padded : ∃ p, padded.Gives p := by
  have hread : (Decimal.read? " +1_8446744073709551.615000000000000000000000e3 ").isSome = true := by decide +kernel
  obtain ⟨d, hd⟩ := Option.isSome_iff_exists.1 hread
  exact ⟨_, .decoded .text rfl (decode_string .text hd)⟩

/-- The padded text and the integer are one price. -/
theorem ranked_padded : padded.Kept ∧ unpadded.Kept ∧ ∃ p q, padded.Gives p ∧ unpadded.Gives q ∧ p = q ∧
    p.render = q.render ∧ compare p q = .eq := by
  have hkept : unpadded.Kept := by
    show magnitude _ < _
    decide +kernel
  have hnumber : padded.number = unpadded.number := by decide +kernel
  obtain ⟨p, hp⟩ := gives_padded
  obtain ⟨d, hdraft, hdecode⟩ := ranked_of_gives.2 hkept
  obtain ⟨q, hq⟩ := hdecode .text
  have hranked := ranked_of_gives.1 kept_padded hkept hp (.decoded .text hdraft hq)
  exact ⟨kept_padded, hkept, p, q, hp, .decoded .text hdraft hq, hranked.eq_iff.2 hnumber,
    hranked.render_eq_iff.2 hnumber, hranked.compare_eq.trans ((cmp_eq_eq_iff _ _).2 hnumber)⟩

end Spelling

end MarketFeed
