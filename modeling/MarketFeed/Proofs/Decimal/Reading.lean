import MarketFeed.Proofs.Decimal.Monotone
import MarketFeed.Proofs.Text.Digits
import MarketFeed.Decimal.Text
import Mathlib.Data.List.TakeDrop
import Mathlib.Data.List.TakeWhile
import Mathlib.Tactic.Ring

/-!
# Decimal.Reading — a text is read as the number that it denotes

A text may have more digits than a decimal can hold. The first digit that does not fit
decides how the others are rounded, in front of an exponent before the point is moved. The
number that a text denotes is defined without any of that (`number`): all its digits as
one number, over a power of ten, times another one for the exponent.

If some decimal is exactly the number that the text denotes, and some decimal the number
in front of its exponent (`Kept`), then all the digits that do not fit are zeros: one
other than zero would stand too far behind the point, or make the coefficient too large
(`Held.dvd`). So nothing is rounded:

> `toRat_of_readChars?`: a text is read as the number that it denotes, unless a digit
> other than zero is lost, however it is padded with zeros.
>
> `kept_iff`: of a text that is read, this is exactly so if what stands in front of the
> exponent is read as its number, and so is the whole.

The induction is over the characters (`readUnsigned_value`). What it keeps is the number
of the whole text, which is what has been read so far with the digits still to come behind
it (`placesFrom` counts those behind the point). At the first digit that does not fit the
reader leaves the induction, and the digits to come are zeros (`roundInto_value`).

Moving the point for an exponent rounds as well, to the left by shortening and to the
right by taking fraction digits away; neither loses anything if there is a decimal for
what comes out (`toRat_of_scaleDown?`, `toRat_of_scaleUp?`).
-/

namespace MarketFeed

namespace Decimal

open Text

/-! ## The number of a text -/

/-- The digits of a text as one number, whatever stands between them. -/
def digitsNumber (cs : List Char) : ℕ := Nat.ofDigitChars 10 (cs.filter Char.isDigit) 0

/-- How many digits stand behind the point. -/
def places (cs : List Char) : ℕ := (cs.dropWhile (· != '.')).countP Char.isDigit

/-- Whether a text begins with a minus sign. -/
def Minus (cs : List Char) : Prop := cs.head? = some '-'

instance (cs : List Char) : Decidable (Minus cs) := inferInstanceAs (Decidable (_ = _))

private theorem minus_cons {c : Char} {cs : List Char} : Minus (c :: cs) ↔ c = '-' := by
  rw [Minus, List.head?_cons, Option.some.injEq]

/-- The number of a text in plain notation. -/
def plainNumber (cs : List Char) : ℚ :=
  if Minus cs then -(digitsNumber cs / 10 ^ places cs) else digitsNumber cs / 10 ^ places cs

/-- What stands in front of the exponent, all of the text if it has none. -/
def base (cs : List Char) : List Char := (trim cs).takeWhile fun c => c != 'e' && c != 'E'

/-- What stands behind the letter in front of the exponent. -/
def exponent (cs : List Char) : List Char := ((trim cs).dropWhile fun c => c != 'e' && c != 'E').drop 1

/-- The number of a text in either notation; without an exponent it is the one of plain notation, without digits it is
zero. -/
def number (cs : List Char) : ℚ :=
  plainNumber (base cs) * 10 ^ (if Minus (exponent cs) then -(digitsNumber (exponent cs) : ℤ) else digitsNumber (exponent cs))

/-- That some decimal is exactly this number: no digit other than zero is too far behind the point or too much for the
coefficient. -/
def Held (x : ℚ) : Prop := ∃ d : Decimal, d.toRat = x

/-- That no digit other than zero is lost, neither in front of the exponent nor when the point is moved. -/
def Kept (cs : List Char) : Prop := Held (plainNumber (base cs)) ∧ Held (number cs)

/-! ## Held numbers -/

private theorem cast_tenTo (n : ℕ) : (tenTo n : ℚ) = 10 ^ n := by
  rw [tenTo, Nat.pow_eq, Nat.cast_pow, Nat.cast_ofNat]

variable {x : ℚ}

/-- A decimal is its coefficient over a power of ten. -/
theorem toRat_eq (d : Decimal) : d.toRat = d.coefficient / 10 ^ d.scale := by
  rw [toRat, cast_tenTo]

private theorem held_neg_iff : Held (-x) ↔ Held x := by
  constructor <;> rintro ⟨d, hd⟩ <;> exact ⟨d.neg, by rw [toRat_neg, hd]; try rw [neg_neg]⟩

/-- A held number is a coefficient in range over a power of ten in range. -/
theorem Held.exists_coefficient {t s : ℕ} (h : Held (t / 10 ^ s)) :
    ∃ c u, c < limit ∧ u ≤ maxScale ∧ c * 10 ^ s = t * 10 ^ u := by
  obtain ⟨d, hd⟩ := h
  refine ⟨d.coefficient.natAbs, d.scale, d.coefficient_lt, d.scale_le, ?_⟩
  rw [toRat_eq, div_eq_div_iff (by positivity) (by positivity)] at hd
  have hcross : d.coefficient * 10 ^ s = t * 10 ^ d.scale := by exact_mod_cast hd
  have habs := congrArg Int.natAbs hcross
  simpa only [Int.natAbs_mul, Int.natAbs_pow, Int.natAbs_natCast, Int.reduceAbs] using habs

/-- Digits beyond what can be held are zeros: `k` digits more than `s` behind the point, where there is no room behind
the point or none in the coefficient. -/
theorem Held.dvd {t s k : ℕ} (h : Held (t / 10 ^ (s + k)))
    (hfull : s = maxScale ∨ 0 < k ∧ limit * 10 ^ (k - 1) ≤ t) : 10 ^ k ∣ t := by
  obtain ⟨c, u, hc, hu, hcross⟩ := h.exists_coefficient
  rcases Nat.lt_or_ge s u with hsu | hus
  · -- the decimal has more digits behind the point, so its coefficient is too large
    exfalso
    obtain ⟨hk, hlarge⟩ := hfull.resolve_left (by omega)
    obtain ⟨v, rfl⟩ := Nat.exists_eq_add_of_lt hsu
    have hle : limit * 10 ^ (s + k) ≤ c * 10 ^ (s + k) :=
      calc limit * 10 ^ (s + k) = limit * 10 ^ (k - 1) * 10 ^ (s + 1) := by
            rw [Nat.mul_assoc, ← Nat.pow_add, show k - 1 + (s + 1) = s + k by omega]
        _ ≤ t * 10 ^ (s + v + 1) := Nat.mul_le_mul hlarge (Nat.pow_le_pow_right (by decide) (by omega))
        _ = c * 10 ^ (s + k) := hcross.symm
    exact absurd (Nat.le_of_mul_le_mul_right hle (Nat.pow_pos (by decide))) (Nat.not_le.2 hc)
  · obtain ⟨v, rfl⟩ := Nat.exists_eq_add_of_le hus
    have hpos : 0 < 10 ^ u := Nat.pow_pos (by decide)
    refine ⟨c * 10 ^ v, Nat.eq_of_mul_eq_mul_right hpos ?_⟩
    rw [← hcross]
    ring

private theorem Held.dvd_natAbs {c : ℤ} {k : ℕ} (h : Held (c / 10 ^ (maxScale + k))) : 10 ^ k ∣ c.natAbs := by
  rcases Int.natAbs_eq c with hc | hc
  · rw [hc, Int.cast_natCast] at h
    exact h.dvd (Or.inl rfl)
  · rw [hc, Int.cast_neg, Int.cast_natCast, neg_div, held_neg_iff] at h
    exact h.dvd (Or.inl rfl)

/-! ## Digits -/

/-- Each digit makes a number ten times as large, at least. -/
theorem mul_pow_le_ofDigitChars (ds : List Char) (n : ℕ) : n * 10 ^ ds.length ≤ Nat.ofDigitChars 10 ds n := by
  rw [Nat.ofDigitChars_eq_ofDigitChars_zero, Nat.mul_comm]
  exact Nat.le_add_right _ _

/-- Digits add less than one to the place in front of them. -/
theorem ofDigitChars_lt {ds : List Char} (hds : ∀ c ∈ ds, c.isDigit = true) (n : ℕ) :
    Nat.ofDigitChars 10 ds n < (n + 1) * 10 ^ ds.length := by
  induction ds generalizing n with
  | nil => simp
  | cons c ds ih =>
    have hc := toNat_of_isDigit (hds c List.mem_cons_self)
    have hzero : '0'.toNat = 48 := rfl
    have hrest := ih (fun c hc => hds c (List.mem_cons_of_mem _ hc)) (10 * n + (c.toNat - '0'.toNat))
    rw [Nat.ofDigitChars_cons]
    calc Nat.ofDigitChars 10 ds (10 * n + (c.toNat - '0'.toNat))
        < (10 * n + (c.toNat - '0'.toNat) + 1) * 10 ^ ds.length := hrest
      _ ≤ ((n + 1) * 10) * 10 ^ ds.length := Nat.mul_le_mul_right _ (by omega)
      _ = (n + 1) * 10 ^ (c :: ds).length := by rw [List.length_cons, Nat.mul_assoc, Nat.pow_succ']

/-- Digits that make a multiple of their power of ten are zeros. -/
theorem ofDigitChars_of_dvd {ds : List Char} {n : ℕ} (hds : ∀ c ∈ ds, c.isDigit = true)
    (h : 10 ^ ds.length ∣ Nat.ofDigitChars 10 ds n) : Nat.ofDigitChars 10 ds n = n * 10 ^ ds.length := by
  obtain ⟨q, hq⟩ := h
  have hlow := mul_pow_le_ofDigitChars ds n
  have hhigh := ofDigitChars_lt hds n
  rw [hq, Nat.mul_comm _ q] at hlow hhigh
  rw [hq, Nat.mul_comm _ q]
  have hpos : 0 < 10 ^ ds.length := Nat.pow_pos (by decide)
  have hge : n ≤ q := Nat.le_of_mul_le_mul_right hlow hpos
  have hlt : q < n + 1 := Nat.lt_of_mul_lt_mul_right hhigh
  rw [Nat.le_antisymm hge (Nat.le_of_lt_succ hlt)]

/-! ## Plain notation -/

/-- How many digits are still to come behind the point, once it has been passed or before. -/
def placesFrom (point : Bool) (cs : List Char) : ℕ := if point then cs.countP Char.isDigit else places cs

section

variable {point seen : Bool} {n m s d scale : ℕ} {c : Char} {cs : List Char}

private theorem placesFrom_cons (h : c ≠ '.') :
    placesFrom point (c :: cs) = placesFrom point cs + if point ∧ c.isDigit then 1 else 0 := by
  cases point with
  | true => simp [placesFrom, List.countP_cons]
  | false => simp [placesFrom, places, h]

private theorem placesFrom_point : placesFrom false ('.' :: cs) = placesFrom true cs := by
  show ('.' :: cs).countP Char.isDigit = cs.countP Char.isDigit
  exact List.countP_cons_of_neg (by decide)

private theorem placesFrom_underscore : placesFrom point ('_' :: cs) = placesFrom point cs := by
  rw [placesFrom_cons (by decide), if_neg (by rintro ⟨-, h⟩; cases h), Nat.add_zero]

private theorem placesFrom_true : placesFrom true cs = (cs.filter Char.isDigit).length := List.countP_eq_length_filter

/-- Where there is no room for more digits, the ones to come are zeros. -/
theorem ofDigitChars_of_full {k : ℕ} (hk : k = (cs.filter Char.isDigit).length)
    (hheld : Held (Nat.ofDigitChars 10 (cs.filter Char.isDigit) n / 10 ^ (scale + k)))
    (hfull : scale = maxScale ∨ 0 < k ∧ limit * 10 ^ (k - 1) ≤ Nat.ofDigitChars 10 (cs.filter Char.isDigit) n) :
    Nat.ofDigitChars 10 (cs.filter Char.isDigit) n = n * 10 ^ k := by
  subst hk
  exact ofDigitChars_of_dvd (fun c hc => (List.mem_filter.1 hc).2) (hheld.dvd hfull)

private theorem div_pow_add (n scale k : ℕ) : ((n * 10 ^ k : ℕ) : ℚ) / 10 ^ (scale + k) = n / 10 ^ scale := by
  rw [Nat.cast_mul, Nat.cast_pow, Nat.cast_ofNat, pow_add, mul_div_mul_right _ _ (by positivity)]

/-- A zero that does not fit leaves everything as it is. -/
theorem roundInto_zero (h : n < limit) : roundInto n scale 0 = some (n, scale) := by
  simp only [roundInto, Nat.reduceLeDiff, if_false, h, if_true]

/-- A digit that does not fit is a zero, and so are all behind it. -/
theorem roundInto_value {k : ℕ} (hc : c.isDigit = true) (hd : d = c.toNat - '0'.toNat)
    (hread : roundInto n scale d = some (m, s)) (hn : n < limit)
    (hfull : scale = maxScale ∨ limit ≤ n * 10 + d) (hk : k = ((c :: cs).filter Char.isDigit).length)
    (hheld : Held (Nat.ofDigitChars 10 ((c :: cs).filter Char.isDigit) n / 10 ^ (scale + k))) :
    (m : ℚ) / 10 ^ s = Nat.ofDigitChars 10 ((c :: cs).filter Char.isDigit) n / 10 ^ (scale + k) := by
  have hlength : k = (cs.filter Char.isDigit).length + 1 := by
    rw [hk, List.filter_cons_of_pos hc, List.length_cons]
  have hlow : (n * 10 + d) * 10 ^ (cs.filter Char.isDigit).length ≤
      Nat.ofDigitChars 10 ((c :: cs).filter Char.isDigit) n := by
    rw [List.filter_cons_of_pos hc, Nat.ofDigitChars_cons, ← hd, Nat.mul_comm 10 n]
    exact mul_pow_le_ofDigitChars _ _
  have hzeros := ofDigitChars_of_full hk hheld <| hfull.imp_right fun hlarge => by
    rw [hlength, Nat.add_sub_cancel]
    exact ⟨Nat.succ_pos _, le_trans (Nat.mul_le_mul_right _ hlarge) hlow⟩
  have hd0 : d = 0 := by
    rw [hzeros, hlength, Nat.pow_succ', ← Nat.mul_assoc] at hlow
    have := Nat.le_of_mul_le_mul_right hlow (Nat.pow_pos (by decide))
    omega
  rw [hd0, roundInto_zero hn] at hread
  obtain ⟨rfl, rfl⟩ := Prod.mk.inj (Option.some.inj hread)
  rw [hzeros, div_pow_add]

/-- What becomes of one character: a digit is taken up, or it does not fit and rounds what has been read, the point is
passed, and an underscore is passed over, or ends the reading where there is no room for more digits. -/
theorem readUnsigned_cons_cases (h : readUnsigned n scale point seen (c :: cs) = some (m, s)) :
    (∃ d, digit? c = some d ∧
      (n * 10 + d < limit ∧ (point = false ∨ scale < maxScale) ∧
          readUnsigned (n * 10 + d) (if point then scale + 1 else scale) point true cs = some (m, s) ∨
        point = true ∧ ¬(n * 10 + d < limit ∧ scale < maxScale) ∧ isTail cs = true ∧
          roundInto n scale d = some (m, s))) ∨
    c = '.' ∧ point = false ∧ readUnsigned n scale true seen cs = some (m, s) ∨
    c = '_' ∧ (readUnsigned n scale point seen cs = some (m, s) ∨
      scale = maxScale ∧ isTail cs = true ∧ m = n ∧ s = scale) := by
  rw [readUnsigned] at h
  split at h
  next d hdigit =>
    refine Or.inl ⟨d, hdigit, ?_⟩
    split at h
    next hfits => exact Or.inl ⟨hfits.1, hfits.2, h⟩
    next hfull =>
      split at h
      next htail => exact Or.inr ⟨htail.1, fun hroom => hfull ⟨hroom.1, Or.inr hroom.2⟩, htail.2, h⟩
      next => cases h
  next =>
    split at h
    next hdot => exact Or.inr (Or.inl ⟨hdot.1, hdot.2, h⟩)
    next =>
      split at h
      next hunderscore =>
        refine Or.inr (Or.inr ⟨hunderscore.1, ?_⟩)
        split at h
        next hlast =>
          split at h
          next htail =>
            obtain ⟨rfl, rfl⟩ := Prod.mk.inj (Option.some.inj h)
            exact Or.inr ⟨hlast.1, htail, rfl, rfl⟩
          next => cases h
        next => exact Or.inl h
      next => cases h

/-- All digits are taken up, or those that are not are zeros. The number of the whole text is what has been read so
far with the digits still to come behind it, so it stays the same from one character to the next. -/
theorem readUnsigned_value (hread : readUnsigned n scale point seen cs = some (m, s)) (hn : n < limit)
    (hscale : scale ≤ maxScale) (hpoint : point = false → scale = 0)
    (hheld : Held (Nat.ofDigitChars 10 (cs.filter Char.isDigit) n / 10 ^ (scale + placesFrom point cs))) :
    (m : ℚ) / 10 ^ s = Nat.ofDigitChars 10 (cs.filter Char.isDigit) n / 10 ^ (scale + placesFrom point cs) := by
  induction cs generalizing n scale point seen with
  | nil =>
    rw [readUnsigned] at hread
    split at hread
    next =>
      obtain ⟨rfl, rfl⟩ := Prod.mk.inj (Option.some.inj hread)
      cases point <;> rfl
    next => cases hread
  | cons c cs ih =>
    rcases readUnsigned_cons_cases hread with
      ⟨d, hdigit, ⟨hfits, hroom, hrest⟩ | ⟨rfl, hfull, -, hround⟩⟩ | ⟨rfl, rfl, hrest⟩ |
      ⟨rfl, hrest | ⟨hlast, -, rfl, rfl⟩⟩
    · -- a digit that fits
      obtain ⟨hc, hd⟩ := isDigit_of_digit? hdigit
      have hdigits : Nat.ofDigitChars 10 ((c :: cs).filter Char.isDigit) n =
          Nat.ofDigitChars 10 (cs.filter Char.isDigit) (n * 10 + d) := by
        rw [List.filter_cons_of_pos hc, Nat.ofDigitChars_cons, ← hd, Nat.mul_comm]
      have hplaces : scale + placesFrom point (c :: cs) =
          (if point = true then scale + 1 else scale) + placesFrom point cs := by
        rw [placesFrom_cons (by rintro rfl; cases hc)]
        cases point
        · simp
        · simp [hc]
          omega
      rw [hdigits, hplaces] at hheld ⊢
      refine ih hrest hfits ?_ ?_ hheld
      · cases point with
        | false => exact hscale
        | true => exact hroom.resolve_left Bool.noConfusion
      · rintro rfl
        exact hpoint rfl
    · -- one that does not: here the number being held is needed
      obtain ⟨hc, hd⟩ := isDigit_of_digit? hdigit
      have hfull' : scale = maxScale ∨ limit ≤ n * 10 + d := by
        by_contra hroom
        exact hfull ⟨by omega, by omega⟩
      exact roundInto_value hc hd hround hn hfull' placesFrom_true hheld
    · rw [List.filter_cons_of_neg (by decide), placesFrom_point] at hheld ⊢
      exact ih hrest hn hscale (fun h => by cases h) hheld
    · rw [List.filter_cons_of_neg (by decide), placesFrom_underscore] at hheld ⊢
      exact ih hrest hn hscale hpoint hheld
    · -- the room behind the point is used up, so the point has been passed
      obtain rfl : point = true := eq_true_of_ne_false fun h => absurd ((hpoint h).symm.trans hlast) (by decide)
      rw [List.filter_cons_of_neg (by decide), placesFrom_underscore] at hheld ⊢
      rw [ofDigitChars_of_full placesFrom_true hheld (Or.inl hlast), div_pow_add]

/-- Only digits, points and underscores are read. -/
theorem mem_of_readUnsigned (hread : readUnsigned n scale point seen cs = some (m, s)) {a : Char} (ha : a ∈ cs) :
    a.isDigit = true ∨ a = '.' ∨ a = '_' := by
  have htail {cs : List Char} (h : isTail cs = true) (ha : a ∈ cs) : a.isDigit = true ∨ a = '.' ∨ a = '_' := by
    have hmem := List.all_eq_true.1 h a ha
    rw [Bool.or_eq_true, beq_iff_eq, Option.isSome_iff_exists] at hmem
    rcases hmem with ⟨d, hd⟩ | hunderscore
    · exact Or.inl (isDigit_of_digit? hd).1
    · exact Or.inr (Or.inr hunderscore)
  induction cs generalizing n scale point seen with
  | nil => cases ha
  | cons c cs ih =>
    rcases readUnsigned_cons_cases hread with ⟨d, hdigit, hrest⟩ | ⟨rfl, -, hrest⟩ | ⟨rfl, hrest⟩
    · rcases List.mem_cons.1 ha with rfl | ha
      · exact Or.inl (isDigit_of_digit? hdigit).1
      · rcases hrest with ⟨-, -, hrest⟩ | ⟨-, -, hdigits, -⟩
        · exact ih hrest ha
        · exact htail hdigits ha
    · rcases List.mem_cons.1 ha with rfl | ha
      · exact Or.inr (Or.inl rfl)
      · exact ih hrest ha
    · rcases List.mem_cons.1 ha with rfl | ha
      · exact Or.inr (Or.inr rfl)
      · rcases hrest with hrest | ⟨-, hdigits, -⟩
        · exact ih hrest ha
        · exact htail hdigits ha

end

variable {d r : Decimal} {cs : List Char}

/-- Plain notation is a sign, if any, and what `readUnsigned` takes. -/
theorem readPlain?_cases (h : readPlain? cs = some d) : ∃ m s, d.scale = s ∧
    ((∃ rest, cs = '-' :: rest ∧ readUnsigned 0 0 false false rest = some (m, s) ∧ d.coefficient = -(m : ℤ)) ∨
      (∃ rest, cs = '+' :: rest ∧ readUnsigned 0 0 false false rest = some (m, s) ∧ d.coefficient = m) ∨
      ¬Minus cs ∧ readUnsigned 0 0 false false cs = some (m, s) ∧ d.coefficient = m) := by
  unfold readPlain? at h
  split at h
  next rest =>
    obtain ⟨⟨m, s⟩, hread, hparts⟩ := Option.bind_eq_some_iff.1 h
    obtain ⟨hc, hs⟩ := ofParts?_eq_some hparts
    exact ⟨m, s, hs, Or.inl ⟨rest, rfl, hread, hc⟩⟩
  next rest =>
    obtain ⟨⟨m, s⟩, hread, hparts⟩ := Option.bind_eq_some_iff.1 h
    obtain ⟨hc, hs⟩ := ofParts?_eq_some hparts
    exact ⟨m, s, hs, Or.inr (Or.inl ⟨rest, rfl, hread, hc⟩)⟩
  next cs hminus _ =>
    obtain ⟨⟨m, s⟩, hread, hparts⟩ := Option.bind_eq_some_iff.1 h
    obtain ⟨hc, hs⟩ := ofParts?_eq_some hparts
    refine ⟨m, s, hs, Or.inr (Or.inr ⟨?_, hread, hc⟩)⟩
    intro hhead
    obtain ⟨rest, rfl⟩ := List.head?_eq_some_iff.1 hhead
    exact hminus rest rfl

private theorem digitsNumber_cons {c : Char} (h : c.isDigit = false) : digitsNumber (c :: cs) = digitsNumber cs := by
  rw [digitsNumber, List.filter_cons_of_neg (by rw [h]; exact Bool.false_ne_true), digitsNumber]

private theorem places_cons {c : Char} (h : c ≠ '.') : places (c :: cs) = places cs := by
  simp [places, h]

/-- An unsigned text is read as its digits over their places. -/
theorem readUnsigned_plain {m s : ℕ} (hread : readUnsigned 0 0 false false cs = some (m, s))
    (hheld : Held (digitsNumber cs / 10 ^ places cs)) : (m : ℚ) / 10 ^ s = digitsNumber cs / 10 ^ places cs := by
  have hplaces : places cs = 0 + placesFrom false cs := (Nat.zero_add _).symm
  rw [hplaces] at hheld ⊢
  exact readUnsigned_value hread (by decide) (by decide) (fun _ => rfl) hheld

/-- Plain notation is read as its number. -/
theorem toRat_of_readPlain? (h : readPlain? cs = some d) (hheld : Held (plainNumber cs)) :
    d.toRat = plainNumber cs := by
  obtain ⟨m, s, rfl, ⟨rest, rfl, hread, hc⟩ | ⟨rest, rfl, hread, hc⟩ | ⟨hminus, hread, hc⟩⟩ := readPlain?_cases h
  · have hnumber : plainNumber ('-' :: rest) = -(digitsNumber rest / 10 ^ places rest) := by
      rw [plainNumber, if_pos (minus_cons.2 rfl), digitsNumber_cons rfl, places_cons (by decide)]
    rw [hnumber] at hheld ⊢
    rw [toRat_eq, hc, ← readUnsigned_plain hread (held_neg_iff.1 hheld)]
    push_cast
    ring
  · have hnumber : plainNumber ('+' :: rest) = digitsNumber rest / 10 ^ places rest := by
      rw [plainNumber, if_neg (by rw [minus_cons]; decide), digitsNumber_cons rfl, places_cons (by decide)]
    rw [hnumber] at hheld ⊢
    rw [toRat_eq, hc, ← readUnsigned_plain hread hheld]
    rfl
  · rw [plainNumber, if_neg hminus] at hheld ⊢
    rw [toRat_eq, hc, ← readUnsigned_plain hread hheld]
    rfl

/-- There is no exponent in what is read as plain notation. -/
theorem not_mem_of_readPlain? (h : readPlain? cs = some d) : ∀ c ∈ cs, (c != 'e' && c != 'E') = true := by
  have hplain {rest : List Char} {m s : ℕ} (hread : readUnsigned 0 0 false false rest = some (m, s)) :
      ∀ c ∈ rest, (c != 'e' && c != 'E') = true := by
    intro c hc
    rcases mem_of_readUnsigned hread hc with hdigit | rfl | rfl
    · rw [Bool.and_eq_true, bne_iff_ne, bne_iff_ne]
      constructor <;> rintro rfl <;> cases hdigit
    · rfl
    · rfl
  obtain ⟨m, s, -, ⟨rest, rfl, hread, -⟩ | ⟨rest, rfl, hread, -⟩ | ⟨-, hread, -⟩⟩ := readPlain?_cases h
  · exact List.forall_mem_cons.2 ⟨rfl, hplain hread⟩
  · exact List.forall_mem_cons.2 ⟨rfl, hplain hread⟩
  · exact hplain hread

/-! ## Scientific notation -/

/-- Digits below a bound are read as the number that they make. -/
theorem digitsBelow?_value {bound acc k : ℕ} (h : digitsBelow? bound acc cs = some k) :
    k = Nat.ofDigitChars 10 (cs.filter Char.isDigit) acc := by
  induction cs generalizing acc with
  | nil => exact (Option.some.inj h).symm
  | cons c cs ih =>
    rw [digitsBelow?] at h
    obtain ⟨d, hdigit, hrest⟩ := Option.bind_eq_some_iff.1 h
    obtain ⟨hc, hd⟩ := isDigit_of_digit? hdigit
    split at hrest
    next =>
      rw [List.filter_cons_of_pos hc, Nat.ofDigitChars_cons, ← hd, Nat.mul_comm 10 acc]
      exact ih hrest
    next => cases hrest

/-- An exponent without a minus sign is the number of its digits. -/
theorem nat?_value {bound k : ℕ} (h : nat? bound cs = some k) : k = digitsNumber cs ∧ ¬Minus cs := by
  have hmagnitude {rest : List Char} (h : magnitude? bound rest = some k) : k = digitsNumber rest ∧ ¬Minus rest := by
    cases rest with
    | nil => cases h
    | cons c rest =>
      refine ⟨digitsBelow?_value h, ?_⟩
      intro hminus
      obtain rfl := Option.some.inj hminus
      cases h
  unfold nat? at h
  split at h
  next rest =>
    rw [digitsNumber_cons rfl]
    exact ⟨(hmagnitude h).1, by rw [minus_cons]; decide⟩
  next => exact hmagnitude h

/-- A multiple is divided without rounding. -/
theorem signed_mul_of_dvd {rule : ℕ → ℕ → ℕ} {n : ℤ} {m : ℕ} (hrule : ∀ k, rule (m * k) m = k) (h : m ∣ n.natAbs) :
    Rounding.signed rule n m * m = n := by
  obtain ⟨k, hk⟩ := h
  rw [Rounding.signed, hk, hrule, mul_assoc, ← Nat.cast_mul, Nat.mul_comm k m, ← hk]
  exact Int.sign_mul_natAbs n

private theorem halfUp_mul {m : ℕ} (hm : 0 < m) (k : ℕ) : Rounding.halfUp (m * k) m = k := by
  rw [Rounding.halfUp, Nat.mul_mod_right, if_pos (by omega), Nat.mul_div_cancel_left _ hm]

private theorem halfEven_mul {m : ℕ} (hm : 0 < m) (k : ℕ) : Rounding.halfEven (m * k) m = k := by
  rw [Rounding.halfEven, Nat.mul_mod_right, if_pos (by omega), Nat.mul_div_cancel_left _ hm]

private theorem withScale?_eq_some {s : ℕ} (h : d.withScale? s = some r) :
    r.coefficient = d.coefficient ∧ r.scale = s := by
  unfold withScale? at h
  split at h
  next =>
    obtain rfl := Option.some.inj h
    exact ⟨rfl, rfl⟩
  next => cases h

private theorem shorten?_eq_some {t : ℕ} (h : d.shorten? t = some r) (ht : t < d.scale) :
    r.coefficient = Rounding.signed Rounding.halfUp d.coefficient (tenTo (d.scale - t)) ∧ r.scale = t := by
  rw [shorten?, if_neg (Nat.not_le.2 ht)] at h
  obtain ⟨r', hparts, hr⟩ := Option.map_eq_some_iff.1 h
  obtain ⟨hc, hs⟩ := ofParts?_eq_some hparts
  subst hr
  split
  next => exact ⟨hc, hs⟩
  next => exact ⟨hc, hs⟩

private theorem toRat_div_pow (d : Decimal) (e : ℕ) : d.toRat / 10 ^ e = d.coefficient / 10 ^ (d.scale + e) := by
  rw [toRat_eq, div_div, ← pow_add]

/-- The point is moved to the left without rounding if there is a decimal for what comes out. -/
theorem toRat_of_scaleDown? {e : ℕ} (h : d.scaleDown? e = some r) (hheld : Held (d.toRat / 10 ^ e)) :
    r.toRat = d.toRat / 10 ^ e := by
  rw [toRat_div_pow] at hheld ⊢
  unfold scaleDown? at h
  split at h
  next => cases h
  next he =>
    split at h
    next =>
      obtain ⟨hc, hs⟩ := withScale?_eq_some h
      rw [toRat_eq, hc, hs]
    next hroom =>
      obtain ⟨a, hshort, hmoved⟩ := Option.bind_eq_some_iff.1 h
      obtain ⟨hc, hs⟩ := withScale?_eq_some hmoved
      obtain ⟨ha, hat⟩ := shorten?_eq_some hshort (by omega)
      obtain ⟨k, hk⟩ : ∃ k, d.scale + e = maxScale + k := ⟨d.scale + e - maxScale, by omega⟩
      have hdrop : d.scale - (maxScale - e) = k := by omega
      have hr : r.scale = maxScale := by omega
      rw [hk] at hheld ⊢
      -- what is cut off are zeros
      have hexact : r.coefficient * tenTo k = d.coefficient := by
        rw [hc, ha, hdrop]
        exact signed_mul_of_dvd (halfUp_mul (tenTo_pos k)) hheld.dvd_natAbs
      rw [toRat_eq, hr, ← hexact, pow_add, Int.cast_mul, Int.cast_natCast, cast_tenTo,
        mul_div_mul_right _ _ (by positivity)]

/-- The point is moved to the right without rounding: no fraction digits are left where that takes more digits. -/
theorem toRat_of_scaleUp? {e : ℕ} (h : d.scaleUp? e = some r) : r.toRat = d.toRat * 10 ^ e := by
  unfold scaleUp? at h
  split at h
  next he =>
    obtain ⟨hc, hs⟩ := withScale?_eq_some h
    obtain ⟨k, hk⟩ := Nat.exists_eq_add_of_le he
    rw [toRat_eq, toRat_eq, hc, hs, hk, Nat.add_sub_cancel_left, pow_add, div_mul_eq_mul_div, mul_comm (10 ^ e) (10 ^ k),
      mul_div_mul_right _ _ (by positivity)]
  next he =>
    split at h
    next => cases h
    next =>
      split at h
      next hzero =>
        obtain rfl := Option.some.inj h
        rw [toRat_zero, toRat_of_isZero hzero, zero_mul]
      next =>
        obtain ⟨a, hnearest, rfl⟩ := Option.map_eq_some_iff.1 h
        -- the digits that are rounded away are zeros, which moving the point has put there
        obtain ⟨u, hu, rfl, ha, -⟩ := exists_of_nearestFrom hnearest
        have hle : a.scale ≤ d.scale := hu.trans (Nat.min_le_left _ _)
        have hdvd : tenTo (d.scale - a.scale) ∣ (d.coefficient * tenTo e).natAbs := by
          rw [Int.natAbs_mul, Int.natAbs_natCast]
          obtain ⟨k, hk⟩ := Nat.exists_eq_add_of_le (show d.scale - a.scale ≤ e by omega)
          exact Dvd.dvd.mul_left ⟨tenTo k, by rw [hk, tenTo_add]⟩ _
        have hexact : a.coefficient * tenTo (d.scale - a.scale) = d.coefficient * tenTo e := by
          rw [ha]
          exact signed_mul_of_dvd (halfEven_mul (tenTo_pos _)) hdvd
        have hcoefficient : (a.coefficient : ℚ) * 10 ^ (d.scale - a.scale) = d.coefficient * 10 ^ e := by
          rw [← cast_tenTo, ← cast_tenTo]
          exact_mod_cast hexact
        have hscale : (10 : ℚ) ^ d.scale = 10 ^ a.scale * 10 ^ (d.scale - a.scale) := by
          rw [← pow_add, Nat.add_sub_cancel' hle]
        rw [toRat_normalize, toRat_eq, toRat_eq, div_mul_eq_mul_div, ← hcoefficient, hscale,
          mul_div_mul_right _ _ (by positivity)]

/-! ## Either notation -/

private theorem number_of_minus {e : List Char} (h : exponent cs = '-' :: e) :
    number cs = plainNumber (base cs) / 10 ^ digitsNumber e := by
  rw [number, h, if_pos (minus_cons.2 rfl), digitsNumber_cons rfl, zpow_neg, zpow_natCast, div_eq_mul_inv]

private theorem number_of_not_minus (h : ¬Minus (exponent cs)) :
    number cs = plainNumber (base cs) * 10 ^ digitsNumber (exponent cs) := by
  rw [number, if_neg h, zpow_natCast]

/-- Scientific notation is plain notation and an exponent, of which a minus sign moves the point to the left. -/
theorem readScientific?_cases (h : readScientific? (trim cs) = some d) : ∃ a, readPlain? (base cs) = some a ∧
    ((∃ e k, exponent cs = '-' :: e ∧ nat? exponentBound e = some k ∧ a.scaleDown? k = some d) ∨
      ∃ k, nat? exponentBound (exponent cs) = some k ∧ a.scaleUp? k = some d) := by
  unfold readScientific? at h
  rw [List.span_eq_takeWhile_dropWhile] at h
  split at h
  next => cases h
  next b c e hspan =>
    obtain ⟨rfl, hdrop⟩ := Prod.mk.inj hspan
    have hexponent : exponent cs = e := by rw [exponent, hdrop, List.drop_one, List.tail_cons]
    obtain ⟨a, hplain, hmoved⟩ := Option.bind_eq_some_iff.1 h
    refine ⟨a, hplain, ?_⟩
    rw [hexponent]
    split at hmoved
    next e =>
      obtain ⟨k, hk, hdown⟩ := Option.bind_eq_some_iff.1 hmoved
      exact Or.inl ⟨e, k, rfl, hk, hdown⟩
    next =>
      obtain ⟨k, hk, hup⟩ := Option.bind_eq_some_iff.1 hmoved
      exact Or.inr ⟨k, hk, hup⟩

/-- A text with an exponent is read as its number. -/
theorem toRat_of_readScientific? (h : readScientific? (trim cs) = some d) (hkept : Kept cs) : d.toRat = number cs := by
  obtain ⟨a, hplain, hmoved⟩ := readScientific?_cases h
  have ha : a.toRat = plainNumber (base cs) := toRat_of_readPlain? hplain hkept.1
  have hheld := hkept.2
  rcases hmoved with ⟨e, k, he, hk, hdown⟩ | ⟨k, hk, hup⟩
  · rw [number_of_minus he, ← ha, ← (nat?_value hk).1] at hheld ⊢
    exact toRat_of_scaleDown? hdown hheld
  · rw [number_of_not_minus (nat?_value hk).2, ← ha, ← (nat?_value hk).1]
    exact toRat_of_scaleUp? hup

/-- Without an exponent the number is the one of plain notation. -/
theorem number_of_plain (h : ∀ c ∈ trim cs, (c != 'e' && c != 'E') = true) : number cs = plainNumber (base cs) := by
  have hexponent : exponent cs = [] := by
    rw [exponent, List.dropWhile_eq_nil_iff.2 h, List.drop_nil]
  rw [number_of_not_minus (by rw [hexponent]; decide), hexponent]
  exact mul_one _

/-- A text is blank, or in plain notation, or has an exponent. -/
theorem readChars?_cases (h : readChars? cs = some d) :
    (trim cs = [] ∧ d = zero) ∨ readPlain? (trim cs) = some d ∨ readScientific? (trim cs) = some d := by
  unfold readChars? at h
  split at h
  next hnil => exact Or.inl ⟨hnil, (Option.some.inj h).symm⟩
  next =>
    rcases Option.or_eq_some_iff.1 h with hplain | ⟨-, hscientific⟩
    · exact Or.inr (Or.inl hplain)
    · exact Or.inr (Or.inr hscientific)

private theorem base_of_plain (h : ∀ c ∈ trim cs, (c != 'e' && c != 'E') = true) : base cs = trim cs :=
  List.takeWhile_eq_self_iff.2 h

private theorem plainNumber_nil : plainNumber [] = 0 := by
  simp [plainNumber, Minus, digitsNumber]

/-- A text is read as the number that it denotes, unless a digit other than zero is lost. -/
theorem toRat_of_readChars? (h : readChars? cs = some d) (hkept : Kept cs) : d.toRat = number cs := by
  rcases readChars?_cases h with ⟨hnil, rfl⟩ | hplain | hscientific
  · rw [number_of_plain (by rw [hnil]; simp), toRat_zero, base, hnil, List.takeWhile_nil, plainNumber_nil]
  · have hletters := not_mem_of_readPlain? hplain
    have hbase := base_of_plain hletters
    rw [number_of_plain hletters, hbase]
    exact toRat_of_readPlain? hplain (hbase ▸ hkept.1)
  · exact toRat_of_readScientific? hscientific hkept

/-- Of a text that is read, no digit other than zero is lost exactly if what stands in front of the exponent is read
as its number, and so is the whole. -/
theorem kept_iff (h : readChars? cs = some d) : Kept cs ↔
    (∀ a, readPlain? (base cs) = some a → a.toRat = plainNumber (base cs)) ∧ d.toRat = number cs := by
  refine ⟨fun hkept => ⟨fun a ha => toRat_of_readPlain? ha hkept.1, toRat_of_readChars? h hkept⟩, ?_⟩
  rintro ⟨hbase, hwhole⟩
  refine ⟨?_, d, hwhole⟩
  rcases readChars?_cases h with ⟨hnil, -⟩ | hplain | hscientific
  · exact ⟨zero, by rw [toRat_zero, base, hnil, List.takeWhile_nil, plainNumber_nil]⟩
  · exact ⟨d, hbase d (base_of_plain (not_mem_of_readPlain? hplain) ▸ hplain)⟩
  · obtain ⟨a, ha, -⟩ := readScientific?_cases hscientific
    exact ⟨a, hbase a ha⟩

end Decimal

end MarketFeed
