import MarketFeed.Amount
import MarketFeed.Proofs.Text.Digits

/-!
# Decimal.Text — a decimal is read back from its text

A decimal is written with all its fraction digits, and reading takes up one digit after
the other. The digits that have been read never make more than the coefficient that was
written, and no more stand behind the point than the scale says; so none of them has to be
rounded. What comes back has the coefficient and the scale of what was written, up to the
ends of both ranges. Only the sign of a zero is lost:

> `read?_render`: a decimal is read back from its text with every digit, a zero without
> its minus sign (`Decimal.plain`).

The text is taken apart into the digits in front of the point, at least one, and those
behind it, as many as the scale says (`renderDigits_eq`). Reading is followed over a list
of digits at once (`readUnsigned_digits`): as long as what they make is in range, they are
taken up as the number that they make together, which is a fact about `Nat.ofDigitChars`.

What a price or a quantity keeps of a decimal is without trailing zeros, and reading one
back gives the same again (`normalize_plain`). What becomes of texts that no decimal was
written as, with more digits than fit, is the matter of `Decimal.Reading`.
-/

namespace MarketFeed

namespace Decimal

open Text

/-! ## Digits -/

/-- Digits are taken up as they come, as long as what they make is in range and there is room behind the point. -/
theorem readUnsigned_digits {n : Nat} (scale : Nat) (point seen : Bool) {ds : List Char} (rest : List Char)
    (hds : ∀ c ∈ ds, c.isDigit = true) (hlt : Nat.ofDigitChars 10 ds n < limit)
    (hscale : point = true → scale + ds.length ≤ maxScale) :
    readUnsigned n scale point seen (ds ++ rest) =
      readUnsigned (Nat.ofDigitChars 10 ds n) (if point then scale + ds.length else scale) point
        (seen || !ds.isEmpty) rest := by
  induction ds generalizing n scale seen with
  | nil => simp
  | cons c ds ih =>
    rw [Nat.ofDigitChars_cons, Nat.mul_comm] at hlt
    have hfits : n * 10 + (c.toNat - '0'.toNat) < limit := Nat.lt_of_le_of_lt (le_ofDigitChars ds _) hlt
    have hroom : point = false ∨ scale < maxScale := by
      cases point with
      | false => exact Or.inl rfl
      | true =>
        have := hscale rfl
        rw [List.length_cons] at this
        exact Or.inr (by omega)
    have hscale' : point = true → (if point = true then scale + 1 else scale) + ds.length ≤ maxScale := by
      intro hpoint
      have := hscale hpoint
      rw [List.length_cons] at this
      rw [if_pos hpoint]
      omega
    rw [List.cons_append, readUnsigned, digit?_of_isDigit (hds c List.mem_cons_self)]
    dsimp only
    rw [if_pos ⟨hfits, hroom⟩, ih _ _ (fun c hc => hds c (List.mem_cons_of_mem _ hc)) hlt hscale',
      Nat.ofDigitChars_cons, Nat.mul_comm 10 n]
    cases point
    · simp
    · simp [Nat.add_assoc, Nat.add_comm 1]

/-- The digits of a coefficient, with zeros in front until there is one before the point. -/
def paddedDigits (n scale : Nat) : List Char :=
  List.replicate (scale + 1 - (Nat.toDigits 10 n).length) '0' ++ Nat.toDigits 10 n

private theorem isDigit_of_mem_paddedDigits {n scale : Nat} {c : Char} (h : c ∈ paddedDigits n scale) :
    c.isDigit = true := by
  rcases List.mem_append.1 h with hzero | hdigit
  · rw [List.eq_of_mem_replicate hzero]
    rfl
  · exact isDigit_of_mem_toDigits hdigit

private theorem ofDigitChars_paddedDigits (n scale : Nat) : Nat.ofDigitChars 10 (paddedDigits n scale) 0 = n := by
  rw [paddedDigits, Nat.ofDigitChars_append, Nat.ofDigitChars_replicate_zero, Nat.mul_zero,
    Nat.ofDigitChars_ten_toDigits]

private theorem lt_length_paddedDigits (n scale : Nat) : scale < (paddedDigits n scale).length := by
  rw [paddedDigits, List.length_append, List.length_replicate]
  omega

/-- Digits in front of the point, at least one, and behind it as many as the scale says. -/
theorem renderDigits_eq (n scale : Nat) : ∃ whole fraction, whole ++ fraction = paddedDigits n scale ∧ whole ≠ [] ∧
    fraction.length = scale ∧ renderDigits n scale = if scale = 0 then whole else whole ++ '.' :: fraction := by
  have hlt := lt_length_paddedDigits n scale
  refine ⟨(paddedDigits n scale).take ((paddedDigits n scale).length - scale),
    (paddedDigits n scale).drop ((paddedDigits n scale).length - scale), List.take_append_drop _ _, ?_, ?_, rfl⟩
  · rw [ne_eq, List.take_eq_nil_iff]
    rintro (hzero | hnil)
    · omega
    · rw [hnil, List.length_nil] at hlt
      omega
  · rw [List.length_drop]
    omega

private theorem mem_renderDigits {n scale : Nat} {c : Char} (h : c ∈ renderDigits n scale) :
    c.isDigit = true ∨ c = '.' := by
  obtain ⟨whole, fraction, happend, -, -, hrender⟩ := renderDigits_eq n scale
  have hdigit (c : Char) (hc : c ∈ whole ++ fraction) : c.isDigit = true :=
    isDigit_of_mem_paddedDigits (happend ▸ hc)
  rw [hrender] at h
  split at h
  · exact Or.inl (hdigit c (List.mem_append_left _ h))
  · rcases List.mem_append.1 h with hwhole | htail
    · exact Or.inl (hdigit c (List.mem_append_left _ hwhole))
    · rcases List.mem_cons.1 htail with hpoint | hfraction
      · exact Or.inr hpoint
      · exact Or.inl (hdigit c (List.mem_append_right _ hfraction))

private theorem isDigit_head_renderDigits (n scale : Nat) :
    ∃ c rest, renderDigits n scale = c :: rest ∧ c.isDigit = true := by
  obtain ⟨whole, fraction, happend, hne, -, hrender⟩ := renderDigits_eq n scale
  obtain ⟨c, more, rfl⟩ := List.exists_cons_of_ne_nil hne
  have hc : c.isDigit = true := isDigit_of_mem_paddedDigits (happend ▸ List.mem_append_left _ List.mem_cons_self)
  split at hrender
  · exact ⟨c, _, hrender, hc⟩
  · exact ⟨c, _, hrender, hc⟩

/-- The coefficient and the scale are read back. -/
theorem readUnsigned_renderDigits {n scale : Nat} (hn : n < limit) (hscale : scale ≤ maxScale) :
    readUnsigned 0 0 false false (renderDigits n scale) = some (n, scale) := by
  obtain ⟨whole, fraction, happend, hne, hlength, hrender⟩ := renderDigits_eq n scale
  have hdigit (c : Char) (hc : c ∈ whole ++ fraction) : c.isDigit = true :=
    isDigit_of_mem_paddedDigits (happend ▸ hc)
  have hwhole (c : Char) (hc : c ∈ whole) : c.isDigit = true := hdigit c (List.mem_append_left _ hc)
  have hfraction (c : Char) (hc : c ∈ fraction) : c.isDigit = true := hdigit c (List.mem_append_right _ hc)
  have hvalue : Nat.ofDigitChars 10 fraction (Nat.ofDigitChars 10 whole 0) = n := by
    rw [← Nat.ofDigitChars_append, happend, ofDigitChars_paddedDigits]
  have hlt : Nat.ofDigitChars 10 whole 0 < limit :=
    Nat.lt_of_le_of_lt (le_ofDigitChars fraction _) (hvalue ▸ hn)
  have hseen : whole.isEmpty = false := List.isEmpty_eq_false_iff.2 hne
  rw [hrender]
  split
  next hzero =>
    obtain rfl : fraction = [] := List.length_eq_zero_iff.1 (hlength.trans hzero)
    have hread := readUnsigned_digits 0 false false [] hwhole hlt (by simp)
    rw [List.append_nil, hseen] at hread
    rw [hread, hzero]
    exact congrArg (fun n => some (n, 0)) hvalue
  next =>
    rw [readUnsigned_digits 0 false false _ hwhole hlt (by simp), hseen, readUnsigned]
    have hread := readUnsigned_digits 0 true true [] hfraction (hvalue ▸ hn)
      (fun _ => by omega)
    rw [List.append_nil, hvalue, if_pos rfl, Nat.zero_add, hlength] at hread
    exact hread

/-! ## Decimals -/

/-- The same amount, a zero without its minus sign. -/
def plain (d : Decimal) : Decimal where
  coefficient := d.coefficient
  scale := d.scale
  coefficient_lt := d.coefficient_lt
  scale_le := d.scale_le

variable {d : Decimal}

private theorem strip_of_isNormal {c : Int} {s : Nat} (h : IsNormal c s) : strip c s = (c, s) := by
  cases s with
  | zero => rfl
  | succ s => exact if_neg (h.resolve_left (Nat.succ_ne_zero s))

/-- Without its trailing zeros and its minus sign, an amount that had neither is what it was. -/
theorem normalize_plain (h : d.Normal) : d.plain.normalize = d := by
  have hstrip : strip d.coefficient d.scale = (d.coefficient, d.scale) := strip_of_isNormal h.1
  obtain ⟨c, s, minusZero, _, _, _⟩ := d
  obtain rfl : minusZero = false := h.2
  simp only at hstrip
  simp only [plain, normalize, hstrip]

private theorem ofParts?_plain (d : Decimal) : ofParts? d.coefficient d.scale = some d.plain :=
  dif_pos ⟨d.coefficient_lt, d.scale_le⟩

/-- A text that begins with a digit has no sign. -/
theorem readPlain?_of_isDigit {c : Char} (h : c.isDigit = true) (cs : List Char) :
    readPlain? (c :: cs) = (readUnsigned 0 0 false false (c :: cs)).bind fun p => ofParts? p.1 p.2 := by
  unfold readPlain?
  split
  next heq =>
    obtain ⟨rfl, -⟩ := List.cons.inj heq
    cases h
  next heq =>
    obtain ⟨rfl, -⟩ := List.cons.inj heq
    cases h
  next => rfl

/-- A decimal is written in plain notation, with a sign only if it is a minus sign. -/
theorem readPlain?_renderChars (d : Decimal) : readPlain? d.renderChars = some d.plain := by
  have hread := readUnsigned_renderDigits d.coefficient_lt d.scale_le
  unfold renderChars
  split
  next hminus =>
    rw [readPlain?, hread, Option.bind_some, ← ofParts?_plain]
    congr 1
    rw [hasMinus, Bool.or_eq_true, isNegative, decide_eq_true_iff] at hminus
    rcases hminus with hneg | hzero
    · omega
    · rw [d.coefficient_eq hzero]
      rfl
  next hminus =>
    obtain ⟨c, rest, hrender, hc⟩ := isDigit_head_renderDigits d.coefficient.natAbs d.scale
    rw [hrender, readPlain?_of_isDigit hc, ← hrender, hread, Option.bind_some, ← ofParts?_plain]
    congr 1
    rw [hasMinus, Bool.or_eq_true, isNegative, decide_eq_true_iff] at hminus
    omega

private theorem isBlank_of_mem_renderChars {c : Char} (h : c ∈ d.renderChars) : isBlank c = false := by
  have hdigits (h : c ∈ renderDigits d.coefficient.natAbs d.scale) : isBlank c = false := by
    rcases mem_renderDigits h with hdigit | rfl
    · exact isBlank_of_isDigit hdigit
    · rfl
  unfold renderChars at h
  split at h
  · rcases List.mem_cons.1 h with rfl | hmore
    · rfl
    · exact hdigits hmore
  · exact hdigits h

/-- A decimal is read back from its text, with every digit; a zero comes back without its minus sign. -/
theorem read?_render (d : Decimal) : read? d.render = some d.plain := by
  have hplain := readPlain?_renderChars d
  unfold read? readChars? render
  rw [String.toList_ofList, trim_of_forall fun c => isBlank_of_mem_renderChars]
  split
  next hnil =>
    rw [hnil] at hplain
    cases hplain
  next =>
    rw [hplain]
    rfl

end Decimal

end MarketFeed
