import MarketFeed.Text.Blank
import MarketFeed.Text.Integer

/-!
# Text.Digits — the digits of a number

What every reader of numbers relies on, whether it reads decimals, exponents, instants or
the numbers of a value: digits are no blanks, taking up another digit makes no number
smaller, and the digits of a number begin with a zero only if there is no other digit.

The readers go through the characters of a text and look at one with `digit?`, while the
library speaks of `Char.isDigit` and makes a number of digits by `Nat.ofDigitChars`. Both
are tied together here (`digit?_of_isDigit`, `isDigit_of_digit?`), so that what a reader
has taken up can be said by the library's function, of which more is known.

> `trim_of_forall`: a text without blanks is not trimmed.

A text that is read is trimmed first. What is written by the client has no blanks at its
ends, and so it is read as it stands.
-/

namespace MarketFeed.Text

variable {c : Char} {cs : List Char}

/-- The digits have code points of their own. -/
theorem toNat_of_isDigit (h : c.isDigit = true) : 48 ≤ c.toNat ∧ c.toNat ≤ 57 := by
  simp only [Char.isDigit, Bool.and_eq_true, decide_eq_true_eq] at h
  exact h

/-- A digit stands for how far it is behind zero. -/
theorem digit?_of_isDigit (h : c.isDigit = true) : digit? c = some (c.toNat - '0'.toNat) := by
  simp only [Char.isDigit, Bool.and_eq_true, decide_eq_true_eq] at h
  exact if_pos h

/-- What is taken for a digit is one. -/
theorem isDigit_of_digit? {k : Nat} (h : digit? c = some k) : c.isDigit = true ∧ k = c.toNat - '0'.toNat := by
  unfold digit? at h
  split at h
  next hdigit =>
    refine ⟨?_, (Option.some.inj h).symm⟩
    rw [Char.isDigit, Bool.and_eq_true, decide_eq_true_eq, decide_eq_true_eq]
    exact hdigit
  next => cases h

/-- The digits of a number are digits. -/
theorem isDigit_of_mem_toDigits {n : Nat} (h : c ∈ Nat.toDigits 10 n) : c.isDigit = true :=
  Nat.isDigit_of_mem_toDigits (by decide) (by decide) h

/-- Taking up more digits makes no number smaller. -/
theorem le_ofDigitChars (ds : List Char) (n : Nat) : n ≤ Nat.ofDigitChars 10 ds n := by
  rw [Nat.ofDigitChars_eq_ofDigitChars_zero]
  exact Nat.le_add_right_of_le (Nat.le_mul_of_pos_left n (Nat.pow_pos (by decide)))

/-- The digits of a number do not begin with a zero if there are more of them. -/
theorem head?_toDigits {n : Nat} (h : 1 < (Nat.toDigits 10 n).length) : (Nat.toDigits 10 n).head? ≠ some '0' := by
  have hpos {n : Nat} (h : 0 < n) : (Nat.toDigits 10 n).head? ≠ some '0' := by
    induction n using Nat.strongRecOn with
    | _ n ih =>
      by_cases hlt : n < 10
      · have hdigit : ∀ n < 10, 0 < n → Nat.digitChar n ≠ '0' := by decide
        rw [Nat.toDigits_of_lt_base hlt]
        exact fun heq => hdigit n hlt h (Option.some.inj heq)
      · obtain ⟨d, more, hcons⟩ := List.exists_cons_of_ne_nil (Nat.toDigits_ne_nil (n := n / 10) (b := 10))
        have hrest := ih (n / 10) (by omega) (by omega)
        rw [hcons] at hrest
        rw [Nat.toDigits_of_base_le (by decide) (Nat.not_lt.1 hlt), hcons]
        exact hrest
  refine hpos (Nat.pos_of_ne_zero ?_)
  rintro rfl
  exact absurd h (by decide)

/-! ## Blanks -/

/-- A digit is no blank. -/
theorem isBlank_of_isDigit (h : c.isDigit = true) : isBlank c = false := by
  have hc := toNat_of_isDigit h
  simp only [isBlank, blankRanges, List.any_cons, List.any_nil, Bool.or_false, Bool.or_eq_false_iff,
    Bool.and_eq_false_iff, decide_eq_false_iff_not]
  omega

private theorem dropWhile_isBlank (h : ∀ c ∈ cs, isBlank c = false) : cs.dropWhile isBlank = cs := by
  cases cs with
  | nil => rfl
  | cons c rest => exact List.dropWhile_cons_of_neg (by rw [h c List.mem_cons_self]; exact Bool.false_ne_true)

/-- A text without blanks is not trimmed. -/
theorem trim_of_forall (h : ∀ c ∈ cs, isBlank c = false) : trim cs = cs := by
  unfold trim
  rw [dropWhile_isBlank h, dropWhile_isBlank fun c hc => h c (List.mem_reverse.1 hc), List.reverse_reverse]

end MarketFeed.Text
