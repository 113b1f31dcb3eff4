import MarketFeed.Relay.Ring

/-!
# Relay.Region — stretches of the ring's memory

A block of the ring is a stretch of memory that does not cross the end. Two facts about
stretches carry all that follows:

> `Memory.slice_congr`: what lies outside the stretch that is written keeps its bytes.
>
> `offsets_apart`: two stretches whose cursors are less than one round apart do not
> overlap in memory.

A header is a word of 64 bits in front of each block. Its fields are taken apart by shifts
and masks, which are quotients and remainders by powers of two here; a record's header
gives back its length and the size of its block, and one of padding its size, as long as
sizes are below `padMark`, which every block's size is.

The size of a block is its header and its payload, rounded up to whole words. Both sums
are made in 64 bits. `blockSize?_eq` says when they succeed, and that the size then is
`wholeWords`, so that everything behind it counts without a bound.
-/

namespace MarketFeed.Relay

/-! ## Byte strings by their bytes -/

private theorem bytes_ext {a b : Bytes} (hlen : a.length = b.length)
    (h : ∀ k, k < a.length → a.getD k 0 = b.getD k 0) : a = b := by
  apply List.ext_getElem hlen
  intro k ha hb
  have hk := h k ha
  rw [List.getD_eq_getElem?_getD, List.getElem?_eq_getElem ha, List.getD_eq_getElem?_getD,
    List.getElem?_eq_getElem hb] at hk
  exact hk

/-- Overwriting keeps the length. -/
theorem length_overwrite {buffer bytes : Bytes} {i : Nat} (h : i + bytes.length ≤ buffer.length) :
    (Bytes.overwrite buffer i bytes).length = buffer.length := by
  simp only [Bytes.overwrite, List.length_append, List.length_take, List.length_drop]
  omega

private theorem getD_overwrite {buffer bytes : Bytes} {i : Nat} (h : i + bytes.length ≤ buffer.length)
    (k : Nat) : (Bytes.overwrite buffer i bytes).getD k 0 =
      if i ≤ k ∧ k < i + bytes.length then bytes.getD (k - i) 0 else buffer.getD k 0 := by
  have htake : bytes.take (buffer.length - i) = bytes := List.take_of_length_le (by omega)
  have hfront : (buffer.take i).length = i := by rw [List.length_take]; omega
  simp only [Bytes.overwrite, htake, List.append_assoc, List.getD_eq_getElem?_getD]
  -- the place is in front of what is written, in it, or behind it
  rcases Nat.lt_or_ge k i with hk | hk
  · rw [List.getElem?_append_left (by omega), List.getElem?_take_of_lt hk, if_neg (by omega)]
  · rw [List.getElem?_append_right (by omega), hfront]
    rcases Nat.lt_or_ge k (i + bytes.length) with hk' | hk'
    · rw [List.getElem?_append_left (by omega), if_pos ⟨hk, hk'⟩]
    · rw [List.getElem?_append_right (by omega), if_neg (by omega), List.getElem?_drop,
        show i + bytes.length + (k - i - bytes.length) = k by omega]

/-- Overwriting everything leaves nothing of what was there. -/
theorem overwrite_all {buffer bytes : Bytes} (h : bytes.length = buffer.length) :
    Bytes.overwrite buffer 0 bytes = bytes := by
  have hdrop : buffer.drop (0 + bytes.length) = [] := List.drop_of_length_le (by omega)
  rw [Bytes.overwrite, hdrop, List.take_zero, List.nil_append, List.append_nil]
  exact List.take_of_length_le (by omega)

namespace Memory

/-! ## Slices -/

/-- A slice depends on its own bytes only. -/
theorem slice_congr {m m' : Memory} {i n : Nat}
    (h : ∀ j, i ≤ j → j < i + n → m'.get j = m.get j) : m'.slice i n = m.slice i n := by
  apply bytes_ext (by rw [length_slice, length_slice])
  intro k hk
  rw [length_slice] at hk
  rw [getD_slice _ _ _ _ hk, getD_slice _ _ _ _ hk]
  exact h (i + k) (by omega) (by omega)

/-- A slice of zeros. -/
theorem slice_zeros {m : Memory} {i n : Nat} (h : ∀ j, i ≤ j → j < i + n → m.get j = 0) :
    m.slice i n = List.replicate n 0 := by
  apply bytes_ext (by rw [length_slice, List.length_replicate])
  intro k hk
  rw [length_slice] at hk
  rw [getD_slice _ _ _ _ hk, h (i + k) (by omega) (by omega), List.getD_eq_getElem?_getD,
    List.getElem?_replicate_of_lt hk]
  rfl

/-- Filling a stretch leaves the bytes outside it. -/
theorem get_fill_outside {m : Memory} {i j : Nat} {bytes : Bytes} (hi : i + bytes.length ≤ m.size)
    (hj : j < i ∨ i + bytes.length ≤ j) : (m.fill i bytes).get j = m.get j := by
  rw [get_fill _ _ _ _ hi, if_neg (by omega)]

/-- So does wiping it. -/
theorem get_wipe_outside {m : Memory} {i j n : Nat} (hi : i + n ≤ m.size)
    (hj : j < i ∨ i + n ≤ j) : (m.wipe i n).get j = m.get j := by
  rw [get_wipe _ _ _ _ hi, if_neg (by omega)]

/-- What is written into a slice overwrites a part of it. -/
theorem slice_fill {m : Memory} {o n i : Nat} {bytes : Bytes} (hi : i + bytes.length ≤ n)
    (ho : o + n ≤ m.size) : (m.fill (o + i) bytes).slice o n = Bytes.overwrite (m.slice o n) i bytes := by
  have hlen : i + bytes.length ≤ (m.slice o n).length := by rw [length_slice]; exact hi
  apply bytes_ext (by rw [length_slice, length_overwrite hlen, length_slice])
  intro k hk
  rw [length_slice] at hk
  rw [getD_slice _ _ _ _ hk, get_fill _ _ _ _ (by omega), getD_overwrite hlen, getD_slice _ _ _ _ hk]
  by_cases h : i ≤ k ∧ k < i + bytes.length
  · rw [if_pos h, if_pos (by omega), show o + k - (o + i) = k - i by omega]
  · rw [if_neg h, if_neg (by omega)]

/-! ## Header words -/

/-- The header word at a place. -/
def word (m : Memory) (o : Nat) : Nat := Bytes.ofLittleEndian (m.slice o headerWidth)

/-- A header word depends on its own bytes only. -/
theorem word_congr {m m' : Memory} {o : Nat}
    (h : ∀ j, o ≤ j → j < o + headerWidth → m'.get j = m.get j) : m'.word o = m.word o := by
  rw [word, word, slice_congr h]

/-- Zeros are the header of a reservation that is not resolved. -/
theorem word_zeros {m : Memory} {o : Nat} (h : ∀ j, o ≤ j → j < o + headerWidth → m.get j = 0) :
    m.word o = 0 := by
  rw [word, slice_zeros h]
  rfl

/-- A header that was put is read back. -/
theorem word_fill {m : Memory} {o header : Nat} (ho : o + headerWidth ≤ m.size)
    (hh : header < UInt64.size) :
    (m.fill o (Bytes.littleEndian headerWidth header)).word o = header := by
  have hlen : (Bytes.littleEndian headerWidth header).length = headerWidth := Bytes.length_littleEndian _ _
  have hslice : (m.fill (o + 0) (Bytes.littleEndian headerWidth header)).slice o headerWidth =
      Bytes.littleEndian headerWidth header := by
    rw [slice_fill (by omega) ho, overwrite_all (by rw [hlen, length_slice])]
  rw [Nat.add_zero] at hslice
  rw [word, hslice, Bytes.ofLittleEndian_littleEndian]
  exact Nat.mod_eq_of_lt hh

end Memory

/-! ## Cursors on the circle -/

/-- Two stretches that do not cross the end, one behind the other within a single round, are apart in memory. -/
theorem offsets_apart {c x y s t : Nat} (hx : x % c + s ≤ c) (hy : y % c + t ≤ c) (hxy : x + s ≤ y)
    (hround : y + t ≤ x + c) : x % c + s ≤ y % c ∨ y % c + t ≤ x % c := by
  obtain ⟨d, rfl⟩ : ∃ d, y = x + d := ⟨y - x, by omega⟩
  -- the second stretch lies behind the first in memory, or it has gone past the end and lies in front
  rcases Nat.lt_or_ge (x % c + d) c with hd | hd
  · left
    rw [Nat.add_mod, Nat.mod_eq_of_lt (show d < c by omega), Nat.mod_eq_of_lt hd]
    omega
  · right
    have hc : 0 < c ∨ c = 0 := by omega
    rcases hc with hc | rfl
    · have hlt : x % c < c := Nat.mod_lt x hc
      have hsplit : (x + d) % c = (x % c + d - c) % c := by
        rw [← Nat.mod_eq_sub_mod hd, Nat.mod_add_mod]
      rw [hsplit, Nat.mod_eq_of_lt (by omega)]
      omega
    · -- without any memory a cursor is its own offset
      simp only [Nat.mod_zero] at hx ⊢
      omega

/-- A cursor behind another one of the same stretch lies behind it in memory. -/
theorem offset_add {c x s : Nat} (k : Nat) (hx : x % c + s ≤ c) (hk : k < s) :
    (x + k) % c = x % c + k := by
  rw [Nat.add_mod, Nat.mod_eq_of_lt (show k < c by omega), Nat.mod_eq_of_lt (by omega)]

/-! ## Headers -/

-- With the constants unfolded, the fields of a header are quotients and remainders by numerals, which `omega` knows.

theorem headerIsPad_padHeader {total : Nat} (h : total < padMark) : headerIsPad (padHeader total) = true := by
  simp only [headerIsPad, padHeader, padMark, UInt32.size, beq_iff_eq] at *
  omega

theorem headerTotal_padHeader {total : Nat} (h : total < padMark) : headerTotal (padHeader total) = total := by
  simp only [headerTotal, padHeader, padMark, UInt32.size] at *
  omega

theorem padHeader_ne_zero (total : Nat) : padHeader total ≠ 0 := by
  simp only [padHeader, padMark, UInt32.size]
  omega

theorem padHeader_lt {total : Nat} (h : total < padMark) : padHeader total < UInt64.size := by
  simp only [padHeader, padMark, UInt32.size, UInt64.size] at *
  omega

theorem headerIsPad_recordHeader {length total : Nat} (h : total < padMark) :
    headerIsPad (recordHeader length total) = false := by
  simp only [headerIsPad, recordHeader, padMark, UInt32.size, beq_eq_false_iff_ne] at *
  omega

theorem headerTotal_recordHeader {length total : Nat} (h : total < padMark) :
    headerTotal (recordHeader length total) = total := by
  simp only [headerTotal, recordHeader, padMark, UInt32.size] at *
  omega

theorem headerLength_recordHeader {length total : Nat} (hl : length < UInt32.size) (h : total < padMark) :
    headerLength (recordHeader length total) = length := by
  simp only [headerLength, recordHeader, padMark, UInt32.size] at *
  omega

theorem recordHeader_lt {length total : Nat} (h : total < padMark) :
    recordHeader length total < UInt64.size := by
  simp only [recordHeader, padMark, UInt32.size, UInt64.size] at *
  omega

/-! ## The size of a block -/

/-- The bytes of a record in whole words, if they are counted without a bound. -/
def wholeWords (length : Nat) : Nat := (headerWidth + length + 7) / 8 * 8

theorem dvd_wholeWords (length : Nat) : 8 ∣ wholeWords length := Nat.dvd_mul_left 8 _

/-- A block has room for its header and its payload. -/
theorem le_wholeWords (length : Nat) : headerWidth + length ≤ wholeWords length := by
  simp only [wholeWords, headerWidth]
  omega

private theorem sum?_of_lt {m n : Nat} (h : m + n < UInt64.size) : sum? m n = some (m + n) := if_pos h

private theorem sum?_of_le {m n : Nat} (h : UInt64.size ≤ m + n) : sum? m n = none := if_neg (Nat.not_lt.2 h)

/-- The checked sums of a block's size give the whole words, or there is no size. The greater of the two, which rounds
up to a whole word, is 16 more than the length. -/
theorem blockSize?_eq (length : Nat) :
    blockSize? length = if length + 16 < UInt64.size then some (wholeWords length) else none := by
  unfold blockSize?
  have hsum : headerWidth + length + wordWidth = length + 16 := by
    simp only [headerWidth, wordWidth]
    omega
  by_cases hfits : length + 16 < UInt64.size
  · rw [if_pos hfits, sum?_of_lt (by omega), Option.bind_eq_bind, Option.bind_some, sum?_of_lt (by omega)]
    rfl
  · rw [if_neg hfits]
    rcases Nat.lt_or_ge (headerWidth + length) UInt64.size with hfirst | hfirst
    · rw [sum?_of_lt hfirst, Option.bind_eq_bind, Option.bind_some, sum?_of_le (by omega)]
      rfl
    · rw [sum?_of_le hfirst]
      rfl

end MarketFeed.Relay
