import MarketFeed.Text.Utf8

/-!
# Text.Utf8 — characters are read back from their bytes

The first byte of a character says how many follow, and its range leaves out just what no
character is written as; so what `next` finds in front of the bytes of a character is that
character, whatever comes behind. A text is then read back from its bytes one character
after the other:

> `next_encodeChar`: the bytes of a character begin the character, whatever comes behind.
>
> `decode?_encode`: a text is read back from its bytes.

There is one lemma for each length, from `next_one` to `next_four`. The second byte of
three or four has a range that depends on the first one, by which shorter spellings,
surrogates and what is beyond the last character are ruled out (`secondOfThree_le_iff`,
`secondOfFour_le_iff`). That the bytes of a character lie in these ranges is arithmetic on
its code point, six bits to a byte (`tail_ofNat`).

The last section is about bytes above ASCII. The reader of values goes through the bytes
of a string looking for quotes and backslashes; a character beyond ASCII has no byte of
ASCII in it (`le_of_mem_encodeChar`), so none of its bytes is taken for one of these.
-/

namespace MarketFeed.Text.Utf8

variable {b c d e : UInt8} {rest : List UInt8}

/-! ## One character -/

private theorem isTail_iff : isTail b = true ↔ 0x80 ≤ b.toNat ∧ b.toNat ≤ 0xBF := by
  simp [isTail, UInt8.le_iff_toNat_le]

private theorem not_lt_of_le (h : 0x80 ≤ b.toNat) :
    ¬ b < 0x80 := fun hlt => Nat.not_lt.2 h (UInt8.lt_iff_toNat_lt.1 hlt)

private theorem not_le_of_lt (h : c.toNat < b.toNat) :
    ¬ b ≤ c := fun hle => Nat.not_le.2 h (UInt8.le_iff_toNat_le.1 hle)

/-- A byte below 0x80 is a character by itself. -/
theorem next_one (hb : b.toNat < 0x80) : next b rest = .char (Char.ofNat b.toNat) rest :=
  if_pos (UInt8.lt_iff_toNat_lt.2 hb)

/-- Two bytes of the right form are a character. -/
theorem next_two (hb : 0xC2 ≤ b.toNat ∧ b.toNat ≤ 0xDF) (hc : isTail c = true) :
    next b (c :: rest) = .char (Char.ofNat (b.toNat % 32 * 64 + payload c)) rest := by
  have htwo : 0xC2 ≤ b ∧ b ≤ 0xDF := ⟨UInt8.le_iff_toNat_le.2 hb.1, UInt8.le_iff_toNat_le.2 hb.2⟩
  simp only [next]
  rw [if_neg (not_lt_of_le (by omega)), if_pos htwo, if_pos hc]

/-- The second of three bytes rules out shorter spellings and surrogates. -/
theorem secondOfThree_le_iff : ((secondOfThree b).1 ≤ c ∧ c ≤ (secondOfThree b).2) ↔
    (0x80 ≤ c.toNat ∧ c.toNat ≤ 0xBF) ∧ (b.toNat = 0xE0 → 0xA0 ≤ c.toNat) ∧ (b.toNat = 0xED → c.toNat ≤ 0x9F) := by
  unfold secondOfThree
  split
  next h => subst h; simp [UInt8.le_iff_toNat_le]; omega
  next h =>
    split
    next h => subst h; simp [UInt8.le_iff_toNat_le]; omega
    next h' =>
      rw [← UInt8.toNat_inj] at h h'
      simp_all [UInt8.le_iff_toNat_le]

/-- The second of four bytes rules out shorter spellings and what is beyond the last character. -/
theorem secondOfFour_le_iff : ((secondOfFour b).1 ≤ c ∧ c ≤ (secondOfFour b).2) ↔
    (0x80 ≤ c.toNat ∧ c.toNat ≤ 0xBF) ∧ (b.toNat = 0xF0 → 0x90 ≤ c.toNat) ∧ (b.toNat = 0xF4 → c.toNat ≤ 0x8F) := by
  unfold secondOfFour
  split
  next h => subst h; simp [UInt8.le_iff_toNat_le]; omega
  next h =>
    split
    next h => subst h; simp [UInt8.le_iff_toNat_le]; omega
    next h' =>
      rw [← UInt8.toNat_inj] at h h'
      simp_all [UInt8.le_iff_toNat_le]

/-- Three bytes are one if the second is in the range that the first allows. -/
theorem next_three (hb : 0xE0 ≤ b.toNat ∧ b.toNat ≤ 0xEF)
    (hc : (0x80 ≤ c.toNat ∧ c.toNat ≤ 0xBF) ∧ (b.toNat = 0xE0 → 0xA0 ≤ c.toNat) ∧ (b.toNat = 0xED → c.toNat ≤ 0x9F))
    (hd : isTail d = true) :
    next b (c :: d :: rest) =
      .char (Char.ofNat (b.toNat % 16 * 4096 + payload c * 64 + payload d)) rest := by
  have htwo : ¬ (0xC2 ≤ b ∧ b ≤ 0xDF) := fun h => not_le_of_lt (Nat.lt_of_lt_of_le (by decide) hb.1) h.2
  have hthree : 0xE0 ≤ b ∧ b ≤ 0xEF := ⟨UInt8.le_iff_toNat_le.2 hb.1, UInt8.le_iff_toNat_le.2 hb.2⟩
  simp only [next]
  rw [if_neg (not_lt_of_le (by omega)), if_neg htwo, if_pos hthree, if_pos (secondOfThree_le_iff.2 hc), if_pos hd]

/-- So are four bytes. -/
theorem next_four (hb : 0xF0 ≤ b.toNat ∧ b.toNat ≤ 0xF4)
    (hc : (0x80 ≤ c.toNat ∧ c.toNat ≤ 0xBF) ∧ (b.toNat = 0xF0 → 0x90 ≤ c.toNat) ∧ (b.toNat = 0xF4 → c.toNat ≤ 0x8F))
    (hd : isTail d = true) (he : isTail e = true) :
    next b (c :: d :: e :: rest) =
      .char (Char.ofNat (b.toNat % 8 * 262144 + payload c * 4096 + payload d * 64 + payload e)) rest := by
  have htwo : ¬ (0xC2 ≤ b ∧ b ≤ 0xDF) := fun h => not_le_of_lt (Nat.lt_of_lt_of_le (by decide) hb.1) h.2
  have hthree : ¬ (0xE0 ≤ b ∧ b ≤ 0xEF) := fun h => not_le_of_lt (Nat.lt_of_lt_of_le (by decide) hb.1) h.2
  have hfour : 0xF0 ≤ b ∧ b ≤ 0xF4 := ⟨UInt8.le_iff_toNat_le.2 hb.1, UInt8.le_iff_toNat_le.2 hb.2⟩
  simp only [next]
  rw [if_neg (not_lt_of_le (by omega)), if_neg htwo, if_neg hthree, if_pos hfour, if_pos (secondOfFour_le_iff.2 hc),
    if_pos hd, if_pos he]

/-- A continuing byte carries six bits. -/
theorem tail_ofNat (n : Nat) : isTail (UInt8.ofNat (n % 64 + 128)) = true ∧ payload (UInt8.ofNat (n % 64 + 128)) = n % 64 := by
  have hbyte : (UInt8.ofNat (n % 64 + 128)).toNat = n % 64 + 128 := by
    rw [UInt8.toNat_ofNat']
    omega
  rw [isTail_iff, payload, hbyte]
  omega

private theorem toNat_valid (c : Char) : c.val.toNat < 0xD800 ∨ 0xDFFF < c.val.toNat ∧ c.val.toNat < 0x110000 := c.valid

/-- The bytes of a character begin the character, whatever comes behind. -/
theorem next_encodeChar (c : Char) (rest : List UInt8) :
    ∃ b tail, String.utf8EncodeChar c = b :: tail ∧ next b (tail ++ rest) = .char c rest := by
  have hvalid := toNat_valid c
  have hchar {n : Nat} (h : n = c.val.toNat) : Char.ofNat n = c := h ▸ Char.ofNat_toNat c
  have hbyte {n : Nat} (h : n < 256) : (UInt8.ofNat n).toNat = n := by
    rw [UInt8.toNat_ofNat']
    omega
  unfold String.utf8EncodeChar
  dsimp only
  -- the encoding splits by the number of bytes, and reading by the first of them
  generalize hv : c.val.toNat = v at hvalid hchar
  split
  next hone =>
    have hb := hbyte (n := v) (by omega)
    refine ⟨_, _, rfl, ?_⟩
    rw [List.nil_append, next_one (by omega), hb, hchar rfl]
  next hone =>
    obtain ⟨htail, hpayload⟩ := tail_ofNat v
    split
    next htwo =>
      have hb := hbyte (n := v / 64 % 0x20 + 0xc0) (by omega)
      refine ⟨_, _, rfl, ?_⟩
      rw [List.cons_append, List.nil_append, next_two (by omega) htail, hb, hpayload, hchar (by omega)]
    next htwo =>
      obtain ⟨htail', hpayload'⟩ := tail_ofNat (v / 64)
      split
      next hthree =>
        have hb := hbyte (n := v / 4096 % 0x10 + 0xe0) (by omega)
        have hc := hbyte (n := v / 64 % 0x40 + 0x80) (by omega)
        refine ⟨_, _, rfl, ?_⟩
        rw [List.cons_append, List.cons_append, List.nil_append, next_three (by omega) (by omega) htail, hb,
          hpayload, hpayload', hchar (by omega)]
      next hthree =>
        obtain ⟨htail'', hpayload''⟩ := tail_ofNat (v / 4096)
        have hb := hbyte (n := v / 262144 % 0x08 + 0xf0) (by omega)
        have hc := hbyte (n := v / 4096 % 0x40 + 0x80) (by omega)
        refine ⟨_, _, rfl, ?_⟩
        rw [List.cons_append, List.cons_append, List.cons_append, List.nil_append,
          next_four (by omega) (by omega) htail' htail, hb, hpayload, hpayload', hpayload'', hchar (by omega)]

/-! ## Texts -/

/-- One step of a scan for each character, of which there are no more than bytes. -/
theorem scan_encodeChars (cs : List Char) {fuel : Nat} (h : (cs.flatMap String.utf8EncodeChar).length ≤ fuel) :
    scan fuel (cs.flatMap String.utf8EncodeChar) = cs.map some := by
  induction cs generalizing fuel with
  | nil => cases fuel <;> rfl
  | cons c cs ih =>
    rw [List.flatMap_cons] at h ⊢
    obtain ⟨b, tail, hencode, hnext⟩ := next_encodeChar c (cs.flatMap String.utf8EncodeChar)
    rw [hencode] at h ⊢
    rw [List.cons_append, List.length_cons, List.length_append] at h
    cases fuel with
    | zero => omega
    | succ fuel =>
      rw [List.cons_append, scan, hnext]
      exact congrArg (some c :: ·) (ih (by omega))

/-- A text is read back from its bytes. -/
theorem decode?_encode (text : String) : decode? (encode text) = some text := by
  unfold decode? encode
  rw [scan_encodeChars text.toList (Nat.le_refl _)]
  have hall (cs : List Char) : (cs.map some).mapM id = some cs := by
    induction cs with
    | nil => rfl
    | cons c cs ih =>
      rw [List.map_cons, List.mapM_cons, ih]
      rfl
  rw [hall, Option.map_some, String.ofList_toList]

/-! ## Bytes above ASCII -/

/-- A character of ASCII is one byte. -/
theorem encodeChar_of_lt {c : Char} (h : c.toNat < 0x80) : String.utf8EncodeChar c = [c.toNat.toUInt8] :=
  if_pos (Nat.le_of_lt_succ h)

/-- A character beyond ASCII has no byte of ASCII in it. -/
theorem le_of_mem_encodeChar {c : Char} (h : 0x80 ≤ c.toNat) {b : UInt8} (hb : b ∈ String.utf8EncodeChar c) :
    0x80 ≤ b.toNat := by
  have hbyte (n m : Nat) (hm : 0 < m) (hle : m ≤ 64) (k : Nat) (hk : 128 ≤ k) (hk' : k + m ≤ 256) :
      128 ≤ (UInt8.ofNat (n % m + k)).toNat := by
    have := Nat.mod_lt n hm
    rw [UInt8.toNat_ofNat']
    omega
  unfold String.utf8EncodeChar at hb
  dsimp only at hb
  rw [if_neg (show ¬ c.val.toNat ≤ 0x7f from Nat.not_le.2 h)] at hb
  split at hb
  · simp only [List.mem_cons, List.not_mem_nil, or_false] at hb
    rcases hb with rfl | rfl <;> exact hbyte _ _ (by decide) (by decide) _ (by decide) (by decide)
  · split at hb
    · simp only [List.mem_cons, List.not_mem_nil, or_false] at hb
      rcases hb with rfl | rfl | rfl <;> exact hbyte _ _ (by decide) (by decide) _ (by decide) (by decide)
    · simp only [List.mem_cons, List.not_mem_nil, or_false] at hb
      rcases hb with rfl | rfl | rfl | rfl <;> exact hbyte _ _ (by decide) (by decide) _ (by decide) (by decide)

end MarketFeed.Text.Utf8
