import MarketFeed.Json.Draft
import MarketFeed.Proofs.Text.Digits
import MarketFeed.Proofs.Text.Utf8

/-!
# Json.Rendering — a value is read back from its text

A value is written without blanks, its strings with the usual escapes and its whole
numbers as digits. The text is read by a reader that counts its steps, looks ahead for the
end of a number and decodes the bytes of a string only after its escapes. For the text of
a value none of this matters: there are steps enough, a number ends where a comma, a
bracket or the text does, and the escapes leave the bytes of the string that was written.

> `ofBytes_render`: the draft that is read from the text of a value is the draft of the
> value, with nothing behind it, as long as the numbers in it are whole and fit 64 bits
> (`Whole`).

A draft is what has been read of a text before a record asks for it, failures included;
that the text of a value gives the same draft is why a record need not be read from both
(`Decode.Records`).

Each part of a text is read with something behind it, so the lemmas are about the text of
a part in front of any bytes. For strings that is `Spells`, which holds of the closing
quote and is kept by every character in front, escaped or not (`Spells.escape`). For
numbers what comes behind must not go on with the number (`Stops`), as commas and closing
brackets do not. Values, items and members are then one induction over the value, with the
steps that are left as a bound on the length of the text (`value_renderChars`).
-/

namespace MarketFeed.Json

namespace Draft

/-- The bytes of characters. -/
def utf8 (cs : List Char) : Bytes := cs.flatMap String.utf8EncodeChar

variable {cs ds : List Char} {c : Char} {s rest t content : Bytes} {b e x : UInt8} {fuel : Nat}

@[simp] theorem utf8_append : utf8 (cs ++ ds) = utf8 cs ++ utf8 ds := List.flatMap_append

private theorem utf8_cons : utf8 (c :: cs) = String.utf8EncodeChar c ++ utf8 cs := List.flatMap_cons

private theorem utf8_cons_of_lt (h : c.toNat < 0x80) : utf8 (c :: cs) = byte c :: utf8 cs := by
  rw [utf8_cons, Text.Utf8.encodeChar_of_lt h]
  rfl

private theorem toNat_byte (h : c.toNat < 0x80) : (byte c).toNat = c.toNat := by
  unfold byte
  rw [Nat.toUInt8, UInt8.toNat_ofNat']
  omega

/-! ## Strings -/

/-- That the text of a string is passed over, and read as its content, whatever is behind it. -/
def Spells (t content : Bytes) : Prop :=
  ∀ fuel rest, t.length ≤ fuel →
    skipString fuel (t ++ rest) = .ok rest ∧ stringBytes fuel (t ++ rest) = .ok (content, rest)

/-- The closing quote ends a string. -/
theorem spells_quote : Spells [byte '"'] [] := by
  intro fuel rest h
  cases fuel with
  | zero => cases h
  | succ fuel => exact ⟨rfl, rfl⟩

/-- A byte that is neither a quote, a backslash nor a control stands for itself. -/
theorem Spells.cons (h : Spells t content) (hquote : b ≠ byte '"') (hslash : b ≠ byte '\\') (hcontrol : ¬ b < 0x20) :
    Spells (b :: t) (b :: content) := by
  intro fuel rest hfuel
  rw [List.length_cons] at hfuel
  cases fuel with
  | zero => omega
  | succ fuel =>
    obtain ⟨hskip, hread⟩ := h fuel rest (by omega)
    simp only [List.cons_append, skipString, stringBytes, if_neg hquote, if_neg hcontrol, if_neg hslash, hskip, hread]
    exact ⟨trivial, rfl⟩

/-- Bytes beyond ASCII stand for themselves. -/
theorem Spells.append (h : Spells t content) {bs : Bytes} (hbs : ∀ b ∈ bs, 0x80 ≤ b.toNat) :
    Spells (bs ++ t) (bs ++ content) := by
  induction bs with
  | nil => exact h
  | cons b bs ih =>
    have hb := hbs b List.mem_cons_self
    refine (ih fun b hb => hbs b (List.mem_cons_of_mem _ hb)).cons ?_ ?_ ?_
    · rintro rfl
      exact absurd hb (by decide)
    · rintro rfl
      exact absurd hb (by decide)
    · rw [UInt8.lt_iff_toNat_lt]
      exact Nat.not_lt.2 (Nat.le_trans (by decide) hb)

/-- An escape of one letter. -/
theorem Spells.short (h : Spells t content) (he : e ≠ byte 'u') (hx : shortEscape? e = some x) :
    Spells (byte '\\' :: e :: t) (x :: content) := by
  intro fuel rest hfuel
  rw [List.length_cons, List.length_cons] at hfuel
  cases fuel with
  | zero => omega
  | succ fuel =>
    obtain ⟨hskip, hread⟩ := h fuel rest (by omega)
    simp only [List.cons_append, skipString, stringBytes, if_neg (show byte '\\' ≠ byte '"' by decide),
      if_neg (show ¬ byte '\\' < 0x20 by decide), if_pos, if_neg he, hx, Option.isSome_some, hskip, hread]
    exact ⟨trivial, rfl⟩

private theorem hexDigit?_byte : ∀ n < 16, hexDigit? (byte (Nat.digitChar n)) = some n := by decide

/-- An escape of a control character by its code point. -/
theorem Spells.codePoint (h : Spells t content) {n : Nat} (hn : n < 0x20) :
    Spells (byte '\\' :: byte 'u' :: byte '0' :: byte '0' :: byte (Nat.digitChar (n / 16)) ::
      byte (Nat.digitChar (n % 16)) :: t) (String.utf8EncodeChar (Char.ofNat n) ++ content) := by
  intro fuel rest hfuel
  rw [List.length_cons, List.length_cons] at hfuel
  cases fuel with
  | zero => omega
  | succ fuel =>
    obtain ⟨hskip, hread⟩ := h fuel rest (by simp only [List.length_cons] at hfuel; omega)
    have hunit : codeUnit (byte '0' :: byte '0' :: byte (Nat.digitChar (n / 16)) :: byte (Nat.digitChar (n % 16)) ::
        (t ++ rest)) = .ok (n, t ++ rest) := by
      have hzero : hexDigit? (byte '0') = some 0 := rfl
      simp only [codeUnit, hexDigit?_byte (n / 16) (by omega), hexDigit?_byte (n % 16) (by omega), hzero]
      congr 2
      omega
    have hpoint : Draft.codePoint (byte '0' :: byte '0' :: byte (Nat.digitChar (n / 16)) ::
        byte (Nat.digitChar (n % 16)) :: (t ++ rest)) = .ok (n, t ++ rest) := by
      simp only [Draft.codePoint, hunit, bind, Except.bind]
      rw [if_neg (by omega), if_pos (by omega)]
    simp only [List.cons_append, skipString, stringBytes, if_neg (show byte '\\' ≠ byte '"' by decide),
      if_neg (show ¬ byte '\\' < 0x20 by decide), if_pos, hunit, hpoint, bind, Except.bind, hskip, hread]
    exact ⟨trivial, trivial⟩

/-- A character as it is written in a string. -/
theorem Spells.escape (h : Spells t content) (c : Char) :
    Spells (utf8 (Json.escape c) ++ t) (String.utf8EncodeChar c ++ content) := by
  unfold Json.escape
  split
  · exact h.short (e := byte '"') (by decide) rfl
  · exact h.short (e := byte '\\') (by decide) rfl
  · exact h.short (e := byte 'n') (by decide) rfl
  · exact h.short (e := byte 'r') (by decide) rfl
  · exact h.short (e := byte 't') (by decide) rfl
  · exact h.short (e := byte 'b') (by decide) rfl
  · exact h.short (e := byte 'f') (by decide) rfl
  next hquote hslash _ _ _ _ _ =>
    split
    next hcontrol =>
      have hdigits : utf8 ['\\', 'u', '0', '0', Nat.digitChar (c.toNat / 16), Nat.digitChar (c.toNat % 16)] =
          [byte '\\', byte 'u', byte '0', byte '0', byte (Nat.digitChar (c.toNat / 16)),
            byte (Nat.digitChar (c.toNat % 16))] := by
        have hascii : ∀ n < 16, (Nat.digitChar n).toNat < 0x80 := by decide
        rw [utf8_cons_of_lt (by decide), utf8_cons_of_lt (by decide), utf8_cons_of_lt (by decide),
          utf8_cons_of_lt (by decide), utf8_cons_of_lt (hascii _ (by omega)), utf8_cons_of_lt (hascii _ (by omega))]
        rfl
      have hspells := h.codePoint hcontrol
      rw [Char.ofNat_toNat] at hspells
      rw [hdigits]
      exact hspells
    next hcontrol =>
      have hsingle : utf8 [c] = String.utf8EncodeChar c := List.flatMap_singleton _ _
      rw [hsingle]
      -- the bytes of a longer character are all above ASCII, so none of them is a quote or a backslash
      by_cases hascii : c.toNat < 0x80
      · have hbyte : String.utf8EncodeChar c = [byte c] := Text.Utf8.encodeChar_of_lt hascii
        have hne {d : Char} (hd : d.toNat < 0x80) (h : c ≠ d) : byte c ≠ byte d := by
          intro heq
          have := congrArg UInt8.toNat heq
          rw [toNat_byte hascii, toNat_byte hd] at this
          exact h (Char.toNat_inj.1 this)
        rw [hbyte]
        refine h.cons (hne (by decide) hquote) (hne (by decide) hslash) ?_
        rw [UInt8.lt_iff_toNat_lt, toNat_byte hascii]
        exact hcontrol
      · exact h.append fun b hb => Text.Utf8.le_of_mem_encodeChar (Nat.not_lt.1 hascii) hb

/-- The text of a string behind its opening quote. -/
def quoted (s : String) : List Char := s.toList.flatMap Json.escape ++ ['"']

/-- The text of a string spells the bytes of the string. -/
theorem spells_quoted (s : String) : Spells (utf8 (quoted s)) (utf8 s.toList) := by
  have hchars (cs : List Char) : Spells (utf8 (cs.flatMap Json.escape ++ ['"'])) (utf8 cs) := by
    induction cs with
    | nil => exact spells_quote
    | cons c cs ih =>
      rw [List.flatMap_cons, List.append_assoc, utf8_append, utf8_cons]
      exact ih.escape c
  exact hchars s.toList

/-- A string is read back. -/
theorem stringValue_quoted (s : String) (rest : Bytes) (h : (utf8 (quoted s)).length ≤ fuel) :
    stringValue fuel (utf8 (quoted s) ++ rest) = (.string s, some rest) := by
  obtain ⟨hskip, hread⟩ := spells_quoted s fuel rest h
  have hdecode : Text.Utf8.decode? (utf8 s.toList) = some s := Text.Utf8.decode?_encode s
  have htext : readString fuel (utf8 (quoted s) ++ rest) = .ok s := by
    simp only [readString, hread, Except.bind, hdecode]
  rw [stringValue, hskip, htext]

/-- The name of a member is read back. -/
theorem memberName_quoted (s : String) (rest : Bytes) (h : (utf8 (quoted s)).length ≤ fuel) :
    memberName fuel (utf8 (quoted s) ++ rest) = .ok (some s, rest) := by
  rw [memberName, stringValue_quoted s rest h]

/-! ## Numbers -/

/-- That no number goes on here. -/
def Stops (s : Bytes) : Prop :=
  ∀ b more, s = b :: more → digit? b = none ∧ b ≠ byte '.' ∧ b ≠ byte 'e' ∧ b ≠ byte 'E'

private theorem stops_nil : Stops [] := by
  intro b more h
  cases h

private theorem stops_cons (h : digit? b = none ∧ b ≠ byte '.' ∧ b ≠ byte 'e' ∧ b ≠ byte 'E') (s : Bytes) :
    Stops (b :: s) := by
  intro b' more heq
  obtain ⟨rfl, -⟩ := List.cons.inj heq
  exact h

private theorem digit?_byte (h : c.isDigit = true) : digit? (byte c) = some (c.toNat - 48) := by
  have hc := Text.toNat_of_isDigit h
  have hbyte := toNat_byte (c := c) (by omega)
  have hrange : 0x30 ≤ byte c ∧ byte c ≤ 0x39 := by
    simp only [UInt8.le_iff_toNat_le, hbyte]
    exact hc
  rw [digit?, if_pos hrange, hbyte]

/-- What digits stand for. -/
def values (ds : List Char) : List Nat := ds.map (·.toNat - 48)

/-- Digits are read up to where the number stops. -/
theorem digits_utf8 (ds : List Char) (hds : ∀ c ∈ ds, c.isDigit = true) (hstop : Stops rest) :
    digits (utf8 ds ++ rest) = (values ds, rest) := by
  induction ds with
  | nil =>
    cases rest with
    | nil => rfl
    | cons b more =>
      obtain ⟨hdigit, -⟩ := hstop b more rfl
      simp only [utf8, List.flatMap_nil, List.nil_append, digits, hdigit]
      rfl
  | cons c ds ih =>
    have hc := hds c List.mem_cons_self
    have hlt := Text.toNat_of_isDigit hc
    rw [utf8_cons_of_lt (by omega), List.cons_append, digits, digit?_byte hc]
    dsimp only
    rw [ih fun c hc => hds c (List.mem_cons_of_mem _ hc)]
    rfl

/-- Digits in the significand, as long as they fit. -/
theorem takeDigits_values (ds : List Char) {n : Nat} (h : Nat.ofDigitChars 10 ds n < Numeral.significandBound) :
    Numeral.takeDigits n (values ds) = (Nat.ofDigitChars 10 ds n, ds.length, 0) := by
  induction ds generalizing n with
  | nil => rfl
  | cons c ds ih =>
    rw [Nat.ofDigitChars_cons, Nat.mul_comm] at h
    have hfits : n * 10 + (c.toNat - 48) < Numeral.significandBound := Nat.lt_of_le_of_lt (Text.le_ofDigitChars ds _) h
    rw [values, List.map_cons, Numeral.takeDigits, if_pos hfits, ← values, Nat.ofDigitChars_cons, Nat.mul_comm 10 n]
    exact congrArg (fun r => (r.1, r.2.1 + 1, r.2.2)) (ih h)

/-- A numeral without point and exponent is read to its end. -/
theorem numeral_toDigits (negative : Bool) (n : Nat) (hstop : Stops rest) :
    numeral negative (utf8 (Nat.toDigits 10 n) ++ rest) = .ok (⟨negative, values (Nat.toDigits 10 n), none, none⟩, rest) := by
  have hdigits := digits_utf8 (Nat.toDigits 10 n) (fun c => Text.isDigit_of_mem_toDigits) hstop
  have hsome : (values (Nat.toDigits 10 n)).isEmpty = false := by
    rw [List.isEmpty_eq_false_iff, values, ne_eq, List.map_eq_nil_iff]
    exact Nat.toDigits_ne_nil
  -- a zero in front of other digits would be refused
  have hlead : ¬ ((values (Nat.toDigits 10 n)).head? = some 0 ∧ 1 < (values (Nat.toDigits 10 n)).length) := by
    rintro ⟨hzero, hlong⟩
    rw [values, List.length_map] at hlong
    obtain ⟨c, more, hcons⟩ := List.exists_cons_of_ne_nil (Nat.toDigits_ne_nil (n := n) (b := 10))
    have hc := Text.toNat_of_isDigit (Text.isDigit_of_mem_toDigits (n := n) (hcons ▸ List.mem_cons_self))
    refine Text.head?_toDigits hlong ?_
    rw [hcons] at hzero ⊢
    have hvalue : c.toNat - 48 = 0 := Option.some.inj hzero
    have hchar : c.toNat = '0'.toNat := by
      have : '0'.toNat = 48 := rfl
      omega
    exact congrArg some (Char.toNat_inj.1 hchar)
  have hwhole : wholeDigits (utf8 (Nat.toDigits 10 n) ++ rest) = .ok (values (Nat.toDigits 10 n), rest) := by
    simp only [wholeDigits, someDigits, hdigits, hsome, bind, Except.bind]
    exact if_neg hlead
  have hfraction : fraction rest = .ok (none, rest) := by
    cases rest with
    | nil => rfl
    | cons b more =>
      obtain ⟨-, hpoint, -⟩ := hstop b more rfl
      exact if_neg hpoint
  have hexponent : exponent rest = .ok (none, rest) := by
    cases rest with
    | nil => rfl
    | cons b more =>
      obtain ⟨-, -, hlower, hupper⟩ := hstop b more rfl
      exact if_neg fun h => h.elim hlower hupper
  simp only [numeral, hwhole, hfraction, hexponent, bind, Except.bind]

/-- A number is read back if it is whole and fits 64 bits. -/
theorem readNumber_natural {n : Nat} (hn : n < UInt64.size) (hstop : Stops rest) :
    readNumber false (utf8 (Nat.toDigits 10 n) ++ rest) = (.number (.whole n), some rest) := by
  have htake := takeDigits_values (Nat.toDigits 10 n) (n := 0) (by rw [Nat.ofDigitChars_ten_toDigits]; exact hn)
  rw [Nat.ofDigitChars_ten_toDigits] at htake
  have hvalue : (⟨false, values (Nat.toDigits 10 n), none, none⟩ : Numeral).value? = some (.whole n) := by
    simp only [Numeral.value?, htake]
    rfl
  rw [readNumber, numeral_toDigits false n hstop]
  dsimp only
  rw [hvalue]

/-- So is one with a minus sign. -/
theorem readNumber_negative {n : Nat} (hpos : 0 < n) (hn : n ≤ signedBound) (hstop : Stops rest) :
    readNumber true (utf8 (Nat.toDigits 10 n) ++ rest) = (.number (.whole (-(n : Int))), some rest) := by
  have hfits : n < Numeral.significandBound := Nat.lt_of_le_of_lt hn (by decide)
  have htake := takeDigits_values (Nat.toDigits 10 n) (n := 0) (by rw [Nat.ofDigitChars_ten_toDigits]; exact hfits)
  rw [Nat.ofDigitChars_ten_toDigits] at htake
  have hvalue : (⟨true, values (Nat.toDigits 10 n), none, none⟩ : Numeral).value? = some (.whole (-(n : Int))) := by
    simp only [Numeral.value?, htake]
    rw [if_pos ⟨trivial, rfl, rfl⟩, if_neg (by decide), if_neg (by omega)]
  rw [readNumber, numeral_toDigits true n hstop]
  dsimp only
  rw [hvalue]

/-! ## Values -/

/-- The text of the items behind the first, with the closing bracket. -/
def itemsBehind : List Json → List Char
  | [] => [']']
  | v :: rest => ',' :: Json.renderItems (v :: rest)

private theorem renderItems_cons (v : Json) (vs : List Json) :
    Json.renderItems (v :: vs) = Json.renderChars v ++ itemsBehind vs := by
  cases vs with
  | nil => rfl
  | cons w vs => rfl

/-- The text of a member. -/
def memberChars (name : String) (v : Json) : List Char := '"' :: quoted name ++ ':' :: Json.renderChars v

/-- The text of the members behind the first, with the closing brace. -/
def membersBehind : List (String × Json) → List Char
  | [] => ['\x7d']
  | m :: rest => ',' :: Json.renderMembers (m :: rest)

private theorem renderMembers_cons (name : String) (v : Json) (ms : List (String × Json)) :
    Json.renderMembers ((name, v) :: ms) = memberChars name v ++ membersBehind ms := by
  cases ms <;> simp [Json.renderMembers, memberChars, membersBehind, Json.renderString, quoted]

end Draft

mutual

/-- That the numbers in a value are whole and fit 64 bits. -/
def Whole : Json → Prop
  | .number (.whole n) => -signedBound ≤ n ∧ n < UInt64.size
  | .number (.binary _) => False
  | .array items => WholeItems items
  | .object members => WholeMembers members
  | _ => True

def WholeItems : List Json → Prop
  | [] => True
  | v :: rest => v.Whole ∧ WholeItems rest

def WholeMembers : List (String × Json) → Prop
  | [] => True
  | (_, v) :: rest => v.Whole ∧ WholeMembers rest

end

namespace Draft

variable {rest : Bytes} {fuel : Nat}

/-- A number among items ends where the next item or the bracket begins. -/
theorem stops_itemsBehind (vs : List Json) (rest : Bytes) : Stops (utf8 (itemsBehind vs) ++ rest) := by
  cases vs with
  | nil => exact stops_cons (b := byte ']') (by decide) _
  | cons v vs =>
    rw [itemsBehind, utf8_cons_of_lt (by decide)]
    exact stops_cons (by decide) _

/-- A number among members ends where the next member or the brace begins. -/
theorem stops_membersBehind (ms : List (String × Json)) (rest : Bytes) : Stops (utf8 (membersBehind ms) ++ rest) := by
  cases ms with
  | nil => exact stops_cons (b := byte '\x7d') (by decide) _
  | cons m ms =>
    rw [membersBehind, utf8_cons_of_lt (by decide)]
    exact stops_cons (by decide) _

private theorem skipBlanks_cons {b : UInt8} (h : isBlank b = false) (s : Bytes) : skipBlanks (b :: s) = b :: s :=
  List.dropWhile_cons_of_neg (by rw [h]; exact Bool.false_ne_true)

private theorem renderChars_natural (n : Nat) : Json.renderChars (.int n) = Nat.toDigits 10 n := Nat.toList_repr

private theorem renderChars_negative (n : Nat) :
    Json.renderChars (.int (Int.negSucc n)) = '-' :: Nat.toDigits 10 (n + 1) := by
  show (toString (Int.negSucc n)).toList = _
  simp [toString, Int.repr]

private theorem ne_of_digit? {b x : UInt8} {d : Nat} (h : digit? b = some d) (hx : digit? x = none) : b ≠ x := by
  rintro rfl
  rw [h] at hx
  cases hx

theorem isBlank_of_digit? {b : UInt8} {d : Nat} (h : digit? b = some d) : isBlank b = false := by
  have hne (x : UInt8) (hx : digit? x = none) : b ≠ x := ne_of_digit? h hx
  simp [isBlank, hne 0x20 rfl, hne 0x09 rfl, hne 0x0A rfl, hne 0x0D rfl]

/-- A value begins with a character that is no blank and closes no bracket. -/
theorem exists_renderChars_eq (v : Json) (h : v.Whole) : ∃ c cs, v.renderChars = c :: cs ∧ c.toNat < 0x80 ∧
    isBlank (byte c) = false ∧ byte c ≠ byte ']' := by
  cases v with
  | null => exact ⟨'n', _, rfl, by decide, by decide, by decide⟩
  | bool b =>
    cases b
    · exact ⟨'f', _, rfl, by decide, by decide, by decide⟩
    · exact ⟨'t', _, rfl, by decide, by decide, by decide⟩
  | string s => exact ⟨'"', _, rfl, by decide, by decide, by decide⟩
  | array vs => exact ⟨'[', _, rfl, by decide, by decide, by decide⟩
  | object ms => exact ⟨'\x7b', _, rfl, by decide, by decide, by decide⟩
  | number n =>
    cases n with
    | binary x => exact h.elim
    | whole n =>
      cases n with
      | ofNat n =>
        obtain ⟨c, cs, hcons⟩ := List.exists_cons_of_ne_nil (Nat.toDigits_ne_nil (n := n) (b := 10))
        have hdigit := digit?_byte (Text.isDigit_of_mem_toDigits (n := n) (hcons ▸ List.mem_cons_self))
        have hlt := Text.toNat_of_isDigit (Text.isDigit_of_mem_toDigits (n := n) (hcons ▸ List.mem_cons_self))
        exact ⟨c, cs, (renderChars_natural n).trans hcons, by omega, isBlank_of_digit? hdigit, ne_of_digit? hdigit rfl⟩
      | negSucc n => exact ⟨'-', _, renderChars_negative n, by decide, by decide, by decide⟩

private theorem length_renderChars_pos (v : Json) (h : v.Whole) : 0 < (utf8 v.renderChars).length := by
  obtain ⟨c, cs, hchars, hlt, -⟩ := exists_renderChars_eq v h
  rw [hchars, utf8_cons_of_lt hlt]
  exact Nat.succ_pos _

private theorem length_itemsBehind_pos (vs : List Json) : 0 < (utf8 (itemsBehind vs)).length := by
  cases vs with
  | nil => exact Nat.one_pos
  | cons v vs =>
    rw [itemsBehind, utf8_cons_of_lt (by decide)]
    exact Nat.succ_pos _

private theorem length_membersBehind_pos (ms : List (String × Json)) : 0 < (utf8 (membersBehind ms)).length := by
  cases ms with
  | nil => exact Nat.one_pos
  | cons m ms =>
    rw [membersBehind, utf8_cons_of_lt (by decide)]
    exact Nat.succ_pos _

private theorem utf8_memberChars (name : String) (v : Json) :
    utf8 (memberChars name v) = byte '"' :: (utf8 (quoted name) ++ byte ':' :: utf8 v.renderChars) := by
  rw [memberChars, List.cons_append, utf8_cons_of_lt (by decide), utf8_append, utf8_cons_of_lt (by decide)]

private theorem length_memberChars (name : String) (v : Json) :
    (utf8 (memberChars name v)).length = (utf8 (quoted name)).length + (utf8 v.renderChars).length + 2 := by
  rw [utf8_memberChars, List.length_cons, List.length_append, List.length_cons]
  omega

private theorem value_of_digit {b : UInt8} {d : Nat} (h : digit? b = some d) (s : Bytes) :
    value (fuel + 1) (b :: s) = readNumber false (b :: s) := by
  have hne (x : UInt8) (hx : digit? x = none) : b ≠ x := ne_of_digit? h hx
  simp only [value, skipBlanks_cons (isBlank_of_digit? h), if_neg (hne (byte '"') rfl), if_neg (hne (byte '[') rfl),
    if_neg (hne (byte '\x7b') rfl), if_neg (hne (byte 'n') rfl), if_neg (hne (byte 't') rfl), if_neg (hne (byte 'f') rfl),
    if_neg (hne (byte '-') rfl), h, Option.isSome_some, if_pos]

/-- The first item, and what the reader does with the others. -/
theorem items_first {v : Json} (h : v.Whole) {s t : Bytes} {d : Draft} {ds : List Draft}
    (hv : value fuel (utf8 v.renderChars ++ s) = (d, some t)) (hmore : items fuel false t = (ds, none, some rest)) :
    items (fuel + 1) true (utf8 v.renderChars ++ s) = (d :: ds, none, some rest) := by
  obtain ⟨c, cs, hchars, hlt, hblank, hne⟩ := exists_renderChars_eq v h
  rw [hchars, utf8_cons_of_lt hlt, List.cons_append] at hv ⊢
  simp only [items, skipBlanks_cons hblank, if_neg hne, if_pos, hv, hmore]
  rfl

/-- So with the items behind a comma. -/
theorem items_next {s t : Bytes} {d : Draft} {ds : List Draft} (hv : value fuel s = (d, some t))
    (hmore : items fuel false t = (ds, none, some rest)) :
    items (fuel + 1) false (byte ',' :: s) = (d :: ds, none, some rest) := by
  have hblank : isBlank (byte ',') = false := by decide
  have hne : byte ',' ≠ byte ']' := by decide
  simp only [items, skipBlanks_cons hblank, if_neg hne, ne_eq, not_true_eq_false, and_false, Bool.false_eq_true,
    if_false, hv, hmore]

/-- One member, and what the reader does with the others. -/
theorem members_member {name : String} {v : Json} {s t : Bytes} {d : Draft} {ms : List (Option String × Draft)}
    (hname : (utf8 (quoted name)).length ≤ fuel) (hv : value fuel (utf8 v.renderChars ++ s) = (d, some t))
    (hmore : members fuel false t = (ms, none, some rest)) :
    members (fuel + 1) true (utf8 (memberChars name v) ++ s) = ((some name, d) :: ms, none, some rest) ∧
      members (fuel + 1) false (byte ',' :: (utf8 (memberChars name v) ++ s)) =
        ((some name, d) :: ms, none, some rest) := by
  have htext : utf8 (memberChars name v) ++ s =
      byte '"' :: (utf8 (quoted name) ++ byte ':' :: (utf8 v.renderChars ++ s)) := by
    rw [utf8_memberChars, List.cons_append, List.append_assoc, List.cons_append]
  have hquote : isBlank (byte '"') = false := by decide
  have hcolon : isBlank (byte ':') = false := by decide
  have hcomma : isBlank (byte ',') = false := by decide
  have hne : byte '"' ≠ byte '\x7d' := by decide
  have hne' : byte ',' ≠ byte '\x7d' := by decide
  have hmember := memberName_quoted name (byte ':' :: (utf8 v.renderChars ++ s)) hname
  rw [htext]
  constructor
  · simp only [members, skipBlanks_cons hquote, if_neg hne, if_pos, hmember, skipBlanks_cons hcolon, ne_eq,
      not_true_eq_false, if_false, hv, hmore]
    rfl
  · simp only [members, skipBlanks_cons hcomma, if_neg hne', ne_eq, not_true_eq_false, and_false, Bool.false_eq_true,
      if_false, skipBlanks_cons hquote, hmember, skipBlanks_cons hcolon, hv, hmore]

mutual

/-- A value is read back, and what is behind it is left. -/
theorem value_renderChars : (v : Json) → v.Whole → (fuel : Nat) → (utf8 v.renderChars).length < fuel → (rest : Bytes) →
    Stops rest → value fuel (utf8 v.renderChars ++ rest) = (ofValue v, some rest)
  | v, h, 0, hfuel, _, _ => absurd hfuel (Nat.not_lt_zero _)
  | .null, _, _ + 1, _, _, _ => rfl
  | .bool true, _, _ + 1, _, _, _ => rfl
  | .bool false, _, _ + 1, _, _, _ => rfl
  | .number (.whole (.ofNat n)), h, fuel + 1, hfuel, rest, hstop => by
    obtain ⟨c, cs, hcons⟩ := List.exists_cons_of_ne_nil (Nat.toDigits_ne_nil (n := n) (b := 10))
    have hc := Text.isDigit_of_mem_toDigits (n := n) (hcons ▸ List.mem_cons_self)
    have hread := readNumber_natural (n := n) (Int.ofNat_lt.1 h.2) hstop
    have hchars : utf8 (Json.renderChars (.int n)) ++ rest = byte c :: (utf8 cs ++ rest) := by
      rw [renderChars_natural, hcons, utf8_cons_of_lt (by have := Text.toNat_of_isDigit hc; omega)]
      rfl
    show value (fuel + 1) (utf8 (Json.renderChars (.int n)) ++ rest) = _
    rw [hchars, value_of_digit (digit?_byte hc), ← hchars, renderChars_natural, hread]
    rfl
  | .number (.whole (.negSucc n)), h, fuel + 1, hfuel, rest, hstop => by
    have hread := readNumber_negative (n := n + 1) (by omega) (by have := h.1; omega) hstop
    show value (fuel + 1) (utf8 (Json.renderChars (.int (.negSucc n))) ++ rest) = _
    rw [renderChars_negative, utf8_cons_of_lt (by decide)]
    exact hread
  | .string s, _, fuel + 1, hfuel, rest, _ => by
    have hchars : utf8 (Json.renderChars (.string s)) = byte '"' :: utf8 (quoted s) := by
      rw [Json.renderChars]
      exact utf8_cons_of_lt (by decide)
    rw [hchars, List.length_cons] at hfuel
    rw [hchars]
    exact stringValue_quoted s rest (by omega)
  | .array [], _, fuel + 1, hfuel, rest, _ => by
    obtain ⟨k, rfl⟩ : ∃ k, fuel = k + 1 := ⟨fuel - 1, by have : 2 < fuel + 1 := hfuel; omega⟩
    rfl
  | .array (v :: vs), h, fuel + 1, hfuel, rest, _ => by
    have hchars : utf8 (Json.renderChars (.array (v :: vs))) =
        byte '[' :: (utf8 v.renderChars ++ utf8 (itemsBehind vs)) := by
      rw [Json.renderChars, renderItems_cons, utf8_cons_of_lt (by decide), utf8_append]
    rw [hchars, List.length_cons, List.length_append] at hfuel
    have hv := length_renderChars_pos v h.1
    have hvs := length_itemsBehind_pos vs
    obtain ⟨k, rfl⟩ : ∃ k, fuel = k + 1 := ⟨fuel - 1, by omega⟩
    -- the opening bracket and the first item each took a byte, so the bound is enough for what is behind them
    have hfirst := value_renderChars v h.1 k (by omega) (utf8 (itemsBehind vs) ++ rest) (stops_itemsBehind vs rest)
    have hitems := items_first h.1 hfirst (items_itemsBehind vs h.2 k (by omega) rest)
    rw [hchars, List.cons_append, List.append_assoc]
    show (let (items, ending, rest) := items (k + 1) true (utf8 v.renderChars ++ (utf8 (itemsBehind vs) ++ rest))
      (Draft.array items ending, rest)) = _
    rw [hitems]
    rfl
  | .object [], _, fuel + 1, hfuel, rest, _ => by
    obtain ⟨k, rfl⟩ : ∃ k, fuel = k + 1 := ⟨fuel - 1, by have : 2 < fuel + 1 := hfuel; omega⟩
    rfl
  | .object ((name, v) :: ms), h, fuel + 1, hfuel, rest, _ => by
    have hchars : utf8 (Json.renderChars (.object ((name, v) :: ms))) =
        byte '\x7b' :: (utf8 (memberChars name v) ++ utf8 (membersBehind ms)) := by
      rw [Json.renderChars, renderMembers_cons, utf8_cons_of_lt (by decide), utf8_append]
    rw [hchars, List.length_cons, List.length_append, length_memberChars] at hfuel
    have hms := length_membersBehind_pos ms
    obtain ⟨k, rfl⟩ : ∃ k, fuel = k + 1 := ⟨fuel - 1, by omega⟩
    have hfirst := value_renderChars v h.1 k (by omega) (utf8 (membersBehind ms) ++ rest) (stops_membersBehind ms rest)
    have hname : (utf8 (quoted name)).length ≤ k := by omega
    have hmembers := (members_member hname hfirst (members_membersBehind ms h.2 k (by omega) rest)).1
    rw [hchars, List.cons_append, List.append_assoc]
    show (let (members, ending, rest) :=
        members (k + 1) true (utf8 (memberChars name v) ++ (utf8 (membersBehind ms) ++ rest))
      (Draft.object members ending, rest)) = _
    rw [hmembers]
    rfl

/-- So are the items behind the first, up to the bracket. -/
theorem items_itemsBehind : (vs : List Json) → WholeItems vs → (fuel : Nat) → (utf8 (itemsBehind vs)).length < fuel →
    (rest : Bytes) → items fuel false (utf8 (itemsBehind vs) ++ rest) = (ofItems vs, none, some rest)
  | _, _, 0, hfuel, _ => absurd hfuel (Nat.not_lt_zero _)
  | [], _, fuel + 1, _, rest => rfl
  | v :: vs, h, fuel + 1, hfuel, rest => by
    have hchars : utf8 (itemsBehind (v :: vs)) = byte ',' :: (utf8 v.renderChars ++ utf8 (itemsBehind vs)) := by
      rw [itemsBehind, renderItems_cons, utf8_cons_of_lt (by decide), utf8_append]
    rw [hchars, List.length_cons, List.length_append] at hfuel
    have hvs := length_itemsBehind_pos vs
    have hfirst := value_renderChars v h.1 fuel (by omega) (utf8 (itemsBehind vs) ++ rest) (stops_itemsBehind vs rest)
    rw [hchars, List.cons_append, List.append_assoc]
    exact items_next hfirst (items_itemsBehind vs h.2 fuel (by omega) rest)

/-- So are the members behind the first, up to the brace. -/
theorem members_membersBehind : (ms : List (String × Json)) → WholeMembers ms → (fuel : Nat) →
    (utf8 (membersBehind ms)).length < fuel → (rest : Bytes) →
    members fuel false (utf8 (membersBehind ms) ++ rest) = (ofMembers ms, none, some rest)
  | _, _, 0, hfuel, _ => absurd hfuel (Nat.not_lt_zero _)
  | [], _, fuel + 1, _, rest => rfl
  | (name, v) :: ms, h, fuel + 1, hfuel, rest => by
    have hchars : utf8 (membersBehind ((name, v) :: ms)) =
        byte ',' :: (utf8 (memberChars name v) ++ utf8 (membersBehind ms)) := by
      rw [membersBehind, renderMembers_cons, utf8_cons_of_lt (by decide), utf8_append]
    rw [hchars, List.length_cons, List.length_append, length_memberChars] at hfuel
    have hms := length_membersBehind_pos ms
    have hfirst := value_renderChars v h.1 fuel (by omega) (utf8 (membersBehind ms) ++ rest) (stops_membersBehind ms rest)
    have hname : (utf8 (quoted name)).length ≤ fuel := by omega
    rw [hchars, List.cons_append, List.append_assoc]
    exact (members_member hname hfirst (members_membersBehind ms h.2 fuel (by omega) rest)).2

end

/-- The text of a value is the draft of the value, with nothing behind it. -/
theorem ofBytes_render (v : Json) (h : v.Whole) : ofBytes (Text.Utf8.encode v.render) = (ofValue v, false) := by
  have htext : Text.Utf8.encode v.render = utf8 v.renderChars := by
    rw [Text.Utf8.encode, Json.render, String.toList_ofList]
    rfl
  have hvalue := value_renderChars v h (2 * (utf8 v.renderChars).length + 2) (by omega) [] stops_nil
  rw [List.append_nil] at hvalue
  rw [htext, ofBytes, hvalue]
  rfl

end Draft

end MarketFeed.Json
