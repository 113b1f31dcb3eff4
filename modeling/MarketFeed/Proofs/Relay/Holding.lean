import MarketFeed.Proofs.Relay.Layout

/-!
# Relay.Holding — what each operation does to the blocks

`Ring.Holds r blocks` ties a ring to the row of blocks between its cursors. Every
operation of the ring is described once, as a change of that row:

> `Holds.reserve`: reserving appends a block, behind the padding that it needs.
>
> `Holds.writeInto`, `Holds.publish`, `Holds.abandon`: writing and resolving change one
> block in its place.

Reading takes blocks off the front and is in `Relay.Reading`. Nothing later looks at the
memory again.

A block never crosses the end of the memory. One that does not fit in front of it is
reserved at the front, and the tail becomes padding (`Holds.pad`), which is in use until
the reader has gone over it. The write cursor moves over both at once and the padding's
header is put behind its back; to the row this is padding first and reserving then
(`advanced_putHeader`). The free part is zero all along, so the header of what is reserved
is zero without being put, and makes the reader wait.

Writing and resolving are one lemma, `Holds.replace`: a block is replaced by one of the
same size, which agrees with it outside the block.
-/

namespace MarketFeed.Relay

namespace Ring

/-- That a ring holds a row of blocks between its cursors, and nothing but zeros elsewhere. The record that the
reader holds is still in front. -/
structure Holds (r : Ring) (blocks : List Block) : Prop where
  words : 8 ∣ r.capacity
  large : leastCapacity ≤ r.capacity
  small : r.capacity ≤ greatestCapacity
  aligned : 8 ∣ r.read
  layout : Layout r.memory r.read blocks r.write
  room : r.write ≤ r.read + r.capacity
  blank : Blank r.memory r.write (r.read + r.capacity)
  held : r.pending = 0 ∨
    ∃ e rest, blocks = .entry e :: rest ∧ e.fate = .published ∧ r.pending = e.grant.total

/-! ## The empty ring -/

/-- Wishes below the least capacity and above the greatest are brought into range. -/
theorem capacityFor_bounds (wish : Nat) : leastCapacity ≤ capacityFor wish ∧
    capacityFor wish ≤ greatestCapacity ∧ 8 ∣ capacityFor wish := by
  unfold capacityFor
  -- the wish is clamped first, so the capacity is a power of two between the bounds
  have hlow : 2 ^ 5 ≤ max leastCapacity (min wish greatestCapacity) - 1 := by
    simp only [leastCapacity, greatestCapacity]
    omega
  have hhigh : max leastCapacity (min wish greatestCapacity) - 1 < 2 ^ 30 := by
    simp only [leastCapacity, greatestCapacity]
    omega
  have hne : max leastCapacity (min wish greatestCapacity) - 1 ≠ 0 := by omega
  have hfive := (Nat.le_log2 hne).2 hlow
  have hthirty := (Nat.log2_lt hne).2 hhigh
  refine ⟨?_, ?_, ?_⟩
  · exact Nat.pow_le_pow_right (by decide : 0 < 2) (show 6 ≤ _ by omega)
  · exact Nat.pow_le_pow_right (by decide : 0 < 2) (show _ ≤ 30 by omega)
  · exact Nat.pow_dvd_pow 2 (show 3 ≤ _ by omega)

/-- A new ring is empty. -/
theorem holds_ofSizing (sizing : Sizing) : (ofSizing sizing).takeReader.2.Holds [] := by
  have hcap : (ofSizing sizing).takeReader.2.capacity = capacityFor sizing.capacity :=
    Memory.size_zeros _
  obtain ⟨hlarge, hsmall, hwords⟩ := capacityFor_bounds sizing.capacity
  rw [← hcap] at hlarge hsmall hwords
  exact ⟨hwords, hlarge, hsmall, Nat.dvd_zero 8, rfl, Nat.zero_le _,
    fun z _ _ => Memory.get_zeros _ _, Or.inl rfl⟩

namespace Holds

variable {r r' : Ring} {blocks pre post rest : List Block} {b : Block} {e : Entry} {g : Grant}

theorem capacity_pos (h : r.Holds blocks) : 0 < r.capacity :=
  Nat.lt_of_lt_of_le (by decide) h.large

/-- Cursors are at whole words. -/
theorem write_aligned (h : r.Holds blocks) : 8 ∣ r.write := h.layout.aligned h.aligned

theorem read_le (h : r.Holds blocks) : r.read ≤ r.write := h.layout.le

/-- Every block takes a word at least. -/
theorem words_le (h : r.Holds blocks) : r.read + headerWidth * blocks.length ≤ r.write :=
  h.layout.words_le

/-- The tail in front of the end is made of whole words, and is never empty. -/
theorem tail_words (h : r.Holds blocks) : 8 ∣ r.tail ∧ headerWidth ≤ r.tail ∧
    r.write % r.capacity + r.tail = r.capacity := by
  have hlt := Nat.mod_lt r.write h.capacity_pos
  have hoff : 8 ∣ r.write % r.capacity := (Nat.dvd_mod_iff h.words).2 h.write_aligned
  have hdvd : 8 ∣ r.capacity - r.write % r.capacity := Nat.dvd_sub h.words hoff
  have hpos := Nat.le_of_dvd (by omega) hdvd
  simp only [tail, offsetOf]
  exact ⟨hdvd, hpos, by omega⟩

/-- A change that keeps the size of the memory. -/
theorem of_size (h : r.Holds blocks) {more : List Block} (hsize : r'.memory.size = r.capacity)
    (haligned : 8 ∣ r'.read) (hlayout : Layout r'.memory r'.read more r'.write)
    (hroom : r'.write ≤ r'.read + r.capacity) (hblank : Blank r'.memory r'.write (r'.read + r.capacity))
    (hheld : r'.pending = 0 ∨
      ∃ e rest, more = .entry e :: rest ∧ e.fate = .published ∧ r'.pending = e.grant.total) :
    r'.Holds more := by
  have hcap : r'.capacity = r.capacity := hsize
  rw [← hcap] at hroom hblank
  exact ⟨hcap ▸ h.words, hcap ▸ h.large, hcap ▸ h.small, haligned, hlayout, hroom, hblank, hheld⟩

/-! ## Reserving -/

/-- A ring whose row grows at its end keeps the record that the reader holds. -/
theorem held_append (h : r.Holds blocks) (more : List Block) : r.pending = 0 ∨
    ∃ e rest, blocks ++ more = .entry e :: rest ∧ e.fate = .published ∧ r.pending = e.grant.total := by
  rcases h.held with hp | ⟨e, rest, rfl, hfate, hp⟩
  · exact Or.inl hp
  · exact Or.inr ⟨e, rest ++ more, rfl, hfate, hp⟩

end Holds

/-- The write cursor advances in two parts, with a header put in between. -/
theorem advanced_putHeader (r : Ring) (m n offset header : Nat) :
    let advanced := ({ r with write := r.write + m } : Ring).putHeader offset header
    advanced.capacity = r.capacity ∧ advanced.read = r.read ∧ advanced.write = r.write + m ∧
      ({ r with write := r.write + (m + n) } : Ring).putHeader offset header =
        { advanced with write := r.write + m + n } := by
  simp only [putHeader, capacity, Memory.size_fill, Nat.add_assoc, and_self]

/-- The answers to a length that has a block's size go by its whole words. -/
theorem reserve_of_lt {length : Nat} (hlen : length + 16 < UInt64.size) (r : Ring) :
    r.reserve length =
      if r.capacity / 2 < wholeWords length then .refused (.tooLarge length r.greatestPayload)
      else if r.capacity < r.used + r.needed (wholeWords length) then
        match r.backpressure with
        | .reject => .refused (.full length (r.capacity - r.used) r.capacity)
        | .block => .waits
      else .granted (r.grant length (wholeWords length)).1 (r.grant length (wholeWords length)).2 := by
  have hsize : blockSize? length = some (wholeWords length) := by rw [blockSize?_eq, if_pos hlen]
  unfold reserve
  split
  next hnone => exact absurd (hsize.symm.trans hnone) (Option.some_ne_none _)
  next hsome =>
    obtain rfl := Option.some.inj (hsize.symm.trans hsome)
    rfl

/-- A call ends without an answer exactly if the length is too great for any block's size. -/
theorem reserve_eq_overflow_iff {r : Ring} {length : Nat} :
    r.reserve length = .overflow ↔ UInt64.size ≤ length + 16 := by
  constructor
  · intro h
    apply Nat.le_of_not_lt
    intro hlen
    rw [reserve_of_lt hlen] at h
    split at h
    next => cases h
    next =>
      split at h
      next => split at h <;> cases h
      next => cases h
  · intro hlen
    unfold reserve
    rw [blockSize?_eq, if_neg (Nat.not_lt.2 hlen)]

/-- What a granted reservation says about the room there was. -/
theorem reserve_granted {r r' : Ring} {g : Grant} {length : Nat}
    (h : r.reserve length = .granted g r') : wholeWords length ≤ r.capacity / 2 ∧
      r.used + r.needed (wholeWords length) ≤ r.capacity ∧ r.grant length (wholeWords length) = (g, r') := by
  rcases Nat.lt_or_ge (length + 16) UInt64.size with hlen | hlen
  · rw [reserve_of_lt hlen] at h
    split at h
    next => cases h
    next hhalf =>
      split at h
      next => split at h <;> cases h
      next hroom =>
        obtain ⟨hg, hr⟩ := Admission.granted.inj h
        exact ⟨Nat.not_lt.1 hhalf, Nat.not_lt.1 hroom, Prod.ext hg hr⟩
  · rw [reserve_eq_overflow_iff.2 hlen] at h
    cases h

namespace Holds

variable {r r' : Ring} {blocks pre post rest : List Block} {b : Block} {e : Entry} {g : Grant}

/-- A block that fits in front of the end is reserved there. -/
theorem grant_here {length total : Nat} (h : r.Holds blocks) (hwhole : 8 ∣ total)
    (hroom : headerWidth + length ≤ total) (hfits : total ≤ r.tail)
    (hfree : r.write + total ≤ r.read + r.capacity) :
    ({ r with write := r.write + total } : Ring).Holds
      (blocks ++ [.entry ⟨⟨r.offsetOf r.write, total, length⟩, List.replicate length 0, .unresolved⟩]) := by
  obtain ⟨-, -, htail⟩ := h.tail_words
  have hsmall := h.small
  have hshort : total < padMark := by
    simp only [greatestCapacity, padMark, UInt32.size] at *
    omega
  have hblank : Blank r.memory r.write (r.write + total) := h.blank.mono (Nat.le_refl _) hfree
  have hstands := hblank.stands hwhole hroom (show r.write % r.capacity + total ≤ r.capacity by omega) hshort
  exact ⟨h.words, h.large, h.small, h.aligned,
    layout_append.2 ⟨r.write, h.layout, hstands, rfl⟩, hfree,
    h.blank.mono (Nat.le_add_right _ _) (Nat.le_refl _), h.held_append _⟩

/-- The tail in front of the end is padded, so that the write cursor is at the front. -/
theorem pad (h : r.Holds blocks) (hfree : r.write + r.tail ≤ r.read + r.capacity) :
    (({ r with write := r.write + r.tail } : Ring).putHeader (r.offsetOf r.write) (padHeader r.tail)).Holds
      (blocks ++ [.filler r.tail]) := by
  obtain ⟨htwords, htpos, htail⟩ := h.tail_words
  have hsmall := h.small
  have hshort : r.tail < padMark := by
    simp only [greatestCapacity, padMark, UInt32.size] at *
    omega
  -- the padding's header is written into the tail and nowhere else
  generalize hm : r.memory.fill (r.write % r.capacity) (Bytes.littleEndian headerWidth (padHeader r.tail)) = m
  have hlen : (Bytes.littleEndian headerWidth (padHeader r.tail)).length = headerWidth :=
    Bytes.length_littleEndian _ _
  have hagree : AgreeOutside r.memory m (r.write % r.capacity) r.tail := by
    rw [← hm]
    exact agreeOutside_fill (i := 0) (by omega) (Nat.le_of_eq htail)
  have hsize : m.size = r.capacity := hagree.size
  have hword : m.word (r.write % r.capacity) = padHeader r.tail := by
    rw [← hm]
    exact Memory.word_fill (by show _ ≤ r.capacity; omega) (padHeader_lt hshort)
  have hold : Layout m r.read blocks r.write :=
    hagree.layout (Nat.le_of_eq htail) h.layout (Or.inl ⟨Nat.le_refl _, hfree⟩)
  have hfill : Stands m r.write (.filler r.tail) := by
    refine ⟨htwords, htpos, ?_, hshort, ?_, trivial⟩
    · rw [hsize]
      exact Nat.le_of_eq htail
    · rw [hsize]
      exact hword
  have hrow : Layout m r.read (blocks ++ [.filler r.tail]) (r.write + r.tail) :=
    layout_append.2 ⟨r.write, hold, hfill, rfl⟩
  have hblank : Blank m (r.write + r.tail) (r.read + r.capacity) :=
    hagree.blank (Nat.le_of_eq htail) h.capacity_pos (h.blank.mono (Nat.le_add_right _ _) (Nat.le_refl _))
      (Or.inr ⟨Nat.le_refl _, Nat.add_le_add_right h.read_le _⟩)
  have hring : ({ r with write := r.write + r.tail } : Ring).putHeader (r.offsetOf r.write) (padHeader r.tail) =
      { r with memory := m, write := r.write + r.tail } := by
    rw [← hm]
    rfl
  rw [hring]
  exact h.of_size hsize h.aligned hrow hfree hblank (h.held_append _)

/-- A block that does not fit in front of the end stands at the front, behind padding. -/
theorem grant_front {length total : Nat} (h : r.Holds blocks) (hwhole : 8 ∣ total)
    (hroom : headerWidth + length ≤ total) (hhalf : total ≤ r.capacity / 2)
    (hfree : r.write + (r.tail + total) ≤ r.read + r.capacity) :
    (({ r with write := r.write + (r.tail + total) } : Ring).putHeader (r.offsetOf r.write)
      (padHeader r.tail)).Holds
      (blocks ++ [.filler r.tail, .entry ⟨⟨0, total, length⟩, List.replicate length 0, .unresolved⟩]) := by
  obtain ⟨-, -, htail⟩ := h.tail_words
  have hpadded := h.pad (by omega)
  obtain ⟨hcap, hread, hwrite, hring⟩ :=
    advanced_putHeader r r.tail total (r.offsetOf r.write) (padHeader r.tail)
  rw [hring]
  generalize ({ r with write := r.write + r.tail } : Ring).putHeader (r.offsetOf r.write) (padHeader r.tail) = r₁
    at hpadded hcap hwrite hread ⊢
  -- there the whole memory is in front of the end
  have hfront : r₁.offsetOf r₁.write = 0 := by
    rw [offsetOf, hcap, hwrite, ← Nat.mod_add_mod, htail, Nat.mod_self]
  have htail₁ : r₁.tail = r.capacity := by
    rw [tail, hfront, hcap, Nat.sub_zero]
  have hgranted := hpadded.grant_here hwhole hroom (by omega) (by omega)
  rw [hfront, List.append_assoc, hwrite] at hgranted
  exact hgranted

/-- A granted reservation is a new block at the end of the row, behind the padding that it needs. -/
theorem reserve {length : Nat} (h : r.Holds blocks)
    (hres : r.reserve length = .granted g r') : g.length = length ∧ ∃ fillers : List Block,
      (∀ b ∈ fillers, b.isPadding = true) ∧ entriesOf fillers = [] ∧
      r'.Holds (blocks ++ (fillers ++ [.entry ⟨g, List.replicate length 0, .unresolved⟩])) := by
  obtain ⟨hhalf, hfree, hgrant⟩ := reserve_granted hres
  have hwhole := dvd_wholeWords length
  have hroom := le_wholeWords length
  have hle := h.read_le
  unfold Ring.grant at hgrant
  unfold used needed at hfree
  -- in front of the end, or behind padding at the front
  by_cases hfits : wholeWords length ≤ r.tail
  · rw [if_pos hfits] at hfree
    simp only [needed, if_pos hfits, Prod.mk.injEq] at hgrant
    obtain ⟨rfl, rfl⟩ := hgrant
    exact ⟨rfl, [], fun _ hb => absurd hb List.not_mem_nil, rfl,
      h.grant_here hwhole hroom hfits (by omega)⟩
  · rw [if_neg hfits] at hfree
    simp only [needed, if_neg hfits, Prod.mk.injEq] at hgrant
    obtain ⟨rfl, rfl⟩ := hgrant
    refine ⟨rfl, [.filler r.tail], ?_, rfl, h.grant_front hwhole hroom hhalf (by omega)⟩
    intro b hb
    rw [List.mem_singleton.1 hb]
    rfl

/-! ## Writing and resolving -/

/-- A block is replaced by one of the same size in its place. -/
theorem replace {m : Memory} {b' : Block} (h : r.Holds (pre ++ b :: post)) (hsize : b'.size = b.size)
    (hagree : ∀ x, Stands r.memory x b → AgreeOutside r.memory m (x % r.capacity) b.size)
    (hstands : ∀ x, Stands r.memory x b → Stands m x b')
    (hheld : ∀ e, b = .entry e → e.fate = .published → ∃ e', b' = .entry e' ∧ e'.fate = .published) :
    ({ r with memory := m } : Ring).Holds (pre ++ b' :: post) := by
  obtain ⟨x, hpre, hb, hpost⟩ := layout_append.1 h.layout
  have hm := hagree x hb
  have hcap : m.size = r.capacity := hm.size
  have hstop := hpost.le
  have hstart := hpre.le
  have hroom : r.write ≤ r.read + r.memory.size := h.room
  have hpre' : Layout m r.read pre x := hm.layout hb.within hpre (Or.inl ⟨Nat.le_refl _, by omega⟩)
  have hpost' : Layout m (x + b.size) post r.write :=
    hm.layout hb.within hpost (Or.inr ⟨Nat.le_refl _, by omega⟩)
  have hblank' : Blank m r.write (r.read + r.capacity) :=
    hm.blank hb.within h.capacity_pos h.blank (Or.inr ⟨hstop, Nat.add_le_add_right hstart _⟩)
  have hrow : Layout m r.read (pre ++ b' :: post) r.write :=
    layout_append.2 ⟨x, hpre', hstands x hb, by rw [hsize]; exact hpost'⟩
  refine h.of_size hcap h.aligned hrow h.room hblank' ?_
  -- the record that the reader holds is the first block, so it is the one replaced only if `pre` is empty
  rcases h.held with hp | ⟨e, rest, hrow, hfate, hp⟩
  · exact Or.inl hp
  · right
    cases pre with
    | nil =>
      obtain ⟨rfl, rfl⟩ := List.cons.inj hrow
      obtain ⟨e', rfl, hfate'⟩ := hheld e rfl hfate
      exact ⟨e', post, rfl, hfate', hp.trans hsize.symm⟩
    | cons c pre =>
      obtain ⟨rfl, -⟩ := List.cons.inj hrow
      exact ⟨e, pre ++ b' :: post, rfl, hfate, hp⟩

/-- What is written into a payload overwrites that part of it. -/
theorem writeInto {i : Nat} {bytes : Bytes} (h : r.Holds (pre ++ .entry e :: post))
    (hw : r.writeInto e.grant i bytes = some r') :
    r'.Holds (pre ++ .entry { e with content := Bytes.overwrite e.content i bytes } :: post) := by
  unfold Ring.writeInto at hw
  split at hw
  next hi =>
    obtain rfl := Option.some.inj hw
    apply h.replace (show (Block.entry { e with content := Bytes.overwrite e.content i bytes }).size = _ from rfl)
    · intro x hb
      obtain ⟨hplace, hroom, -⟩ := hb.carries
      have hwithin := hb.within
      rw [hplace, Nat.add_assoc]
      exact agreeOutside_fill (by simp only [Block.size]; omega) hwithin
    · intro x hb
      obtain ⟨hplace, hroom, hcontent⟩ := hb.carries
      have hwithin : x % r.memory.size + e.grant.total ≤ r.memory.size := hb.within
      have hword : (r.memory.fill (e.grant.offset + headerWidth + i) bytes).word (x % r.memory.size) =
          e.header := by
        rw [Memory.word_congr fun j _ h₂ => Memory.get_fill_outside (by omega) (by omega)]
        exact hb.header
      -- the header is in front of the payload and keeps its bytes
      refine ⟨hb.whole, hb.positive, ?_, hb.short, ?_, ?_⟩
      · rw [Memory.size_fill]
        exact hwithin
      · rw [Memory.size_fill]
        exact hword
      · rw [Memory.size_fill]
        refine ⟨hplace, hroom, ?_⟩
        rw [hplace, Memory.slice_fill hi (by omega), hcontent]
    · rintro d hd hfate
      obtain rfl := Block.entry.inj hd
      exact ⟨_, rfl, hfate⟩
  next => cases hw

/-- A write within the payload succeeds. -/
theorem exists_writeInto {i : Nat} {bytes : Bytes} (hi : i + bytes.length ≤ g.length) :
    ∃ r', r.writeInto g i bytes = some r' := by
  unfold Ring.writeInto
  rw [if_pos hi]
  exact ⟨_, rfl⟩

/-- A reservation is resolved by the header that is put in front of it. -/
theorem resolve (h : r.Holds (pre ++ .entry e :: post)) (hfate : e.fate = .unresolved) (fate : Fate) :
    (r.putHeader e.grant.offset { e with fate }.header).Holds (pre ++ .entry { e with fate } :: post) := by
  have hlen (n : Nat) : (Bytes.littleEndian headerWidth n).length = headerWidth :=
    Bytes.length_littleEndian _ _
  apply h.replace (show (Block.entry { e with fate }).size = _ from rfl)
  · intro x hb
    rw [hb.carries.1]
    have hword : 0 + (Bytes.littleEndian headerWidth { e with fate }.header).length ≤ e.grant.total := by
      rw [hlen, Nat.zero_add]
      exact hb.positive
    exact agreeOutside_fill (i := 0) hword hb.within
  · intro x hb
    obtain ⟨hplace, hroom, hcontent⟩ := hb.carries
    have hwithin : x % r.memory.size + e.grant.total ≤ r.memory.size := hb.within
    have hheader : { e with fate }.header < UInt64.size :=
      Block.header_lt (show (Block.entry { e with fate }).size < padMark from hb.short)
    refine ⟨hb.whole, hb.positive, ?_, hb.short, ?_, ?_⟩
    · rw [Memory.size_fill]
      exact hwithin
    · rw [Memory.size_fill, hplace]
      exact Memory.word_fill (by omega) hheader
    · -- the payload is behind the header and keeps its bytes
      rw [Memory.size_fill]
      refine ⟨hplace, hroom, ?_⟩
      rw [Memory.slice_congr fun j h₁ h₂ => Memory.get_fill_outside (by rw [hlen]; omega)
        (Or.inr (by rw [hlen]; omega))]
      exact hcontent
  · -- the reader holds no record that is not resolved
    intro d hd hpub
    obtain rfl := Block.entry.inj hd
    rw [hfate] at hpub
    cases hpub

/-- Publishing puts the header of a record. -/
theorem publish (h : r.Holds (pre ++ .entry e :: post)) (hfate : e.fate = .unresolved) :
    (r.publish e.grant).Holds (pre ++ .entry { e with fate := .published } :: post) :=
  h.resolve hfate .published

/-- Giving up puts the header of padding. -/
theorem abandon (h : r.Holds (pre ++ .entry e :: post)) (hfate : e.fate = .unresolved) :
    (r.abandon e.grant).Holds (pre ++ .entry { e with fate := .abandoned } :: post) :=
  h.resolve hfate .abandoned

/-- A reservation of the right length is filled and published in one go. -/
theorem complete {bytes : Bytes} (h : r.Holds (pre ++ .entry e :: post)) (hfate : e.fate = .unresolved)
    (hlen : bytes.length = e.grant.length) :
    (r.complete e.grant bytes).Holds (pre ++ .entry ⟨e.grant, bytes, .published⟩ :: post) := by
  have hfits : 0 + bytes.length ≤ e.grant.length := by omega
  obtain ⟨r', hw⟩ := exists_writeInto (r := r) hfits
  have hwritten := h.writeInto hw
  obtain ⟨x, -, hb, -⟩ := layout_append.1 h.layout
  rw [overwrite_all (by rw [hlen, hb.length_content])] at hwritten
  rw [Ring.complete, hw]
  exact hwritten.publish hfate

end Holds

end Ring

end MarketFeed.Relay
