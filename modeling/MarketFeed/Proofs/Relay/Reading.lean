import MarketFeed.Proofs.Relay.Holding

/-!
# Relay.Reading — what the reader takes off the front

The reader gives back the record that it holds, goes over padding, and stops in front of
the first block that is a record or not resolved yet, or behind the last block:

> `Holds.next`: which blocks are gone after one call, what stands in front then, and what
> the answer is.
>
> `Holds.emptied`: a reader that finds nothing, while every reservation is resolved, has
> given everything back.

What is given back is wiped before the read cursor moves over it (`Holds.release`), so
that the free part is zero and every block is reserved as zeros. For the same reason the
reader meets a header of zero behind the last block (`Holds.headerAt_of_empty`), and stops
there as it does in front of a reservation that is not resolved.

Going over padding is a loop without a bound of its own. Here it counts down from the
words in use; `Holds.advance` says that this bound is never reached, since every block
takes a word at least.

Producers do not touch what the reader holds (`unheld_congr`), so the two sides can be
taken one at a time.
-/

namespace MarketFeed.Relay

namespace Ring

/-- What the reader finds in front: nothing, a block to wait for, or a record. -/
inductive Front (r : Ring) : List Block → Option Reading → Prop
  | empty : r.pending = 0 → Front r [] none
  | waiting (e : Entry) (rest : List Block) :
    e.fate = .unresolved → r.pending = 0 → Front r (.entry e :: rest) none
  | record (e : Entry) (rest : List Block) : e.fate = .published → r.pending = e.grant.total →
    Front r (.entry e :: rest) (some ⟨r.read, e.content⟩)

/-- Nothing is found where nothing stands in front, or a reservation that is not resolved. -/
theorem Front.of_none {r : Ring} {blocks : List Block} (h : Front r blocks none) : r.pending = 0 ∧
    (blocks = [] ∨ ∃ e rest, blocks = .entry e :: rest ∧ e.fate = .unresolved) := by
  cases h with
  | empty hp => exact ⟨hp, Or.inl rfl⟩
  | waiting e rest hfate hp => exact ⟨hp, Or.inr ⟨e, rest, rfl, hfate⟩⟩

/-- What is found is the payload of the record in front. -/
theorem Front.of_some {r : Ring} {blocks : List Block} {reading : Reading}
    (h : Front r blocks (some reading)) : ∃ e rest, blocks = .entry e :: rest ∧ e.fate = .published ∧
      r.pending = e.grant.total ∧ reading = ⟨r.read, e.content⟩ := by
  cases h with
  | record e rest hfate hp => exact ⟨e, rest, rfl, hfate, hp, rfl⟩

/-- The blocks without the record that the reader holds. -/
def unheld (r : Ring) (blocks : List Block) : List Block := if r.pending = 0 then blocks else blocks.tail

namespace Holds

variable {r : Ring} {blocks rest : List Block} {b : Block}

/-! ## Giving back -/

/-- The first block is wiped and given back. -/
theorem release (h : r.Holds (b :: rest)) :
    ({ r.release b.size with pending := 0 } : Ring).Holds rest := by
  have hb : Stands r.memory r.read b := h.layout.1
  have hrest : Layout r.memory (r.read + b.size) rest r.write := h.layout.2
  have hroom : r.write ≤ r.read + r.capacity := h.room
  have hwithin : r.read % r.capacity + b.size ≤ r.capacity := hb.within
  have hstop := hrest.le
  -- the wiped stretch is the block, which the read cursor then has behind it
  generalize hm : r.memory.wipe (r.read % r.capacity) b.size = m
  have hagree : AgreeOutside r.memory m (r.read % r.capacity) b.size := by
    rw [← hm]
    exact agreeOutside_wipe hb.within
  have hcap : m.size = r.capacity := hagree.size
  have hrest' : Layout m (r.read + b.size) rest r.write :=
    hagree.layout hb.within hrest (Or.inr ⟨Nat.le_refl _, hroom⟩)
  have hold : Blank m r.write (r.read + r.capacity) :=
    hagree.blank hb.within h.capacity_pos h.blank (Or.inr ⟨hstop, Nat.le_refl _⟩)
  have hwiped : Blank m (r.read + r.capacity) (r.read + b.size + r.capacity) := by
    intro z h₁ h₂
    obtain ⟨k, rfl⟩ : ∃ k, z = r.read + k + r.capacity := ⟨z - r.read - r.capacity, by omega⟩
    have hk : k < b.size := by omega
    rw [hcap, Nat.add_mod_right, offset_add k hwithin hk, ← hm,
      Memory.get_wipe _ (r.read % r.capacity) _ _ hwithin, if_pos ⟨Nat.le_add_right _ _, Nat.add_lt_add_left hk _⟩]
  have hring : ({ r.release b.size with pending := 0 } : Ring) =
      { r with memory := m, read := r.read + b.size, pending := 0 } := by
    rw [← hm]
    rfl
  rw [hring]
  exact h.of_size hcap (Nat.dvd_add h.aligned hb.whole) hrest'
    (show r.write ≤ r.read + b.size + r.capacity by omega) (hold.append hwiped) (Or.inl rfl)

/-- The record that the reader holds is given back, if it holds one. -/
theorem settle (h : r.Holds blocks) : r.settle.Holds (r.unheld blocks) ∧ r.settle.pending = 0 ∧
    r.settle.read = r.read + r.pending := by
  unfold Ring.settle unheld
  by_cases hp : r.pending = 0
  · rw [if_pos hp, if_pos hp, hp]
    exact ⟨h, rfl, rfl⟩
  · rw [if_neg hp, if_neg hp]
    rcases h.held with h₀ | ⟨e, rest, rfl, -, htotal⟩
    · exact absurd h₀ hp
    · rw [htotal]
      exact ⟨h.release, rfl, rfl⟩

/-! ## Going over padding -/

private theorem header_of_isPadding {b : Block} (h : b.isPadding = true) : b.header = padHeader b.size := by
  cases b with
  | filler n => rfl
  | entry e =>
    have hfate : e.fate = .abandoned := by simpa [Block.isPadding] using h
    show e.header = padHeader e.grant.total
    rw [Entry.header, hfate]

/-- Behind the last block the reader meets a zero, whether or not the ring is full. -/
theorem headerAt_of_empty (h : r.Holds []) : r.headerAt (r.offsetOf r.read) = 0 := by
  obtain ⟨-, htail, hend⟩ := h.tail_words
  have heq : r.read = r.write := h.layout
  have hlarge := h.large
  -- nothing is in use, so the whole round is zero, the next header included
  have hblank : Blank r.memory r.write (r.write + headerWidth) := by
    apply h.blank.mono (Nat.le_refl _)
    simp only [leastCapacity, headerWidth] at *
    omega
  rw [heq]
  exact Memory.word_zeros fun j h₁ h₂ =>
    hblank.get (show r.write % r.capacity + headerWidth ≤ r.capacity by omega) h₁ h₂

/-- The header of a published block gives back its two numbers. -/
theorem headerAt_of_published {e : Entry} (h : r.Holds (.entry e :: rest)) (hfate : e.fate = .published) :
    r.headerAt (r.offsetOf r.read) = recordHeader e.grant.length e.grant.total ∧
      e.grant.length < UInt32.size ∧ e.grant.total < padMark := by
  have hb : Stands r.memory r.read (.entry e) := h.layout.1
  obtain ⟨-, hroom, -⟩ := hb.carries
  have hshort : e.grant.total < padMark := hb.short
  have hword : r.headerAt (r.offsetOf r.read) = e.header := hb.header
  refine ⟨?_, ?_, hshort⟩
  · rw [hword, Entry.header, hfate]
  · -- the length fits in its field because the whole block does
    simp only [padMark, UInt32.size, headerWidth] at *
    omega

/-- A published block in front is the next record. -/
theorem record_in_front {e : Entry} (h : r.Holds (.entry e :: rest)) (hfate : e.fate = .published) :
    r.headerAt (r.offsetOf r.read) ≠ 0 ∧ headerIsPad (r.headerAt (r.offsetOf r.read)) = false ∧
      headerTotal (r.headerAt (r.offsetOf r.read)) = e.grant.total ∧
      r.memory.slice (r.offsetOf r.read + headerWidth) (headerLength (r.headerAt (r.offsetOf r.read))) =
        e.content := by
  obtain ⟨hword, hlength, hshort⟩ := h.headerAt_of_published hfate
  have hb : Stands r.memory r.read (.entry e) := h.layout.1
  rw [hword]
  refine ⟨?_, headerIsPad_recordHeader hshort, headerTotal_recordHeader hshort, ?_⟩
  · have hpos := hb.positive
    simp only [recordHeader, Block.size, headerWidth] at *
    omega
  · rw [headerLength_recordHeader hlength hshort]
    exact hb.carries.2.2

/-- Going over padding, with more steps allowed than there are blocks. -/
theorem advance (fuel : Nat) (h : r.Holds blocks) (hp : r.pending = 0) (hfuel : blocks.length < fuel) :
    ∃ skipped rest, blocks = skipped ++ rest ∧ (∀ b ∈ skipped, b.isPadding = true) ∧
      (advance fuel r).2.Holds rest ∧ Front (advance fuel r).2 rest (advance fuel r).1 ∧
      r.read ≤ (advance fuel r).2.read := by
  induction fuel generalizing r blocks with
  | zero => omega
  | succ fuel ih =>
    unfold Ring.advance
    cases blocks with
    | nil =>
      simp only [if_pos h.headerAt_of_empty]
      exact ⟨[], [], rfl, fun _ hb => absurd hb List.not_mem_nil, h, .empty hp, Nat.le_refl _⟩
    | cons b rest =>
      have hb : Stands r.memory r.read b := h.layout.1
      have hword : r.headerAt (r.offsetOf r.read) = b.header := hb.header
      by_cases hpad : b.isPadding = true
      · -- padding is given back, and the rest is one block shorter
        rw [header_of_isPadding hpad] at hword
        have hreleased : r.release b.size = { r.release b.size with pending := 0 } := by
          rw [← hp]
          rfl
        have hnext : (r.release b.size).Holds rest := hreleased ▸ h.release
        simp only [hword, if_neg (padHeader_ne_zero b.size), headerIsPad_padHeader hb.short, if_true,
          headerTotal_padHeader hb.short]
        obtain ⟨skipped, left, rfl, hskipped, hholds, hfront, hread⟩ :=
          ih hnext hp (by simpa using hfuel)
        refine ⟨b :: skipped, left, rfl, ?_, hholds, hfront, Nat.le_trans (Nat.le_add_right _ _) hread⟩
        intro c hc
        rcases List.mem_cons.1 hc with rfl | hc
        · exact hpad
        · exact hskipped c hc
      · cases b with
        | filler n => exact absurd rfl hpad
        | entry e =>
          have hnone : ∀ b ∈ ([] : List Block), b.isPadding = true := fun _ hb => absurd hb List.not_mem_nil
          cases hfate : e.fate with
          | unresolved =>
            have hzero : r.headerAt (r.offsetOf r.read) = 0 := by
              rw [hword]
              exact (e.header_eq_zero_iff hb.positive).2 hfate
            simp only [if_pos hzero]
            exact ⟨[], .entry e :: rest, rfl, hnone, h, .waiting e rest hfate hp, Nat.le_refl _⟩
          | published =>
            obtain ⟨hne, hrecord, htotal, hcontent⟩ := h.record_in_front hfate
            -- the record stays in front, and now the reader holds it
            simp only [if_neg hne, hrecord, hcontent, htotal, Bool.false_eq_true, if_false]
            refine ⟨[], .entry e :: rest, rfl, hnone, ?_, .record e rest hfate rfl, Nat.le_refl _⟩
            exact { h with held := Or.inr ⟨e, rest, rfl, hfate, rfl⟩ }
          | abandoned => exact absurd (by simp [Block.isPadding, hfate]) hpad

/-- One call of the reader: the record that it held is gone, and so is the padding behind it. -/
theorem next (h : r.Holds blocks) :
    ∃ skipped rest, r.unheld blocks = skipped ++ rest ∧ (∀ b ∈ skipped, b.isPadding = true) ∧
      r.next.2.Holds rest ∧ Front r.next.2 rest r.next.1 ∧ r.read + r.pending ≤ r.next.2.read := by
  obtain ⟨hsettled, hp, hread⟩ := h.settle
  have hwords := hsettled.words_le
  -- every block takes a word at least, so there are no more blocks than words in use
  have hfuel : (r.unheld blocks).length < r.settle.used / headerWidth + 1 := by
    simp only [used, headerWidth] at *
    omega
  have hnext : r.next = Ring.advance (r.settle.used / headerWidth + 1) r.settle := rfl
  rw [hnext, ← hread]
  exact hsettled.advance _ hp hfuel

/-- A reader that finds nothing, and that nobody keeps waiting, has given everything back. -/
theorem emptied (h : r.Holds blocks) (hnone : r.next.1 = none)
    (hall : ∀ e ∈ entriesOf (r.unheld blocks), e.fate ≠ .unresolved) : r.next.2.read = r.next.2.write := by
  obtain ⟨skipped, rest, hrow, -, hnext, hfront, -⟩ := h.next
  rw [hnone] at hfront
  obtain ⟨-, rfl | ⟨e, rest, rfl, hfate⟩⟩ := hfront.of_none
  · exact hnext.layout
  · -- the block in front would have to be waited for
    have hmem : e ∈ entriesOf (r.unheld blocks) := by
      rw [hrow, entriesOf_append]
      exact List.mem_append_right _ List.mem_cons_self
    exact absurd hfate (hall e hmem)

end Holds

/-! ## Producers and the record that the reader holds -/

section Producers

variable {r r' : Ring} {blocks pre post : List Block} {b : Block}

/-- What the reader holds depends on the number it has to give back. -/
theorem unheld_congr (hp : r'.pending = r.pending) : r'.unheld blocks = r.unheld blocks := by
  rw [unheld, unheld, hp]

/-- New blocks stand behind those that the reader sees. -/
theorem Holds.unheld_append (h : r.Holds blocks) (more : List Block) :
    r.unheld (blocks ++ more) = r.unheld blocks ++ more := by
  unfold unheld
  rcases h.held with hp | ⟨e, rest, rfl, -, -⟩
  · rw [if_pos hp, if_pos hp]
  · split
    · rfl
    · rfl

/-- A block that the reader does not hold, with all that stands before it. -/
theorem exists_front_of_unheld (h : r.unheld blocks = pre ++ b :: post) : ∃ front,
    blocks = front ++ b :: post ∧ ∀ b', r.unheld (front ++ b' :: post) = pre ++ b' :: post := by
  unfold unheld at h ⊢
  by_cases hp : r.pending = 0
  · simp only [if_pos hp] at h ⊢
    exact ⟨pre, h, fun _ => rfl⟩
  · simp only [if_neg hp] at h ⊢
    cases blocks with
    | nil => simp at h
    | cons c rest =>
      -- the reader holds `c`, which stands before the block whatever replaces it
      rw [List.tail_cons] at h
      exact ⟨c :: pre, by rw [h]; rfl, fun _ => rfl⟩

theorem pending_putHeader (r : Ring) (offset header : Nat) :
    (r.putHeader offset header).pending = r.pending ∧ (r.putHeader offset header).read = r.read := by
  rw [putHeader]
  exact ⟨rfl, rfl⟩

/-- Writing, reserving and pushing leave the reader's side alone. -/
theorem pending_writeInto {g : Grant} {i : Nat} {bytes : Bytes} (h : r.writeInto g i bytes = some r') :
    r'.pending = r.pending ∧ r'.read = r.read := by
  unfold writeInto at h
  split at h
  · rw [← Option.some.inj h]
    exact ⟨rfl, rfl⟩
  · cases h

theorem pending_reserve {g : Grant} {length : Nat} (h : r.reserve length = .granted g r') :
    r'.pending = r.pending ∧ r'.read = r.read := by
  have hgrant := (reserve_granted h).2.2
  unfold grant at hgrant
  split at hgrant
  · simp only [Prod.mk.injEq] at hgrant
    rw [← hgrant.2]
    exact ⟨rfl, rfl⟩
  · simp only [Prod.mk.injEq] at hgrant
    rw [← hgrant.2]
    exact pending_putHeader _ _ _

theorem pending_complete (r : Ring) (g : Grant) (bytes : Bytes) :
    (r.complete g bytes).pending = r.pending ∧ (r.complete g bytes).read = r.read := by
  simp only [complete, publish, putHeader]
  cases hw : r.writeInto g 0 bytes with
  | none => exact ⟨rfl, rfl⟩
  | some r' => exact pending_writeInto hw

end Producers

end Ring

end MarketFeed.Relay
