import MarketFeed.Proofs.Relay.History

/-!
# Relay.Soundness — the memory behind the payloads

Producers write into the payloads of their reservations and the reader looks at the record
it holds, all at the same time and without a lock. That is sound because these payloads
lie in the memory and apart from each other, which rests on all the rest of `Sound`: the
memory in use is a row of whole blocks, everything else is zero, and a header is zero
exactly as long as its reservation is not resolved.

> `sound_run`: every queue is sound after every course of actions.

The row of blocks is that of `Relay.History`. What is added here is where its payloads
lie: those of a row that is no longer than one round of the memory do not overlap
(`Layout.payloads_apart`), and every payload in use, of an open reservation or of the
record that the reader holds, is one of the row (`Consistent.payloads_sublist`).

The reader's own stretch is computed from the header word in memory, as the reader does
it, and not from what is known of the record. So a header that was put wrong would show
here as payloads that overlap.
-/

namespace MarketFeed.Relay

/-- A part of the memory: its first byte, and how many there are. -/
structure Stretch where
  start : Nat
  length : Nat
deriving DecidableEq, Repr

/-- That two stretches have no byte in common. -/
def Stretch.Apart (p q : Stretch) : Prop := p.start + p.length ≤ q.start ∨ q.start + q.length ≤ p.start

/-- Where a producer may write. -/
def Grant.payload (g : Grant) : Stretch := ⟨g.offset + headerWidth, g.length⟩

/-- Where the reader may look, as the header in front says. -/
def Ring.heldPayload? (r : Ring) : Option Stretch :=
  if r.pending = 0 then none
  else some ⟨r.offsetOf r.read + headerWidth, headerLength (r.headerAt (r.offsetOf r.read))⟩

namespace History

/-- The reservations that are not resolved. -/
def outstanding (h : History) : List Entry := h.entries.filter (·.fate = .unresolved)

/-- All payloads in use. -/
def payloads (h : History) : List Stretch :=
  h.ring.heldPayload?.toList ++ h.outstanding.map (·.grant.payload)

/-- What the memory looks like. -/
structure Sound (h : History) : Prop where
  ordered : h.ring.read ≤ h.ring.write ∧ h.ring.write ≤ h.ring.read + h.ring.capacity
  aligned : 8 ∣ h.ring.read ∧ 8 ∣ h.ring.write
  /-- The blocks between the cursors; a header is zero only in front of a reservation that is not resolved. -/
  tiled : ∃ blocks, Layout h.ring.memory h.ring.read blocks h.ring.write ∧
    (entriesOf blocks).filter (·.fate = .unresolved) = h.outstanding ∧
    ∀ b ∈ blocks, b.header = 0 ↔ ∃ e ∈ h.outstanding, b = .entry e
  blank : Blank h.ring.memory h.ring.write (h.ring.read + h.ring.capacity)
  waiting : ∀ e ∈ h.outstanding, h.ring.headerAt e.grant.offset = 0
  inside : ∀ p ∈ h.payloads, p.start + p.length ≤ h.ring.capacity
  apart : h.payloads.Pairwise Stretch.Apart

end History

/-! ## Payloads in a row of blocks -/

section Row

variable {m : Memory} {blocks : List Block} {b : Block} {x y : Nat}

/-- Every block of a row stands somewhere in it. -/
theorem Layout.exists_stands (h : Layout m x blocks y) (hb : b ∈ blocks) :
    ∃ z, x ≤ z ∧ z + b.size ≤ y ∧ Stands m z b := by
  induction blocks generalizing x with
  | nil => cases hb
  | cons c rest ih =>
    rcases List.mem_cons.1 hb with rfl | hb
    · exact ⟨x, Nat.le_refl x, h.2.le, h.1⟩
    · obtain ⟨z, hxz, hzy, hz⟩ := ih h.2 hb
      exact ⟨z, Nat.le_trans (Nat.le_add_right _ _) hxz, hzy, hz⟩

theorem mem_entriesOf {e : Entry} : e ∈ entriesOf blocks ↔ .entry e ∈ blocks := by
  constructor
  · intro he
    obtain ⟨b, hb, hbe⟩ := List.mem_filterMap.1 he
    cases b with
    | filler n => cases hbe
    | entry d => exact Option.some.inj hbe ▸ hb
  · intro hb
    exact List.mem_filterMap.2 ⟨_, hb, rfl⟩

/-- The payload of a block lies inside the block, and the block in the memory. -/
theorem Layout.payload_inside (h : Layout m x blocks y) : ∀ e ∈ entriesOf blocks,
    e.grant.payload.start + e.grant.payload.length ≤ m.size := by
  intro e he
  obtain ⟨z, -, -, hz⟩ := h.exists_stands (mem_entriesOf.1 he)
  obtain ⟨hplace, hroom, -⟩ := hz.carries
  have hwithin : z % m.size + e.grant.total ≤ m.size := hz.within
  simp only [Grant.payload]
  omega

/-- Blocks of a row that is no longer than one round do not overlap. -/
theorem Layout.payloads_apart (h : Layout m x blocks y) (hround : y ≤ x + m.size) :
    ((entriesOf blocks).map (·.grant.payload)).Pairwise Stretch.Apart := by
  induction blocks generalizing x with
  | nil => exact List.Pairwise.nil
  | cons b rest ih =>
    have hrest := ih h.2 (by omega)
    cases b with
    | filler n => exact hrest
    | entry d =>
      -- the first payload against each of those behind it
      refine List.pairwise_cons.2 ⟨?_, hrest⟩
      intro p hp
      obtain ⟨e, he, rfl⟩ := List.mem_map.1 hp
      obtain ⟨z, hxz, hzy, hz⟩ := h.2.exists_stands (mem_entriesOf.1 he)
      obtain ⟨hd, hdroom, -⟩ := h.1.carries
      obtain ⟨hplace, hroom, -⟩ := hz.carries
      have hoff := offsets_apart h.1.within hz.within hxz (by omega)
      simp only [Stretch.Apart, Grant.payload, Block.size] at *
      omega

end Row

/-! ## Histories -/

namespace History

variable {h : History} {blocks : List Block} {n : Nat}

namespace Consistent

/-- What is not resolved still stands in the ring. -/
theorem outstanding_eq (c : h.Consistent blocks n) :
    (entriesOf blocks).filter (·.fate = .unresolved) = h.outstanding := by
  have hwaiting : (entriesOf (h.ring.unheld blocks)).filter (·.fate = .unresolved) = h.outstanding := by
    have hpassed : (h.entries.take n).filter (·.fate = .unresolved) = [] := by
      apply List.filter_eq_nil_iff.2
      intro e he
      simpa using c.passed e he
    rw [c.waiting, outstanding]
    conv => rhs; rw [← List.take_append_drop n h.entries, List.filter_append, hpassed, List.nil_append]
  -- the record that the reader holds is published
  rw [← hwaiting, Ring.unheld]
  rcases c.holds.held with hp | ⟨e, rest, rfl, hfate, -⟩
  · rw [if_pos hp]
  · split
    · rfl
    · show (e :: entriesOf rest).filter _ = (entriesOf rest).filter _
      rw [List.filter_cons_of_neg (by rw [hfate]; decide)]

/-- All payloads in use are payloads of the row. -/
theorem payloads_sublist (c : h.Consistent blocks n) :
    h.payloads.Sublist ((entriesOf blocks).map (·.grant.payload)) := by
  unfold payloads Ring.heldPayload?
  rw [← c.outstanding_eq]
  by_cases hp : h.ring.pending = 0
  · rw [if_pos hp]
    exact List.filter_sublist.map _
  · rw [if_neg hp]
    rcases c.holds.held with hzero | ⟨e, rest, rfl, hfate, -⟩
    · exact absurd hzero hp
    · obtain ⟨hword, hlength, hshort⟩ := c.holds.headerAt_of_published hfate
      have hplace : e.grant.offset = h.ring.offsetOf h.ring.read := c.holds.layout.1.carries.1
      have hrow : entriesOf (.entry e :: rest) = e :: entriesOf rest := rfl
      rw [hword, headerLength_recordHeader hlength hshort, ← hplace, hrow,
        List.filter_cons_of_neg (by rw [hfate]; decide)]
      exact (List.filter_sublist.map _).cons_cons _

/-- All of it follows from the row of blocks. -/
theorem sound (c : h.Consistent blocks n) : h.Sound := by
  have hround : h.ring.write ≤ h.ring.read + h.ring.memory.size := c.holds.room
  have hsub := c.payloads_sublist
  refine ⟨⟨c.holds.read_le, c.holds.room⟩, ⟨c.holds.aligned, c.holds.write_aligned⟩,
    ⟨blocks, c.holds.layout, c.outstanding_eq, ?_⟩, c.holds.blank, ?_, ?_, ?_⟩
  · -- which headers are zero
    intro b hb
    obtain ⟨z, -, -, hz⟩ := c.holds.layout.exists_stands hb
    rw [← c.outstanding_eq]
    cases b with
    | filler n =>
      refine ⟨fun hzero => absurd hzero (padHeader_ne_zero n), ?_⟩
      rintro ⟨e, -, he⟩
      cases he
    | entry d =>
      refine Iff.trans (d.header_eq_zero_iff hz.positive) ⟨?_, ?_⟩
      · intro hfate
        exact ⟨d, List.mem_filter.2 ⟨mem_entriesOf.2 hb, decide_eq_true hfate⟩, rfl⟩
      · rintro ⟨e, he, hde⟩
        obtain rfl := Block.entry.inj hde
        exact of_decide_eq_true (List.mem_filter.1 he).2
  · -- the same for a reservation that is not resolved, at the place its grant names
    intro e he
    rw [← c.outstanding_eq] at he
    obtain ⟨he, hfate⟩ := List.mem_filter.1 he
    obtain ⟨z, -, -, hz⟩ := c.holds.layout.exists_stands (mem_entriesOf.1 he)
    have hword : h.ring.headerAt (z % h.ring.memory.size) = e.header := hz.header
    rw [hz.carries.1, hword]
    exact (e.header_eq_zero_iff hz.positive).2 (of_decide_eq_true hfate)
  · intro p hp
    obtain ⟨e, he, rfl⟩ := List.mem_map.1 (hsub.subset hp)
    exact c.holds.layout.payload_inside e he
  · exact (c.holds.layout.payloads_apart hround).sublist hsub

end Consistent

/-- **A queue is sound** in every state, whatever its size, its policy and the order of the actions. -/
theorem sound_run (sizing : Sizing) (actions : List Action) : ((ofSizing sizing).run actions).Sound := by
  obtain ⟨blocks, n, c⟩ := exists_consistent sizing actions
  exact c.sound

end History

end MarketFeed.Relay
