import MarketFeed.Proofs.Relay.Region

/-!
# Relay.Layout — the blocks in the ring's memory

Between two cursors the memory is a row of whole blocks, one behind the other: padding in
front of the end, and the blocks of granted reservations, each with its header, its
payload and what became of it (`Layout`). The header tells them apart:

- 0: a reservation that is neither published nor given up, where the reader waits;
- a record: the size of the block in the low half, the length of the payload in the high
  one;
- padding: only the size, with the mark `padMark`. A reservation that was given up is
  padding too, of which the reader sees nothing but the size.

A change of one block leaves the row on either side of it as it was, and likewise the
zeros in the free part:

> `AgreeOutside.layout`: a row that lies wholly on one side of the stretch that was
> changed is still a row of the same blocks.

Cursors grow without bound and their remainders are the places in memory. That two cursors
are less than one round apart is what keeps different blocks from overlapping, so it is a
hypothesis of these frame lemmas, written out for either side.
-/

namespace MarketFeed.Relay

/-! ## Blocks -/

/-- What became of a reservation. -/
inductive Fate where
  | unresolved
  | published
  | abandoned
deriving DecidableEq, Repr

/-- A granted reservation with its payload by now. -/
structure Entry where
  grant : Grant
  content : Bytes
  fate : Fate
deriving DecidableEq, Repr

/-- The header of a reservation's block. -/
def Entry.header (e : Entry) : Nat :=
  match e.fate with
  | .unresolved => 0
  | .published => recordHeader e.grant.length e.grant.total
  | .abandoned => padHeader e.grant.total

/-- A block: the padding in front of the end, or the block of a reservation. -/
inductive Block where
  | filler (size : Nat)
  | entry (e : Entry)
deriving DecidableEq, Repr

namespace Block

/-- Bytes of a block. -/
def size : Block → Nat
  | filler n => n
  | entry e => e.grant.total

/-- The header of a block. -/
def header : Block → Nat
  | filler n => padHeader n
  | entry e => e.header

/-- Whether the reader goes over the block. -/
def isPadding : Block → Bool
  | filler _ => true
  | entry e => e.fate == .abandoned

/-- The reservation of a block. -/
def entry? : Block → Option Entry
  | filler _ => none
  | entry e => some e

/-- That the payload of a reservation's block at a place of the memory is where its grant says. -/
def Carries (m : Memory) (o : Nat) : Block → Prop
  | filler _ => True
  | entry e => e.grant.offset = o ∧ headerWidth + e.grant.length ≤ e.grant.total ∧
      m.slice (o + headerWidth) e.grant.length = e.content

end Block

/-- The reservations of a row of blocks. -/
def entriesOf (blocks : List Block) : List Entry := blocks.filterMap Block.entry?

/-- That a block stands at a cursor: in whole words, not across the end, under its header. -/
structure Stands (m : Memory) (x : Nat) (b : Block) : Prop where
  whole : 8 ∣ b.size
  positive : headerWidth ≤ b.size
  within : x % m.size + b.size ≤ m.size
  short : b.size < padMark
  header : m.word (x % m.size) = b.header
  carries : b.Carries m (x % m.size)

/-- That the memory between two cursors is a row of blocks. -/
def Layout (m : Memory) : Nat → List Block → Nat → Prop
  | x, [], y => x = y
  | x, b :: rest, y => Stands m x b ∧ Layout m (x + b.size) rest y

/-- That the memory between two cursors is zero. -/
def Blank (m : Memory) (x y : Nat) : Prop := ∀ z, x ≤ z → z < y → m.get (z % m.size) = 0

/-! ## Rows of blocks -/

theorem Entry.header_eq_zero_iff (e : Entry) (ht : headerWidth ≤ e.grant.total) :
    e.header = 0 ↔ e.fate = .unresolved := by
  have hw : headerWidth = 8 := rfl
  unfold Entry.header
  cases e.fate with
  | unresolved => simp
  | published =>
    simp only [recordHeader, reduceCtorEq, iff_false]
    omega
  | abandoned =>
    simp only [reduceCtorEq, iff_false]
    exact padHeader_ne_zero _

theorem Block.header_lt {b : Block} (h : b.size < padMark) : b.header < UInt64.size := by
  cases b with
  | filler n => exact padHeader_lt h
  | entry e =>
    show e.header < UInt64.size
    unfold Entry.header
    cases e.fate with
    | unresolved => exact (by decide : 0 < UInt64.size)
    | published => exact recordHeader_lt h
    | abandoned => exact padHeader_lt h

/-- Reservations are in the order of their blocks. -/
theorem entriesOf_append (xs ys : List Block) : entriesOf (xs ++ ys) = entriesOf xs ++ entriesOf ys :=
  List.filterMap_append

theorem Stands.length_content {m : Memory} {x : Nat} {e : Entry} (h : Stands m x (.entry e)) :
    e.content.length = e.grant.length := by
  rw [← h.carries.2.2, Memory.length_slice]

/-- Every reservation of a row has a payload of its length. -/
theorem Layout.length_content {m : Memory} {blocks : List Block} {x y : Nat} (h : Layout m x blocks y) :
    ∀ e ∈ entriesOf blocks, e.content.length = e.grant.length := by
  induction blocks generalizing x with
  | nil => exact fun _ he => absurd he List.not_mem_nil
  | cons b rest ih =>
    intro e he
    cases b with
    | filler n => exact ih h.2 e he
    | entry d =>
      rcases List.mem_cons.1 he with rfl | he
      · exact h.1.length_content
      · exact ih h.2 e he

/-- A row can be cut between any two blocks. -/
theorem layout_append {m : Memory} {xs ys : List Block} {x z : Nat} :
    Layout m x (xs ++ ys) z ↔ ∃ y, Layout m x xs y ∧ Layout m y ys z := by
  induction xs generalizing x with
  | nil =>
    constructor
    · intro h
      exact ⟨x, rfl, h⟩
    · rintro ⟨y, rfl, h⟩
      exact h
  | cons b xs ih =>
    constructor
    · rintro ⟨hb, h⟩
      obtain ⟨y, hx, hy⟩ := ih.1 h
      exact ⟨y, ⟨hb, hx⟩, hy⟩
    · rintro ⟨y, ⟨hb, hx⟩, hy⟩
      exact ⟨hb, ih.2 ⟨y, hx, hy⟩⟩

/-- Every block takes a word at least. -/
theorem Layout.words_le {m : Memory} {blocks : List Block} {x y : Nat} (h : Layout m x blocks y) :
    x + headerWidth * blocks.length ≤ y := by
  induction blocks generalizing x with
  | nil =>
    rw [List.length_nil, Nat.mul_zero]
    exact Nat.le_of_eq h
  | cons b rest ih =>
    have hrest := ih h.2
    have hb := h.1.positive
    rw [List.length_cons, Nat.mul_succ]
    omega

/-- A row ends at or behind its beginning. -/
theorem Layout.le {m : Memory} {blocks : List Block} {x y : Nat} (h : Layout m x blocks y) : x ≤ y :=
  Nat.le_trans (Nat.le_add_right _ _) h.words_le

/-- Blocks are whole words, so a row that starts at a word ends at one. -/
theorem Layout.aligned {m : Memory} {blocks : List Block} {x y : Nat} (h : Layout m x blocks y)
    (hx : 8 ∣ x) : 8 ∣ y := by
  induction blocks generalizing x with
  | nil => exact h ▸ hx
  | cons b rest ih => exact ih h.2 (Nat.dvd_add hx h.1.whole)

/-! ## Frames -/

/-- That two memories agree outside a stretch. -/
structure AgreeOutside (m m' : Memory) (o n : Nat) : Prop where
  size : m'.size = m.size
  bytes : ∀ j, j < o ∨ o + n ≤ j → m'.get j = m.get j

theorem agreeOutside_fill {m : Memory} {o n i : Nat} {bytes : Bytes} (hi : i + bytes.length ≤ n)
    (ho : o + n ≤ m.size) : AgreeOutside m (m.fill (o + i) bytes) o n where
  size := m.size_fill _ _
  bytes j hj := Memory.get_fill_outside (by omega) (by omega)

/-- Wiping a stretch leaves all else alone. -/
theorem agreeOutside_wipe {m : Memory} {o n : Nat} (ho : o + n ≤ m.size) :
    AgreeOutside m (m.wipe o n) o n where
  size := m.size_wipe _ _
  bytes _ hj := Memory.get_wipe_outside ho hj

namespace AgreeOutside

variable {m m' : Memory} {a s x y : Nat}

/-- A block apart from the stretch stands where it stood. -/
theorem stands {b : Block} (h : AgreeOutside m m' (a % m.size) s) (ha : a % m.size + s ≤ m.size)
    (hb : Stands m x b)
    (hap : (x + b.size ≤ a ∧ a + s ≤ x + m.size) ∨ (a + s ≤ x ∧ x + b.size ≤ a + m.size)) :
    Stands m' x b := by
  -- cursors less than a round apart, so the stretches are apart in memory
  have hoff : x % m.size + b.size ≤ a % m.size ∨ a % m.size + s ≤ x % m.size := by
    rcases hap with ⟨h₁, h₂⟩ | ⟨h₁, h₂⟩
    · exact offsets_apart hb.within ha h₁ h₂
    · exact (offsets_apart ha hb.within h₁ h₂).symm
  have hsame : ∀ j, x % m.size ≤ j → j < x % m.size + b.size → m'.get j = m.get j :=
    fun j h₁ h₂ => h.bytes j (by omega)
  -- header and payload lie in the block
  refine ⟨hb.whole, hb.positive, by rw [h.size]; exact hb.within, hb.short, ?_, ?_⟩
  · rw [h.size, Memory.word_congr fun j h₁ h₂ => hsame j h₁ (by have := hb.positive; omega)]
    exact hb.header
  · rw [h.size]
    cases b with
    | filler n => trivial
    | entry e =>
      obtain ⟨hplace, hroom, hcontent⟩ := hb.carries
      refine ⟨hplace, hroom, ?_⟩
      rw [Memory.slice_congr fun j h₁ h₂ => hsame j (by omega) (by simp only [Block.size]; omega)]
      exact hcontent

/-- A row of blocks that lies wholly on one side of the stretch stays as it is. -/
theorem layout {blocks : List Block} (h : AgreeOutside m m' (a % m.size) s)
    (ha : a % m.size + s ≤ m.size) (hl : Layout m x blocks y)
    (hap : (y ≤ a ∧ a + s ≤ x + m.size) ∨ (a + s ≤ x ∧ y ≤ a + m.size)) : Layout m' x blocks y := by
  induction blocks generalizing x with
  | nil => exact hl
  | cons b rest ih =>
    have hle := hl.2.le
    exact ⟨h.stands ha hl.1 (by omega), ih hl.2 (by omega)⟩

/-- Zeros apart from the stretch stay zeros. -/
theorem blank (h : AgreeOutside m m' (a % m.size) s) (ha : a % m.size + s ≤ m.size)
    (hpos : 0 < m.size) (hb : Blank m x y)
    (hap : (y ≤ a ∧ a + s ≤ x + m.size) ∨ (a + s ≤ x ∧ y ≤ a + m.size)) : Blank m' x y := by
  intro z hxz hzy
  -- a byte is a stretch of its own
  have hz : z % m.size + 1 ≤ m.size := Nat.mod_lt z hpos
  have hoff : z % m.size + 1 ≤ a % m.size ∨ a % m.size + s ≤ z % m.size := by
    rcases hap with ⟨h₁, h₂⟩ | ⟨h₁, h₂⟩
    · exact offsets_apart hz ha (by omega) (by omega)
    · exact (offsets_apart ha hz (by omega) (by omega)).symm
  rw [h.size, h.bytes _ (by omega)]
  exact hb z hxz hzy

end AgreeOutside

/-! ## Zeros -/

theorem Blank.mono {m : Memory} {x y x' y' : Nat} (h : Blank m x y) (hx : x ≤ x') (hy : y' ≤ y) :
    Blank m x' y' :=
  fun z h₁ h₂ => h z (Nat.le_trans hx h₁) (Nat.lt_of_lt_of_le h₂ hy)

theorem Blank.append {m : Memory} {x y z : Nat} (h₁ : Blank m x y) (h₂ : Blank m y z) : Blank m x z := by
  intro w hxw hwz
  rcases Nat.lt_or_ge w y with hw | hw
  · exact h₁ w hxw hw
  · exact h₂ w hw hwz

/-- The bytes of a blank stretch that does not cross the end. -/
theorem Blank.get {m : Memory} {x n j : Nat} (h : Blank m x (x + n)) (hx : x % m.size + n ≤ m.size)
    (h₁ : x % m.size ≤ j) (h₂ : j < x % m.size + n) : m.get j = 0 := by
  have hj := h (x + (j - x % m.size)) (by omega) (by omega)
  rw [offset_add _ hx (by omega), show x % m.size + (j - x % m.size) = j by omega] at hj
  exact hj

/-- A stretch of zeros is the block of a reservation that nobody has written into. -/
theorem Blank.stands {m : Memory} {x total length : Nat} (h : Blank m x (x + total))
    (hwhole : 8 ∣ total) (hroom : headerWidth + length ≤ total) (hwithin : x % m.size + total ≤ m.size)
    (hshort : total < padMark) :
    Stands m x (.entry ⟨⟨x % m.size, total, length⟩, List.replicate length 0, .unresolved⟩) := by
  have hzero := fun j => h.get (j := j) hwithin
  refine ⟨hwhole, Nat.le_trans (Nat.le_add_right _ _) hroom, hwithin, hshort, ?_, rfl, hroom, ?_⟩
  · exact Memory.word_zeros fun j h₁ h₂ => hzero j h₁ (by omega)
  · show m.slice (x % m.size + headerWidth) length = List.replicate length 0
    exact Memory.slice_zeros fun j h₁ h₂ => hzero j (by omega) (by omega)

/-! ## The row as data -/

/-- A reservation of a row, with what stands before and behind it. -/
theorem exists_split_of_getElem? {blocks : List Block} {i : Nat} {e : Entry}
    (h : (entriesOf blocks)[i]? = some e) :
    ∃ pre post, blocks = pre ++ .entry e :: post ∧ (entriesOf pre).length = i := by
  induction blocks generalizing i with
  | nil => simp [entriesOf] at h
  | cons b rest ih =>
    cases b with
    | filler n =>
      -- padding does not count among the reservations
      obtain ⟨pre, post, rfl, hlen⟩ := ih (i := i) h
      exact ⟨.filler n :: pre, post, rfl, hlen⟩
    | entry d =>
      cases i with
      | zero =>
        have hd : d = e := Option.some.inj h
        exact ⟨[], rest, by rw [hd]; rfl, rfl⟩
      | succ i =>
        obtain ⟨pre, post, rfl, hlen⟩ := ih (i := i) h
        exact ⟨.entry d :: pre, post, rfl, congrArg (· + 1) hlen⟩

end MarketFeed.Relay
