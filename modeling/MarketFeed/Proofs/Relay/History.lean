import MarketFeed.Proofs.Relay.Reading

/-!
# Relay.History — a ring and all that was done with it

Producers reserve, write, publish and give up, any number of them at a time and in any
order, and one reader reads in between. A *history* keeps the ring together with what was
done: every reservation that was granted, in that order, with the payload that its writes
have made of zeros, and every record that was read. Reservations go by their number in
that order.

An action that cannot be done changes nothing: one that names no open reservation, a write
that sticks out, a reservation that is refused or has to wait, and one whose size is out
of range (`Admission.overflow`), which ends the caller and leaves the ring as it was. A
reservation that is let go without being published is given up: its block becomes padding.

> `exists_consistent`: in every history the row of blocks in the ring is the list of
> reservations without those that the reader has passed, and what it read is the published
> ones among these.

Each action is one lemma that carries this invariant (`Consistent.reserve`, `write`,
`resolve`, `push`, `read`), built on what the action does to the row of blocks
(`Relay.Holding`, `Relay.Reading`). Two of them are shared: `Consistent.grow` for a new
reservation, `change` for one that is still open.
-/

namespace MarketFeed.Relay

/-- What a producer or the reader does. -/
inductive Action where
  | reserve (length : UInt64)
  | write (number i : Nat) (bytes : Bytes)
  | publish (number : Nat)
  | abandon (number : Nat)
  | push (bytes : Slice)
  | read

/-- A ring, every reservation that was granted, and every record that was read. -/
structure History where
  ring : Ring
  entries : List Entry
  readings : List Reading

/-- The payloads of the published reservations among some. -/
def published (entries : List Entry) : List Bytes :=
  (entries.filter (·.fate = .published)).map (·.content)

namespace History

/-- An empty ring whose reader is taken. -/
def ofSizing (sizing : Sizing) : History := ⟨(Ring.ofSizing sizing).takeReader.2, [], []⟩

/-- The reservation of a number, as long as it is not resolved. -/
def unresolved? (h : History) (number : Nat) : Option Entry :=
  (h.entries[number]?).filter (·.fate = .unresolved)

/-- Resolves a reservation in one way or the other. -/
def resolve (how : Ring → Grant → Ring) (fate : Fate) (h : History) (number : Nat) : History :=
  match h.unresolved? number with
  | none => h
  | some e => { h with ring := how h.ring e.grant, entries := h.entries.set number { e with fate } }

/-- One action. One that cannot be done, or not yet, changes nothing. -/
def step (h : History) : Action → History
  | .reserve length =>
    match h.ring.reserve length.toNat with
    | .granted grant ring =>
      { h with ring, entries := h.entries ++ [⟨grant, List.replicate length.toNat 0, .unresolved⟩] }
    | _ => h
  | .write number i bytes =>
    match h.unresolved? number with
    | none => h
    | some e =>
      match h.ring.writeInto e.grant i bytes with
      | none => h
      | some ring =>
        { h with ring, entries := h.entries.set number { e with content := Bytes.overwrite e.content i bytes } }
  | .publish number => h.resolve Ring.publish .published number
  | .abandon number => h.resolve Ring.abandon .abandoned number
  | .push bytes =>
    match h.ring.reserve bytes.val.length with
    | .granted grant ring =>
      { h with ring := ring.complete grant bytes, entries := h.entries ++ [⟨grant, bytes, .published⟩] }
    | _ => h
  | .read => { h with ring := h.ring.next.2, readings := h.readings ++ h.ring.next.1.toList }

/-- Actions one after the other. -/
def run (h : History) (actions : List Action) : History := actions.foldl step h

/-- What ties a history together; `n` is the number of reservations that the reader has passed. -/
structure Consistent (h : History) (blocks : List Block) (n : Nat) : Prop where
  holds : h.ring.Holds blocks
  bound : n ≤ h.entries.length
  sized : ∀ e ∈ h.entries, e.content.length = e.grant.length
  waiting : entriesOf (h.ring.unheld blocks) = h.entries.drop n
  passed : ∀ e ∈ h.entries.take n, e.fate ≠ .unresolved
  delivered : h.readings.map (·.payload) = published (h.entries.take n)
  ascending : h.readings.Pairwise (fun p q => p.position < q.position)
  behind : ∀ p ∈ h.readings, p.position < h.ring.read + h.ring.pending

end History

/-- What is published comes in the order of the list. -/
theorem published_append (xs ys : List Entry) : published (xs ++ ys) = published xs ++ published ys := by
  rw [published, published, published, List.filter_append, List.map_append]

/-- The reservations among padding are those that were given up. -/
theorem entriesOf_padding {blocks : List Block} (h : ∀ b ∈ blocks, b.isPadding = true) :
    (∀ e ∈ entriesOf blocks, e.fate = .abandoned) ∧ published (entriesOf blocks) = [] := by
  have hgiven : ∀ e ∈ entriesOf blocks, e.fate = .abandoned := by
    intro e he
    obtain ⟨b, hb, hbe⟩ := List.mem_filterMap.1 he
    cases b with
    | filler n => cases hbe
    | entry d =>
      obtain rfl := Option.some.inj hbe
      simpa [Block.isPadding] using h _ hb
  refine ⟨hgiven, ?_⟩
  rw [published, List.filter_eq_nil_iff.2, List.map_nil]
  intro e he
  rw [hgiven e he]
  decide

/-! ## What each action keeps -/

namespace History

variable {h : History} {blocks : List Block} {n : Nat}

/-- A read that finds a record appends it to what was read. -/
theorem step_read (h : History) : h.step .read =
    { h with ring := h.ring.next.2, readings := h.readings ++ h.ring.next.1.toList } := by
  rw [step]

/-- Nothing is reserved at first, and the ring is empty. -/
theorem consistent_ofSizing (sizing : Sizing) : (ofSizing sizing).Consistent [] 0 where
  holds := Ring.holds_ofSizing sizing
  bound := Nat.le_refl 0
  sized _ he := absurd he List.not_mem_nil
  waiting := rfl
  passed _ he := absurd he List.not_mem_nil
  delivered := rfl
  ascending := List.Pairwise.nil
  behind _ hp := absurd hp List.not_mem_nil

namespace Consistent

/-- A new block at the end of the row is a new reservation at the end of the list. -/
theorem grow (c : h.Consistent blocks n) {ring : Ring} {more : List Block} {e : Entry}
    (hring : ring.Holds (blocks ++ more)) (hp : ring.pending = h.ring.pending ∧ ring.read = h.ring.read)
    (hmore : entriesOf more = [e]) :
    ({ h with ring, entries := h.entries ++ [e] } : History).Consistent (blocks ++ more) n := by
  have htake : (h.entries ++ [e]).take n = h.entries.take n := List.take_append_of_le_length c.bound
  refine ⟨hring, ?_, ?_, ?_, ?_, ?_, c.ascending, ?_⟩
  · rw [List.length_append]
    exact Nat.le_add_right_of_le c.bound
  · intro d hd
    rcases List.mem_append.1 hd with hd | hd
    · exact c.sized d hd
    · apply hring.layout.length_content
      rw [entriesOf_append, hmore]
      exact List.mem_append_right _ hd
  · rw [Ring.unheld_congr hp.1, c.holds.unheld_append, entriesOf_append, c.waiting, hmore,
      List.drop_append_of_le_length c.bound]
  · rw [htake]
    exact c.passed
  · rw [htake]
    exact c.delivered
  · rw [hp.1, hp.2]
    exact c.behind

/-- A reservation that is not resolved is one that the reader has not passed, and a block of its own in the row. -/
theorem change (c : h.Consistent blocks n) {k : Nat} {e e' : Entry} {ring : Ring}
    (hk : h.unresolved? k = some e)
    (hp : ring.pending = h.ring.pending ∧ ring.read = h.ring.read)
    (hring : ∀ front post, h.ring.Holds (front ++ .entry e :: post) →
      ring.Holds (front ++ .entry e' :: post)) :
    ∃ blocks', ({ h with ring, entries := h.entries.set k e' } : History).Consistent blocks' n := by
  obtain ⟨hget, hfate⟩ := Option.filter_eq_some_iff.1 hk
  have hfate : e.fate = .unresolved := of_decide_eq_true hfate
  -- what the reader has passed is resolved
  have hnk : n ≤ k := by
    rcases Nat.lt_or_ge k n with hlt | hge
    · have hmem : e ∈ h.entries.take n := by
        apply List.mem_of_getElem? (i := k)
        rw [List.getElem?_take_of_lt hlt]
        exact hget
      exact absurd hfate (c.passed e hmem)
    · exact hge
  -- so it is a block that the reader does not hold, at its place among those not passed
  have hdrop : (entriesOf (h.ring.unheld blocks))[k - n]? = some e := by
    rw [c.waiting, List.getElem?_drop, Nat.add_sub_cancel' hnk]
    exact hget
  obtain ⟨pre, post, hrow, hlen⟩ := exists_split_of_getElem? hdrop
  obtain ⟨front, rfl, hunheld⟩ := Ring.exists_front_of_unheld hrow
  have hentries : h.entries.drop n = entriesOf pre ++ e :: entriesOf post := by
    rw [← c.waiting, hrow, entriesOf_append]
    rfl
  have htake : (h.entries.set k e').take n = h.entries.take n := List.take_set_of_le hnk
  have hholds := hring front post c.holds
  -- the list changes only behind the first `n`, and there like the row
  refine ⟨front ++ .entry e' :: post, hholds, ?_, ?_, ?_, ?_, ?_, c.ascending, ?_⟩
  · rw [List.length_set]
    exact c.bound
  · intro d hd
    rcases List.mem_or_eq_of_mem_set hd with hd | rfl
    · exact c.sized d hd
    · apply hholds.layout.length_content
      rw [entriesOf_append]
      exact List.mem_append_right _ List.mem_cons_self
  · rw [Ring.unheld_congr hp.1, hunheld, entriesOf_append, List.drop_set, if_neg (by omega), hentries,
      List.set_append_right _ _ (by omega), hlen, Nat.sub_self, List.set_cons_zero]
    rfl
  · rw [htake]
    exact c.passed
  · rw [htake]
    exact c.delivered
  · rw [hp.1, hp.2]
    exact c.behind

/-- Publishing and giving up change one block of the row. -/
theorem resolve (c : h.Consistent blocks n) (how : Ring → Grant → Ring) (fate : Fate) (k : Nat)
    (hhow : ∀ e front post, e.fate = .unresolved → h.ring.Holds (front ++ .entry e :: post) →
      (how h.ring e.grant).Holds (front ++ .entry { e with fate } :: post))
    (hp : ∀ g, (how h.ring g).pending = h.ring.pending ∧ (how h.ring g).read = h.ring.read) :
    ∃ blocks', (h.resolve how fate k).Consistent blocks' n := by
  unfold History.resolve
  cases hk : h.unresolved? k with
  | none => exact ⟨blocks, c⟩
  | some e =>
    have hfate : e.fate = .unresolved := of_decide_eq_true (Option.filter_eq_some_iff.1 hk).2
    exact c.change hk (hp e.grant) fun front post => hhow e front post hfate

/-- A write changes the payload of its own block only. -/
theorem write (c : h.Consistent blocks n) (k i : Nat) (bytes : Bytes) :
    ∃ blocks', (h.step (.write k i bytes)).Consistent blocks' n := by
  simp only [step]
  split
  next => exact ⟨blocks, c⟩
  next e hk =>
    split
    next => exact ⟨blocks, c⟩
    next ring hw =>
      exact c.change hk (Ring.pending_writeInto hw) fun _ _ hholds => hholds.writeInto hw

/-- What is granted stands at the end of the row; what is not leaves it alone. -/
theorem reserve (c : h.Consistent blocks n) (length : UInt64) :
    ∃ blocks', (h.step (.reserve length)).Consistent blocks' n := by
  simp only [step]
  split
  next g ring hres =>
    obtain ⟨-, fillers, -, hfillers, hring⟩ := c.holds.reserve hres
    refine ⟨_, c.grow hring (Ring.pending_reserve hres) ?_⟩
    rw [entriesOf_append, hfillers]
    rfl
  next => exact ⟨blocks, c⟩

/-- Pushing is reserving, filling and publishing in one go. -/
theorem push (c : h.Consistent blocks n) (bytes : Slice) :
    ∃ blocks', (h.step (.push bytes)).Consistent blocks' n := by
  simp only [step]
  split
  next g ring hres =>
    obtain ⟨hg, fillers, -, hfillers, hring⟩ := c.holds.reserve hres
    -- the new block is the last one
    rw [← List.append_assoc] at hring
    have hcomplete := hring.complete rfl hg.symm
    rw [List.append_assoc] at hcomplete
    obtain ⟨hp, hr⟩ := Ring.pending_reserve hres
    obtain ⟨hp', hr'⟩ := Ring.pending_complete ring g bytes
    refine ⟨_, c.grow hcomplete ⟨hp'.trans hp, hr'.trans hr⟩ ?_⟩
    rw [entriesOf_append, hfillers]
    rfl
  next => exact ⟨blocks, c⟩

/-- Going over padding passes the reservations that were given up. -/
theorem skip (c : h.Consistent blocks n) {skipped rest : List Block} {ring : Ring}
    (hrow : h.ring.unheld blocks = skipped ++ rest) (hskipped : ∀ b ∈ skipped, b.isPadding = true)
    (hholds : ring.Holds rest) (hp : ring.pending = 0) (hread : h.ring.read + h.ring.pending ≤ ring.read) :
    ∃ n', n ≤ n' ∧ ({ h with ring } : History).Consistent rest n' := by
  obtain ⟨hgiven, hnone⟩ := entriesOf_padding hskipped
  have hdrop : h.entries.drop n = entriesOf skipped ++ entriesOf rest := by
    rw [← c.waiting, hrow, entriesOf_append]
  have htake : h.entries.take (n + (entriesOf skipped).length) = h.entries.take n ++ entriesOf skipped := by
    rw [List.take_add, hdrop, List.take_left]
  refine ⟨n + (entriesOf skipped).length, Nat.le_add_right _ _, hholds, ?_, c.sized, ?_, ?_, ?_, c.ascending, ?_⟩
  · have hlen := congrArg List.length hdrop
    rw [List.length_drop, List.length_append] at hlen
    have hbound := c.bound
    show n + (entriesOf skipped).length ≤ h.entries.length
    omega
  · rw [Ring.unheld, if_pos hp, ← List.drop_drop, hdrop, List.drop_left]
  · rw [htake]
    intro e he
    rcases List.mem_append.1 he with he | he
    · exact c.passed e he
    · rw [hgiven e he]
      exact Fate.noConfusion
  · rw [htake, published_append, hnone, List.append_nil]
    exact c.delivered
  · intro p hmem
    exact Nat.lt_add_right _ (Nat.lt_of_lt_of_le (c.behind p hmem) hread)

/-- The record in front is read, and held from then on. -/
theorem take {e : Entry} {rest : List Block} (c : h.Consistent (.entry e :: rest) n) (hfate : e.fate = .published)
    (hp : h.ring.pending = 0) :
    ({ h with
      ring := { h.ring with pending := e.grant.total }
      readings := h.readings ++ [⟨h.ring.read, e.content⟩] } : History).Consistent (.entry e :: rest) (n + 1) := by
  have hpos : 0 < e.grant.total := Nat.lt_of_lt_of_le (by decide) c.holds.layout.1.positive
  have hdrop : h.entries.drop n = e :: entriesOf rest := by
    rw [← c.waiting, Ring.unheld, if_pos hp]
    rfl
  have htake : h.entries.take (n + 1) = h.entries.take n ++ [e] := by
    rw [List.take_add, hdrop]
    rfl
  have hbehind : ∀ p ∈ h.readings, p.position < h.ring.read := by
    intro p hmem
    have hlt := c.behind p hmem
    rw [hp] at hlt
    exact hlt
  have hholds : ({ h.ring with pending := e.grant.total } : Ring).Holds (.entry e :: rest) :=
    { c.holds with held := Or.inr ⟨e, rest, rfl, hfate, rfl⟩ }
  -- the record counts as passed as soon as it is read, although its block is still there
  refine ⟨hholds, ?_, c.sized, ?_, ?_, ?_, ?_, ?_⟩
  · have hlen := congrArg List.length hdrop
    rw [List.length_drop, List.length_cons] at hlen
    show n + 1 ≤ h.entries.length
    omega
  · rw [Ring.unheld, if_neg (Nat.ne_of_gt hpos), ← List.drop_drop, hdrop]
    rfl
  · rw [htake]
    intro d hd
    rcases List.mem_append.1 hd with hd | hd
    · exact c.passed d hd
    · rw [List.mem_singleton.1 hd, hfate]
      exact Fate.noConfusion
  · rw [htake, published_append, List.map_append, c.delivered]
    simp [published, hfate]
  · rw [List.pairwise_append]
    refine ⟨c.ascending, List.pairwise_singleton _ _, ?_⟩
    intro p hmem q hq
    rw [List.mem_singleton.1 hq]
    exact hbehind p hmem
  · intro p hmem
    show p.position < h.ring.read + e.grant.total
    rcases List.mem_append.1 hmem with hmem | hmem
    · exact Nat.lt_add_right _ (hbehind p hmem)
    · rw [List.mem_singleton.1 hmem]
      exact Nat.lt_add_of_pos_right hpos

/-- One call of the reader. It passes what was given up and at most one record; if it finds none although
nothing is left unresolved, then there is none left. -/
theorem read (c : h.Consistent blocks n) : ∃ blocks' n', (h.step .read).Consistent blocks' n' ∧
    (h.ring.next.1 ≠ none → n < n') ∧
    (h.ring.next.1 = none → (∀ e ∈ h.entries, e.fate ≠ .unresolved) →
      h.readings.map (·.payload) = published h.entries) := by
  obtain ⟨skipped, rest, hrow, hskipped, hholds, hfront, hread⟩ := c.holds.next
  rw [step_read]
  generalize h.ring.next = answer at *
  obtain ⟨out, ring⟩ := answer
  simp only at hholds hfront hread ⊢
  cases out with
  | none =>
    obtain ⟨hp, hrest⟩ := hfront.of_none
    obtain ⟨n', -, c'⟩ := c.skip hrow hskipped hholds hp hread
    refine ⟨rest, n', ?_, fun hne => absurd rfl hne, ?_⟩
    · rw [Option.toList_none, List.append_nil]
      exact c'
    · intro _ hall
      have hdrop := c'.waiting
      rw [Ring.unheld, if_pos hp] at hdrop
      -- whatever stands in front is unresolved, so nothing does
      rcases hrest with rfl | ⟨e, rest, rfl, hfate⟩
      · rw [c'.delivered, List.take_of_length_le (List.drop_eq_nil_iff.1 hdrop.symm)]
      · have hmem : e ∈ h.entries.drop n' := hdrop ▸ List.mem_cons_self
        exact absurd hfate (hall e (List.mem_of_mem_drop hmem))
  | some reading =>
    obtain ⟨e, rest, rfl, hfate, hp, rfl⟩ := hfront.of_some
    -- first up to the record, then the record itself
    have hfree : ({ ring with pending := 0 } : Ring).Holds (.entry e :: rest) :=
      { hholds with held := Or.inl rfl }
    obtain ⟨n', hle, c'⟩ := c.skip hrow hskipped hfree rfl hread
    have htaken := c'.take hfate rfl
    rw [← hp] at htaken
    exact ⟨_, n' + 1, htaken, fun _ => Nat.lt_succ_of_le hle, fun hnone => absurd hnone (Option.some_ne_none _)⟩

/-- Every action keeps a history consistent. -/
theorem step (c : h.Consistent blocks n) (a : Action) :
    ∃ blocks' n', (h.step a).Consistent blocks' n' := by
  cases a with
  | reserve length =>
    obtain ⟨blocks', c'⟩ := c.reserve length
    exact ⟨blocks', n, c'⟩
  | write k i bytes =>
    obtain ⟨blocks', c'⟩ := c.write k i bytes
    exact ⟨blocks', n, c'⟩
  | publish k =>
    obtain ⟨blocks', c'⟩ := c.resolve Ring.publish .published k
      (fun _ _ _ hfate hholds => hholds.publish hfate) fun _ => Ring.pending_putHeader _ _ _
    exact ⟨blocks', n, c'⟩
  | abandon k =>
    obtain ⟨blocks', c'⟩ := c.resolve Ring.abandon .abandoned k
      (fun _ _ _ hfate hholds => hholds.abandon hfate) fun _ => Ring.pending_putHeader _ _ _
    exact ⟨blocks', n, c'⟩
  | push bytes =>
    obtain ⟨blocks', c'⟩ := c.push bytes
    exact ⟨blocks', n, c'⟩
  | read =>
    obtain ⟨blocks', n', c', -, -⟩ := c.read
    exact ⟨blocks', n', c'⟩

/-- So does every course of actions. -/
theorem run (actions : List Action) (c : h.Consistent blocks n) :
    ∃ blocks' n', (h.run actions).Consistent blocks' n' := by
  induction actions generalizing h blocks n with
  | nil => exact ⟨blocks, n, c⟩
  | cons a rest ih =>
    obtain ⟨blocks₁, n₁, c₁⟩ := c.step a
    exact ih c₁

end Consistent

/-- The invariant of every course of actions, whatever the size and the policy. -/
theorem exists_consistent (sizing : Sizing) (actions : List Action) :
    ∃ blocks n, ((ofSizing sizing).run actions).Consistent blocks n :=
  (consistent_ofSizing sizing).run actions

end History

end MarketFeed.Relay
