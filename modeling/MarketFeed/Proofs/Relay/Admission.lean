import MarketFeed.Proofs.Relay.History

/-!
# Relay.Admission — which reservations are granted

A reservation is refused for its size exactly if its payload is longer than the greatest
one (`max_payload`), and for want of room exactly if the bytes in use and those that it
takes are more than the memory (`Admits`). Under the blocking policy it waits instead. A
reader that has found nothing while no reservation was open has given everything back, and
then there is room for any payload, wherever the next block would begin: one that does not
fit in front of the end leaves less than half of the memory there (`NeverStarves`). That
is why half of the memory is the limit.

> `admits_iff`: in every state a length is answered as it should be exactly if adding its
> header and rounding up stay within 64 bits; a greater one ends the call and changes
> nothing. The second promise holds in every state.

The answers are read off the ring alone (`Ring.reserve_eq`): they need a capacity of whole
words in both halves, which no operation changes (`capacity_run`). What room the reader
leaves is the invariant of `Relay.History`.

The greatest lengths are longer than any memory holds, and still get no refusal: the size
of the block is summed up first, the sum fails, and with it the call
(`not_admits_of_overflow`).
-/

namespace MarketFeed.Relay

namespace Ring

/-- The bytes that a record takes: its words, and what is left in front of the end when they do not fit there. -/
def demand (r : Ring) (length : Nat) : Nat :=
  if wholeWords length ≤ r.capacity - r.write % r.capacity then wholeWords length
  else r.capacity - r.write % r.capacity + wholeWords length

end Ring

namespace History

/-- What a producer is answered who asks for a length. -/
structure Admits (h : History) (length : UInt64) : Prop where
  tooLarge : (∃ size greatest, h.ring.reserve length.toNat = .refused (.tooLarge size greatest)) ↔
    h.ring.greatestPayload < length.toNat
  full : length.toNat ≤ h.ring.greatestPayload → h.ring.backpressure = .reject →
    ((∃ requested available capacity,
        h.ring.reserve length.toNat = .refused (.full requested available capacity)) ↔
      h.ring.capacity < h.ring.used + h.ring.demand length.toNat)
  waits : length.toNat ≤ h.ring.greatestPayload → h.ring.backpressure = .block →
    (h.ring.reserve length.toNat = .waits ↔ h.ring.capacity < h.ring.used + h.ring.demand length.toNat)
  unchanged : (∀ grant ring, h.ring.reserve length.toNat ≠ .granted grant ring) → h.step (.reserve length) = h

/-- That everything up to the greatest payload is granted when the reader finds nothing and no reservation is open. -/
def NeverStarves (h : History) : Prop :=
  h.ring.next.1 = none → (∀ e ∈ h.entries, e.fate ≠ .unresolved) → ∀ length ≤ h.ring.greatestPayload,
    ∃ grant ring, (h.step .read).ring.reserve length = .granted grant ring

end History

/-! ## The memory keeps its size -/

/-- A capacity is a power of two from 64 on, so its halves are whole words too. -/
theorem capacityFor_dvd (wish : Nat) : 16 ∣ Ring.capacityFor wish := by
  unfold Ring.capacityFor
  have hne : max Ring.leastCapacity (min wish Ring.greatestCapacity) - 1 ≠ 0 := by
    simp only [Ring.leastCapacity]
    omega
  have hlog : 3 ≤ (max Ring.leastCapacity (min wish Ring.greatestCapacity) - 1).log2 := by
    apply (Nat.le_log2 hne).2
    simp only [Ring.leastCapacity]
    omega
  exact Nat.pow_dvd_pow 2 (show 4 ≤ _ by omega)

namespace Ring

variable {r r' : Ring} {g : Grant} {length : Nat}

private theorem capacity_putHeader (r : Ring) (offset header : Nat) :
    (r.putHeader offset header).capacity = r.capacity := by
  simp only [putHeader, capacity, Memory.size_fill]

private theorem capacity_publish (r : Ring) (g : Grant) : (r.publish g).capacity = r.capacity := by
  rw [publish, capacity_putHeader]

private theorem capacity_abandon (r : Ring) (g : Grant) : (r.abandon g).capacity = r.capacity := by
  rw [abandon, capacity_putHeader]

theorem capacity_reserve (h : r.reserve length = .granted g r') : r'.capacity = r.capacity := by
  have hgrant := (reserve_granted h).2.2
  unfold grant at hgrant
  split at hgrant
  · rw [← (Prod.mk.inj hgrant).2]
    rfl
  · rw [← (Prod.mk.inj hgrant).2]
    exact capacity_putHeader _ _ _

private theorem capacity_writeInto {i : Nat} {bytes : Bytes} (h : r.writeInto g i bytes = some r') :
    r'.capacity = r.capacity := by
  unfold writeInto at h
  split at h
  · rw [← Option.some.inj h]
    simp only [capacity, Memory.size_fill]
  · cases h

theorem capacity_complete (r : Ring) (g : Grant) (bytes : Bytes) : (r.complete g bytes).capacity = r.capacity := by
  rw [complete, capacity_publish]
  cases hw : r.writeInto g 0 bytes with
  | none => rfl
  | some r' => exact capacity_writeInto hw

private theorem capacity_release (r : Ring) (total : Nat) : (r.release total).capacity = r.capacity := by
  simp only [release, capacity, Memory.size_wipe]

private theorem capacity_advance (fuel : Nat) : ∀ r : Ring, (advance fuel r).2.capacity = r.capacity := by
  induction fuel with
  | zero => exact fun _ => rfl
  | succ fuel ih =>
    intro r
    simp only [advance]
    split
    · rfl
    · split
      · rw [ih, capacity_release]
      · simp only [capacity]

theorem capacity_next (r : Ring) : r.next.2.capacity = r.capacity := by
  have hsettle : r.settle.capacity = r.capacity := by
    unfold settle
    split
    · rfl
    · show (r.release r.pending).capacity = r.capacity
      exact capacity_release _ _
  rw [next, capacity_advance, hsettle]

end Ring

namespace History

private theorem capacity_resolve (h : History) {how : Ring → Grant → Ring}
    (hhow : ∀ r g, (how r g).capacity = r.capacity)
    (fate : Fate) (k : Nat) : (h.resolve how fate k).ring.capacity = h.ring.capacity := by
  unfold resolve
  split
  · rfl
  · exact hhow _ _

/-- Nothing that is done to a ring changes the size of its memory. -/
theorem capacity_step (h : History) (a : Action) : (h.step a).ring.capacity = h.ring.capacity := by
  cases a with
  | reserve length =>
    simp only [step]
    split
    next hres => exact Ring.capacity_reserve hres
    next => rfl
  | write k i bytes =>
    simp only [step]
    split
    · rfl
    · split
      · rfl
      next hw => exact Ring.capacity_writeInto hw
  | publish k => exact h.capacity_resolve Ring.capacity_publish _ k
  | abandon k => exact h.capacity_resolve Ring.capacity_abandon _ k
  | push bytes =>
    simp only [step]
    split
    next hres => exact (Ring.capacity_complete _ _ _).trans (Ring.capacity_reserve hres)
    next => rfl
  | read =>
    have hnext := Ring.capacity_next h.ring
    rw [step_read]
    generalize h.ring.next.2 = ring at *
    exact hnext

theorem capacity_run (h : History) (actions : List Action) : (h.run actions).ring.capacity = h.ring.capacity := by
  induction actions generalizing h with
  | nil => rfl
  | cons a rest ih => exact (ih (h.step a)).trans (h.capacity_step a)

private theorem capacity_ofSizing (sizing : Sizing) :
    (ofSizing sizing).ring.capacity = Ring.capacityFor sizing.capacity :=
  Memory.size_zeros _

end History

/-! ## Answers -/

namespace Ring

variable {r : Ring} {length : Nat}

/-- Half of the memory is whole words, so a payload is too long exactly if its block is. -/
theorem half_lt_wholeWords_iff (hdvd : 16 ∣ r.capacity) (hlarge : leastCapacity ≤ r.capacity) :
    r.capacity / 2 < wholeWords length ↔ r.greatestPayload < length := by
  simp only [wholeWords, greatestPayload, headerWidth, leastCapacity] at *
  omega

/-- The three answers that are no grant. -/
theorem reserve_eq (hdvd : 16 ∣ r.capacity) (hlarge : leastCapacity ≤ r.capacity)
    (hlen : length + 16 < UInt64.size) :
    r.reserve length =
      if r.greatestPayload < length then .refused (.tooLarge length r.greatestPayload)
      else if r.capacity < r.used + r.demand length then
        match r.backpressure with
        | .reject => .refused (.full length (r.capacity - r.used) r.capacity)
        | .block => .waits
      else .granted (r.grant length (wholeWords length)).1 (r.grant length (wholeWords length)).2 := by
  rw [reserve_of_lt hlen]
  exact ite_congr (propext (half_lt_wholeWords_iff hdvd hlarge)) (fun _ => rfl) (fun _ => rfl)

/-- With nothing in use there is room for everything: what is left in front of the end of a block that does not fit
there is less than half of the memory. -/
theorem exists_reserve_of_empty (hdvd : 16 ∣ r.capacity) (hlarge : leastCapacity ≤ r.capacity)
    (hsmall : r.capacity ≤ greatestCapacity) (hempty : r.read = r.write) (hlen : length ≤ r.greatestPayload) :
    ∃ g r', r.reserve length = .granted g r' := by
  have hshort : length + 16 < UInt64.size := by
    simp only [greatestPayload, headerWidth, leastCapacity, greatestCapacity, UInt64.size] at *
    omega
  have hhalf : ¬ r.capacity / 2 < wholeWords length := fun h =>
    absurd ((half_lt_wholeWords_iff hdvd hlarge).1 h) (Nat.not_lt.2 hlen)
  have hroom : ¬ r.capacity < r.used + r.demand length := by
    rw [used, demand, hempty, Nat.sub_self]
    split <;> omega
  rw [reserve_eq hdvd hlarge hshort, if_neg (Nat.not_lt.2 hlen), if_neg hroom]
  exact ⟨_, _, rfl⟩

end Ring

namespace History

variable {h : History} {blocks : List Block} {n : Nat} {length : UInt64}

/-- A reservation that is not granted leaves no trace. -/
theorem step_reserve_of_not_granted (hnot : ∀ grant ring, h.ring.reserve length.toNat ≠ .granted grant ring) :
    h.step (.reserve length) = h := by
  simp only [step]

/-- A length with a block's size is answered as it should be. -/
theorem admits_of_lt (hdvd : 16 ∣ h.ring.capacity) (hlarge : Ring.leastCapacity ≤ h.ring.capacity)
    (hlen : length.toNat + 16 < UInt64.size) : h.Admits length := by
  have heq := Ring.reserve_eq hdvd hlarge hlen
  refine ⟨?_, ?_, ?_, step_reserve_of_not_granted⟩
  · rw [heq]
    split
    next hlong => exact ⟨fun _ => hlong, fun _ => ⟨_, _, rfl⟩⟩
    next hfits =>
      refine ⟨?_, fun hlong => absurd hlong hfits⟩
      rintro ⟨size, greatest, hres⟩
      split at hres
      · split at hres <;> cases hres
      · cases hres
  · intro hfits hpolicy
    rw [heq, if_neg (Nat.not_lt.2 hfits), hpolicy]
    split
    next hfull => exact ⟨fun _ => hfull, fun _ => ⟨_, _, _, rfl⟩⟩
    next hroom => exact ⟨fun ⟨_, _, _, hres⟩ => Admission.noConfusion hres, fun hfull => absurd hfull hroom⟩
  · intro hfits hpolicy
    rw [heq, if_neg (Nat.not_lt.2 hfits), hpolicy]
    split
    next hfull => exact ⟨fun _ => hfull, fun _ => rfl⟩
    next hroom => exact ⟨fun hres => Admission.noConfusion hres, fun hfull => absurd hfull hroom⟩

/-- A length that is too great for any block's size gets no answer, although it is more than any memory holds. -/
theorem not_admits_of_overflow (hsmall : h.ring.capacity ≤ Ring.greatestCapacity)
    (hlen : UInt64.size ≤ length.toNat + 16) : ¬ h.Admits length := by
  intro hadmits
  have hlong : h.ring.greatestPayload < length.toNat := by
    simp only [Ring.greatestPayload, Ring.greatestCapacity, headerWidth, UInt64.size] at *
    omega
  obtain ⟨size, greatest, hres⟩ := hadmits.tooLarge.2 hlong
  rw [Ring.reserve_eq_overflow_iff.2 hlen] at hres
  cases hres

/-- A reader that finds nothing, and that no producer keeps waiting, has caught up. -/
theorem Consistent.emptied (c : h.Consistent blocks n) (hnone : h.ring.next.1 = none)
    (hall : ∀ e ∈ h.entries, e.fate ≠ .unresolved) : h.ring.next.2.read = h.ring.next.2.write := by
  apply c.holds.emptied hnone
  rw [c.waiting]
  exact fun e he => hall e (List.mem_of_mem_drop he)

/-- Then all of the memory is free, from wherever the cursors are. -/
theorem Consistent.neverStarves (c : h.Consistent blocks n) (hdvd : 16 ∣ h.ring.capacity) : h.NeverStarves := by
  intro hnone hall length hlen
  have hcap := Ring.capacity_next h.ring
  have hempty := c.emptied hnone hall
  have hlarge := c.holds.large
  have hsmall := c.holds.small
  rw [step_read]
  generalize h.ring.next.2 = ring at *
  rw [Ring.greatestPayload, ← hcap] at hlen
  rw [← hcap] at hdvd hlarge hsmall
  exact Ring.exists_reserve_of_empty hdvd hlarge hsmall hempty hlen

/-- In every state, whatever was asked for before, a length is answered as it should be exactly if its block has a
size of 64 bits. A length that has none ends the call and changes nothing, and the reader always makes room for
everything. -/
theorem admits_iff (sizing : Sizing) (actions : List Action) :
    (∀ length, ((ofSizing sizing).run actions).Admits length ↔ length.toNat + 16 < UInt64.size) ∧
    (∀ length : UInt64, UInt64.size ≤ length.toNat + 16 →
      ((ofSizing sizing).run actions).ring.reserve length.toNat = .overflow ∧
      ((ofSizing sizing).run actions).step (.reserve length) = (ofSizing sizing).run actions) ∧
    ((ofSizing sizing).run actions).NeverStarves := by
  obtain ⟨hlarge, hsmall, -⟩ := Ring.capacityFor_bounds sizing.capacity
  have hdvd := capacityFor_dvd sizing.capacity
  rw [← capacity_ofSizing, ← capacity_run _ actions] at hlarge hsmall hdvd
  refine ⟨?_, ?_, ?_⟩
  · intro length
    constructor
    · intro hadmits
      apply Nat.lt_of_not_le
      intro hlen
      exact not_admits_of_overflow hsmall hlen hadmits
    · exact admits_of_lt hdvd hlarge
  · intro length hlen
    have hover := Ring.reserve_eq_overflow_iff (r := ((ofSizing sizing).run actions).ring).2 hlen
    refine ⟨hover, step_reserve_of_not_granted ?_⟩
    intro grant ring hgranted
    rw [hover] at hgranted
    cases hgranted
  · obtain ⟨blocks, n, c⟩ := exists_consistent sizing actions
    exact c.neverStarves hdvd

/-- A block that is given up, and a record without payload behind it that is read. -/
def worn : List Action := [.reserve 24, .abandon 0, .push ⟨[], by decide⟩, .read]

/-- In 64 bytes, the 24 behind those blocks are too few for the greatest record, which is granted all the same. -/
theorem admits_iff_worn : ((ofSizing ⟨64, .reject⟩).run worn).ring.offsetOf
      ((ofSizing ⟨64, .reject⟩).run worn).ring.write = 40 ∧
    ∃ grant ring, (((ofSizing ⟨64, .reject⟩).run worn).step .read).ring.reserve 24 = .granted grant ring := by
  refine ⟨by decide +kernel, (admits_iff ⟨64, .reject⟩ worn).2.2 ?_ ?_ 24 ?_⟩
  · decide +kernel
  · decide +kernel
  · decide +kernel

/-- 4 bytes short of 2⁶⁴ are more than the greatest payload, and are not refused for it. -/
theorem not_admits_out_of_range : ¬ (ofSizing ⟨64, .reject⟩).Admits 18446744073709551612 := by
  apply not_admits_of_overflow
  · decide +kernel
  · decide

end History

end MarketFeed.Relay
