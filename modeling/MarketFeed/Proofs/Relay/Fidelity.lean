import MarketFeed.Proofs.Relay.History

/-!
# Relay.Fidelity — what is read is what was published

`Relay.History` ties the records that were read to the reservations that the reader has
passed. This module turns that into what a producer and the reader may rely on
(`Faithful`):

- the reader gets the published payloads in the order of their reservations, each once and
  at growing positions, and never one behind a reservation that is not resolved;
- a payload has the length that was reserved, and holds what was written into a buffer of
  zeros;
- with everything resolved the reader gets all the rest and then nothing.

> `faithful_run`: every queue is faithful after every course of actions.

The first part is the invariant itself. The last one is an induction on the reservations
that the reader has not passed (`Consistent.drained`): every record brings it past one at
least, and where there is no record nothing is left to pass.

The order is that of the reservations and not that of publishing. A payload that is
published behind an open reservation is not lost, but it has to wait for it.
-/

namespace MarketFeed.Relay

namespace History

/-- What producers and the reader may rely on. -/
structure Faithful (h : History) : Prop where
  /-- Read was what is published among the first reservations, which are all resolved. -/
  delivered : ∃ n, (∀ e ∈ h.entries.take n, e.fate ≠ .unresolved) ∧
    h.readings.map (·.payload) = published (h.entries.take n)
  ascending : h.readings.Pairwise (fun p q => p.position < q.position)
  sized : ∀ e ∈ h.entries, e.content.length = e.grant.length
  /-- With nothing unresolved, reading on gives all the rest, and then nothing. -/
  complete : (∀ e ∈ h.entries, e.fate ≠ .unresolved) → ∃ k,
    (h.run (List.replicate k .read)).readings.length = h.readings.length + k ∧
    (h.run (List.replicate k .read)).readings.map (·.payload) = published h.entries ∧
    (h.run (List.replicate k .read)).ring.next.1 = none

variable {h : History} {blocks : List Block} {n : Nat}

/-- Every record brings the reader past a reservation, so there is a last one. -/
theorem Consistent.drained (c : h.Consistent blocks n) (hall : ∀ e ∈ h.entries, e.fate ≠ .unresolved) : ∃ k,
    (h.run (List.replicate k .read)).readings.length = h.readings.length + k ∧
    (h.run (List.replicate k .read)).readings.map (·.payload) = published h.entries ∧
    (h.run (List.replicate k .read)).ring.next.1 = none := by
  -- on the number of reservations not passed yet
  induction hleft : h.entries.length - n using Nat.strongRecOn generalizing h blocks n with
  | ind left ih =>
    obtain ⟨blocks', n', c', hsome, hnone⟩ := c.read
    cases hout : h.ring.next.1 with
    | none => exact ⟨0, rfl, hnone hout hall, hout⟩
    | some p =>
      have hlt : n < n' := hsome (by rw [hout]; exact Option.some_ne_none p)
      have hbound := c'.bound
      have hstep : (h.step .read).entries = h.entries ∧
          (h.step .read).readings.length = h.readings.length + 1 := by
        rw [step_read, hout]
        exact ⟨rfl, List.length_append⟩
      rw [hstep.1] at hbound
      obtain ⟨k, hlength, hpayloads, hend⟩ := ih (h.entries.length - n') (by omega) c'
        (by rw [hstep.1]; exact hall) (by rw [hstep.1])
      have hrun : h.run (List.replicate (k + 1) .read) = (h.step .read).run (List.replicate k .read) := by
        rw [List.replicate_succ, History.run, History.run, List.foldl_cons]
      refine ⟨k + 1, ?_, ?_, ?_⟩
      · rw [hrun, hlength, hstep.2]
        omega
      · rw [hrun, hpayloads, hstep.1]
      · rw [hrun]
        exact hend

/-- All of it follows from the invariant. -/
theorem Consistent.faithful (c : h.Consistent blocks n) : h.Faithful :=
  ⟨⟨n, c.passed, c.delivered⟩, c.ascending, c.sized, c.drained⟩

/-- **A queue is faithful**, whatever its size, its policy and the order of the actions. -/
theorem faithful_run (sizing : Sizing) (actions : List Action) : ((ofSizing sizing).run actions).Faithful := by
  obtain ⟨blocks, n, c⟩ := exists_consistent sizing actions
  exact c.faithful

end History

end MarketFeed.Relay
