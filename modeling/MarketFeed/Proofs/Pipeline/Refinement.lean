import MarketFeed.Pipeline.Conveyor
import MarketFeed.Proofs.Pipeline.Dropping
import MarketFeed.Proofs.Relay.Parcels

/-!
# Pipeline.Refinement — the queue changes nothing but the time

A callback that goes through the relay queue has the same effect as one that is delivered
at once: whatever is taken off the queue, in whatever portions, is what a direct dispatch
makes of the callbacks that found room (`Passage.Direct`).

> `Passage.queued_refines_direct`: for every course of events, of callbacks, of producers
> that wait for room and try again, and of calls of the processor: what was told, the
> books, the sequence numbers and the newest connections are those of a direct dispatch of
> the callbacks taken so far. Every callback is granted, refused or still waits, and the
> refused ones are the dropped ones.

The only trace of the queue is that count. Nothing is assumed of the bytes in the ring:
that a record is read as it was packed is `Conveyor.takeRecord_encode`, that records come
out in the order of their reservations is `Ring.Queues` from `Relay.Holding`.

A *passage* is the queue together with all that went in and came out; the invariant is
`Tracks`. A step lemma for each side carries it: `Tracks.attempt` for a producer,
`Tracks.work` for the processor, whose calls are seen only as taking callbacks off the
front of the queue and delivering them (`Processed.Takes`). Calls add up
(`Processed.Takes.append`), so a call with a limit and one that drains the queue in
portions are the same kind of thing.

A number out of range ends a call early, behind the callback that called for it. The next
call goes on behind it, as a direct dispatch does.
-/

namespace MarketFeed.Pipeline

open Relay

/-! ## Direct delivery -/

namespace Intake

/-- Delivers callbacks one after the other, whatever becomes of each. -/
def feed : List Callback → Intake → List Delivery × Intake
  | [], i => ([], i)
  | c :: rest, i =>
    let o := i.deliver c
    let (told, i) := feed rest o.state
    (o.deliveries ++ told, i)

variable {xs ys : List Callback} {i : Intake} {n : UInt64}

/-- What comes first is delivered first. -/
theorem feed_append : feed (xs ++ ys) i =
    ((feed xs i).1 ++ (feed ys (feed xs i).2).1, (feed ys (feed xs i).2).2) := by
  induction xs generalizing i with
  | nil => rfl
  | cons c rest ih =>
    show ((i.deliver c).deliveries ++ (feed (rest ++ ys) (i.deliver c).state).1,
      (feed (rest ++ ys) (i.deliver c).state).2) = _
    rw [ih, ← List.append_assoc]
    rfl

/-- The count of dropped callbacks is only carried along. -/
theorem feed_withDropped : feed xs (i.withDropped n) = ((feed xs i).1, (feed xs i).2.withDropped n) := by
  induction xs generalizing i with
  | nil => rfl
  | cons c rest ih =>
    unfold feed
    rw [deliver_withDropped]
    show ((i.deliver c).deliveries ++ (feed rest ((i.deliver c).state.withDropped n)).1,
      (feed rest ((i.deliver c).state.withDropped n)).2) = _
    rw [ih]

end Intake

/-! ## The processor -/

/-- That a call of the processor took some callbacks off the front of a queue and delivered them. -/
structure Processed.Takes (p : Processed) (i : Intake) (queue : List Callback) : Prop where
  bound : p.records ≤ queue.length
  left : p.outcome.state.ring.Queues ((queue.drop p.records).map Parcel.encode)
  delivered : (p.outcome.deliveries, p.outcome.state.intake) = i.feed (queue.take p.records)
  overflow : p.outcome.ending = .overflow → ∃ done last, queue.take p.records = done ++ [last] ∧
    ((i.feed done).2.deliver last).ending = .overflow

namespace Processed.Takes

variable {p q : Processed} {i : Intake} {queue : List Callback}

/-- A call that takes nothing. -/
theorem none {c : Conveyor} (h : c.ring.Queues (queue.map Parcel.encode)) :
    Takes ⟨0, [], c, .finished⟩ c.intake queue :=
  ⟨Nat.zero_le _, h, rfl, fun h => nomatch h⟩

/-- One call after another is one call. -/
theorem append (hp : p.Takes i queue)
    (hq : q.Takes p.outcome.state.intake (queue.drop p.records)) :
    Takes ⟨p.records + q.records, q.outcome.after p.outcome.deliveries⟩ i queue := by
  have hbound := hp.bound
  have hmore := hq.bound
  rw [List.length_drop] at hmore
  have hintake : p.outcome.state.intake = (i.feed (queue.take p.records)).2 := congrArg Prod.snd hp.delivered
  have hdeliveries : p.outcome.deliveries = (i.feed (queue.take p.records)).1 := congrArg Prod.fst hp.delivered
  have hdelivered := hq.delivered
  rw [hintake] at hdelivered
  refine ⟨by simp only; omega, ?_, ?_, ?_⟩
  · have hleft := hq.left
    rw [List.drop_drop] at hleft
    exact hleft
  · rw [List.take_add, Intake.feed_append, ← hdelivered, ← hdeliveries]
    rfl
  · intro hoverflow
    obtain ⟨done, last, hdone, hlast⟩ := hq.overflow hoverflow
    refine ⟨queue.take p.records ++ done, last, ?_, ?_⟩
    · rw [List.take_add, hdone, List.append_assoc]
    · rw [Intake.feed_append, ← hintake]
      exact hlast

end Processed.Takes

namespace Conveyor

/-- A record on the queue is read as the callback that was packed. -/
theorem takeRecord_encode (c : Conveyor) (callback : Callback) :
    c.takeRecord (Parcel.encode callback) =
      (c.intake.deliver callback).map fun intake => { c with intake } := by
  rw [takeRecord, Parcel.decode_encode]

/-- A call takes as many records as it may, or as there are. -/
theorem process_takes (limit : Nat) {c : Conveyor} {queue : List Callback}
    (h : c.ring.Queues (queue.map Parcel.encode)) : (process limit c).Takes c.intake queue ∧
      ((process limit c).outcome.ending = .finished → (process limit c).records = min limit queue.length) := by
  -- on the records it may still take; what is left on the queue is read by the rest of the call
  induction limit generalizing c queue with
  | zero => exact ⟨.none h, fun _ => (Nat.zero_min _).symm⟩
  | succ limit ih =>
    obtain ⟨hfront, hback⟩ := h.next
    unfold process
    generalize c.ring.next = answer at *
    obtain ⟨out, ring⟩ := answer
    cases queue with
    | nil =>
      cases out with
      | some reading => cases hfront
      | none => exact ⟨.none (c := { c with ring }) hback, fun _ => rfl⟩
    | cons callback queue =>
      cases out with
      | none => cases hfront
      | some reading =>
        have hpayload : reading.payload = Parcel.encode callback := Option.some.inj hfront
        simp only [hpayload, takeRecord_encode]
        generalize ho : c.intake.deliver callback = o
        obtain ⟨told, intake, ending⟩ := o
        have hone : Processed.Takes ⟨1, told, ⟨ring, intake⟩, ending⟩ c.intake (callback :: queue) := by
          refine ⟨Nat.le_add_left _ _, hback, ?_, ?_⟩
          · show (told, intake) = c.intake.feed [callback]
            simp only [Intake.feed, ho, List.append_nil]
          · intro hoverflow
            refine ⟨[], callback, rfl, ?_⟩
            show (c.intake.deliver callback).ending = .overflow
            rw [ho]
            exact hoverflow
        cases ending with
        | overflow =>
          -- the call ends here, and the record is taken all the same
          exact ⟨hone, fun h => nomatch h⟩
        | finished =>
          obtain ⟨hrest, hall⟩ := ih (c := ⟨ring, intake⟩) hback
          have happend := hone.append hrest
          simp only [Outcome.map]
          rw [Nat.add_comm]
          refine ⟨happend, ?_⟩
          intro hfinished
          show 1 + (process limit ⟨ring, intake⟩).records = _
          rw [hall hfinished, List.length_cons, Nat.add_comm, Nat.succ_min_succ]

/-- Portions are taken until everything is. The bound on their number is never reached. -/
theorem drainFrom_takes (fuel : Nat) {c : Conveyor} {queue : List Callback}
    (h : c.ring.Queues (queue.map Parcel.encode)) (hfuel : queue.length < fuel) :
    (drainFrom fuel c).Takes c.intake queue ∧
      ((drainFrom fuel c).outcome.ending = .finished → (drainFrom fuel c).records = queue.length) := by
  induction fuel generalizing c queue with
  | zero => omega
  | succ fuel ih =>
    obtain ⟨htakes, hall⟩ := process_takes portion h
    have hportion : portion = 100 := rfl
    unfold drainFrom
    generalize process portion c = p at *
    simp only
    split
    next hlast =>
      -- a portion that is not full leaves nothing
      refine ⟨htakes, ?_⟩
      intro hfinished
      have hrecords := hall hfinished
      rcases hlast with hlast | hlast
      · omega
      · rw [hfinished] at hlast
        cases hlast
    next hmore =>
      have hfinished : p.outcome.ending = .finished := by
        cases hend : p.outcome.ending with
        | finished => rfl
        | overflow => exact absurd (Or.inr hend) hmore
      have hrecords := hall hfinished
      have hbound := htakes.bound
      -- a full portion makes the queue shorter, as the bound on the portions gets smaller
      obtain ⟨hrest, hleft⟩ := ih htakes.left (by rw [List.length_drop]; omega)
      refine ⟨htakes.append hrest, ?_⟩
      intro hend
      have hnumber := hleft hend
      rw [List.length_drop] at hnumber
      show p.records + (drainFrom fuel p.outcome.state).records = _
      omega

/-- The bound on the portions is above the number of callbacks, since each of them takes room. -/
theorem drain_takes {c : Conveyor} {queue : List Callback} (h : c.ring.Queues (queue.map Parcel.encode)) :
    c.drain.Takes c.intake queue ∧
      (c.drain.outcome.ending = .finished → c.drain.records = queue.length) := by
  have hwords := h.words_le
  rw [List.length_map] at hwords
  unfold drain
  -- every record takes a word at least
  apply drainFrom_takes _ h
  simp only [Relay.headerWidth] at *
  omega

end Conveyor

/-! ## Whole passages -/

/-- A callback as a transport makes it. -/
abbrev Call := { c : Callback // c.payload.length < sliceBound }

/-- What happens on either side of the queue. -/
inductive Move where
  | call (c : Call)
  /-- A producer that waits for room tries again. -/
  | retry (c : Call)
  | process (limit : Nat)
  | drain

/-- The calls among some moves. -/
def callsOf (moves : List Move) : List Callback :=
  moves.filterMap fun
    | .call c => some c.val
    | _ => none

/-- The queue and what stands behind it, together with all that went in and came out. -/
structure Passage where
  conveyor : Conveyor
  /-- The callbacks whose reservation was granted, in that order. -/
  granted : List Callback
  refused : List Callback
  /-- The callbacks whose producers wait for room, in no particular order. -/
  blocked : List Call
  taken : Nat
  told : List Delivery

namespace Passage

/-- An empty queue. -/
def ofSizing (sizing : Sizing) : Passage := ⟨.ofSizing sizing, [], [], [], 0, []⟩

/-- A producer tries to make a callback, while others wait. -/
def attempt (p : Passage) (c : Call) (others : List Call) : Passage :=
  match p.conveyor.offer? c.val with
  | none => { p with blocked := c :: others }
  | some o =>
    match p.conveyor.ring.reserve (Parcel.headerWidth + c.val.payload.length) with
    | .granted _ _ => { p with conveyor := o.state, granted := p.granted ++ [c.val], blocked := others }
    | _ => { p with conveyor := o.state, refused := p.refused ++ [c.val], blocked := others }

/-- The processor works on the queue. -/
def work (p : Passage) (f : Conveyor → Processed) : Passage :=
  let done := f p.conveyor
  { p with
    conveyor := done.outcome.state
    taken := p.taken + done.records
    told := p.told ++ done.outcome.deliveries }

/-- One move. -/
def step (p : Passage) : Move → Passage
  | .call c => p.attempt c p.blocked
  | .retry c => if c ∈ p.blocked then p.attempt c (p.blocked.erase c) else p
  | .process limit => p.work (Conveyor.process limit)
  | .drain => p.work Conveyor.drain

/-- Moves one after the other. -/
def run (p : Passage) (moves : List Move) : Passage := moves.foldl step p

/-- Callbacks on the queue. -/
def queued (p : Passage) : Nat := p.granted.length - p.taken

/-- That what came out is what a direct dispatch makes of what was taken off; the queue only leaves the count of
the callbacks that it dropped. -/
structure Direct (p : Passage) : Prop where
  bound : p.taken ≤ p.granted.length
  told : p.told = (Intake.empty.feed (p.granted.take p.taken)).1
  intake : p.conveyor.intake =
    (Intake.empty.feed (p.granted.take p.taken)).2.withDropped (.ofNat p.refused.length)

/-- That the processor's work comes to so many records, unless a number is out of range. Then the last
callback that it took calls for that number in a direct dispatch as well. -/
structure Serves (p : Passage) (f : Conveyor → Processed) (amount : Nat) : Prop where
  direct : (p.work f).Direct
  finished : (f p.conveyor).outcome.ending = .finished → (f p.conveyor).records = amount
  overflow : (f p.conveyor).outcome.ending = .overflow → ∃ done last,
    p.granted.take (p.work f).taken = done ++ [last] ∧
    ((Intake.empty.feed done).2.deliver last).ending = .overflow

/-- What holds all along: the queue has the callbacks that are granted and not taken. -/
structure Tracks (p : Passage) : Prop where
  direct : p.Direct
  queue : p.conveyor.ring.Queues ((p.granted.drop p.taken).map Parcel.encode)

variable {p : Passage}

private theorem granted_work (p : Passage) (f : Conveyor → Processed) : (p.work f).granted = p.granted := rfl

private theorem refused_work (p : Passage) (f : Conveyor → Processed) : (p.work f).refused = p.refused := rfl

private theorem taken_work (p : Passage) (f : Conveyor → Processed) :
    (p.work f).taken = p.taken + (f p.conveyor).records := rfl

/-- At first nothing went in. -/
theorem tracks_ofSizing (sizing : Sizing) : (ofSizing sizing).Tracks :=
  ⟨⟨Nat.le_refl 0, rfl, rfl⟩, Ring.queues_ofSizing sizing⟩

/-- The processor's work, as long as it takes callbacks off the front. -/
theorem Tracks.work (h : p.Tracks) {f : Conveyor → Processed}
    (hf : (f p.conveyor).Takes p.conveyor.intake (p.granted.drop p.taken)) : (p.work f).Tracks := by
  have hbound := hf.bound
  have hdirect := h.direct.bound
  rw [List.length_drop] at hbound
  -- the intake is the direct one but for its count of dropped callbacks, which delivery passes on
  have hdelivered := hf.delivered
  rw [h.direct.intake, Intake.feed_withDropped, Prod.mk.injEq] at hdelivered
  refine ⟨⟨?_, ?_, ?_⟩, ?_⟩
  · show p.taken + (f p.conveyor).records ≤ p.granted.length
    omega
  · show p.told ++ (f p.conveyor).outcome.deliveries = _
    rw [Passage.work, List.take_add, Intake.feed_append, hdelivered.1, h.direct.told]
  · show (f p.conveyor).outcome.state.intake = _
    rw [Passage.work, List.take_add, Intake.feed_append, hdelivered.2]
  · have hleft := hf.left
    rw [List.drop_drop] at hleft
    exact hleft

/-- What a call comes to, as it is seen from outside. -/
theorem Tracks.serves (h : p.Tracks) {f : Conveyor → Processed} {amount : Nat}
    (hf : (f p.conveyor).Takes p.conveyor.intake (p.granted.drop p.taken))
    (hall : (f p.conveyor).outcome.ending = .finished → (f p.conveyor).records = amount) :
    p.Serves f amount := by
  refine ⟨(h.work hf).direct, hall, ?_⟩
  intro hoverflow
  obtain ⟨done, last, hdone, hlast⟩ := hf.overflow hoverflow
  rw [h.direct.intake, Intake.feed_withDropped, Intake.deliver_withDropped] at hlast
  refine ⟨p.granted.take p.taken ++ done, last, ?_, ?_⟩
  · rw [Passage.work, List.take_add, hdone, List.append_assoc]
  · rw [Intake.feed_append]
    exact hlast

/-- A callback goes to the end of the queue, or is counted, or waits. -/
theorem Tracks.attempt (h : p.Tracks) (c : Call) (others : List Call) : (p.attempt c others).Tracks := by
  have hbound := h.direct.bound
  unfold Passage.attempt Conveyor.offer?
  cases hres : p.conveyor.ring.reserve (Parcel.headerWidth + c.val.payload.length) with
  | granted g ring =>
    -- what was taken is a part of what was granted before
    have htake : (p.granted ++ [c.val]).take p.taken = p.granted.take p.taken :=
      List.take_append_of_le_length hbound
    refine ⟨⟨?_, ?_, ?_⟩, ?_⟩
    · show p.taken ≤ (p.granted ++ [c.val]).length
      rw [List.length_append]
      omega
    · show p.told = (Intake.empty.feed ((p.granted ++ [c.val]).take p.taken)).1
      rw [htake]
      exact h.direct.told
    · show p.conveyor.intake = (Intake.empty.feed ((p.granted ++ [c.val]).take p.taken)).2.withDropped _
      rw [htake]
      exact h.direct.intake
    · show (Parcel.place ring g c.val).Queues (((p.granted ++ [c.val]).drop p.taken).map Parcel.encode)
      rw [List.drop_append_of_le_length hbound, List.map_append]
      exact h.queue.place hres
  | refused refusal =>
    refine ⟨⟨hbound, h.direct.told, ?_⟩, h.queue⟩
    show p.conveyor.drop.intake = Intake.withDropped (.ofNat (p.refused ++ [c.val]).length) _
    rw [Conveyor.drop, h.direct.intake, List.length_append, UInt64.ofNat_add]
    rfl
  | waits => exact ⟨⟨hbound, h.direct.told, h.direct.intake⟩, h.queue⟩
  | overflow =>
    -- no payload in memory is so long
    have hlong := Ring.reserve_eq_overflow_iff.1 hres
    have hshort := c.property
    have hheader : Parcel.headerWidth = 9 := rfl
    simp only [sliceBound, UInt64.size] at *
    omega

/-- Every move is a producer's or the processor's. -/
theorem Tracks.step (h : p.Tracks) (m : Move) : (p.step m).Tracks := by
  cases m with
  | call c => exact h.attempt c p.blocked
  | retry c =>
    unfold Passage.step
    simp only
    split
    · exact h.attempt c _
    · exact h
  | process limit => exact h.work (Conveyor.process_takes limit h.queue).1
  | drain => exact h.work (Conveyor.drain_takes h.queue).1

/-- So the invariant holds in every passage. -/
theorem Tracks.run (h : p.Tracks) (moves : List Move) : (p.run moves).Tracks := by
  induction moves generalizing p with
  | nil => exact h
  | cons m rest ih => exact ih (h.step m)

/-! ## No callback is lost -/

/-- All callbacks that were ever made. -/
def all (p : Passage) : List Callback := p.granted ++ p.refused ++ p.blocked.map (·.val)

/-- A callback ends up in one of three places. -/
theorem all_attempt (p : Passage) (c : Call) (others : List Call) :
    (p.attempt c others).all.Perm (c.val :: (p.granted ++ p.refused ++ others.map (·.val))) := by
  unfold attempt all
  split
  next => exact List.perm_middle
  next =>
    split
    next =>
      simp only [List.append_assoc, List.singleton_append]
      exact List.perm_middle
    next =>
      simp only [List.append_assoc, List.singleton_append]
      rw [← List.append_assoc, ← List.append_assoc]
      exact List.perm_middle

private theorem all_work (p : Passage) (f : Conveyor → Processed) : (p.work f).all = p.all := rfl

/-- Only a call adds a callback; a retry moves one. -/
theorem all_step (p : Passage) (m : Move) : (p.step m).all.Perm (callsOf [m] ++ p.all) := by
  cases m with
  | call c => exact p.all_attempt c p.blocked
  | retry c =>
    unfold step
    simp only
    split
    next hc =>
      have hblocked := ((List.perm_cons_erase hc).map (·.val)).append_left (p.granted ++ p.refused)
      exact (p.all_attempt c _).trans (List.perm_middle.symm.trans hblocked.symm)
    next => exact List.Perm.refl _
  | process limit =>
    rw [step, all_work]
    exact List.Perm.refl _
  | drain =>
    rw [step, all_work]
    exact List.Perm.refl _

/-- No callback is lost or made up. -/
theorem all_run (p : Passage) (moves : List Move) : (p.run moves).all.Perm (callsOf moves ++ p.all) := by
  induction moves generalizing p with
  | nil => exact List.Perm.refl _
  | cons m rest ih =>
    have hcons : callsOf (m :: rest) = callsOf [m] ++ callsOf rest := List.filterMap_append (l := [m])
    rw [hcons, List.append_assoc]
    exact (ih (p.step m)).trans
      (((p.all_step m).append_left (callsOf rest)).trans (List.perm_append_comm_assoc _ _ _))

/-- **Queued dispatch is direct dispatch.** Whatever the size of the queue and its policy, and whatever callbacks,
retries and calls of the processor there were, in any order: every callback is granted, refused or still waits;
what the application was told, the books, the sequence numbers and the newest connections are at any time those of a
direct dispatch that was fed the granted callbacks taken so far, and the count of dropped callbacks is that of the
refused ones. A call of the processor takes as many callbacks as it may or as there are, and draining takes them
all. -/
theorem queued_refines_direct (sizing : Sizing) (moves : List Move) :
    let p := (ofSizing sizing).run moves
    p.all.Perm (callsOf moves) ∧ p.Direct ∧
    (∀ limit, p.Serves (Conveyor.process limit) (min limit p.queued)) ∧
    p.Serves Conveyor.drain p.queued ∧
    (p.conveyor.drain.outcome.ending = .finished →
      (p.work Conveyor.drain).told = (Intake.empty.feed p.granted).1 ∧
      (p.work Conveyor.drain).conveyor.intake =
        (Intake.empty.feed p.granted).2.withDropped (.ofNat p.refused.length)) := by
  have htracks := (tracks_ofSizing sizing).run moves
  have hperm := (ofSizing sizing).all_run moves
  rw [show (ofSizing sizing).all = [] from rfl, List.append_nil] at hperm
  generalize (ofSizing sizing).run moves = p at *
  have hqueued : (p.granted.drop p.taken).length = p.queued := List.length_drop
  -- what was taken is a part of what was granted; draining makes it all of it
  obtain ⟨hdrain, hall⟩ := Conveyor.drain_takes htracks.queue
  rw [hqueued] at hall
  have hserves := htracks.serves hdrain hall
  refine ⟨hperm, htracks.direct, ?_, hserves, ?_⟩
  · intro limit
    obtain ⟨htakes, hprocess⟩ := Conveyor.process_takes limit htracks.queue
    rw [hqueued] at hprocess
    exact htracks.serves htakes hprocess
  · intro hfinished
    have hbound := htracks.direct.bound
    have htaken : (p.work Conveyor.drain).taken = p.granted.length := by
      rw [taken_work, hall hfinished, queued]
      omega
    have htold := hserves.direct.told
    have hintake := hserves.direct.intake
    rw [htaken, granted_work, List.take_length] at htold hintake
    rw [refused_work] at hintake
    exact ⟨htold, hintake⟩

end Passage

end MarketFeed.Pipeline
