import MarketFeed.Relay.Parcel
import MarketFeed.Pipeline.Intake

/-!
# Pipeline.Conveyor — callbacks through the relay queue

The client's queued dispatch and the processor behind it. Callbacks are packed into the
ring by whoever makes them, and unpacked and delivered by one processor, a few at a time
(`process`) or all that are there (`drain`). A callback that finds no room is dropped and
counted, or has to wait, as the queue is set up. A record that is no callback is counted
and passed over.

- `offer?` is one attempt of a producer: `none` is where it has to wait and try again.
  Packing is reserving, three writes and publishing; nothing comes in between here, while
  `Proofs.Relay.Packing` has the general case;
- draining goes in portions (`portion`) until one is not full, as the processor does it;
- a record is delivered before the next one is read, and the reader gives back the one
  before only then.
-/

namespace MarketFeed.Pipeline

/-- The ring and what stands behind it. -/
structure Conveyor where
  ring : Relay.Ring
  intake : Intake

/-- What came of processing: how many records were taken off, and the rest. -/
structure Processed where
  records : Nat
  outcome : Outcome Conveyor

namespace Conveyor

/-- An empty queue whose reader is taken by the processor. -/
def ofSizing (sizing : Relay.Sizing) : Conveyor := ⟨(Relay.Ring.ofSizing sizing).takeReader.2, .empty⟩

/-- Counts a callback that found no room. -/
def drop (c : Conveyor) : Conveyor :=
  { c with intake.desk.tally := c.intake.desk.tally.drop }

/-- Counts a record that is no callback. -/
def countUnreadable (c : Conveyor) : Conveyor :=
  { c with intake.desk.tally := c.intake.desk.tally.parseError }

/-- Packs a callback into the ring; `none` when it has to wait for room. -/
def offer? (c : Conveyor) (callback : Callback) : Option (Outcome Conveyor) :=
  match c.ring.reserve (Relay.Parcel.headerWidth + callback.payload.length) with
  | .granted grant ring => some ⟨[], { c with ring := Relay.Parcel.place ring grant callback }, .finished⟩
  | .refused _ => some ⟨[], c.drop, .finished⟩
  | .waits => none
  | .overflow => some ⟨[], c, .overflow⟩

/-- Takes what stands in a record. -/
def takeRecord (c : Conveyor) (bytes : Bytes) : Outcome Conveyor :=
  match Relay.Parcel.decode bytes with
  | .error _ => ⟨[], c.countUnreadable, .finished⟩
  | .ok callback => (c.intake.deliver callback).map fun intake => { c with intake }

/-- Takes at most `limit` records off the queue; a number out of range ends it early. -/
def process : (limit : Nat) → Conveyor → Processed
  | 0, c => ⟨0, [], c, .finished⟩
  | limit + 1, c =>
    match c.ring.next with
    | (none, ring) => ⟨0, [], { c with ring }, .finished⟩
    | (some reading, ring) =>
      let o := takeRecord { c with ring } reading.payload
      match o.ending with
      | .overflow => ⟨1, o⟩
      | .finished =>
        let p := process limit o.state
        ⟨p.records + 1, p.outcome.after o.deliveries⟩

/-- Records taken in one go unless told otherwise. -/
def portion : Nat := 100

/-- Takes portions, at most `fuel` of them, until one is not full. -/
def drainFrom : (fuel : Nat) → Conveyor → Processed
  | 0, c => ⟨0, [], c, .finished⟩
  | fuel + 1, c =>
    let p := process portion c
    if p.records < portion ∨ p.outcome.ending = .overflow then p
    else
      let rest := drainFrom fuel p.outcome.state
      ⟨p.records + rest.records, rest.outcome.after p.outcome.deliveries⟩

/-- Takes all records off the queue. Every record takes a word at least, so there are no more portions than
words in use. -/
def drain (c : Conveyor) : Processed := drainFrom (c.ring.used / Relay.headerWidth + 1) c

end Conveyor

end MarketFeed.Pipeline
