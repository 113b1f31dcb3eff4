import MarketFeed.Continuity
import MarketFeed.FeedFailure
import MarketFeed.Pipeline.Notice
import MarketFeed.Tally

/-!
# Pipeline.Desk — messages become notices

The client's message router. The desk reads a message, checks its number, and takes its
events one by one: each is read, applied to the books, counted, and told. A message or an
event that cannot be read ends that message with one notice of it and leaves what came
before; the next message is taken as if nothing had happened. A gap is told and the
message taken all the same.

- `take` is the router's `handle`; `connected`, `disconnected` and `failed` are the other
  three calls, which forget the numbers of the connection (`retire`) and tell of it;
- books, tracker and counters are parts of one state, since whatever is told comes with
  the books as they are at that moment (`Delivery`);
- the application's handler is not called from here. What it would be called with is
  returned, in order (`Outcome.deliveries`).

An event may call for a number out of range (`Ending.overflow`). Then the message ends
right there, without a notice; what was told and done before stays.
-/

namespace MarketFeed.Pipeline

/-- Sequence numbers, books and counters. -/
structure Desk where
  continuity : Continuity
  books : Books
  tally : Tally

/-- How a piece of work ended. -/
inductive Ending where
  | finished
  /-- A number was out of range. -/
  | overflow
deriving DecidableEq, Repr

/-- What came of a piece of work: what was told in turn, the state after it, and how it ended. -/
structure Outcome (σ : Type) where
  deliveries : List Delivery
  state : σ
  ending : Ending

namespace Outcome

variable {σ τ : Type}

def after (first : List Delivery) (o : Outcome σ) : Outcome σ := { o with deliveries := first ++ o.deliveries }

def map (f : σ → τ) (o : Outcome σ) : Outcome τ := ⟨o.deliveries, f o.state, o.ending⟩

end Outcome

namespace Desk

def empty : Desk := ⟨.empty, .empty, {}⟩

instance : Inhabited Desk := ⟨empty⟩

def tell (d : Desk) (connection : Connection) (content : Content) : Delivery × Desk :=
  (⟨⟨connection, content⟩, d.books⟩, { d with tally := d.tally.event })

/-- Tells one thing and is done. -/
def tellLast (d : Desk) (connection : Connection) (content : Content) : Outcome Desk :=
  let (delivery, d) := d.tell connection content
  ⟨[delivery], d, .finished⟩

def reject (d : Desk) (o : Origin) (failure : Decode.Failure) : Outcome Desk :=
  { d with tally := d.tally.parseError }.tellLast o.connection
    (.malformed o.feed (FeedFailure.malformed failure).message)

def count (d : Desk) (outcome : BatchOutcome) : Desk :=
  { d with tally := (d.tally.addStale outcome.stale).addUnknownProducts outcome.unknown }

def apply (d : Desk) (payload : Payload) : Ending × Desk :=
  match payload.applyTo d.books with
  | (some outcome, books) => (.finished, { d with books }.count outcome)
  | (none, books) => (.overflow, { d with books })

def takeEvents (o : Origin) (topic : Topic) (time sequence : Int) : Desk → List Json → Outcome Desk
  | d, [] => ⟨[], d, .finished⟩
  | d, event :: rest =>
    match Payload.ofEvent topic time event with
    | .error .overflow => ⟨[], d, .overflow⟩
    | .error (.decode failure) => d.reject o failure
    | .ok none => takeEvents o topic time sequence d rest
    | .ok (some payload) =>
      match d.apply payload with
      | (.overflow, d) => ⟨[], d, .overflow⟩
      | (.finished, d) =>
        let (delivery, d) := d.tell o.connection (.event sequence payload)
        (takeEvents o topic time sequence d rest).after [delivery]

/-- Checks a number and tells of a gap. -/
def checkNumber (d : Desk) (o : Origin) (n : Int) : List Delivery × Desk :=
  match d.continuity.check o n with
  | (.accepted, continuity) => ([], { d with continuity })
  | (.gap last received, continuity) =>
    let (delivery, d) := { d with continuity, tally := d.tally.gap }.tell o.connection
      (.gap o.feed last received)
    ([delivery], d)

/-- Takes a message that has been read. -/
def takeEnvelope (d : Desk) (o : Origin) (e : Envelope) : Outcome Desk :=
  let (told, d) := d.checkNumber o e.sequence
  let topic := Topic.ofChannel e.channel
  let d := if topic = .unknown then { d with tally := d.tally.unknownChannel } else d
  (takeEvents o topic e.time e.sequence d e.events).after told

def take (d : Desk) (o : Origin) (bytes : Bytes) : Outcome Desk :=
  let d := { d with tally := d.tally.message }
  match Envelope.read bytes with
  | .error failure => d.reject o failure
  | .ok e => d.takeEnvelope o e

/-- Forgets the sequence numbers of an origin that brings nothing more. -/
def retire (d : Desk) (o : Origin) : Desk := { d with continuity := d.continuity.reset o }

def connected (d : Desk) (o : Origin) : Outcome Desk := (d.retire o).tellLast o.connection (.connected o.feed)

def disconnected (d : Desk) (o : Origin) : Outcome Desk :=
  (d.retire o).tellLast o.connection (.disconnected o.feed)

def failed (d : Desk) (o : Origin) (message : String) : Outcome Desk :=
  (d.retire o).tellLast o.connection (.error o.feed message)

def handle (d : Desk) (c : Callback) : Outcome Desk :=
  match c.signal with
  | .connected => d.connected c.origin
  | .disconnected => d.disconnected c.origin
  | .error => d.failed c.origin (Text.Utf8.decodeLossy c.payload)
  | .data => d.take c.origin c.payload

end Desk

end MarketFeed.Pipeline
