import MarketFeed.Relay.Ring
import MarketFeed.SortedMap

/-!
# Relay.Dock — a ring together with its producers

Several producers may have a block reserved at the same time and resolve them in any
order; each is known by a number. One producer more may be waiting for room: it tries
again whenever the reader has given some back.

This is the ring as scripts use it. Reservations that are held across other operations
have a name, under which they are written, published or given up; a name that has no
reservation is a failure of the script and not of the ring (`DockFailure.noReservation`).
Under the blocking policy a producer that finds no room would wait for good if nobody else
could go on, so only `pushWaiting` may wait and all others fail (`noRoom`).

`join` asks what became of the waiting producer, `readWaiting` reads until there is
something, which may be what the waiting producer then puts there.
-/

namespace MarketFeed.Relay

/-- Why a step of a producer fails. -/
inductive DockFailure where
  | refused (refusal : Refusal)
  /-- There is no room, and this producer cannot wait. -/
  | noRoom
  /-- The producer has no open reservation. -/
  | noReservation
  /-- The write sticks out of the reserved payload. -/
  | outside
  /-- The size asked for is out of range, and the call ends without an answer. -/
  | overflow

/-- What became of a producer that may have to wait. -/
inductive Waiter where
  | absent
  | waiting (payload : Bytes)
  | done (result : Except DockFailure Unit)

/-- A ring and its producers. -/
structure Dock where
  ring : Ring
  grants : SortedMap Nat Grant
  waiter : Waiter

namespace Dock

def ofRing (ring : Ring) : Dock := ⟨ring, .empty, .absent⟩

/-- A producer reserves a block; the answer is the length of its payload. -/
def reserve (d : Dock) (id length : Nat) : Except DockFailure Nat × Dock :=
  match d.ring.reserve length with
  | .refused refusal => (.error (.refused refusal), d)
  | .waits => (.error .noRoom, d)
  | .overflow => (.error .overflow, d)
  | .granted grant ring => (.ok grant.length, { d with ring, grants := d.grants.insert id grant })

/-- A producer writes into its payload. -/
def write (d : Dock) (id i : Nat) (bytes : Bytes) : Except DockFailure Unit × Dock :=
  match d.grants.get? id with
  | none => (.error .noReservation, d)
  | some grant =>
    match d.ring.writeInto grant i bytes with
    | none => (.error .outside, d)
    | some ring => (.ok (), { d with ring })

/-- A producer resolves its reservation in one way or the other. -/
def resolve (how : Ring → Grant → Ring) (d : Dock) (id : Nat) : Except DockFailure Unit × Dock :=
  match d.grants.get? id with
  | none => (.error .noReservation, d)
  | some grant => (.ok (), { d with ring := how d.ring grant, grants := d.grants.erase id })

def publish : Dock → Nat → Except DockFailure Unit × Dock := resolve Ring.publish

def abandon : Dock → Nat → Except DockFailure Unit × Dock := resolve Ring.abandon

/-- Reserves, writes and publishes in one go. -/
def push (d : Dock) (bytes : Bytes) : Except DockFailure Unit × Dock :=
  match d.ring.reserve bytes.length with
  | .refused refusal => (.error (.refused refusal), d)
  | .waits => (.error .noRoom, d)
  | .overflow => (.error .overflow, d)
  | .granted grant ring => (.ok (), { d with ring := ring.complete grant bytes })

/-- The waiting producer, if there is one, tries again. -/
def retry (d : Dock) : Dock :=
  match d.waiter with
  | .waiting bytes =>
    match d.ring.reserve bytes.length with
    | .waits => d
    | .refused refusal => { d with waiter := .done (.error (.refused refusal)) }
    | .overflow => { d with waiter := .done (.error .overflow) }
    | .granted grant ring => { d with ring := ring.complete grant bytes, waiter := .done (.ok ()) }
  | _ => d

/-- A producer pushes and waits for room if it has to. -/
def pushWaiting (d : Dock) (bytes : Bytes) : Dock := retry { d with waiter := .waiting bytes }

/-- What became of the waiting producer, who is then gone; `none` while it still waits. -/
def join (d : Dock) : Option (Except DockFailure Unit) × Dock :=
  match d.waiter with
  | .done result => (some result, { d with waiter := .absent })
  | _ => (none, d)

/-- Reads the next record; the space given back may let the waiting producer go on. -/
def read (d : Dock) : Option Reading × Dock :=
  let (reading, ring) := d.ring.next
  (reading, retry { d with ring })

/-- Reads until there is a record, which may be that of the waiting producer. -/
def readWaiting (d : Dock) : Option Reading × Dock :=
  match d.read with
  | (some reading, d) => (some reading, d)
  | (none, d) => d.read

end Dock

end MarketFeed.Relay
