import MarketFeed.Decode.Record
import MarketFeed.Relay.Memory

/-!
# Relay.Ring — a bounded queue of byte records

Records stand one behind the other in a block of bytes that is used in a circle. Each
takes a *block*: a header word of eight bytes, then the payload, rounded up to whole
words. A header is zero as long as the record is not published, so a reader that meets a
zero header has to wait there; it wipes what it has read before it gives the space back,
and so every header starts out as zero again. A block does not cross the end of the
memory: where it would, the rest is padded and the block starts at the front.

The two cursors only ever grow; their place in the memory is the remainder by the
capacity. They count bytes without a bound: a counter of 64 bits would last for five
centuries at a gigabyte a second. A producer first reserves a block (`reserve`), then
writes into it through the `Grant` it got, and publishes or abandons it; an abandoned
block is padding. Blocks are read in the order in which they were reserved.

A length that is asked for may be any number of 64 bits. What a block takes is a checked
sum (`blockSize?`): where it is no such number, the call ends without an answer
(`Admission.overflow`), and the ring is as it was. Reserving is one step here. Where
several producers race for the write cursor, the order of these steps is the order in
which they win it; how often one tries again before that is left out.

The operations are those of the client's relay queue, as far as their names go: `reserve`,
`publish`, `used`, `capacity` and `max_payload` (`greatestPayload`). `push` is `reserve`
and `complete`; letting a reservation go is `abandon`. The reader's `read` is `next`,
which first releases what it holds (`settle`): a record stays in the memory until the next
one is asked for.
-/

namespace MarketFeed.Relay

open Decode

/-! ## Settings and refusals -/

/-- What a producer does when there is no room. -/
inductive Backpressure where
  /-- It waits until there is. -/
  | block
  /-- It is refused. -/
  | reject
deriving DecidableEq, Repr

namespace Backpressure

def all : List Backpressure := [block, reject]

def name : Backpressure → String
  | block => "block"
  | reject => "reject"

def ofName? (s : String) : Option Backpressure := all.find? (·.name == s)

def decode : Decoder Backpressure := variant (all.map (fun b => (b.name, b)))

def encode (b : Backpressure) : Json := .string b.name

end Backpressure

/-- How large a queue is asked for, and what it does when it is full. -/
structure Sizing where
  capacity : Nat
  backpressure : Backpressure
deriving DecidableEq, Repr

namespace Sizing

/-- The usual size: 16 MiB. -/
def usualCapacity : Nat := 16777216

def usual : Sizing := ⟨usualCapacity, .block⟩

instance : Inhabited Sizing := ⟨usual⟩

def shape : Shape Sizing where
  name := "RelayConfig"
  types := [Nat, Backpressure]
  fields := .cons (required "capacity" size (fun n => Json.int n)) <|
    .cons (required "backpressure" Backpressure.decode Backpressure.encode) .nil
  make := fun (capacity, backpressure, ()) => ⟨capacity, backpressure⟩
  row := fun s => (s.capacity, s.backpressure, ())

end Sizing

/-- Why a reservation is refused. -/
inductive Refusal where
  /-- There is no room at present. -/
  | full (requested available capacity : Nat)
  /-- There will never be room for a record of this size. -/
  | tooLarge (size greatest : Nat)
deriving DecidableEq, Repr

def Refusal.message : Refusal → String
  | .full requested available capacity =>
    "relay queue full: " ++ toString requested ++ " bytes requested, " ++ toString available ++ " of " ++
      toString capacity ++ " available"
  | .tooLarge size greatest =>
    "record of " ++ toString size ++ " bytes exceeds the " ++ toString greatest ++ " byte limit"

/-! ## Blocks -/

/-- Bytes of a header. -/
def headerWidth : Nat := 8

/-- Bytes of a word; blocks begin and end at whole words. -/
def wordWidth : Nat := 8

/-- The sum of two sizes; `none` when it is no number of 64 bits. -/
def sum? (m n : Nat) : Option Nat := if m + n < UInt64.size then some (m + n) else none

/-- Bytes of the block for a payload: the header and the payload in whole words. Rounding up goes over the next
word, so a payload is too long for any number as soon as that sum is. -/
def blockSize? (length : Nat) : Option Nat := do
  let size ← sum? headerWidth length
  let raised ← sum? size wordWidth
  some ((raised - 1) / wordWidth * wordWidth)

/-- Marks a header as padding. -/
def padMark : Nat := UInt32.size / 2

/-- The header of a published record: the size of its block below, the length of its payload above. -/
def recordHeader (length total : Nat) : Nat := length % UInt32.size * UInt32.size + total

/-- The header of padding. -/
def padHeader (total : Nat) : Nat := total + padMark

/-- The size of the block that a header heads. -/
def headerTotal (header : Nat) : Nat := header % padMark

/-- Whether a header heads padding. -/
def headerIsPad (header : Nat) : Bool := header / padMark % 2 == 1

/-- The length of the payload that a header heads. -/
def headerLength (header : Nat) : Nat := header / UInt32.size

/-! ## The ring -/

/-- The queue: its memory, the cursor behind the last reserved block, the cursor at the first block that is not
given back, the size of the record that the reader holds, and whether there is a reader. -/
structure Ring where
  memory : Memory
  backpressure : Backpressure
  write : Nat
  read : Nat
  pending : Nat
  readerTaken : Bool

/-- A reserved block that is not resolved yet: its place in the memory, its size and the payload's. -/
structure Grant where
  offset : Nat
  total : Nat
  length : Nat
deriving DecidableEq, Repr

/-- The answer to a reservation. -/
inductive Admission where
  | granted (grant : Grant) (ring : Ring)
  | refused (refusal : Refusal)
  /-- There is no room yet, and the producer waits for it. -/
  | waits
  /-- The size of the block is no number of 64 bits: the call ends there, before it changes anything. -/
  | overflow

/-- A record as the reader gets it, with the place of its block among all that were ever reserved. -/
structure Reading where
  position : Nat
  payload : Bytes
deriving DecidableEq, Repr

namespace Ring

def leastCapacity : Nat := 64

def greatestCapacity : Nat := 1073741824

/-- The capacity for a wish: within the bounds, and rounded up to a power of two. -/
def capacityFor (wish : Nat) : Nat := Nat.pow 2 ((max leastCapacity (min wish greatestCapacity) - 1).log2 + 1)

/-- An empty queue. -/
def ofSizing (sizing : Sizing) : Ring :=
  ⟨.zeros (capacityFor sizing.capacity), sizing.backpressure, 0, 0, 0, false⟩

def capacity (r : Ring) : Nat := r.memory.size

def greatestPayload (r : Ring) : Nat := r.capacity / 2 - headerWidth

/-- Bytes reserved and not given back. -/
def used (r : Ring) : Nat := r.write - r.read

def isEmpty (r : Ring) : Bool := r.used == 0

/-- The place of a cursor in the memory. -/
def offsetOf (r : Ring) (cursor : Nat) : Nat := cursor % r.capacity

/-- The header at a place of the memory. -/
def headerAt (r : Ring) (offset : Nat) : Nat :=
  Bytes.ofLittleEndian (r.memory.slice offset headerWidth)

def putHeader (r : Ring) (offset header : Nat) : Ring :=
  { r with memory := r.memory.fill offset (Bytes.littleEndian headerWidth header) }

/-- Hands out the reader; there is only one. -/
def takeReader (r : Ring) : Bool × Ring := (!r.readerTaken, { r with readerTaken := true })

/-! ## Producers -/

/-- Bytes from the write cursor to the end of the memory. -/
def tail (r : Ring) : Nat := r.capacity - r.offsetOf r.write

/-- Bytes that a block takes, with the tail before it when the block does not fit there. -/
def needed (r : Ring) (total : Nat) : Nat := if total ≤ r.tail then total else r.tail + total

/-- Reserves a block for which there is room. -/
def grant (r : Ring) (length total : Nat) : Grant × Ring :=
  let advanced := { r with write := r.write + r.needed total }
  if total ≤ r.tail then (⟨r.offsetOf r.write, total, length⟩, advanced)
  else (⟨0, total, length⟩, advanced.putHeader (r.offsetOf r.write) (padHeader r.tail))

/-- Reserves a block for a payload of the given length. -/
def reserve (r : Ring) (length : Nat) : Admission :=
  match blockSize? length with
  | none => .overflow
  | some total =>
    if r.capacity / 2 < total then .refused (.tooLarge length r.greatestPayload)
    else if r.capacity < r.used + r.needed total then
      match r.backpressure with
      | .reject => .refused (.full length (r.capacity - r.used) r.capacity)
      | .block => .waits
    else
      let (grant, ring) := r.grant length total
      .granted grant ring

/-- Writes into a reserved payload; `none` when the bytes would stick out of it. -/
def writeInto (r : Ring) (g : Grant) (i : Nat) (bytes : Bytes) : Option Ring :=
  if i + bytes.length ≤ g.length then
    some { r with memory := r.memory.fill (g.offset + headerWidth + i) bytes }
  else none

/-- Lets the reader see the record. -/
def publish (r : Ring) (g : Grant) : Ring := r.putHeader g.offset (recordHeader g.length g.total)

/-- Turns the block into padding. -/
def abandon (r : Ring) (g : Grant) : Ring := r.putHeader g.offset (padHeader g.total)

/-- Writes and publishes a payload in a block reserved for it. -/
def complete (r : Ring) (g : Grant) (bytes : Bytes) : Ring :=
  ((r.writeInto g 0 bytes).getD r).publish g

/-! ## The reader -/

/-- Wipes a block at the read cursor and gives it back. -/
def release (r : Ring) (total : Nat) : Ring :=
  { r with memory := r.memory.wipe (r.offsetOf r.read) total, read := r.read + total }

/-- Gives back the record that the reader holds. -/
def settle (r : Ring) : Ring :=
  if r.pending = 0 then r else { r.release r.pending with pending := 0 }

/-- Goes over padding, at most `fuel` blocks, to the next record. -/
def advance : (fuel : Nat) → Ring → Option Reading × Ring
  | 0, r => (none, r)
  | fuel + 1, r =>
    let offset := r.offsetOf r.read
    let header := r.headerAt offset
    if header = 0 then (none, r)
    else if headerIsPad header then advance fuel (r.release (headerTotal header))
    else
      (some ⟨r.read, r.memory.slice (offset + headerWidth) (headerLength header)⟩,
        { r with pending := headerTotal header })

/-- The next record, if it is published; the one before is given back. Every block takes a word at least, so
there are no more blocks than words in use. -/
def next (r : Ring) : Option Reading × Ring :=
  let r := r.settle
  advance (r.used / headerWidth + 1) r

end Ring

end MarketFeed.Relay
