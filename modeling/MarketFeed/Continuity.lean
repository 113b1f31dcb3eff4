import MarketFeed.Callback
import MarketFeed.SortedMap

/-!
# Continuity — sequence numbers of each origin

The client's sequence tracker. The venue numbers the messages of a connection. The first
number of an origin is taken as it comes, then each one has to be the successor of the
last one accepted; any other is a gap and leaves the last one as it was, so that every
later number is compared with the same one. A connection that is lost starts anew
(`reset`).

- `check` gives the verdict and the tracker behind it. An origin is a connection and a
  feed, so the numbers of a reopened feed are not compared with those of its last
  connection;
- numbers are signed and have 64 bits. The greatest one has no successor, so whatever
  comes behind it is a gap;
- a gap is only told. The message is taken all the same, which is the desk's business and
  not the tracker's.
-/

namespace MarketFeed

/-- The last number accepted from each origin. -/
structure Continuity where
  last : SortedMap Origin Int
deriving DecidableEq

namespace Continuity

/-- The verdict on a number. -/
inductive Verdict where
  | accepted
  | gap (last received : Int)
deriving DecidableEq, Repr

def Verdict.isGap : Verdict → Bool
  | accepted => false
  | gap _ _ => true

def empty : Continuity := ⟨.empty⟩

instance : Inhabited Continuity := ⟨empty⟩

/-- The last number accepted from an origin. -/
def last? (c : Continuity) (o : Origin) : Option Int := c.last.get? o

/-- Judges a number and remembers it if it is accepted. -/
def check (c : Continuity) (o : Origin) (n : Int) : Verdict × Continuity :=
  match c.last? o with
  | none => (.accepted, ⟨c.last.insert o n⟩)
  | some last =>
    if n = last + 1 then (.accepted, ⟨c.last.insert o n⟩) else (.gap last n, c)

def reset (c : Continuity) (o : Origin) : Continuity := ⟨c.last.erase o⟩

def size (c : Continuity) : Nat := c.last.size

def isEmpty (c : Continuity) : Bool := c.last.isEmpty

end Continuity

end MarketFeed
