import MarketFeed.SortedMap
import MarketFeed.Wire.Identity

/-!
# Roster — the newest connection of each slot

The client's connection registry. Once a slot has been opened anew, what is still under
way from its earlier openings is retired. Generations wrap, so "earlier" is meant on the
circle: one generation is older than another when the way forward to it is shorter than
half the circle.

- `accept` is `admit` with the answer and the change apart: a connection that is not
  retired becomes the newest of its slot, and one that is leaves the roster alone;
- a slot that nothing has arrived from has no newest generation, and everything is
  admitted;
- exactly half the circle away is not older, from whichever of the two it is seen.
-/

namespace MarketFeed

/-- The newest generation seen of each slot. -/
structure Roster where
  generations : SortedMap UInt32 UInt32
deriving DecidableEq

namespace Roster

def empty : Roster := ⟨.empty⟩

instance : Inhabited Roster := ⟨empty⟩

def newest? (r : Roster) (slot : UInt32) : Option UInt32 := r.generations.get? slot

/-- Steps forward on the circle of generations. -/
def distance (start finish : UInt32) : Nat := (finish - start).toNat

/-- Whether a generation comes before another. -/
def isOlder (generation newest : UInt32) : Bool :=
  0 < distance generation newest && distance generation newest < UInt32.size / 2

/-- Whether a connection has been replaced. -/
def isRetired (r : Roster) (c : Connection) : Bool :=
  match r.newest? c.slot with
  | some newest => isOlder c.generation newest
  | none => false

/-- Admits a connection unless it has been replaced, and replaces those before it. -/
def accept (r : Roster) (c : Connection) : Bool × Roster :=
  if r.isRetired c then (false, r) else (true, ⟨r.generations.insert c.slot c.generation⟩)

end Roster

end MarketFeed
