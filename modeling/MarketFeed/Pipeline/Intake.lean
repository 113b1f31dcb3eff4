import MarketFeed.Roster
import MarketFeed.Pipeline.Desk

/-!
# Pipeline.Intake — callbacks on their way to the desk

The look at the roster that comes before every delivery, direct or queued. What a replaced
connection still reports is dropped and counted. Only its last report, that it is gone,
has an effect: its sequence numbers are forgotten.

Anything else that arrives makes its connection the newest of its slot, the loss of a
connection included, and is then handled by the desk.
-/

namespace MarketFeed.Pipeline

/-- The desk, and the newest connection of each slot. -/
structure Intake where
  desk : Desk
  roster : Roster

namespace Intake

def empty : Intake := ⟨.empty, .empty⟩

instance : Inhabited Intake := ⟨empty⟩

/-- Drops a callback of a replaced connection. -/
def drop (i : Intake) (c : Callback) : Intake :=
  let desk := { i.desk with tally := i.desk.tally.retire }
  { i with desk := if c.signal = .disconnected then desk.retire c.origin else desk }

/-- Takes a callback, unless its connection has been replaced. -/
def deliver (i : Intake) (c : Callback) : Outcome Intake :=
  match i.roster.accept c.origin.connection with
  | (false, roster) => ⟨[], { i with roster }.drop c, .finished⟩
  | (true, roster) => (i.desk.handle c).map fun desk => ⟨desk, roster⟩

end Intake

end MarketFeed.Pipeline
