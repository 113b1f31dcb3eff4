/-!
# Backoff — how long to wait before reopening a feed

The client's reconnect policy: either feeds are reopened automatically after a delay, or
it is left to the application. Durations are whole nanoseconds. The delay starts at the
initial one and is doubled for each attempt up to the greatest; doubling is done on whole
milliseconds, so a part of a millisecond is lost at the first doubling.

- `delay?` is the policy's `delay`. It counts attempts from zero, and is never more than
  the greatest delay, the initial one included;
- `grow` doubles once for each attempt and stops at the greatest delay. It also stops
  where doubling changes nothing, as the next doublings will not either, so that a large
  number of attempts costs nothing;
- milliseconds are kept in 64 bits. They are bounded by the greatest delay before they are
  cut.
-/

namespace MarketFeed

/-- What happens after a feed has lost its connection. -/
inductive Backoff where
  /-- It stays closed until told otherwise. -/
  | manual
  /-- It is reopened after a delay that doubles from one bound up to the other. -/
  | automatic (initial greatest : Nat)
deriving DecidableEq, Repr

namespace Backoff

/-- Nanoseconds of a millisecond. -/
def millisecond : Nat := 1000000

/-- Twice the whole milliseconds of a delay, at most those of the greatest; kept in 64 bits. -/
def double (greatest delay : Nat) : Nat :=
  min (delay / millisecond * 2) (greatest / millisecond) % UInt64.size * millisecond

/-- Doubles up to `attempt` times, and no longer once the greatest delay is reached. -/
def grow (greatest : Nat) : (attempt : Nat) → Nat → Nat
  | 0, delay => delay
  | n + 1, delay =>
    let next := double greatest delay
    if greatest ≤ next then next
    -- a delay that stays as it is will do so for the other attempts as well
    else if next = delay then delay
    else grow greatest n next

/-- The delay before an attempt, counted from zero. -/
def delay? (policy : Backoff) (attempt : Nat) : Option Nat :=
  match policy with
  | manual => none
  | automatic initial greatest => some (min (grow greatest attempt initial) greatest)

/-- The initial delay unless told otherwise, in milliseconds. -/
def defaultInitial : Nat := 500

/-- The greatest delay unless told otherwise, in milliseconds. -/
def defaultGreatest : Nat := 15000

/-- Reopening with bounds in milliseconds. -/
def ofMilliseconds (initial greatest : Nat) : Backoff :=
  automatic (initial * millisecond) (greatest * millisecond)

/-- Reopening with the usual bounds. -/
def usual : Backoff := ofMilliseconds defaultInitial defaultGreatest

end Backoff

end MarketFeed
