import MarketFeed.Wire.Channel

/-!
# Subscriptions — what a feed is subscribed to

The client's subscription set: for each channel the products subscribed to. A channel
without products is a subscription too (heartbeats, the whole user channel); removing
named products drops the channel once none is left.

- `add` also answers which products are new (`addNew`), in the order in which they were
  given; a product that is given twice is new once;
- `remove` without products drops the channel with all it has. With products it takes them
  away one by one, and a channel that is empty behind that is dropped even if it was empty
  before, or had none of them;
- channels are kept in their own order, which is the order in which they are asked for
  again after a reconnect.
-/

namespace MarketFeed

/-- The subscribed products of each subscribed channel. -/
structure Subscriptions where
  channels : SortedMap Channel (SortedSet Product)
deriving DecidableEq

namespace Subscriptions

def empty : Subscriptions := ⟨.empty⟩

instance : Inhabited Subscriptions := ⟨empty⟩

/-- The products of a channel; none when it is not subscribed. -/
def products (s : Subscriptions) (channel : Channel) : SortedSet Product :=
  (s.channels.get? channel).getD .empty

/-- Adds products one by one and lists those that were not there. -/
def addNew : List Product → SortedSet Product → SortedSet Product × List Product
  | [], set => (set, [])
  | p :: rest, set =>
    if set.contains p then addNew rest set
    else
      let (set, added) := addNew rest (set.insert p ())
      (set, p :: added)

/-- Subscribes products to a channel, and lists the new ones in the order given. -/
def add (s : Subscriptions) (channel : Channel) (ps : List Product) : Subscriptions × List Product :=
  let (set, added) := addNew ps (s.products channel)
  (⟨s.channels.insert channel set⟩, added)

/-- Ends the subscription of products, or of the whole channel when none is named. -/
def remove (s : Subscriptions) (channel : Channel) (ps : List Product) : Subscriptions :=
  if ps.isEmpty then ⟨s.channels.erase channel⟩
  else
    match s.channels.get? channel with
    | none => s
    | some set =>
      let set := ps.foldl (fun set p => set.erase p) set
      if set.isEmpty then ⟨s.channels.erase channel⟩ else ⟨s.channels.insert channel set⟩

def contains (s : Subscriptions) (channel : Channel) (p : Product) : Bool :=
  (s.products channel).contains p

def hasChannel (s : Subscriptions) (channel : Channel) : Bool := s.channels.contains channel

def size (s : Subscriptions) : Nat := s.channels.size

def isEmpty (s : Subscriptions) : Bool := s.channels.isEmpty

/-- The subscribed channels in order, each with its products in order. -/
def toList (s : Subscriptions) : List (Channel × List Product) :=
  s.channels.entries.map (fun e => (e.1, SortedSet.toList e.2))

end Subscriptions

end MarketFeed
