/-!
# Tally — counters of what happened to messages

The client's feed metrics: nine counters of 64 bits. They only ever go up, one event or
one batch at a time, and wrap where they would pass the greatest number.

Messages, events and failures to read are counted as they happen, also gaps, messages of
unknown channels, callbacks that the queue dropped and callbacks of replaced connections.
Entries of messages that had no effect on a book are counted by the batch, apart for stale
ones and those of unknown products.
-/

namespace MarketFeed

/-- What has been counted so far. -/
structure Tally where
  /-- Messages taken in for interpretation. -/
  messages : UInt64 := 0
  /-- Events handed to the handler. -/
  events : UInt64 := 0
  /-- Messages and records that could not be read. -/
  parseErrors : UInt64 := 0
  /-- Gaps in sequence numbers. -/
  gaps : UInt64 := 0
  /-- Messages of a channel nobody knows. -/
  unknownChannels : UInt64 := 0
  /-- Changes and trades too old for their book. -/
  stale : UInt64 := 0
  /-- Changes and trades of a product without a book. -/
  unknownProducts : UInt64 := 0
  /-- Callbacks that found no room in the queue. -/
  dropped : UInt64 := 0
  /-- Records of connections that have been replaced. -/
  retired : UInt64 := 0
deriving DecidableEq, Repr

namespace Tally

instance : Inhabited Tally := ⟨{}⟩

def message (t : Tally) : Tally := { t with messages := t.messages + 1 }

def event (t : Tally) : Tally := { t with events := t.events + 1 }

def parseError (t : Tally) : Tally := { t with parseErrors := t.parseErrors + 1 }

def gap (t : Tally) : Tally := { t with gaps := t.gaps + 1 }

def unknownChannel (t : Tally) : Tally := { t with unknownChannels := t.unknownChannels + 1 }

def addStale (t : Tally) (n : Nat) : Tally := { t with stale := t.stale + .ofNat n }

def addUnknownProducts (t : Tally) (n : Nat) : Tally :=
  { t with unknownProducts := t.unknownProducts + .ofNat n }

def drop (t : Tally) : Tally := { t with dropped := t.dropped + 1 }

def retire (t : Tally) : Tally := { t with retired := t.retired + 1 }

/-- The counters by name, in the order they are declared. -/
def toList (t : Tally) : List (String × Nat) :=
  [("messages_processed", t.messages.toNat), ("events_delivered", t.events.toNat),
    ("parse_errors", t.parseErrors.toNat), ("sequence_gaps", t.gaps.toNat),
    ("unknown_channels", t.unknownChannels.toNat), ("stale_book_events", t.stale.toNat),
    ("unknown_book_products", t.unknownProducts.toNat), ("relay_dropped", t.dropped.toNat),
    ("retired_records", t.retired.toNat)]

end Tally

end MarketFeed
