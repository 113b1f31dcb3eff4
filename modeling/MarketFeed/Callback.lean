import MarketFeed.Wire.Channel

/-!
# Callback — what a transport reports

A transport reports that its connection was established, was lost, met an error or brought
data. Each report belongs to an *origin*, one connection of one feed. These are the four
calls of the client's dispatch (`connected`, `disconnected`, `error`, `data`) with their
arguments, made values, so that they can be put in a list, on a queue, or in any order.

A payload is what came along: the bytes of a message, or the text of an error. The other
two have none, but a record from the queue may have one all the same, which is then
ignored.

Origins are ordered by slot, generation and feed, as the tables kept for them are.
-/

namespace MarketFeed

/-- One connection of one feed. -/
structure Origin where
  connection : Connection
  feed : Feed
deriving DecidableEq, Repr

namespace Origin

instance : Inhabited Origin := ⟨⟨default, default⟩⟩

/-- Origins are ordered by connection, then by feed. -/
def rank (o : Origin) : Nat := o.connection.rank * 2 + o.feed.rank

/-- The rank of an origin tells it from all others. -/
theorem rank_inj {a b : Origin} (h : a.rank = b.rank) : a = b := by
  obtain ⟨c, f⟩ := a
  obtain ⟨d, g⟩ := b
  have hf : f.rank < 2 := by cases f <;> decide
  have hg : g.rank < 2 := by cases g <;> decide
  simp only [rank] at h
  have hc : c = d := Connection.rank_inj (by omega)
  have hfg : f = g := Feed.rank_inj (by omega)
  rw [hc, hfg]

instance : Ord Origin := ⟨compareBy rank⟩
instance : Std.TransOrd Origin := transCmp_compareBy rank
instance : Std.LawfulEqOrd Origin := lawfulEqCmp_compareBy rank fun _ _ => rank_inj

end Origin

/-- What a transport reports. -/
inductive Signal where
  | connected
  | disconnected
  | error
  | data
deriving DecidableEq, Repr

namespace Signal

def all : List Signal := [connected, disconnected, error, data]

def name : Signal → String
  | connected => "connected"
  | disconnected => "disconnected"
  | error => "error"
  | data => "data"

def ofName? (s : String) : Option Signal := all.find? (·.name == s)

end Signal

/-- A report: the payload is the data, or the text of an error. -/
structure Callback where
  origin : Origin
  signal : Signal
  payload : Bytes
deriving DecidableEq, Repr

namespace Callback

def connected (origin : Origin) : Callback := ⟨origin, .connected, []⟩

def disconnected (origin : Origin) : Callback := ⟨origin, .disconnected, []⟩

def error (origin : Origin) (text : String) : Callback := ⟨origin, .error, Text.Utf8.encode text⟩

def data (origin : Origin) (bytes : Bytes) : Callback := ⟨origin, .data, bytes⟩

end Callback

end MarketFeed
