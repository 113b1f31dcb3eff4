import MarketFeed.Bytes
import MarketFeed.Decode.Record
import MarketFeed.KeyOrder

/-!
# Wire.Identity — products and connections

A product is named by the venue, two currencies with a hyphen between them as a rule. A
connection is one transport instance of a feed: a slot that stays, and a generation that
counts the openings of that slot and wraps after `2 ^ 32` of them, so that what is still
under way from an earlier opening can be told apart.

Products are ordered as texts, connections by slot and then by generation, as a number.
The latter is the order of keys and not of time: which of two generations came first is
decided on the circle, in `Roster`. A connection takes eight bytes in a record of the
queue, the slot in front (`toBytes`).
-/

namespace MarketFeed

open Decode

/-! ## Products -/

/-- An instrument by its name. -/
structure Product where
  id : String
deriving DecidableEq, Repr

namespace Product

instance : Inhabited Product := ⟨⟨""⟩⟩
instance : Ord Product := ⟨compareBy id⟩
instance : Std.TransOrd Product := transCmp_compareBy id
instance : Std.LawfulEqOrd Product := lawfulEqCmp_compareBy id fun a b h => by cases a; cases b; simp_all

/-- The two parts of a name, before and after its first hyphen. -/
def split? (p : Product) : Option (String × String) :=
  match p.id.toList.span (· != '-') with
  | (_, []) => none
  | (base, _ :: rest) => some (String.ofList base, String.ofList rest)

def decode : Decoder Product := fun src d => (string src d).map Product.mk

def encode (p : Product) : Json := .string p.id

end Product

/-! ## Connections -/

/-- One opening of a slot. -/
structure Connection where
  slot : UInt32
  generation : UInt32
deriving DecidableEq, Repr

namespace Connection

instance : Inhabited Connection := ⟨⟨0, 0⟩⟩

/-- Connections are ordered by slot, then by generation. -/
def rank (c : Connection) : Nat := c.slot.toNat * UInt32.size + c.generation.toNat

/-- Slot and generation are the two halves of the number. -/
theorem rank_inj {a b : Connection} (h : a.rank = b.rank) : a = b := by
  have ha := a.generation.toNat_lt
  have hb := b.generation.toNat_lt
  simp only [rank, UInt32.size] at h
  obtain ⟨s, g⟩ := a
  obtain ⟨t, k⟩ := b
  have hs : s.toNat = t.toNat := by simp only at h ha hb; omega
  have hg : g.toNat = k.toNat := by simp only at h ha hb; omega
  simp [UInt32.toNat_inj.1 hs, UInt32.toNat_inj.1 hg]

instance : Ord Connection := ⟨compareBy rank⟩
instance : Std.TransOrd Connection := transCmp_compareBy rank
instance : Std.LawfulEqOrd Connection := lawfulEqCmp_compareBy rank fun _ _ => rank_inj

/-- The next opening of the same slot. -/
def next (c : Connection) : Connection := ⟨c.slot, c.generation + 1⟩

def render (c : Connection) : String := toString c.slot.toNat ++ "#" ++ toString c.generation.toNat

def width : Nat := 8

/-- Slot, then generation, each in four bytes. -/
def toBytes (c : Connection) : Bytes :=
  Bytes.littleEndian 4 c.slot.toNat ++ Bytes.littleEndian 4 c.generation.toNat

/-- The connection in the first eight bytes. -/
def ofBytes (bytes : Bytes) : Connection :=
  ⟨(Bytes.ofLittleEndian (bytes.take 4)).toUInt32,
    (Bytes.ofLittleEndian ((bytes.drop 4).take 4)).toUInt32⟩

@[simp] theorem length_toBytes (c : Connection) : c.toBytes.length = width := by
  simp [toBytes, width]

def shape : Shape Connection where
  name := "ConnectionId"
  types := [Nat, Nat]
  fields := .cons (required "slot" nat32 (fun n => Json.int n)) <|
    .cons (required "generation" nat32 (fun n => Json.int n)) .nil
  make := fun (slot, generation, ()) => ⟨slot.toUInt32, generation.toUInt32⟩
  row := fun c => (c.slot.toNat, c.generation.toNat, ())

end Connection

end MarketFeed
