import MarketFeed.Callback
import MarketFeed.Relay.Ring

/-!
# Relay.Parcel — a callback as a record of the relay queue

One byte tells the feed and the signal, eight bytes the connection, and the rest is the
payload. A record shorter than its header, or with another byte in front, is no callback;
that a callback is read back as it was packed is `decode_encode` of
`Proofs.Relay.Parcels`.

The bytes for the kinds are letters: `A` to `F` for the life of connections and for
errors, `M` and `U` for the data of the two feeds. What a record is rejected for is said
with its length or with the byte (`ParcelFailure`).

`encode` makes a byte string of a callback, `place` writes it into a reserved block in
three parts without making the byte string first.
-/

namespace MarketFeed.Relay

/-- Why a record is no callback. -/
inductive ParcelFailure where
  | short (length : Nat)
  | unknownKind (kind : UInt8)
deriving DecidableEq, Repr

/-- A byte in two hexadecimal digits. -/
def hexByte (b : UInt8) : List Char := [Nat.digitChar (b.toNat / 16), Nat.digitChar (b.toNat % 16)]

def ParcelFailure.message : ParcelFailure → String
  | .short length => toString length ++ " byte record is shorter than its header"
  | .unknownKind kind => "unknown record kind 0x" ++ String.ofList (hexByte kind)

namespace Parcel

/-- The byte for a signal of a feed. -/
def kind : Feed → Signal → UInt8
  | .market, .connected => 'A'.toUInt8
  | .market, .disconnected => 'B'.toUInt8
  | .user, .connected => 'C'.toUInt8
  | .user, .disconnected => 'D'.toUInt8
  | .market, .error => 'E'.toUInt8
  | .user, .error => 'F'.toUInt8
  | .market, .data => 'M'.toUInt8
  | .user, .data => 'U'.toUInt8

/-- Every feed with every signal. -/
def allKinds : List (Feed × Signal) := Feed.all.flatMap fun f => Signal.all.map fun s => (f, s)

/-- The feed and the signal of a byte. -/
def ofKind? (b : UInt8) : Option (Feed × Signal) := allKinds.find? (fun k => kind k.1 k.2 == b)

/-- Bytes in front of the payload. -/
def headerWidth : Nat := 1 + Connection.width

def encode (c : Callback) : Bytes :=
  kind c.origin.feed c.signal :: (c.origin.connection.toBytes ++ c.payload)

def decode (bytes : Bytes) : Except ParcelFailure Callback :=
  match bytes with
  | b :: rest =>
    if rest.length < Connection.width then .error (.short bytes.length)
    else
      match ofKind? b with
      | none => .error (.unknownKind b)
      | some (feed, signal) =>
        .ok ⟨⟨Connection.ofBytes rest, feed⟩, signal, rest.drop Connection.width⟩
  | [] => .error (.short 0)

/-- The eight bytes are different. -/
theorem ofKind?_kind (f : Feed) (s : Signal) : ofKind? (kind f s) = some (f, s) := by
  cases f <;> cases s <;> decide

/-- A header, then the payload. -/
theorem length_encode (c : Callback) : (encode c).length = headerWidth + c.payload.length := by
  simp [encode, headerWidth]
  omega

/-- Packs a callback into a block reserved for it: kind, connection and payload are written one by one. -/
def place (r : Ring) (g : Grant) (c : Callback) : Ring :=
  let put (r : Ring) (i : Nat) (bytes : Bytes) : Ring := (r.writeInto g i bytes).getD r
  let r := put r 0 [kind c.origin.feed c.signal]
  let r := put r 1 c.origin.connection.toBytes
  (put r headerWidth c.payload).publish g

end Parcel

end MarketFeed.Relay
