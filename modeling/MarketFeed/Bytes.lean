/-!
# Bytes — byte strings and little-endian numbers

A byte string is a list of bytes. Records and ring headers store numbers with the low byte
first; a width says how many bytes there are, and what does not fit in them is cut off.

> `ofLittleEndian_littleEndian`: reading gives back what was written, up to the width.
>
> `littleEndian_ofLittleEndian`: any bytes are the writing of some number.

A `Slice` is a byte string that can be in memory at all, of fewer than `2 ^ 63` bytes.
Where a length is added to something, that is the bound to know; a length that is only
asked for, as in a reservation, can be any number of 64 bits.
-/

namespace MarketFeed

abbrev Bytes := List UInt8

/-- Half of the address space, which nothing in memory is as long as. -/
def sliceBound : Nat := 9223372036854775808

/-- A byte string that can stand in memory. -/
abbrev Slice := { bytes : Bytes // bytes.length < sliceBound }

namespace Bytes

/-- The low `width` bytes of a number, the lowest first. -/
def littleEndian : (width : Nat) → Nat → Bytes
  | 0, _ => []
  | w + 1, n => (n % 256).toUInt8 :: littleEndian w (n / 256)

/-- The number whose bytes these are, the lowest first. -/
def ofLittleEndian : Bytes → Nat
  | [] => 0
  | b :: rest => b.toNat + 256 * ofLittleEndian rest

@[simp] theorem length_littleEndian (w n : Nat) : (littleEndian w n).length = w := by
  induction w generalizing n with
  | zero => rfl
  | succ w ih => simp [littleEndian, ih]

/-- A number below 256 is the byte it is made. -/
theorem toNat_toUInt8 {n : Nat} (h : n < 256) : n.toUInt8.toNat = n := by
  simp [Nat.toUInt8, UInt8.toNat_ofNat', Nat.mod_eq_of_lt h]

theorem ofLittleEndian_littleEndian (w n : Nat) : ofLittleEndian (littleEndian w n) = n % Nat.pow 256 w := by
  induction w generalizing n with
  | zero => simp [littleEndian, ofLittleEndian, Nat.mod_one]
  | succ w ih =>
    simp only [littleEndian, ofLittleEndian, ih, toNat_toUInt8 (Nat.mod_lt n (by decide : 0 < 256))]
    exact Nat.mod_mul.symm.trans (by rw [Nat.mul_comm]; rfl)

/-- A number is below the bound of its width. -/
theorem ofLittleEndian_lt (bytes : Bytes) : ofLittleEndian bytes < Nat.pow 256 bytes.length := by
  induction bytes with
  | nil => exact Nat.one_pos
  | cons b rest ih =>
    have hb : b.toNat < 256 := UInt8.toNat_lt b
    show b.toNat + 256 * ofLittleEndian rest < Nat.pow 256 rest.length * 256
    omega

theorem littleEndian_ofLittleEndian (bytes : Bytes) :
    littleEndian bytes.length (ofLittleEndian bytes) = bytes := by
  induction bytes with
  | nil => rfl
  | cons b rest ih =>
    have hb : b.toNat < 256 := UInt8.toNat_lt b
    have hmod : (b.toNat + 256 * ofLittleEndian rest) % 256 = b.toNat := by omega
    have hdiv : (b.toNat + 256 * ofLittleEndian rest) / 256 = ofLittleEndian rest := by omega
    simp only [List.length_cons, ofLittleEndian, littleEndian, hmod, hdiv, ih]
    congr 1
    simp [Nat.toUInt8]

/-- Copies bytes over part of a byte string, from position `i` on; what would stick out is dropped. -/
def overwrite (buffer : Bytes) (i : Nat) (bytes : Bytes) : Bytes :=
  buffer.take i ++ bytes.take (buffer.length - i) ++ buffer.drop (i + bytes.length)

end Bytes

end MarketFeed
