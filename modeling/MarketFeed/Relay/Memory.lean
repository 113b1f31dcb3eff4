import MarketFeed.Bytes

/-!
# Relay.Memory — a block of bytes with a fixed size

The ring stores its records in one block of bytes. A position outside the block reads as
zero and writing there does nothing, so no operation needs a bound in its type; the laws
say what each operation does to each byte, and nothing else is needed to reason about a
block:

> `get_put`, `get_fill`, `get_wipe`: what a byte is after a write, after filling a
> stretch, after wiping one.
>
> `getD_slice`: a slice is made of the bytes at its places.

The bytes are an array that is changed in place. The laws are the only lemmas that know of
it.
-/

namespace MarketFeed.Relay

/-- A block of bytes. -/
structure Memory where
  bytes : ByteArray

namespace Memory

def size (m : Memory) : Nat := m.bytes.size

/-- The byte at a position, zero outside the block. -/
def get (m : Memory) (i : Nat) : UInt8 := if h : i < m.bytes.size then m.bytes[i] else 0

def put (m : Memory) (i : Nat) (b : UInt8) : Memory :=
  if h : i < m.bytes.size then ⟨m.bytes.set i b h⟩ else m

def appendZeros : Nat → ByteArray → ByteArray
  | 0, a => a
  | n + 1, a => appendZeros n (a.push 0)

def zeros (n : Nat) : Memory := ⟨appendZeros n .empty⟩

/-- Puts bytes one behind the other, from position `i` on. -/
def fill (m : Memory) (i : Nat) : Bytes → Memory
  | [] => m
  | b :: rest => fill (m.put i b) (i + 1) rest

/-- Puts `n` zeros, from position `i` on. -/
def wipe (m : Memory) (i : Nat) : Nat → Memory
  | 0 => m
  | n + 1 => wipe (m.put i 0) (i + 1) n

/-- The bytes in front of `rest` from position `i` on, the last of the `n` taken first. -/
def sliceOnto (m : Memory) (i : Nat) : Nat → Bytes → Bytes
  | 0, rest => rest
  | n + 1, rest => sliceOnto m i n (m.get (i + n) :: rest)

/-- The `n` bytes from position `i` on. -/
def slice (m : Memory) (i n : Nat) : Bytes := sliceOnto m i n []

/-! ## What each operation does to each byte -/

/-- Reading a byte, in terms of the array. -/
theorem get_eq (m : Memory) (i : Nat) : m.get i = m.bytes.data.getD i 0 := by
  simp only [get, Array.getD]
  rfl

/-- Putting a byte, in terms of the array. -/
theorem put_data (m : Memory) (i : Nat) (b : UInt8) :
    (m.put i b).bytes.data = m.bytes.data.setIfInBounds i b := by
  by_cases h : i < m.bytes.size
  · rw [put, dif_pos h, Array.setIfInBounds, dif_pos (show i < m.bytes.data.size from h)]
    rfl
  · rw [put, dif_neg h, Array.setIfInBounds, dif_neg (show ¬ i < m.bytes.data.size from h)]

theorem size_eq (m : Memory) : m.size = m.bytes.data.size := rfl

@[simp] theorem size_put (m : Memory) (i : Nat) (b : UInt8) : (m.put i b).size = m.size := by
  rw [size_eq, size_eq, put_data, Array.size_setIfInBounds]

/-- Putting a byte changes its own place only. -/
theorem get_put (m : Memory) (i j : Nat) (b : UInt8) :
    (m.put i b).get j = if j = i ∧ i < m.size then b else m.get j := by
  rw [get_eq, get_eq, put_data, size_eq]
  generalize m.bytes.data = data
  simp only [Array.getD_eq_getD_getElem?, Array.getElem?_setIfInBounds]
  by_cases h : i = j
  · subst h
    by_cases hi : i < data.size <;> simp [hi]
  · simp [h, Ne.symm h]

@[simp] theorem size_fill (m : Memory) (i : Nat) (bytes : Bytes) : (m.fill i bytes).size = m.size := by
  induction bytes generalizing m i with
  | nil => rfl
  | cons b rest ih => simp [fill, ih]

@[simp] theorem size_wipe (m : Memory) (i n : Nat) : (m.wipe i n).size = m.size := by
  induction n generalizing m i with
  | zero => rfl
  | succ n ih => simp [wipe, ih]

/-- Filling a stretch puts each byte in its place. -/
theorem get_fill (m : Memory) (i j : Nat) (bytes : Bytes) (h : i + bytes.length ≤ m.size) :
    (m.fill i bytes).get j =
      if i ≤ j ∧ j < i + bytes.length then bytes.getD (j - i) 0 else m.get j := by
  induction bytes generalizing m i with
  | nil => rw [fill, if_neg (by simp only [List.length_nil]; omega)]
  | cons b rest ih =>
    simp only [List.length_cons] at h ⊢
    rw [fill, ih (m.put i b) (i + 1) (by rw [size_put]; omega), get_put]
    by_cases hj : j = i
    · subst hj
      rw [if_neg (by omega), if_pos ⟨rfl, by omega⟩, if_pos (by omega), Nat.sub_self]
      rfl
    · by_cases hr : i + 1 ≤ j ∧ j < i + 1 + rest.length
      · rw [if_pos hr, if_pos (by omega), show j - i = (j - (i + 1)) + 1 by omega]
        rfl
      · rw [if_neg hr, if_neg (by omega), if_neg (by omega)]

/-- Wiping a stretch leaves zeros there and all else as it was. -/
theorem get_wipe (m : Memory) (i j n : Nat) (h : i + n ≤ m.size) :
    (m.wipe i n).get j = if i ≤ j ∧ j < i + n then 0 else m.get j := by
  induction n generalizing m i with
  | zero => rw [wipe, if_neg (by omega)]
  | succ n ih =>
    rw [wipe, ih (m.put i 0) (i + 1) (by rw [size_put]; omega), get_put]
    by_cases hj : j = i
    · subst hj
      rw [if_neg (by omega), if_pos ⟨rfl, by omega⟩, if_pos (by omega)]
    · by_cases hr : i + 1 ≤ j ∧ j < i + 1 + n
      · rw [if_pos hr, if_pos (by omega)]
      · rw [if_neg hr, if_neg (by omega), if_neg (by omega)]

/-- Zeros are appended one by one. -/
theorem appendZeros_data (n : Nat) (a : ByteArray) :
    (appendZeros n a).data = a.data ++ Array.replicate n 0 := by
  induction n generalizing a with
  | zero => simp [appendZeros]
  | succ n ih =>
    rw [appendZeros, ih]
    show a.data.push 0 ++ _ = _
    apply Array.toList_inj.1
    simp [List.replicate_succ]

@[simp] theorem size_zeros (n : Nat) : (zeros n).size = n := by
  rw [size_eq, zeros, appendZeros_data]
  simp

@[simp] theorem get_zeros (n j : Nat) : (zeros n).get j = 0 := by
  rw [get_eq, zeros, appendZeros_data, Array.getD_eq_getD_getElem?]
  show ((#[] ++ Array.replicate n 0 : Array UInt8)[j]?).getD 0 = 0
  rw [Array.empty_append, Array.getElem?_replicate]
  split <;> rfl

/-- A slice in front of other bytes. -/
theorem sliceOnto_eq (m : Memory) (i n : Nat) (rest : Bytes) :
    m.sliceOnto i n rest = m.slice i n ++ rest := by
  induction n generalizing rest with
  | zero => rfl
  | succ n ih =>
    rw [slice, sliceOnto, sliceOnto, ih, ih [m.get (i + n)], List.append_assoc]
    rfl

/-- A slice one byte longer. -/
theorem slice_succ (m : Memory) (i n : Nat) : m.slice i (n + 1) = m.slice i n ++ [m.get (i + n)] := by
  rw [slice, sliceOnto, sliceOnto_eq]

@[simp] theorem length_slice (m : Memory) (i n : Nat) : (m.slice i n).length = n := by
  induction n with
  | zero => rfl
  | succ n ih => simp [slice_succ, ih]

/-- A slice is made of the bytes at its places. -/
theorem getD_slice (m : Memory) (i n k : Nat) (h : k < n) : (m.slice i n).getD k 0 = m.get (i + k) := by
  induction n with
  | zero => omega
  | succ n ih =>
    rw [slice_succ]
    by_cases hk : k < n
    · rw [List.getD_eq_getElem?_getD, List.getElem?_append_left (by simpa using hk),
        ← List.getD_eq_getElem?_getD, ih hk]
    · obtain rfl : k = n := by omega
      rw [List.getD_eq_getElem?_getD, List.getElem?_append_right (by simp), length_slice, Nat.sub_self]
      rfl

end Memory

end MarketFeed.Relay
