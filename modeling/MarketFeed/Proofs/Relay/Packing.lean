import MarketFeed.Proofs.Relay.Parcels
import MarketFeed.Proofs.Relay.Soundness

/-!
# Relay.Packing — the two ways to write a callback down

A callback is written down as a byte string by `encode`, and by its producer as three
parts of a reservation: the byte for its kind, the connection, the payload. The two come
to the same:

> `Parcel.packed_as_encoded`: every callback is read back as it was written, and every
> byte string that is read at all is the one that its callback is written as. A callback
> that is packed into a granted block of any ring stands there as that byte string, also
> when others reserve, write, publish and read between its parts.

Byte strings and callbacks determine one another (`decode_eq_ok_iff`), since a header has
one byte for each feed and signal, and the rest of it is two numbers of four bytes.
Whether a payload makes sense is not asked here.

For the other half, what is left in a reservation depends on its own producer's actions
only: `getElem?_step` is one action seen from one reservation, `getElem?_run` the whole
course of them. With the three writes as these actions nothing is left of the zeros before
(`foldl_act_writes`), and publishing leaves in the ring what the writes made of the
payload. Packing in one go, as the dispatch does it, is the course with no others in it
(`place_eq_packed`).
-/

namespace MarketFeed

private theorem Connection.toBytes_ofBytes {bytes : Bytes} (h : width ≤ bytes.length) :
    (ofBytes bytes).toBytes = bytes.take width := by
  have hwidth : width = 4 + 4 := rfl
  have hword {part : Bytes} (hlen : part.length = 4) :
      Bytes.littleEndian 4 (Bytes.ofLittleEndian part).toUInt32.toNat = part := by
    have hlt := Bytes.ofLittleEndian_lt part
    rw [hlen] at hlt
    have hnat : (Bytes.ofLittleEndian part).toUInt32.toNat = Bytes.ofLittleEndian part := Nat.mod_eq_of_lt hlt
    rw [hnat, ← hlen]
    exact Bytes.littleEndian_ofLittleEndian part
  rw [toBytes, ofBytes, hword (by rw [List.length_take]; omega),
    hword (by rw [List.length_take, List.length_drop]; omega), hwidth, List.take_add]

namespace Relay

/-! ## Byte strings -/

namespace Parcel

/-- The bytes that stand for a signal of a feed. -/
def kinds : Bytes := ['A', 'B', 'C', 'D', 'E', 'F', 'M', 'U'].map Char.toUInt8

private theorem kind_of_ofKind? {b : UInt8} {f : Feed} {s : Signal} (h : ofKind? b = some (f, s)) : kind f s = b := by
  have hfound := List.find?_some h
  exact eq_of_beq hfound

private theorem mem_kinds_iff {b : UInt8} : b ∈ kinds ↔ ∃ k, ofKind? b = some k := by
  constructor
  · intro hb
    have hall : kinds.all (fun b => (ofKind? b).isSome) = true := by decide
    exact Option.isSome_iff_exists.1 (List.all_eq_true.1 hall b hb)
  · rintro ⟨⟨f, s⟩, hk⟩
    rw [← kind_of_ofKind? hk]
    cases f <;> cases s <;> decide

/-- Nothing else is read as a callback than what it is written as. -/
theorem decode_eq_ok_iff {b : Bytes} {c : Callback} : decode b = .ok c ↔ b = encode c := by
  constructor
  · intro h
    cases b with
    | nil => cases h
    | cons first rest =>
      unfold decode at h
      simp only at h
      split at h
      next => cases h
      next hlong =>
        split at h
        next => cases h
        next f s hk =>
          obtain rfl := Except.ok.inj h
          show first :: rest = kind f s :: ((Connection.ofBytes rest).toBytes ++ rest.drop Connection.width)
          rw [kind_of_ofKind? hk, Connection.toBytes_ofBytes (Nat.not_lt.1 hlong), List.take_append_drop]
  · rintro rfl
    exact decode_encode c

/-- Which byte strings are callbacks: those as long as a header, with a byte in front that stands for a signal. -/
theorem exists_decode_iff {b : Bytes} :
    (∃ c, decode b = .ok c) ↔ headerWidth ≤ b.length ∧ ∃ k ∈ kinds, b.head? = some k := by
  constructor
  · rintro ⟨c, hc⟩
    obtain rfl := decode_eq_ok_iff.1 hc
    refine ⟨?_, kind c.origin.feed c.signal, mem_kinds_iff.2 ⟨_, ofKind?_kind _ _⟩, rfl⟩
    rw [length_encode]
    exact Nat.le_add_right _ _
  · rintro ⟨hlong, k, hk, hhead⟩
    obtain ⟨⟨f, s⟩, hfs⟩ := mem_kinds_iff.1 hk
    cases b with
    | nil => cases hhead
    | cons first rest =>
      obtain rfl := Option.some.inj hhead
      have hrest : ¬ rest.length < Connection.width := by
        rw [List.length_cons, headerWidth] at hlong
        omega
      refine ⟨⟨⟨Connection.ofBytes rest, f⟩, s, rest.drop Connection.width⟩, ?_⟩
      simp only [decode, if_neg hrest, hfs]

end Parcel

/-! ## A reservation among others -/

/-- The reservation that an action is about. -/
def Action.number? : Action → Option Nat
  | .write number _ _ => some number
  | .publish number => some number
  | .abandon number => some number
  | _ => none

/-- What is granted, if anything. -/
def Admission.grant? : Admission → Option Grant
  | .granted grant _ => some grant
  | _ => none

private theorem Admission.exists_of_grant? {a : Admission} {g : Grant} (h : a.grant? = some g) :
    ∃ ring, a = .granted g ring := by
  cases a with
  | granted grant ring =>
    obtain rfl := Option.some.inj h
    exact ⟨ring, rfl⟩
  | refused refusal => cases h
  | waits | overflow => cases h

/-- What an action about a reservation makes of it. -/
def Entry.act (e : Entry) (a : Action) : Entry :=
  if e.fate = .unresolved then
    match a with
    | .write _ i bytes =>
      if i + bytes.length ≤ e.grant.length then { e with content := Bytes.overwrite e.content i bytes } else e
    | .publish _ => { e with fate := .published }
    | .abandon _ => { e with fate := .abandoned }
    | _ => e
  else e

namespace History

variable {h : History} {k : Nat} {e : Entry}

private theorem unresolved?_eq (hk : h.entries[k]? = some e) :
    h.unresolved? k = if e.fate = .unresolved then some e else none := by
  rw [unresolved?, hk, Option.filter_some]
  by_cases hfate : e.fate = .unresolved
  · rw [if_pos hfate, if_pos (decide_eq_true hfate)]
  · rw [if_neg hfate, if_neg (by rw [decide_eq_true_iff]; exact hfate)]

private theorem getElem?_resolve (hk : h.entries[k]? = some e) (how : Ring → Grant → Ring) (fate : Fate)
    (number : Nat) :
    (h.resolve how fate number).entries[k]? =
      some (if number = k then if e.fate = .unresolved then { e with fate } else e else e) := by
  unfold resolve
  by_cases hnumber : number = k
  · subst hnumber
    rw [unresolved?_eq hk, if_pos rfl]
    by_cases hfate : e.fate = .unresolved
    · rw [if_pos hfate, if_pos hfate]
      exact List.getElem?_set_self (List.getElem?_eq_some_iff.1 hk).1
    · rw [if_neg hfate, if_neg hfate]
      exact hk
  · rw [if_neg hnumber]
    cases h.unresolved? number with
    | none => exact hk
    | some d => exact (List.getElem?_set_ne hnumber).trans hk

private theorem getElem?_write (hk : h.entries[k]? = some e) (number i : Nat) (bytes : Bytes) :
    (h.step (.write number i bytes)).entries[k]? =
      some (if number = k then e.act (.write number i bytes) else e) := by
  unfold step Entry.act
  simp only
  by_cases hnumber : number = k
  · subst hnumber
    rw [unresolved?_eq hk, if_pos rfl]
    by_cases hfate : e.fate = .unresolved
    · rw [if_pos hfate, if_pos hfate]
      by_cases hi : i + bytes.length ≤ e.grant.length
      · obtain ⟨ring, hw⟩ := Ring.Holds.exists_writeInto (r := h.ring) hi
        simp only [hw, if_pos hi]
        exact List.getElem?_set_self (List.getElem?_eq_some_iff.1 hk).1
      · have hw : h.ring.writeInto e.grant i bytes = none := if_neg hi
        simp only [hw, if_neg hi]
        exact hk
    · rw [if_neg hfate, if_neg hfate]
      exact hk
  · rw [if_neg hnumber]
    split
    next => exact hk
    next d =>
      split
      next => exact hk
      next ring => exact (List.getElem?_set_ne hnumber).trans hk

/-- The step: a reservation changes by actions about it, and is left alone by all others. -/
theorem getElem?_step (hk : h.entries[k]? = some e) (a : Action) :
    (h.step a).entries[k]? = some (if a.number? = some k then e.act a else e) := by
  have happend (d : Entry) : (h.entries ++ [d])[k]? = some e := by
    rw [List.getElem?_append_left (List.getElem?_eq_some_iff.1 hk).1]
    exact hk
  cases a with
  | reserve length =>
    simp only [step]
    split
    next => exact happend _
    next => exact hk
  | write number i bytes =>
    rw [getElem?_write hk]
    simp only [Action.number?, Option.some.injEq]
  | publish number =>
    simp only [Action.number?, Option.some.injEq]
    exact getElem?_resolve hk Ring.publish .published number
  | abandon number =>
    simp only [Action.number?, Option.some.injEq]
    exact getElem?_resolve hk Ring.abandon .abandoned number
  | push bytes =>
    simp only [step]
    split
    next => exact happend _
    next => exact hk
  | read =>
    rw [step_read]
    exact hk

/-- The run: what becomes of a reservation depends on the actions about it. -/
theorem getElem?_run (hk : h.entries[k]? = some e) (actions : List Action) :
    (h.run actions).entries[k]? = some ((actions.filter (·.number? = some k)).foldl Entry.act e) := by
  induction actions generalizing h e with
  | nil => exact hk
  | cons a rest ih =>
    show ((h.step a).run rest).entries[k]? = _
    rw [ih (getElem?_step hk a), List.filter_cons]
    by_cases ha : a.number? = some k
    · rw [if_pos ha, if_pos (decide_eq_true ha)]
      rfl
    · rw [if_neg ha, if_neg (by rw [decide_eq_true_iff]; exact ha)]

end History

/-! ## Packing -/

namespace Parcel

/-- The three writes of packing a callback into a reservation. -/
def writes (number : Nat) (c : Callback) : List Action :=
  [.write number 0 [kind c.origin.feed c.signal], .write number 1 c.origin.connection.toBytes,
    .write number headerWidth c.payload]

/-- Nothing is left of the zeros that the reservation begins with. -/
theorem foldl_act_writes {g : Grant} {c : Callback} (hg : g.length = headerWidth + c.payload.length) (number : Nat) :
    (writes number c).foldl Entry.act ⟨g, List.replicate (headerWidth + c.payload.length) 0, .unresolved⟩ =
      ⟨g, encode c, .unresolved⟩ := by
  have hheader : headerWidth = 9 := rfl
  have hwidth : c.origin.connection.toBytes.length = 8 := Connection.length_toBytes _
  have hact (content : Bytes) {i : Nat} {bytes : Bytes} (hi : i + bytes.length ≤ g.length) :
      (⟨g, content, .unresolved⟩ : Entry).act (.write number i bytes) =
        ⟨g, Bytes.overwrite content i bytes, .unresolved⟩ := by
    unfold Entry.act
    rw [if_pos rfl]
    exact if_pos hi
  unfold writes
  rw [List.foldl_cons, List.foldl_cons, List.foldl_cons, List.foldl_nil,
    hact _ (by rw [List.length_singleton]; omega), hact _ (by omega), hact _ (Nat.le_of_eq hg.symm),
    overwrite_encode List.length_replicate]

end Parcel

namespace Ring

/-- What the reader takes for the payload of the record at a place: as many bytes as the header says. -/
def payloadAt (r : Ring) (offset : Nat) : Bytes :=
  r.memory.slice (offset + headerWidth) (headerLength (r.headerAt offset))

/-- A granted block lies in the memory, and its payload in the block. -/
theorem grant_inside {r r' : Ring} {g : Grant} {length : Nat}
    (hres : r.reserve length = .granted g r') :
    g.length = length ∧ headerWidth + length ≤ g.total ∧ g.total ≤ r.capacity / 2 ∧
      g.offset + g.total ≤ r'.capacity ∧ r'.capacity = r.capacity := by
  obtain ⟨hhalf, -, hgrant⟩ := reserve_granted hres
  have hroom := le_wholeWords length
  unfold Ring.grant at hgrant
  by_cases hfits : wholeWords length ≤ r.tail
  · simp only [if_pos hfits, Prod.mk.injEq] at hgrant
    obtain ⟨rfl, rfl⟩ := hgrant
    refine ⟨rfl, hroom, hhalf, ?_, rfl⟩
    show r.offsetOf r.write + wholeWords length ≤ r.capacity
    unfold tail at hfits
    simp only [headerWidth] at hroom
    omega
  · simp only [if_neg hfits, Prod.mk.injEq] at hgrant
    obtain ⟨rfl, rfl⟩ := hgrant
    have hcap : (({ r with write := r.write + r.needed (wholeWords length) } : Ring).putHeader (r.offsetOf r.write)
        (padHeader r.tail)).capacity = r.capacity := by
      simp only [putHeader, capacity, Memory.size_fill]
    refine ⟨rfl, hroom, hhalf, ?_, hcap⟩
    rw [hcap]
    show 0 + wholeWords length ≤ r.capacity
    omega

/-- The bytes of a reservation in the memory. -/
def body (r : Ring) (g : Grant) : Bytes := r.memory.slice (g.offset + headerWidth) g.length

/-- A write that fits overwrites a part of the bytes of its reservation. -/
theorem body_write {r : Ring} {g : Grant} (i : Nat) (bytes : Bytes) (hi : i + bytes.length ≤ g.length)
    (hin : g.offset + headerWidth + g.length ≤ r.capacity) :
    ((r.writeInto g i bytes).getD r).body g = Bytes.overwrite (r.body g) i bytes ∧
      ((r.writeInto g i bytes).getD r).capacity = r.capacity := by
  unfold writeInto
  rw [if_pos hi]
  exact ⟨Memory.slice_fill hi hin, Memory.size_fill _ _ _⟩

/-- What is published is read as the bytes of the reservation. -/
theorem payloadAt_publish {r : Ring} {g : Grant} (hroom : headerWidth + g.length ≤ g.total)
    (hin : g.offset + g.total ≤ r.capacity) (hshort : g.total < padMark) :
    (r.publish g).payloadAt g.offset = r.body g := by
  have hword : (Bytes.littleEndian headerWidth (recordHeader g.length g.total)).length = headerWidth :=
    Bytes.length_littleEndian _ _
  have hlength : g.length < UInt32.size := by
    simp only [padMark, UInt32.size, headerWidth] at *
    omega
  have hmemory : g.offset + g.total ≤ r.memory.size := hin
  have hhead : (r.memory.fill g.offset (Bytes.littleEndian headerWidth (recordHeader g.length g.total))).word g.offset =
      recordHeader g.length g.total := Memory.word_fill (by omega) (recordHeader_lt hshort)
  -- the header goes in front of the payload
  have hbehind : (r.memory.fill g.offset (Bytes.littleEndian headerWidth (recordHeader g.length g.total))).slice
      (g.offset + headerWidth) g.length = r.body g :=
    Memory.slice_congr fun j hj _ => Memory.get_fill_outside (by omega) (Or.inr (by omega))
  show Memory.slice _ _ (headerLength (Memory.word _ g.offset)) = _
  rw [publish, putHeader, hhead, headerLength_recordHeader hlength hshort, hbehind]

/-- Packing leaves nothing of what the memory held before, and it needs nothing of the rest of the ring. -/
theorem payloadAt_place {r : Ring} {g : Grant} {c : Callback} (hlen : g.length = Parcel.headerWidth + c.payload.length)
    (hroom : headerWidth + g.length ≤ g.total) (hin : g.offset + g.total ≤ r.capacity) (hshort : g.total < padMark) :
    (Parcel.place r g c).payloadAt g.offset = Parcel.encode c := by
  have hheader : Parcel.headerWidth = 9 := rfl
  have hwidth : c.origin.connection.toBytes.length = 8 := Connection.length_toBytes _
  have hbody : g.offset + headerWidth + g.length ≤ r.capacity := by omega
  obtain ⟨hkind, hcap₁⟩ := body_write 0 [Parcel.kind c.origin.feed c.signal]
    (by rw [List.length_singleton]; omega) hbody
  rw [← hcap₁] at hbody hin
  obtain ⟨hconnection, hcap₂⟩ := body_write 1 c.origin.connection.toBytes (by omega) hbody
  rw [← hcap₂] at hbody hin
  obtain ⟨hpayload, hcap₃⟩ := body_write Parcel.headerWidth c.payload (Nat.le_of_eq hlen.symm) hbody
  rw [← hcap₃] at hin
  unfold Parcel.place
  simp only
  rw [payloadAt_publish hroom hin hshort, hpayload, hconnection, hkind]
  exact Parcel.overwrite_encode (by rw [body, Memory.length_slice, hlen])

/-- What the reader takes for the payload of a published block is its payload. -/
theorem Holds.payloadAt {r : Ring} {blocks : List Block} {e : Entry} (h : r.Holds blocks) (he : .entry e ∈ blocks)
    (hfate : e.fate = .published) : r.payloadAt e.grant.offset = e.content := by
  obtain ⟨x, -, -, hx⟩ := h.layout.exists_stands he
  obtain ⟨hplace, hroom, hcontent⟩ := hx.carries
  have hword : r.headerAt (x % r.memory.size) = e.header := hx.header
  have hshort : e.grant.total < padMark := hx.short
  have hlength : e.grant.length < UInt32.size := by
    simp only [padMark, UInt32.size, headerWidth] at *
    omega
  rw [Ring.payloadAt, hplace, hword, Entry.header, hfate]
  show r.memory.slice _ (headerLength (recordHeader e.grant.length e.grant.total)) = _
  rw [headerLength_recordHeader hlength hshort]
  exact hcontent

end Ring

namespace History

variable {h : History} {blocks : List Block} {n k : Nat} {g : Grant} {content : Bytes}

private theorem ring_write (hk : h.entries[k]? = some ⟨g, content, .unresolved⟩) (i : Nat) (bytes : Bytes) :
    (h.step (.write k i bytes)).ring = (h.ring.writeInto g i bytes).getD h.ring := by
  have hopen : h.unresolved? k = some ⟨g, content, .unresolved⟩ := unresolved?_eq hk
  simp only [step, hopen]
  cases h.ring.writeInto g i bytes with
  | none => rfl
  | some ring => rfl

private theorem ring_publish (hk : h.entries[k]? = some ⟨g, content, .unresolved⟩) :
    (h.step (.publish k)).ring = h.ring.publish g := by
  have hopen : h.unresolved? k = some ⟨g, content, .unresolved⟩ := unresolved?_eq hk
  simp only [step, resolve, hopen]

/-- Publishing leaves in the ring what the writes have made of a reservation. -/
theorem Consistent.payloadAt_publish (c : h.Consistent blocks n) (hk : h.entries[k]? = some ⟨g, content, .unresolved⟩) :
    (h.step (.publish k)).ring.payloadAt g.offset = content := by
  -- a reservation that is not resolved stands in the row
  have hmem : (⟨g, content, .unresolved⟩ : Entry) ∈ (entriesOf blocks).filter (·.fate = .unresolved) := by
    rw [c.outstanding_eq]
    exact List.mem_filter.2 ⟨List.mem_of_getElem? hk, rfl⟩
  obtain ⟨front, back, rfl⟩ := List.append_of_mem (mem_entriesOf.1 (List.mem_filter.1 hmem).1)
  rw [ring_publish hk]
  exact (c.holds.publish rfl).payloadAt (List.mem_append_right _ List.mem_cons_self) rfl

/-- A producer asks for as many bytes as the callback takes. -/
def request (c : Callback) : Action := .reserve (Parcel.headerWidth + c.payload.length).toUInt64

/-- A queue in which a callback is packed: the actions before its producer reserves, those until it publishes, and its
publishing. -/
def packed (sizing : Sizing) (front back : List Action) (c : Callback) : History :=
  let h := (ofSizing sizing).run front
  ((h.step (request c)).run back).step (.publish h.entries.length)

/-- That the producer is granted its reservation, and its own among the later actions are the three writes. Others do
what they like. -/
structure Packs (sizing : Sizing) (front back : List Action) (c : Callback) (g : Grant) : Prop where
  granted : (((ofSizing sizing).run front).ring.reserve (Parcel.headerWidth + c.payload.length)).grant? = some g
  own : back.filter (·.number? = some ((ofSizing sizing).run front).entries.length) =
    Parcel.writes ((ofSizing sizing).run front).entries.length c
  stored : c.payload.length < sliceBound

/-- A payload in memory is with its header still a length of 64 bits. -/
theorem request_lt {c : Callback} (hc : c.payload.length < sliceBound) :
    Parcel.headerWidth + c.payload.length < UInt64.size := by
  simp only [Parcel.headerWidth, Connection.width, sliceBound, UInt64.size] at *
  omega

private theorem toNat_request {c : Callback} (hc : c.payload.length < sliceBound) :
    (Parcel.headerWidth + c.payload.length).toUInt64.toNat = Parcel.headerWidth + c.payload.length :=
  UInt64.toNat_ofNat_of_lt (request_lt hc)

/-- The reservation for a callback stands at the end of the list, all zeros. -/
theorem step_request {c : Callback} {ring : Ring} (hc : c.payload.length < sliceBound)
    (hres : h.ring.reserve (Parcel.headerWidth + c.payload.length) = .granted g ring) : h.step (request c) =
      { h with ring, entries := h.entries ++
        [⟨g, List.replicate (Parcel.headerWidth + c.payload.length) 0, .unresolved⟩] } := by
  simp only [request, step, toNat_request hc, hres]

private theorem getElem?_step_request {c : Callback} {ring : Ring} (hc : c.payload.length < sliceBound)
    (hres : h.ring.reserve (Parcel.headerWidth + c.payload.length) = .granted g ring) :
    (h.step (request c)).entries[h.entries.length]? =
      some ⟨g, List.replicate (Parcel.headerWidth + c.payload.length) 0, .unresolved⟩ := by
  rw [step_request hc hres]
  exact List.getElem?_concat_length

/-- Whatever is done in between, what the ring holds for a packed callback is its byte string. -/
theorem Packs.payloadAt_packed {sizing : Sizing} {front back : List Action} {c : Callback}
    (h : Packs sizing front back c g) : (packed sizing front back c).ring.payloadAt g.offset = Parcel.encode c := by
  obtain ⟨ring, hres⟩ := Admission.exists_of_grant? h.granted
  obtain ⟨blocks, n, hfront⟩ := exists_consistent sizing front
  obtain ⟨blocks₁, hreserved⟩ := hfront.reserve (Parcel.headerWidth + c.payload.length).toUInt64
  obtain ⟨blocks₂, n₂, hback⟩ := hreserved.run back
  -- of all that is done until it publishes, its own three writes make the payload
  have hwritten := getElem?_run (getElem?_step_request h.stored hres) back
  rw [h.own, Parcel.foldl_act_writes (hfront.holds.reserve hres).1] at hwritten
  exact hback.payloadAt_publish hwritten

/-- Writing keeps a reservation unresolved. -/
theorem exists_content_write (hk : h.entries[k]? = some ⟨g, content, .unresolved⟩) (i : Nat) (bytes : Bytes) :
    ∃ content', (h.step (.write k i bytes)).entries[k]? = some ⟨g, content', .unresolved⟩ := by
  rw [getElem?_write hk, if_pos rfl, Entry.act, if_pos rfl]
  simp only
  split
  next => exact ⟨_, rfl⟩
  next => exact ⟨_, rfl⟩

/-- Packing in one go is what a producer does when nobody comes in between. -/
theorem place_eq_packed {sizing : Sizing} {front : List Action} {c : Callback} {ring : Ring}
    (hc : c.payload.length < sliceBound)
    (hres : ((ofSizing sizing).run front).ring.reserve (Parcel.headerWidth + c.payload.length) = .granted g ring) :
    Parcel.place ring g c =
      (packed sizing front (Parcel.writes ((ofSizing sizing).run front).entries.length c) c).ring := by
  unfold packed
  generalize (ofSizing sizing).run front = h at hres ⊢
  have hreserved := getElem?_step_request hc hres
  obtain ⟨content₁, hkind⟩ := exists_content_write hreserved 0 [Parcel.kind c.origin.feed c.signal]
  obtain ⟨content₂, hconnection⟩ := exists_content_write hkind 1 c.origin.connection.toBytes
  obtain ⟨content₃, hpayload⟩ := exists_content_write hconnection Parcel.headerWidth c.payload
  have hring : (h.step (request c)).ring = ring := by rw [step_request hc hres]
  refine Eq.symm ((ring_publish hpayload).trans ?_)
  rw [ring_write hconnection, ring_write hkind, ring_write hreserved, hring]
  rfl

end History

/-! ## The two together -/

/-- Callbacks and byte strings determine one another: every callback is read back as it was written, in as many bytes
as its header and its payload have; a byte string is read exactly if it is as long as a header and begins with a byte
for some signal; and then it is what its callback is written as. A callback that is packed into a block of any ring
stands there as that byte string. So it does when others reserve, write, publish and read between the parts, and when
nobody does that is packing it in one go. -/
theorem Parcel.packed_as_encoded :
    (∀ c, decode (encode c) = .ok c ∧ (encode c).length = headerWidth + c.payload.length) ∧
    (∀ b, (∃ c, decode b = .ok c) ↔ headerWidth ≤ b.length ∧ ∃ k ∈ kinds, b.head? = some k) ∧
    (∀ b c, decode b = .ok c → encode c = b) ∧
    (∀ (r : Ring) c g r', r.capacity ≤ Ring.greatestCapacity → c.payload.length < sliceBound →
      r.reserve (headerWidth + c.payload.length) = .granted g r' →
      (place r' g c).payloadAt g.offset = encode c ∧ decode ((place r' g c).payloadAt g.offset) = .ok c) ∧
    (∀ sizing front back c g, History.Packs sizing front back c g →
      (History.packed sizing front back c).ring.payloadAt g.offset = encode c) ∧
    ∀ sizing front c g r', c.payload.length < sliceBound →
      ((History.ofSizing sizing).run front).ring.reserve (headerWidth + c.payload.length) = .granted g r' →
      place r' g c =
        (History.packed sizing front (writes ((History.ofSizing sizing).run front).entries.length c) c).ring := by
  refine ⟨?_, ?_, ?_, ?_, ?_, ?_⟩
  · intro c
    exact ⟨decode_encode c, length_encode c⟩
  · intro b
    exact exists_decode_iff
  · intro b c hdecode
    exact (decode_eq_ok_iff.1 hdecode).symm
  · intro r c g r' hcap hc hres
    obtain ⟨hlen, hroom, hhalf, hin, -⟩ := Ring.grant_inside hres
    have hshort : g.total < padMark := by
      simp only [Ring.greatestCapacity, padMark, UInt32.size] at *
      omega
    rw [Ring.payloadAt_place hlen (by rw [hlen]; exact hroom) hin hshort]
    exact ⟨rfl, decode_encode c⟩
  · intro sizing front back c g hpacks
    exact hpacks.payloadAt_packed
  · intro sizing front c g r' hc hres
    exact History.place_eq_packed hc hres

/-- An empty object, from the ninth opening of a slot. -/
def Parcel.report : Callback := .data ⟨⟨3, 9⟩, .user⟩ [123, 125]

/-- What other producers and the reader do while the report is packed as the reservation of number 1. -/
def Parcel.bustle : List Action :=
  [.write 1 0 [85], .write 0 0 [1, 2, 3], .publish 0, .write 1 1 [3, 0, 0, 0, 9, 0, 0, 0], .read, .write 1 9 [123, 125],
    .read]

/-- A report behind a payload of three bytes, packed amid the others' actions and in one go. -/
theorem Parcel.packed_as_encoded_report :
    (History.packed ⟨64, .reject⟩ [.reserve 3] bustle report).ring.payloadAt 16 =
      [85, 3, 0, 0, 0, 9, 0, 0, 0, 123, 125] ∧
    ∃ r', (place r' ⟨16, 24, 11⟩ report).payloadAt 16 = [85, 3, 0, 0, 0, 9, 0, 0, 0, 123, 125] ∧
      place r' ⟨16, 24, 11⟩ report = (History.packed ⟨64, .reject⟩ [.reserve 3] (writes 1 report) report).ring := by
  obtain ⟨-, -, -, hplace, hpacked, halone⟩ := packed_as_encoded
  have hcount : ((History.ofSizing ⟨64, .reject⟩).run [.reserve 3]).entries.length = 1 := by decide +kernel
  have hgranted : (((History.ofSizing ⟨64, .reject⟩).run [.reserve 3]).ring.reserve
      (headerWidth + report.payload.length)).grant? = some ⟨16, 24, 11⟩ := by decide +kernel
  have hpacks : History.Packs ⟨64, .reject⟩ [.reserve 3] bustle report ⟨16, 24, 11⟩ :=
    ⟨hgranted, by rw [hcount]; rfl, by decide⟩
  have hencode : encode report = [85, 3, 0, 0, 0, 9, 0, 0, 0, 123, 125] := by decide
  have hstored : report.payload.length < sliceBound := by decide
  obtain ⟨r', hres⟩ := Admission.exists_of_grant? hgranted
  refine ⟨?_, r', ?_, ?_⟩
  · exact (hpacked _ _ _ _ _ hpacks).trans hencode
  · exact (hplace _ _ _ _ (by decide +kernel) hstored hres).1.trans hencode
  · rw [halone _ _ _ _ _ hstored hres, hcount]

end Relay

end MarketFeed
