import MarketFeed.Proofs.Relay.History
import MarketFeed.Relay.Parcel

/-!
# Relay.Parcels — the ring as a queue of callbacks

While every reservation is filled and resolved before the next one is made, the ring is a
plain queue of byte strings: `Ring.Queues` says which ones the reader has not got yet.

> `Queues.place`: packing a callback for which there is room puts it at the end.
>
> `Queues.complete`: so does pushing any byte string.
>
> `Queues.next`: the reader takes the one in front, if there is one.
>
> `Parcel.decode_encode`: what was packed is read back.

This is all that queued dispatch knows of the ring. The record that the reader holds is
still in the memory, but it is no longer in the queue; what it takes up is given back by
the next read.

Packing writes three parts into a buffer that does not have to be zero
(`overwrite_encode`): they cover all of it, so nothing is left of what was there before.
-/

namespace MarketFeed.Relay

/-! ## Packing -/

/-- What is written behind a part that is already written. -/
theorem overwrite_append {front back bytes : Bytes} {i : Nat} (hi : front.length = i)
    (h : bytes.length ≤ back.length) :
    Bytes.overwrite (front ++ back) i bytes = (front ++ bytes) ++ back.drop bytes.length := by
  subst hi
  have hbytes : bytes.take ((front ++ back).length - front.length) = bytes := by
    apply List.take_of_length_le
    rw [List.length_append]
    omega
  rw [Bytes.overwrite, hbytes, List.take_left, List.drop_length_add_append]

namespace Parcel

private theorem ofBytes_append (c : Connection) (rest : Bytes) : Connection.ofBytes (c.toBytes ++ rest) = c := by
  have hslot : (c.toBytes ++ rest).take 4 = Bytes.littleEndian 4 c.slot.toNat := by
    rw [Connection.toBytes, List.append_assoc]
    exact List.take_left' (Bytes.length_littleEndian _ _)
  have hgeneration : ((c.toBytes ++ rest).drop 4).take 4 = Bytes.littleEndian 4 c.generation.toNat := by
    rw [Connection.toBytes, List.append_assoc, List.drop_left' (Bytes.length_littleEndian _ _)]
    exact List.take_left' (Bytes.length_littleEndian _ _)
  have hword (n : UInt32) : (Bytes.ofLittleEndian (Bytes.littleEndian 4 n.toNat)).toUInt32 = n := by
    rw [Bytes.ofLittleEndian_littleEndian, Nat.mod_eq_of_lt (UInt32.toNat_lt n)]
    exact UInt32.ofNat_toNat
  rw [Connection.ofBytes, hslot, hgeneration, hword, hword]

theorem decode_encode (c : Callback) : decode (encode c) = .ok c := by
  have hlong : ¬ (c.origin.connection.toBytes ++ c.payload).length < Connection.width := by
    rw [List.length_append, Connection.length_toBytes]
    omega
  have hpayload : (c.origin.connection.toBytes ++ c.payload).drop Connection.width = c.payload :=
    List.drop_left' (Connection.length_toBytes _)
  simp only [decode, encode, if_neg hlong, ofKind?_kind, ofBytes_append, hpayload]

/-- The three writes of packing leave nothing of what was there before. -/
theorem overwrite_encode {buffer : Bytes} {c : Callback} (hlen : buffer.length = headerWidth + c.payload.length) :
    Bytes.overwrite (Bytes.overwrite (Bytes.overwrite buffer 0 [kind c.origin.feed c.signal]) 1
      c.origin.connection.toBytes) headerWidth c.payload = encode c := by
  have hwidth : c.origin.connection.toBytes.length = 8 := Connection.length_toBytes _
  have hheader : headerWidth = 9 := rfl
  have hkind : Bytes.overwrite buffer 0 [kind c.origin.feed c.signal] =
      [kind c.origin.feed c.signal] ++ buffer.drop 1 :=
    @overwrite_append [] _ _ _ rfl (by rw [List.length_singleton]; omega)
  rw [hkind, overwrite_append (i := 1) rfl (by rw [List.length_drop]; omega), hwidth,
    overwrite_append (i := headerWidth) (by rw [List.length_append, hwidth]; rfl)
      (by rw [List.length_drop, List.length_drop]; omega),
    List.drop_of_length_le (by rw [List.length_drop, List.length_drop]; omega), List.append_nil]
  exact List.append_assoc _ _ _

end Parcel

/-! ## The queue -/

namespace Ring

variable {r r' : Ring} {blocks pre : List Block} {payloads : List Bytes} {g : Grant}

/-- That everything in the ring is resolved, and what the reader has still to get. -/
def Queues (r : Ring) (payloads : List Bytes) : Prop := ∃ blocks, r.Holds blocks ∧
  (∀ e ∈ entriesOf (r.unheld blocks), e.fate ≠ .unresolved) ∧ published (entriesOf (r.unheld blocks)) = payloads

/-- A new queue is empty. -/
theorem queues_ofSizing (sizing : Sizing) : (ofSizing sizing).takeReader.2.Queues [] := by
  refine ⟨[], holds_ofSizing sizing, ?_, rfl⟩
  exact fun _ he => absurd he List.not_mem_nil

/-- One of the writes of packing, which all fit. -/
theorem Holds.put {content : Bytes} {fate : Fate} (i : Nat) (bytes : Bytes)
    (h : r.Holds (pre ++ [.entry ⟨g, content, fate⟩])) (hi : i + bytes.length ≤ g.length) :
    ((r.writeInto g i bytes).getD r).Holds (pre ++ [.entry ⟨g, Bytes.overwrite content i bytes, fate⟩]) ∧
      ((r.writeInto g i bytes).getD r).pending = r.pending := by
  obtain ⟨r', hw⟩ := exists_writeInto (r := r) hi
  rw [hw]
  exact ⟨h.writeInto hw, (pending_writeInto hw).1⟩

/-- All three writes, and publishing. -/
theorem Holds.place {c : Callback} (hlen : g.length = Parcel.headerWidth + c.payload.length)
    (h : r.Holds (pre ++ [.entry ⟨g, List.replicate (Parcel.headerWidth + c.payload.length) 0, .unresolved⟩])) :
    (Parcel.place r g c).Holds (pre ++ [.entry ⟨g, Parcel.encode c, .published⟩]) ∧
      (Parcel.place r g c).pending = r.pending := by
  have hheader : Parcel.headerWidth = 9 := rfl
  have hwidth : c.origin.connection.toBytes.length = 8 := Connection.length_toBytes _
  obtain ⟨hkind, hp₁⟩ := h.put 0 [Parcel.kind c.origin.feed c.signal] (by rw [List.length_singleton]; omega)
  obtain ⟨hconnection, hp₂⟩ := hkind.put 1 c.origin.connection.toBytes (by omega)
  obtain ⟨hpayload, hp₃⟩ := hconnection.put Parcel.headerWidth c.payload (Nat.le_of_eq hlen.symm)
  rw [Parcel.overwrite_encode List.length_replicate] at hpayload
  refine ⟨hpayload.publish rfl, ?_⟩
  rw [Parcel.place, Ring.publish, (pending_putHeader _ _ _).1, hp₃, hp₂, hp₁]

namespace Queues

/-- What is reserved, filled and published goes to the end. -/
theorem fill {r'' : Ring} {length : Nat} {content : Bytes} (h : r.Queues payloads)
    (hres : r.reserve length = .granted g r')
    (hfill : ∀ pre, g.length = length → r'.Holds (pre ++ [.entry ⟨g, List.replicate length 0, .unresolved⟩]) →
      r''.Holds (pre ++ [.entry ⟨g, content, .published⟩]) ∧ r''.pending = r'.pending) :
    r''.Queues (payloads ++ [content]) := by
  obtain ⟨blocks, hholds, hall, rfl⟩ := h
  obtain ⟨hg, fillers, -, hfillers, hreserved⟩ := hholds.reserve hres
  rw [← List.append_assoc] at hreserved
  obtain ⟨hfilled, hp⟩ := hfill _ hg hreserved
  rw [List.append_assoc] at hfilled
  -- padding is no reservation, so there is one more than before
  have hunheld : entriesOf (r''.unheld (blocks ++ (fillers ++ [.entry ⟨g, content, .published⟩]))) =
      entriesOf (r.unheld blocks) ++ [⟨g, content, .published⟩] := by
    rw [unheld_congr (hp.trans (pending_reserve hres).1), hholds.unheld_append, entriesOf_append,
      entriesOf_append, hfillers]
    rfl
  refine ⟨_, hfilled, ?_, ?_⟩
  · rw [hunheld]
    intro e he
    rcases List.mem_append.1 he with he | he
    · exact hall e he
    · rw [List.mem_singleton.1 he]
      exact Fate.noConfusion
  · rw [hunheld, published_append]
    rfl

/-- A callback for which there is room goes to the end. -/
theorem place (h : r.Queues payloads) {c : Callback}
    (hres : r.reserve (Parcel.headerWidth + c.payload.length) = .granted g r') :
    (Parcel.place r' g c).Queues (payloads ++ [Parcel.encode c]) :=
  h.fill hres fun _ hg hreserved => hreserved.place hg

/-- A byte string for which there is room goes to the end. -/
theorem complete (h : r.Queues payloads) {bytes : Bytes}
    (hres : r.reserve bytes.length = .granted g r') : (r'.complete g bytes).Queues (payloads ++ [bytes]) :=
  h.fill hres fun _ hg hreserved => ⟨hreserved.complete rfl hg.symm, (pending_complete _ _ _).1⟩

/-- The reader gets what is in front, if there is anything. -/
theorem next (h : r.Queues payloads) :
    r.next.1.map (·.payload) = payloads.head? ∧ r.next.2.Queues payloads.tail := by
  obtain ⟨blocks, hholds, hall, rfl⟩ := h
  obtain ⟨skipped, rest, hrow, hskipped, hnext, hfront, -⟩ := hholds.next
  -- what the reader goes over is padding, so nothing that it has to get is lost
  rw [hrow, entriesOf_append, published_append, (entriesOf_padding hskipped).2, List.nil_append]
  rw [hrow, entriesOf_append] at hall
  have hrest : ∀ e ∈ entriesOf rest, e.fate ≠ .unresolved := fun e he => hall e (List.mem_append_right _ he)
  generalize r.next = answer at *
  obtain ⟨out, ring⟩ := answer
  simp only at hnext hfront ⊢
  cases out with
  | none =>
    obtain ⟨hp, rfl | ⟨e, rest, rfl, hfate⟩⟩ := hfront.of_none
    · refine ⟨rfl, [], hnext, ?_⟩
      rw [unheld, if_pos hp]
      exact ⟨hrest, rfl⟩
    · -- nothing in the ring is left to wait for
      exact absurd hfate (hrest e List.mem_cons_self)
  | some p =>
    obtain ⟨e, rest, rfl, hfate, hp, rfl⟩ := hfront.of_some
    have hpos : 0 < e.grant.total := Nat.lt_of_lt_of_le (by decide) hnext.layout.1.positive
    have hcons : published (entriesOf (.entry e :: rest)) = e.content :: published (entriesOf rest) := by
      show published (e :: entriesOf rest) = _
      rw [published, List.filter_cons_of_pos (by rw [hfate]; decide)]
      rfl
    rw [hcons]
    refine ⟨rfl, _, hnext, ?_⟩
    rw [unheld, hp, if_neg (by omega)]
    exact ⟨fun d hd => hrest d (List.mem_cons_of_mem _ hd), rfl⟩

/-- A reader that has got everything has given everything back. -/
theorem emptied (h : r.Queues []) : r.next.2.read = r.next.2.write := by
  have hnone : r.next.1 = none := Option.map_eq_none_iff.1 h.next.1
  obtain ⟨blocks, hholds, hall, -⟩ := h
  exact hholds.emptied hnone hall

/-- Every record takes a word at least. -/
theorem words_le (h : r.Queues payloads) : headerWidth * payloads.length ≤ r.used := by
  obtain ⟨blocks, hholds, -, rfl⟩ := h
  have hwords := hholds.words_le
  have hunheld : (r.unheld blocks).length ≤ blocks.length := by
    unfold unheld
    split
    · exact Nat.le_refl _
    · rw [List.length_tail]
      exact Nat.sub_le _ _
  have hpublished : (published (entriesOf (r.unheld blocks))).length ≤ (r.unheld blocks).length := by
    rw [published, List.length_map]
    exact Nat.le_trans (List.length_filter_le _ _) (List.length_filterMap_le _ _)
  have hmul := Nat.mul_le_mul_left headerWidth (Nat.le_trans hpublished hunheld)
  rw [used]
  omega

end Queues

end Ring

end MarketFeed.Relay
