import Stakan.Interface
import Stakan.Library.FixedWidth

namespace Stakan
open LittleEndian

/-- A 64-bit field. -/
def word : FixedWidth UInt8 UInt64 where
  width := 8
  encode := wordBytes
  decode := wordOfBytes
  encode_length := wordBytes_length
  decode_encode := wordOfBytes_wordBytes
  encode_decode _ eight := wordBytes_wordOfBytes eight

/-- The object representation of an order. -/
def Order.layout : FixedWidth UInt8 Order :=
  ((word.pair word).pair word).map (fun w => ⟨w.1.1, w.1.2, w.2⟩)
    (fun order => ((order.id, order.price), order.quantity)) (fun _ => rfl) fun _ => rfl

def Snapshot.layout : FixedWidth UInt8 Snapshot :=
  ((Order.layout.vector topN).pair (Order.layout.vector topN)).map (fun sides => ⟨sides.1, sides.2⟩)
    (fun s => (s.topBids, s.topAsks)) (fun _ => rfl) fun _ => rfl

def MDUpdate.layout : FixedWidth UInt8 MDUpdate :=
  (((((word.pair word).pair word).pair word).pair word).pair word).map
    (fun w => ⟨w.1.1.1.1.1, w.1.1.1.1.2, w.1.1.1.2, w.1.1.2, w.1.2, w.2⟩)
    (fun u => (((((u.bestBidPrice, u.bestBidQty), u.bestAskPrice), u.bestAskQty), u.totalBidQty), u.totalAskQty))
    (fun _ => rfl) fun _ => rfl

theorem word_width : word.width = 8 := rfl

theorem word_decode_slice (data : List UInt8) (offset : Nat) :
    word.decode (slice data offset 8) = wordAt data offset := rfl

theorem Order.layout_decode (data : List UInt8) (offset : Nat) :
    Order.layout.decode (slice data offset sizeofOrder) = Order.at data offset := by
  simp (disch := omega) only [Order.layout, sizeofOrder, FixedWidth.map_decode, FixedWidth.pair_decode,
    FixedWidth.pair_width, word_width, Nat.reduceAdd, slice_slice, Nat.add_zero, word_decode_slice, Order.at]

/-- An array of orders is read as they stand in it, element after element. -/
theorem ordersAt_eq (data : List UInt8) (offset : Nat) :
    (Order.layout.vector topN).decode (slice data offset (topN * sizeofOrder)) = ordersAt data offset := by
  rw [ordersAt, show sizeofOrder = Order.layout.width from rfl, FixedWidth.vector_decode_slice]
  exact congrArg Vector.ofFn (funext fun i => Order.layout_decode data _)

theorem Snapshot.layout_decode (data : List UInt8) (offset : Nat) :
    Snapshot.layout.decode (slice data offset sizeofSnapshot) =
      ⟨ordersAt data offset, ordersAt data (offset + topN * sizeofOrder)⟩ := by
  have bids : slice (slice data offset sizeofSnapshot) 0 (topN * sizeofOrder) =
      slice data offset (topN * sizeofOrder) := slice_slice (by decide)
  have asks : slice (slice data offset sizeofSnapshot) (topN * sizeofOrder) (topN * sizeofOrder) =
      slice data (offset + topN * sizeofOrder) (topN * sizeofOrder) := slice_slice (by decide)
  rw [← ordersAt_eq, ← ordersAt_eq, ← bids, ← asks]
  rfl

theorem MDUpdate.layout_decode (data : List UInt8) (offset : Nat) :
    MDUpdate.layout.decode (slice data offset sizeofMDUpdate) =
      ⟨wordAt data offset, wordAt data (offset + 8), wordAt data (offset + 16), wordAt data (offset + 24),
        wordAt data (offset + 32), wordAt data (offset + 40)⟩ := by
  simp (disch := omega) only [MDUpdate.layout, sizeofMDUpdate, FixedWidth.map_decode, FixedWidth.pair_decode,
    FixedWidth.pair_width, word_width, Nat.reduceAdd, slice_slice, Nat.add_zero, word_decode_slice]

/-- A message is its type byte and its object representation; whoever reads
one checks its length and nothing else. -/
structure Tagged {M : Type} (tag : UInt8) (layout : FixedWidth UInt8 M) (serialize : M → List UInt8)
    (deserialize : List UInt8 → Except String M) : Prop where
  serialize_eq : ∀ m, serialize m = tag :: layout.encode m
  deserialize_eq : ∀ data, deserialize data =
    if data.length ≠ layout.width + 1 then .error incorrectDataSize else .ok (layout.decode data.tail)

/-- Behind the type byte stands the rest of the data. -/
theorem slice_one {data : List UInt8} {n : Nat} (size : data.length = n + 1) : slice data 1 n = data.tail := by
  rw [slice, List.drop_one, List.take_of_length_le]
  rw [List.length_tail]
  omega

theorem Snapshot.tagged :
    Tagged MessageType.snapshot.code Snapshot.layout Snapshot.serialize Snapshot.deserialize where
  serialize_eq _ := rfl
  deserialize_eq data := by
    have width : Snapshot.layout.width + 1 = sizeofSnapshot + kByteForMsgType := rfl
    rw [Snapshot.deserialize, width]
    by_cases size : data.length = sizeofSnapshot + kByteForMsgType
    · have read := Snapshot.layout_decode data kByteForMsgType
      rw [show slice data kByteForMsgType sizeofSnapshot = data.tail from slice_one size] at read
      rw [read]
    · rw [if_pos size, if_pos size]

theorem MDUpdate.tagged :
    Tagged MessageType.mdUpdate.code MDUpdate.layout MDUpdate.serialize MDUpdate.deserialize where
  serialize_eq _ := rfl
  deserialize_eq data := by
    have width : MDUpdate.layout.width + 1 = kByteForMsgType + sizeofMDUpdate := rfl
    rw [MDUpdate.deserialize, width]
    by_cases size : data.length = kByteForMsgType + sizeofMDUpdate
    · have read := MDUpdate.layout_decode data kByteForMsgType
      rw [show slice data kByteForMsgType sizeofMDUpdate = data.tail from slice_one size] at read
      rw [read]
    · rw [if_pos size, if_pos size]

/-- What is written is read back, what has the length and the type byte of a
message is one, and no other length is taken. -/
structure RoundTrips {M : Type} (tag : UInt8) (size : Nat) (serialize : M → List UInt8)
    (deserialize : List UInt8 → Except String M) : Prop where
  decoded : ∀ m, deserialize (serialize m) = .ok m
  encoded : ∀ b, b.length = size + 1 → b.head? = some tag → ∃ m, deserialize b = .ok m ∧ serialize m = b
  refused : ∀ b, b.length ≠ size + 1 → deserialize b = .error incorrectDataSize

/-- A reader takes the bodies of messages, whatever their type byte; with the
byte of their own type they are the messages that are written. -/
structure TakesBodies {M : Type} (tag : UInt8) (serialize : M → List UInt8)
    (deserialize : List UInt8 → Except String M) : Prop where
  accepted : ∀ b, (∃ m, deserialize b = .ok m) ↔ ∃ first m, b = first :: (serialize m).tail
  image : ∀ b, (∃ m, b = serialize m) ↔ (∃ m, deserialize b = .ok m) ∧ b.head? = some tag

section Tagged

variable {M : Type} {tag : UInt8} {layout : FixedWidth UInt8 M} {serialize : M → List UInt8}
  {deserialize : List UInt8 → Except String M}

theorem Tagged.deserialize_cons (tagged : Tagged tag layout serialize deserialize) (first : UInt8) {body : List UInt8}
    (size : body.length = layout.width) : deserialize (first :: body) = .ok (layout.decode body) := by
  rw [tagged.deserialize_eq, if_neg (by simp [size]), List.tail_cons]

theorem Tagged.length_of_ok (tagged : Tagged tag layout serialize deserialize) {b : List UInt8} {m : M}
    (read : deserialize b = .ok m) : ∃ first body, b = first :: body ∧ body.length = layout.width := by
  rw [tagged.deserialize_eq] at read
  split at read
  next => contradiction
  next size =>
    obtain ⟨first, body, rfl⟩ := List.exists_cons_of_length_eq_add_one (not_not.mp size)
    exact ⟨first, body, rfl, by simpa using size⟩

theorem Tagged.roundTrips (tagged : Tagged tag layout serialize deserialize) :
    RoundTrips tag layout.width serialize deserialize where
  decoded m := by
    rw [tagged.serialize_eq, tagged.deserialize_cons tag (layout.encode_length m), layout.decode_encode]
  encoded b size own := by
    obtain ⟨first, body, rfl⟩ := List.exists_cons_of_length_eq_add_one size
    have body_size : body.length = layout.width := by simpa using size
    obtain rfl := Option.some.inj own
    refine ⟨layout.decode body, tagged.deserialize_cons first body_size, ?_⟩
    rw [tagged.serialize_eq, layout.encode_decode body body_size]
  refused b other := by rw [tagged.deserialize_eq, if_pos other]

theorem Tagged.takesBodies (tagged : Tagged tag layout serialize deserialize) :
    TakesBodies tag serialize deserialize where
  accepted b := by
    constructor
    · rintro ⟨m, read⟩
      obtain ⟨first, body, rfl, size⟩ := tagged.length_of_ok read
      exact ⟨first, layout.decode body, by rw [tagged.serialize_eq, List.tail_cons, layout.encode_decode body size]⟩
    · rintro ⟨first, m, rfl⟩
      rw [tagged.serialize_eq, List.tail_cons]
      exact ⟨_, tagged.deserialize_cons first (layout.encode_length m)⟩
  image b := by
    constructor
    · rintro ⟨m, rfl⟩
      exact ⟨⟨m, tagged.roundTrips.decoded m⟩, by rw [tagged.serialize_eq]; rfl⟩
    · rintro ⟨⟨m, read⟩, own⟩
      obtain ⟨first, body, rfl, size⟩ := tagged.length_of_ok read
      obtain ⟨m, _, written⟩ := tagged.roundTrips.encoded (first :: body) (by simp [size]) own
      exact ⟨m, written.symm⟩

end Tagged

/-- On a little-endian host both messages are read back as they are written. -/
theorem messages_roundTrip :
    RoundTrips MessageType.snapshot.code sizeofSnapshot Snapshot.serialize Snapshot.deserialize ∧
    RoundTrips MessageType.mdUpdate.code sizeofMDUpdate MDUpdate.serialize MDUpdate.deserialize :=
  ⟨Snapshot.tagged.roundTrips, MDUpdate.tagged.roundTrips⟩

/-- Both readers take any bytes of the right length, and leave the type to their caller. -/
theorem messages_takesBodies :
    TakesBodies MessageType.snapshot.code Snapshot.serialize Snapshot.deserialize ∧
    TakesBodies MessageType.mdUpdate.code MDUpdate.serialize MDUpdate.deserialize :=
  ⟨Snapshot.tagged.takesBodies, MDUpdate.tagged.takesBodies⟩

/-- An update of the order book under the type byte of a snapshot is read, though none is written so. -/
theorem mistagged_update_accepted :
    ¬∀ b, (∃ u, MDUpdate.deserialize b = .ok u) ↔ ∃ u : MDUpdate, b = u.serialize := by
  intro claim
  have accepted : ∃ u, MDUpdate.deserialize (MessageType.snapshot.code :: List.replicate 48 0) = .ok u := ⟨_, rfl⟩
  obtain ⟨u, written⟩ := (claim _).mp accepted
  exact absurd (List.cons.inj written).1 (by decide)

end Stakan
