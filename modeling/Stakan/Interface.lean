import Stakan.Library.LittleEndian

namespace Stakan
open LittleEndian

abbrev ID := UInt64
abbrev Price := UInt64
abbrev Quantity := UInt64

def byte (c : Char) : UInt8 := c.toUInt8

/-- The bytes of a text. -/
def bytesOf (text : String) : List UInt8 := text.toUTF8.data.toList

def topN : Nat := 20
def kByteForMsgType : Nat := 1

inductive MessageType
  | snapshot
  | bid
  | ask
  | mdUpdate
  deriving DecidableEq

/-- The underlying value of the enumeration. -/
def MessageType.code : MessageType → UInt8
  | .snapshot => 0
  | .bid => 1
  | .ask => 2
  | .mdUpdate => 3

structure Order where
  id : ID := 0
  price : Price := 0
  quantity : Quantity := 0
  deriving DecidableEq

/-- The constructor with arguments takes the quantity as a 32-bit `int`,
which converts to the unsigned field by sign extension. -/
def Order.ofInt (number : ID) (p : Price) (qty : Int32) : Order := ⟨number, p, qty.toInt64.toUInt64⟩

instance : BEq Order where
  beq lhs rhs := lhs.id == rhs.id && lhs.price == rhs.price && lhs.quantity == rhs.quantity

instance : LawfulBEq Order where
  rfl := by simp [BEq.beq]
  eq_of_beq {lhs rhs} same := by
    obtain ⟨⟨id, price⟩, quantity⟩ : (lhs.id = rhs.id ∧ lhs.price = rhs.price) ∧ lhs.quantity = rhs.quantity := by
      simpa [BEq.beq] using same
    cases lhs; cases rhs
    simp_all

structure Snapshot where
  topBids : Vector Order topN := Vector.replicate topN {}
  topAsks : Vector Order topN := Vector.replicate topN {}
  deriving DecidableEq

structure MDUpdate where
  bestBidPrice : Price
  bestBidQty : Quantity
  bestAskPrice : Price
  bestAskQty : Quantity
  totalBidQty : Quantity
  totalAskQty : Quantity
  deriving DecidableEq

/-- `sizeof` of the structures: 8-byte fields without padding. -/
def sizeofOrder : Nat := 24
def sizeofSnapshot : Nat := 2 * (topN * sizeofOrder)
def sizeofMDUpdate : Nat := 48

/-- The error both deserializers throw. -/
def incorrectDataSize : String := "Deserialization error: incorrect data size"

/-- The word that `memcpy` reads at an offset. -/
def wordAt (data : List UInt8) (offset : Nat) : UInt64 := wordOfBytes ((data.drop offset).take 8)

def Order.bytes (order : Order) : List UInt8 :=
  wordBytes order.id ++ wordBytes order.price ++ wordBytes order.quantity

def Order.at (data : List UInt8) (offset : Nat) : Order :=
  ⟨wordAt data offset, wordAt data (offset + 8), wordAt data (offset + 16)⟩

/-- The bytes of a fixed array of orders, element after element. -/
def ordersBytes (orders : Vector Order topN) : List UInt8 := orders.toList.flatMap Order.bytes

def ordersAt (data : List UInt8) (offset : Nat) : Vector Order topN :=
  Vector.ofFn fun i => Order.at data (offset + i * sizeofOrder)

def Snapshot.serialize (s : Snapshot) : List UInt8 :=
  MessageType.snapshot.code :: (ordersBytes s.topBids ++ ordersBytes s.topAsks)

def Snapshot.deserialize (data : List UInt8) : Except String Snapshot :=
  if data.length ≠ sizeofSnapshot + kByteForMsgType then .error incorrectDataSize
  else .ok ⟨ordersAt data kByteForMsgType, ordersAt data (kByteForMsgType + topN * sizeofOrder)⟩

def MDUpdate.serialize (u : MDUpdate) : List UInt8 :=
  MessageType.mdUpdate.code :: (wordBytes u.bestBidPrice ++ wordBytes u.bestBidQty ++ wordBytes u.bestAskPrice ++
    wordBytes u.bestAskQty ++ wordBytes u.totalBidQty ++ wordBytes u.totalAskQty)

def MDUpdate.deserialize (data : List UInt8) : Except String MDUpdate :=
  if data.length ≠ kByteForMsgType + sizeofMDUpdate then .error incorrectDataSize
  else .ok ⟨wordAt data kByteForMsgType, wordAt data (kByteForMsgType + 8), wordAt data (kByteForMsgType + 16),
    wordAt data (kByteForMsgType + 24), wordAt data (kByteForMsgType + 32), wordAt data (kByteForMsgType + 40)⟩

@[simp] theorem Order.bytes_length (order : Order) : order.bytes.length = sizeofOrder := by
  simp [Order.bytes, sizeofOrder]

@[simp] theorem ordersBytes_length (orders : Vector Order topN) : (ordersBytes orders).length = topN * sizeofOrder := by
  have sizes : orders.toList.map (fun order => order.bytes.length) = List.replicate topN sizeofOrder := by
    refine List.eq_replicate_iff.mpr ⟨by simp, ?_⟩
    simp only [List.mem_map, Order.bytes_length]
    rintro size ⟨_, _, rfl⟩
    rfl
  rw [ordersBytes, List.length_flatMap, sizes, List.sum_replicate_nat]

/-- A serialized message is one type byte and the object representation. -/
theorem Snapshot.serialize_length (s : Snapshot) : s.serialize.length = sizeofSnapshot + kByteForMsgType := by
  simp [Snapshot.serialize, sizeofSnapshot, kByteForMsgType]
  omega

theorem MDUpdate.serialize_length (u : MDUpdate) : u.serialize.length = kByteForMsgType + sizeofMDUpdate := by
  simp [MDUpdate.serialize, sizeofMDUpdate, kByteForMsgType]

end Stakan
