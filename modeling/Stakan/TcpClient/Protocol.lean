import Stakan.Interface
import Stakan.Library.SelfDelimiting

namespace Stakan.Protocol
open SelfDelimiting

inductive MessageType
  | newOrder
  | cancelOrder
  | replaceOrder
  | snapshotRequest
  | snapshotResponse
  | marketDataUpdate
  | subscribe
  | unsubscribe
  deriving DecidableEq

def MessageType.code : MessageType → UInt8
  | .newOrder => 1
  | .cancelOrder => 2
  | .replaceOrder => 3
  | .snapshotRequest => 10
  | .snapshotResponse => 11
  | .marketDataUpdate => 12
  | .subscribe => 20
  | .unsubscribe => 21

structure SubscriptionMessage where
  type : MessageType := .subscribe
  symbol : List UInt8
  deriving DecidableEq

/-- The length goes into two bytes, the symbol whole behind them. -/
def serializeSubscription (msg : SubscriptionMessage) : List UInt8 :=
  let len : UInt16 := UInt16.ofNat msg.symbol.length
  [msg.type.code, ((len >>> 8) &&& 0xFF).toUInt8, (len &&& 0xFF).toUInt8] ++ msg.symbol

/-- The type that a byte stands for. -/
def MessageType.ofCode (code : UInt8) : Option MessageType :=
  [newOrder, cancelOrder, replaceOrder, snapshotRequest, snapshotResponse, marketDataUpdate, subscribe,
    unsubscribe].find? (·.code == code)

/-- A reader that goes by the header: a type byte, a 16-bit length in network
order and as many bytes of symbol. -/
def readSubscription : List UInt8 → Option (SubscriptionMessage × List UInt8)
  | code :: high :: low :: data => do
    let type ← MessageType.ofCode code
    let n := high.toNat * 256 + low.toNat
    if n ≤ data.length then return (⟨type, data.take n⟩, data.drop n) else none
  | _ => none

example : serializeSubscription { symbol := bytesOf "EURUSD" } = [20, 0, 6] ++ bytesOf "EURUSD" := by decide

/-- Messages that are read as they were written, before any further data and in
a stream, and told apart by what they begin with. -/
structure ReadBack (messages : List SubscriptionMessage) : Prop where
  alone : ∀ m ∈ messages, Delimits serializeSubscription readSubscription m
  stream : readStream readSubscription (messages.flatMap serializeSubscription) = some messages
  apart : ∀ m ∈ messages, ∀ m' ∈ messages, serializeSubscription m <+: serializeSubscription m' → m = m'

theorem MessageType.ofCode_code (type : MessageType) : MessageType.ofCode type.code = some type := by
  cases type <;> rfl

/-- The two bytes hold the length modulo 2^16. -/
theorem header_length (n : Nat) : (((UInt16.ofNat n >>> 8) &&& 0xFF).toUInt8).toNat * 256 +
    ((UInt16.ofNat n &&& 0xFF).toUInt8).toNat = n % 2 ^ 16 := by
  have low (k : Nat) : k &&& 255 = k % 256 := Nat.and_two_pow_sub_one_eq_mod k 8
  have high : (n % 65536) >>> 8 = n % 65536 / 256 := Nat.shiftRight_eq_div_pow (n % 65536) 8
  simp only [UInt16.toNat_toUInt8, UInt16.toNat_and, UInt16.toNat_shiftRight, UInt16.toNat_ofNat', UInt16.reduceToNat,
    Nat.reduceMod, Nat.reducePow]
  rw [low, low, high]
  omega

theorem serializeSubscription_ne_nil (m : SubscriptionMessage) : serializeSubscription m ≠ [] :=
  List.cons_ne_nil _ _

/-- The reader takes as many bytes as the header says. -/
theorem readSubscription_serialize (m : SubscriptionMessage) (rest : List UInt8) :
    readSubscription (serializeSubscription m ++ rest) =
      some (⟨m.type, (m.symbol ++ rest).take (m.symbol.length % 2 ^ 16)⟩,
        (m.symbol ++ rest).drop (m.symbol.length % 2 ^ 16)) := by
  have fits : m.symbol.length % 2 ^ 16 ≤ (m.symbol ++ rest).length := by
    rw [List.length_append]
    exact Nat.le_add_right_of_le (Nat.mod_le _ _)
  rw [serializeSubscription, List.append_assoc, List.cons_append, List.cons_append, List.cons_append, List.nil_append,
    readSubscription, MessageType.ofCode_code, Option.bind_eq_bind, Option.bind_some, header_length, if_pos fits]
  rfl

/-- A message is read back exactly when its length fits in the header. -/
theorem delimits_iff (m : SubscriptionMessage) :
    Delimits serializeSubscription readSubscription m ↔ m.symbol.length < 2 ^ 16 := by
  constructor
  · intro delimits
    have read := delimits []
    rw [readSubscription_serialize, List.append_nil, Option.some_inj, Prod.mk.injEq] at read
    have left := List.drop_eq_nil_iff.mp read.2
    exact Nat.lt_of_le_of_lt left (Nat.mod_lt _ (by decide))
  · intro short rest
    rw [readSubscription_serialize, Nat.mod_eq_of_lt short, List.take_left, List.drop_left]

/-- Subscription messages can be read by their headers exactly when none of
their symbols takes 2^16 bytes or more. -/
theorem readBack_iff (messages : List SubscriptionMessage) :
    ReadBack messages ↔ ∀ m ∈ messages, m.symbol.length < 2 ^ 16 := by
  constructor
  · intro readBack m member
    exact (delimits_iff m).mp (readBack.alone m member)
  · intro short
    have delimits m member := (delimits_iff m).mpr (short m member)
    exact ⟨delimits, readStream_flatMap serializeSubscription_ne_nil delimits,
      fun m member m' member' => (delimits m member).eq_of_begins (delimits m' member')⟩

/-- The header of a symbol of 2^16 bytes says that it is empty. -/
theorem long_symbol_misread : ¬∀ messages, ReadBack messages := by
  intro claim
  let m : SubscriptionMessage := { symbol := List.replicate (2 ^ 16) 0 }
  have short := (delimits_iff m).mp ((claim [m]).alone m List.mem_cons_self)
  rw [List.length_replicate] at short
  exact absurd short (Nat.lt_irrefl _)

end Stakan.Protocol
