import Mathlib.Data.List.Basic
import Mathlib.Tactic.Ring

namespace LittleEndian

/-- The `count` low bytes of a number, the lowest first. -/
def natBytes : Nat → Nat → List UInt8
  | 0, _ => []
  | count + 1, n => UInt8.ofNat n :: natBytes count (n / 256)

def natOfBytes : List UInt8 → Nat
  | [] => 0
  | byte :: bytes => byte.toNat + 256 * natOfBytes bytes

/-- The object representation of a 64-bit word on a little-endian host. -/
def wordBytes (word : UInt64) : List UInt8 := natBytes 8 word.toNat

def wordOfBytes (bytes : List UInt8) : UInt64 := UInt64.ofNat (natOfBytes bytes)

@[simp] theorem natBytes_length (count n : Nat) : (natBytes count n).length = count := by
  induction count generalizing n with
  | zero => rfl
  | succ count ih => simp [natBytes, ih]

@[simp] theorem wordBytes_length (word : UInt64) : (wordBytes word).length = 8 := natBytes_length 8 _

theorem natOfBytes_natBytes (count n : Nat) : natOfBytes (natBytes count n) = n % 256 ^ count := by
  induction count generalizing n with
  | zero => simp [natBytes, natOfBytes, Nat.mod_one]
  | succ count ih =>
    have byte : (UInt8.ofNat n).toNat = n % 256 := by simp
    rw [natBytes, natOfBytes, ih, byte, pow_succ, mul_comm (256 ^ count) 256, Nat.mod_mul]

theorem natBytes_natOfBytes (bytes : List UInt8) : natBytes bytes.length (natOfBytes bytes) = bytes := by
  induction bytes with
  | nil => rfl
  | cons byte bytes ih =>
    have small := byte.toNat_lt
    have low : UInt8.ofNat (byte.toNat + 256 * natOfBytes bytes) = byte := by
      apply UInt8.toNat_inj.mp
      simp only [UInt8.toNat_ofNat']
      omega
    have high : (byte.toNat + 256 * natOfBytes bytes) / 256 = natOfBytes bytes := by omega
    rw [List.length_cons, natOfBytes, natBytes, low, high, ih]

theorem natOfBytes_lt (bytes : List UInt8) : natOfBytes bytes < 256 ^ bytes.length := by
  induction bytes with
  | nil => simp [natOfBytes]
  | cons byte bytes ih =>
    have small := byte.toNat_lt
    rw [natOfBytes, List.length_cons, pow_succ]
    omega

theorem wordOfBytes_wordBytes (word : UInt64) : wordOfBytes (wordBytes word) = word := by
  have small := word.toNat_lt
  rw [wordOfBytes, wordBytes, natOfBytes_natBytes, Nat.mod_eq_of_lt (by omega), UInt64.ofNat_toNat]

theorem wordBytes_wordOfBytes {bytes : List UInt8} (eight : bytes.length = 8) :
    wordBytes (wordOfBytes bytes) = bytes := by
  have small := natOfBytes_lt bytes
  have value : (wordOfBytes bytes).toNat = natOfBytes bytes := by
    rw [wordOfBytes, UInt64.toNat_ofNat', Nat.mod_eq_of_lt (by rw [eight] at small; omega)]
  rw [wordBytes, value, ← eight, natBytes_natOfBytes]

end LittleEndian
