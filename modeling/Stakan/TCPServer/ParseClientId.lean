import Stakan.ClientList.Basic

namespace Stakan.TCPServer

/-- An element of the frame; an index outside it is undefined behaviour. -/
def byteAt (frame : List UInt8) (i : Nat) : Except Failure UInt8 :=
  match frame[i]? with
  | some c => .ok c
  | none => .error .undefinedBehaviour

/-- A difference of two sizes, refused where the unsigned one would wrap. -/
def sizeSub (a b : Nat) : Except Failure Nat :=
  if b ≤ a then .ok (a - b) else .error .undefinedBehaviour

/-- The end of the frame without the line ends and spaces before it. -/
def trimEnd (frame : List UInt8) : Nat → Except Failure Nat
  | 0 => .ok 0
  | last + 1 => do
    let c ← byteAt frame last
    if c = byte '\n' ∨ c = byte '\r' ∨ c = byte ' ' then trimEnd frame last else return last + 1

/-- The first position from `beg` on without a space, among the `left` next ones. -/
def skipSpaces (frame : List UInt8) : (beg left : Nat) → Except Failure Nat
  | beg, 0 => .ok beg
  | beg, left + 1 => do
    if (← byteAt frame beg) = byte ' ' then skipSpaces frame (beg + 1) left else return beg

def kHello : List UInt8 := bytesOf "HELLO"

def matchesFrom (frame : List UInt8) : List UInt8 → Nat → Except Failure Bool
  | [], _ => .ok true
  | k :: rest, i => do
    if (← byteAt frame i) = k then matchesFrom frame rest (i + 1) else return false

/-- The number written in the `left` bytes from `i` on, modulo 2^64, or 0 where
one of them is no digit. -/
def readDigits (frame : List UInt8) : (i left : Nat) → ClientId → Except Failure ClientId
  | _, 0, id => .ok id
  | i, left + 1, id => do
    let c ← byteAt frame i
    if c < byte '0' ∨ byte '9' < c then return 0
    else readDigits frame (i + 1) left (id * 10 + (c - byte '0').toUInt64)

def parseClientId (frame : List UInt8) : Except Failure ClientId := do
  if frame.isEmpty then return 0
  let finish ← trimEnd frame frame.length
  let beg ← skipSpaces frame 0 finish
  if beg ≥ finish then return 0
  if (← sizeSub finish beg) < kHello.length + 2 then return 0
  if !(← matchesFrom frame kHello beg) then return 0
  if (← byteAt frame (beg + kHello.length)) ≠ byte ' ' then return 0
  let digits := beg + kHello.length + 1
  readDigits frame digits (← sizeSub finish digits) 0

example : parseClientId (bytesOf "  HELLO 120 \r\n") = .ok 120 := by decide
example : parseClientId (bytesOf "HELLO12\n") = .ok 0 := by decide

theorem byteAt_ok {frame : List UInt8} {i : Nat} (within : i < frame.length) : byteAt frame i = .ok frame[i] := by
  simp [byteAt, List.getElem?_eq_getElem within]

theorem trimEnd_ok (frame : List UInt8) (n : Nat) (within : n ≤ frame.length) :
    ∃ finish, trimEnd frame n = .ok finish ∧ finish ≤ n := by
  induction n with
  | zero => exact ⟨0, rfl, le_rfl⟩
  | succ last ih =>
    obtain ⟨finish, trimmed, bound⟩ := ih (by omega)
    have inside : last < frame.length := by omega
    simp only [trimEnd, byteAt_ok inside, bind, Except.bind]
    split
    next => exact ⟨finish, trimmed, by omega⟩
    next => exact ⟨last + 1, rfl, le_rfl⟩

theorem skipSpaces_ok (frame : List UInt8) (left beg : Nat) (within : beg + left ≤ frame.length) :
    ∃ first, skipSpaces frame beg left = .ok first := by
  induction left generalizing beg with
  | zero => exact ⟨beg, rfl⟩
  | succ left ih =>
    have inside : beg < frame.length := by omega
    simp only [skipSpaces, byteAt_ok inside, bind, Except.bind]
    split
    next => exact ih (beg + 1) (by omega)
    next => exact ⟨beg, rfl⟩

theorem matchesFrom_ok (frame : List UInt8) (word : List UInt8) (i : Nat) (within : i + word.length ≤ frame.length) :
    ∃ found, matchesFrom frame word i = .ok found := by
  induction word generalizing i with
  | nil => exact ⟨true, rfl⟩
  | cons k rest ih =>
    rw [List.length_cons] at within
    have inside : i < frame.length := by omega
    simp only [matchesFrom, byteAt_ok inside, bind, Except.bind]
    split
    next => exact ih (i + 1) (by omega)
    next => exact ⟨false, rfl⟩

theorem readDigits_ok (frame : List UInt8) (left i : Nat) (id : ClientId) (within : i + left ≤ frame.length) :
    ∃ number, readDigits frame i left id = .ok number := by
  induction left generalizing i id with
  | zero => exact ⟨id, rfl⟩
  | succ left ih =>
    have inside : i < frame.length := by omega
    simp only [readDigits, byteAt_ok inside, bind, Except.bind]
    split
    next => exact ⟨0, rfl⟩
    next => exact ih (i + 1) _ (by omega)

/-- No frame makes the parser read outside it or wrap a length. -/
theorem parseClientId_ok (frame : List UInt8) : ∃ id, parseClientId frame = .ok id := by
  obtain ⟨finish, trimmed, bound⟩ := trimEnd_ok frame frame.length (le_refl frame.length)
  obtain ⟨beg, skipped⟩ := skipSpaces_ok frame finish 0 (by omega)
  simp only [parseClientId, trimmed, skipped, bind, Except.bind]
  by_cases empty : frame.isEmpty
  · exact ⟨0, by simp [empty, pure, Except.pure]⟩
  by_cases blank : beg ≥ finish
  · exact ⟨0, by simp [empty, blank, pure, Except.pure]⟩
  have size : sizeSub finish beg = .ok (finish - beg) := if_pos (by omega)
  have hello : kHello.length = 5 := rfl
  by_cases short : finish - beg < kHello.length + 2
  · exact ⟨0, by simp [empty, blank, size, short, pure, Except.pure]⟩
  obtain ⟨found, matched⟩ := matchesFrom_ok frame kHello beg (by omega)
  have inside : beg + kHello.length < frame.length := by omega
  have rest : sizeSub finish (beg + kHello.length + 1) = .ok (finish - (beg + kHello.length + 1)) := if_pos (by omega)
  obtain ⟨number, read⟩ := readDigits_ok frame (finish - (beg + kHello.length + 1))
    (beg + kHello.length + 1) 0 (by omega)
  simp only [empty, blank, size, short, matched, byteAt_ok inside, rest, read, pure, Except.pure]
  cases found <;> by_cases space : frame[beg + kHello.length] = byte ' ' <;> simp [space]

end Stakan.TCPServer
