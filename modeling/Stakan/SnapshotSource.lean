import Stakan.Interface

namespace Stakan

/-- The source of test snapshots an order book is built with: a fixed list
that `getSnapshot` goes round. -/
structure TmpSnapshotCreator where
  snapshots : List Snapshot
  currentIndex : UInt64 := 0
  deriving DecidableEq

/-- Unsigned arithmetic throughout: a price below zero wraps around. -/
def generateStaticSnapshots (count : Nat) : List Snapshot :=
  (List.range count).map fun i =>
    let i := UInt64.ofNat i
    { topBids := Vector.ofFn fun j =>
        let j := UInt64.ofNat j
        { id := i * 100 + j, price := 100 - i * 5 - j * 1, quantity := 1000 + i * 100 + j * 10 }
      topAsks := Vector.ofFn fun j =>
        let j := UInt64.ofNat j
        { id := i * 100 + j + 1000, price := 101 + i * 5 + j * 1, quantity := 900 + i * 100 + j * 10 } }

/-- The default arguments of the factory: five static snapshots. -/
def makeTmpSnapshotCreator : TmpSnapshotCreator := ⟨generateStaticSnapshots 5, 0⟩

def TmpSnapshotCreator.getSnapshot (source : TmpSnapshotCreator) : Option Snapshot × TmpSnapshotCreator :=
  if source.snapshots.length = 0 then (none, source)
  else (source.snapshots[source.currentIndex.toNat % source.snapshots.length]?,
    { source with currentIndex := source.currentIndex + 1 })

/-- With at least one snapshot in the list there is always a next one. -/
theorem TmpSnapshotCreator.getSnapshot_next {source : TmpSnapshotCreator} (nonempty : source.snapshots ≠ []) :
    ∃ snapshot, source.snapshots[source.currentIndex.toNat % source.snapshots.length]? = some snapshot ∧
      source.getSnapshot = (some snapshot, { source with currentIndex := source.currentIndex + 1 }) := by
  have positive := List.length_pos_iff.mpr nonempty
  have within := Nat.mod_lt source.currentIndex.toNat positive
  have next := List.getElem?_eq_getElem within
  exact ⟨_, next, by rw [getSnapshot, if_neg positive.ne', next]⟩

end Stakan
