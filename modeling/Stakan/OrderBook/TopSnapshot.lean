import Stakan.OrderBook.Invariant

namespace Stakan.OrderBook

/-- What `GetTopSnapshot` is to show of one side: its first orders in the
order of the comparator, as many as fit, and default orders in the rest. -/
def topOrders {comparator : Order → Order → Bool} (side : BookSide comparator) : List Order :=
  side.orders.ordered.take topN ++ List.replicate (topN - side.orders.ordered.length) ({} : Order)

/-- The snapshot shows the top of the book, and a second call with nothing in
between shows it again. -/
structure ShowsTop (book : OrderBook) : Prop where
  shown : ∃ snapshot after, book.getTopSnapshot = some (snapshot, after) ∧
    snapshot.topBids.toList = topOrders book.bids ∧ snapshot.topAsks.toList = topOrders book.asks
  repeated : ∀ snapshot after, book.getTopSnapshot = some (snapshot, after) →
    ∃ again, after.getTopSnapshot = some (snapshot, again)

/-- No call touches the snapshot source. -/
theorem step_snapshotSource (book : OrderBook) (op : BookOp) :
    (book.step op).snapshotSource = book.snapshotSource := by
  cases op <;> rfl

theorem run_snapshotSource (ops : List BookOp) : (run ops).snapshotSource = makeTmpSnapshotCreator := by
  induction ops using List.reverseRecOn with
  | nil => rfl
  | append_singleton ops op ih => rw [run_snoc, step_snapshotSource, ih]

/-- The snapshots come from the source's list in turn, whatever rests in the book. -/
theorem getTopSnapshot_at {book : OrderBook} {i : Nat} {snapshot : Snapshot}
    (source : book.snapshotSource = ⟨generateStaticSnapshots 5, UInt64.ofNat i⟩) (small : i < 5)
    (at_i : (generateStaticSnapshots 5)[i]? = some snapshot) :
    book.getTopSnapshot = some (snapshot,
      { book with snapshotSource := ⟨generateStaticSnapshots 5, UInt64.ofNat i + 1⟩ }) := by
  have length : (generateStaticSnapshots 5).length = 5 := by simp [generateStaticSnapshots]
  have index : (UInt64.ofNat i).toNat % (generateStaticSnapshots 5).length = i := by
    rw [length, UInt64.toNat_ofNat']
    omega
  have nonempty : (generateStaticSnapshots 5).length ≠ 0 := by rw [length]; decide
  simp only [getTopSnapshot, TmpSnapshotCreator.getSnapshot, source, if_neg nonempty, index, at_i, Option.map_some]

/-- The first two snapshots of every book, with the orders they show first. -/
theorem getTopSnapshot_run (ops : List BookOp) :
    ∃ first second after again, (run ops).getTopSnapshot = some (first, after) ∧
      after.getTopSnapshot = some (second, again) ∧
      first.topBids.toList[0]? = some ⟨0, 100, 1000⟩ ∧ second.topBids.toList[0]? = some ⟨100, 95, 1100⟩ := by
  have length : (generateStaticSnapshots 5).length = 5 := by simp [generateStaticSnapshots]
  have first := getTopSnapshot_at (i := 0) (run_snapshotSource ops) (by decide)
    (List.getElem?_eq_getElem (by rw [length]; decide))
  refine ⟨_, _, _, _, first, getTopSnapshot_at (i := 1) rfl (by decide)
    (List.getElem?_eq_getElem (by rw [length]; decide)), ?_, ?_⟩
  · simp [generateStaticSnapshots, topN]
  · simp [generateStaticSnapshots, topN]

/-- No book shows its top: the second snapshot is never the first one. -/
theorem run_not_showsTop (ops : List BookOp) : ¬ShowsTop (run ops) := by
  intro shows
  obtain ⟨first, second, after, again, called, repeated, firstBid, secondBid⟩ := getTopSnapshot_run ops
  obtain ⟨_, same⟩ := shows.repeated first after called
  obtain ⟨rfl, _⟩ := Prod.mk.inj (Option.some.inj (same.symm.trans repeated))
  rw [firstBid] at secondBid
  contradiction

/-- Even one resting order on each side is not shown. -/
theorem resting_orders_not_shown : ¬∀ ops, ShowsTop (run ops) := by
  intro claim
  obtain ⟨snapshot, after, called, bids, _⟩ := (claim [.newBid ⟨1, 100, 10⟩, .newAsk ⟨2, 105, 5⟩]).shown
  obtain ⟨first, _, _, _, first_call, _, firstBid, _⟩ := getTopSnapshot_run [.newBid ⟨1, 100, 10⟩, .newAsk ⟨2, 105, 5⟩]
  obtain ⟨rfl, _⟩ := Prod.mk.inj (Option.some.inj (called.symm.trans first_call))
  have top : (topOrders (run [.newBid ⟨1, 100, 10⟩, .newAsk ⟨2, 105, 5⟩]).bids)[0]? = some ⟨1, 100, 10⟩ := by decide
  rw [bids, top] at firstBid
  contradiction

end Stakan.OrderBook
