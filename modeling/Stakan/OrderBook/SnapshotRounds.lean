import Mathlib.Data.List.Rotate
import Stakan.Library.Transducer
import Stakan.OrderBook.TopSnapshot

namespace Stakan

/-- One side of a proper book: prices above zero, each strictly before the next. -/
def ProperSide (before : Price → Price → Prop) (orders : List Order) : Prop :=
  (∀ order ∈ orders, 0 < order.price) ∧ (orders.map Order.price).Pairwise before

/-- Bids with falling and asks with rising prices, the best bid below the best ask. -/
structure Snapshot.Proper (s : Snapshot) : Prop where
  bids : ProperSide (fun higher lower => lower < higher) s.topBids.toList
  asks : ProperSide (fun lower higher => lower < higher) s.topAsks.toList
  uncrossed : s.topBids[0].price < s.topAsks[0].price

/-- The prices fall by one from bid to bid and by five from snapshot to
snapshot, and wrap around below zero. The number of snapshots is an `int`. -/
theorem bidPrice_toNat {i j : Nat} (small : i < 2 ^ 31) (within : j < topN) :
    (100 - UInt64.ofNat i * 5 - UInt64.ofNat j * 1 : UInt64).toNat =
      if i * 5 + j ≤ 100 then 100 - i * 5 - j else 2 ^ 64 + 100 - i * 5 - j := by
  unfold topN at within
  simp only [UInt64.toNat_sub, UInt64.toNat_mul, UInt64.toNat_ofNat', UInt64.reduceToNat]
  split <;> omega

theorem askPrice_toNat {i j : Nat} (small : i < 2 ^ 31) (within : j < topN) :
    (101 + UInt64.ofNat i * 5 + UInt64.ofNat j * 1 : UInt64).toNat = 101 + i * 5 + j := by
  unfold topN at within
  simp only [UInt64.toNat_add, UInt64.toNat_mul, UInt64.toNat_ofNat', UInt64.reduceToNat]
  omega

theorem properSide_ofFn {before : Price → Price → Prop} {orders : Fin topN → Order}
    (positive : ∀ j, 0 < (orders j).price) (sorted : ∀ j k, j < k → before (orders j).price (orders k).price) :
    ProperSide before (Vector.ofFn orders).toList := by
  rw [ProperSide, Vector.toList_ofFn, List.map_ofFn, List.pairwise_ofFn]
  exact ⟨List.forall_mem_ofFn_iff.mpr positive, sorted⟩

theorem generateStaticSnapshots_proper {count : Nat} (few : count ≤ 17) (s : Snapshot)
    (member : s ∈ generateStaticSnapshots count) : s.Proper := by
  obtain ⟨i, inside, rfl⟩ := List.mem_map.mp member
  have small : i ≤ 16 := by
    have within := List.mem_range.mp inside
    omega
  have bid : ∀ {j}, j < topN →
      (100 - UInt64.ofNat i * 5 - UInt64.ofNat j * 1 : UInt64).toNat = 100 - i * 5 - j ∧ i * 5 + j < 100 := by
    intro j within
    have above : i * 5 + j < 100 := by
      unfold topN at within
      omega
    rw [bidPrice_toNat (by omega) within, if_pos above.le]
    exact ⟨rfl, above⟩
  have ask {j : Nat} (within : j < topN) := askPrice_toNat (i := i) (by omega) within
  refine ⟨properSide_ofFn (fun j => ?_) fun j k before => ?_, properSide_ofFn (fun j => ?_) fun j k before => ?_, ?_⟩
  · rw [UInt64.lt_iff_toNat_lt, (bid j.isLt).1, UInt64.toNat_zero]
    have above := (bid j.isLt).2
    omega
  · rw [UInt64.lt_iff_toNat_lt, (bid j.isLt).1, (bid k.isLt).1]
    have above := (bid k.isLt).2
    omega
  · rw [UInt64.lt_iff_toNat_lt, ask j.isLt, UInt64.toNat_zero]
    omega
  · rw [UInt64.lt_iff_toNat_lt, ask j.isLt, ask k.isLt]
    omega
  · simp only [Vector.getElem_ofFn]
    rw [UInt64.lt_iff_toNat_lt, (bid (by decide)).1, ask (by decide)]
    omega

/-- What becomes of the prices from the eighteenth test snapshot on: that one
has a bid at zero, and in each the bids below zero wrap around and come to lie
above every ask. -/
structure WrapsAround (i : Nat) (s : Snapshot) : Prop where
  bids : ∀ j (inside : j < topN), s.topBids[j].price.toNat =
    if i * 5 + j ≤ 100 then 100 - i * 5 - j else 2 ^ 64 + 100 - i * 5 - j
  zero : i = 17 → ∃ bid ∈ s.topBids, bid.price = 0
  crossed : ∃ bid ∈ s.topBids, bid.price.toNat = 2 ^ 64 + 81 - i * 5 ∧ ∀ ask ∈ s.topAsks, ask.price < bid.price

theorem generateStaticSnapshots_wrapsAround {count i : Nat} {s : Snapshot}
    (at_i : (generateStaticSnapshots count)[i]? = some s) (late : 17 ≤ i) (small : i < 2 ^ 31) : WrapsAround i s := by
  obtain ⟨within, rfl⟩ := List.getElem?_eq_some_iff.mp at_i
  simp only [generateStaticSnapshots, List.getElem_map, List.getElem_range]
  have bids : ∀ j (inside : j < topN), (100 - UInt64.ofNat i * 5 - UInt64.ofNat j * 1 : UInt64).toNat =
      if i * 5 + j ≤ 100 then 100 - i * 5 - j else 2 ^ 64 + 100 - i * 5 - j := fun j => bidPrice_toNat small
  refine ⟨fun j inside => ?_, ?_, ?_⟩
  · rw [Vector.getElem_ofFn]
    exact bids j inside
  · rintro rfl
    exact ⟨_, Vector.mem_ofFn.mpr ⟨⟨15, by decide⟩, rfl⟩, rfl⟩
  · refine ⟨_, Vector.mem_ofFn.mpr ⟨⟨19, by decide⟩, rfl⟩, ?_, fun ask member => ?_⟩
    · rw [bids 19 (by decide), if_neg (by omega)]
      omega
    · obtain ⟨j, rfl⟩ := Vector.mem_ofFn.mp member
      have below := askPrice_toNat small j.isLt
      have inside := j.isLt
      unfold topN at inside
      rw [UInt64.lt_iff_toNat_lt, below, bids 19 (by decide), if_neg (by omega)]
      omega

/-- The test snapshots are those of a proper book up to the seventeenth. After
that prices wrap around. -/
theorem generateStaticSnapshots_proper_iff (count : Nat) :
    ((∀ s ∈ generateStaticSnapshots count, s.Proper) ↔ count ≤ 17) ∧
      ∀ i s, (generateStaticSnapshots count)[i]? = some s → 17 ≤ i → i < 2 ^ 31 → WrapsAround i s := by
  refine ⟨⟨fun proper => ?_, generateStaticSnapshots_proper⟩, fun i s => generateStaticSnapshots_wrapsAround⟩
  by_contra many
  have inside : 17 < (generateStaticSnapshots count).length := by
    rw [generateStaticSnapshots, List.length_map, List.length_range]
    omega
  have here := List.getElem?_eq_getElem inside
  obtain ⟨bid, member, zero⟩ := (generateStaticSnapshots_wrapsAround here le_rfl (by decide)).zero rfl
  have positive := (proper _ (List.mem_of_getElem? here)).bids.1 bid (Vector.mem_toList_iff.mpr member)
  rw [zero] at positive
  exact absurd positive (by decide)

namespace OrderBook

/-- A call that changes the book, or a look at its top. -/
inductive Visit
  | change (op : BookOp)
  | top

def Visit.op : Visit → Option BookOp
  | change op => some op
  | top => none

/-- A visit, with the snapshot that it shows. -/
def visit (book : OrderBook) : Visit → Option (OrderBook × List Snapshot)
  | .change op => some (book.step op, [])
  | .top => book.getTopSnapshot.map fun shown => (shown.2, [shown.1])

/-- The snapshots shown are those of the list in turn, from the place where
the counter stands, which wraps around. -/
def InTurn (source : TmpSnapshotCreator) (shown : List Snapshot) : Prop :=
  ∀ n snapshot, shown[n]? = some snapshot →
    source.snapshots[(source.currentIndex.toNat + n) % 2 ^ 64 % source.snapshots.length]? = some snapshot

theorem InTurn.wraps {source : TmpSnapshotCreator} {snapshot : Snapshot} {shown : List Snapshot}
    (here : source.snapshots[source.currentIndex.toNat % source.snapshots.length]? = some snapshot)
    (later : InTurn { source with currentIndex := source.currentIndex + 1 } shown) : InTurn source (snapshot :: shown) := by
  intro n other at_n
  cases n with
  | zero =>
    obtain rfl := Option.some.inj at_n
    rwa [Nat.add_zero, Nat.mod_eq_of_lt source.currentIndex.toNat_lt]
  | succ n =>
    have next := later n other at_n
    have place : ((source.currentIndex + 1).toNat + n) % 2 ^ 64 = (source.currentIndex.toNat + (n + 1)) % 2 ^ 64 := by
      rw [UInt64.toNat_add, Nat.mod_add_mod, UInt64.toNat_one, Nat.add_assoc, Nat.add_comm 1 n]
    rwa [place] at next

/-- As long as there are snapshots there is a next one. -/
theorem getTopSnapshot_next {book : OrderBook} (nonempty : book.snapshotSource.snapshots ≠ []) :
    ∃ snapshot, book.snapshotSource.snapshots[book.snapshotSource.currentIndex.toNat %
        book.snapshotSource.snapshots.length]? = some snapshot ∧
      book.getTopSnapshot = some (snapshot, { book with
        snapshotSource := { book.snapshotSource with currentIndex := book.snapshotSource.currentIndex + 1 } }) := by
  obtain ⟨snapshot, here, next⟩ := TmpSnapshotCreator.getSnapshot_next nonempty
  exact ⟨snapshot, here, by simp only [getTopSnapshot, next, Option.map_some]⟩

theorem foldl_step_withSource (book : OrderBook) (source : TmpSnapshotCreator) (ops : List BookOp) :
    ops.foldl step { book with snapshotSource := source } =
      { ops.foldl step book with snapshotSource := source } := by
  induction ops generalizing book with
  | nil => rfl
  | cons op ops ih =>
    have first : step { book with snapshotSource := source } op = { book.step op with snapshotSource := source } := by
      cases op <;> rfl
    rw [List.foldl_cons, first, ih, List.foldl_cons]

/-- Whatever else is done to the book, its source goes round its list, and
the book is as if nobody had looked. -/
theorem run_visits (book : OrderBook) (nonempty : book.snapshotSource.snapshots ≠ []) (visits : List Visit) :
    ∃ last shown, Transducer.run visit book visits = some (last, shown) ∧
      shown.length + (visits.filterMap Visit.op).length = visits.length ∧ InTurn book.snapshotSource shown ∧
      last.bids = ((visits.filterMap Visit.op).foldl step book).bids ∧
      last.asks = ((visits.filterMap Visit.op).foldl step book).asks := by
  induction visits generalizing book with
  | nil => exact ⟨book, [], rfl, rfl, fun n snapshot at_n => by simp at at_n, rfl, rfl⟩
  | cons first visits ih =>
    cases first with
    | change op =>
      have source := step_snapshotSource book op
      obtain ⟨last, shown, ran, count, turn, bids, asks⟩ := ih (book.step op) (by rwa [source])
      refine ⟨last, shown, ?_, ?_, source ▸ turn, bids, asks⟩
      · rw [Transducer.run, visit, Option.bind_some, ran]
        rfl
      · rw [List.filterMap_cons, List.length_cons, ← count]
        rfl
    | top =>
      obtain ⟨snapshot, here, called⟩ := getTopSnapshot_next nonempty
      obtain ⟨last, shown, ran, count, turn, bids, asks⟩ := ih { book with
        snapshotSource := { book.snapshotSource with currentIndex := book.snapshotSource.currentIndex + 1 } } nonempty
      rw [foldl_step_withSource] at bids asks
      refine ⟨last, snapshot :: shown, ?_, ?_, turn.wraps here, bids, asks⟩
      · rw [Transducer.run, visit, called, Option.map_some, Option.bind_some, ran]
        rfl
      · rw [List.length_cons, List.length_cons, ← count]
        have same : (Visit.top :: visits).filterMap Visit.op = visits.filterMap Visit.op := rfl
        rw [same]
        omega

/-- What the looks at a new book's top show: the five test snapshots in turn. -/
structure ShowsRounds (visits : List Visit) (last : OrderBook) (shown : List Snapshot) : Prop where
  count : shown.length + (visits.filterMap Visit.op).length = visits.length
  inTurn : InTurn makeTmpSnapshotCreator shown
  proper : ∀ s ∈ shown, s.Proper
  fair : ∀ n, n + 5 ≤ shown.length → n % 2 ^ 64 + 5 ≤ 2 ^ 64 →
    ((shown.drop n).take 5).Perm (generateStaticSnapshots 5)
  bids : last.bids = (run (visits.filterMap Visit.op)).bids
  asks : last.asks = (run (visits.filterMap Visit.op)).asks

/-- Whatever is done to a new book in between, looking at its top shows the
test snapshots in turn, any five in a row all of them unless the counter
wraps around between them, and changes nothing in the book. -/
theorem run_showsRounds (visits : List Visit) :
    ∃ last shown, Transducer.run visit {} visits = some (last, shown) ∧ ShowsRounds visits last shown := by
  have length : (generateStaticSnapshots 5).length = 5 := by simp [generateStaticSnapshots]
  have nonempty : makeTmpSnapshotCreator.snapshots ≠ [] := by
    refine List.ne_nil_of_length_pos ?_
    rw [makeTmpSnapshotCreator, length]
    decide
  obtain ⟨last, shown, ran, count, turn, bids, asks⟩ := run_visits {} nonempty visits
  refine ⟨last, shown, ran, count, turn, fun s member => ?_, fun n enough apart => ?_, bids, asks⟩
  · obtain ⟨n, at_n⟩ := List.mem_iff_getElem?.mp member
    exact generateStaticSnapshots_proper (by decide) s (List.mem_of_getElem? (turn n s at_n))
  · have window : (shown.drop n).take 5 = (generateStaticSnapshots 5).rotate (n % 2 ^ 64) := by
      refine List.ext_getElem (by simp only [List.length_take, List.length_drop, List.length_rotate, length]; omega) ?_
      intro k inside _
      have small : k < 5 := (List.length_take_le 5 _).trans_lt' inside
      have here := turn (n + k) _ (List.getElem?_eq_getElem (by omega))
      have place : (0 + (n + k)) % 2 ^ 64 = k + n % 2 ^ 64 := by omega
      simp only [makeTmpSnapshotCreator, UInt64.toNat_zero, place, length] at here
      rw [List.getElem_take, List.getElem_drop, List.getElem_rotate]
      simp only [length]
      exact ((List.getElem?_eq_some_iff.mp here).2).symm
    rw [window]
    exact List.rotate_perm _ _

end OrderBook

end Stakan
