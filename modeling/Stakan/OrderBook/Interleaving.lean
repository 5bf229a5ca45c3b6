import Stakan.Library.LabelledRun
import Stakan.OrderBook.MarketData

namespace Stakan
open LabelledRun
open OrderBook (kEmptyOrder)

/-- Where a `generateMDUpdate` call stands, with what it has read so far.
Each constructor but the first follows one atomic read. -/
inductive MDCall
  | start
  | gotBestBid (bestBid : Order)
  | gotBests (bestBid bestAsk : Order)
  | gotBidLevel (bestBid bestAsk : Order) (bid : PricesInfo)
  | gotLevels (bestBid bestAsk : Order) (bid ask : PricesInfo)
  | gotTotalBid (bestBid bestAsk : Order) (bid ask : PricesInfo) (totalBid : Quantity)
  | done (result : Option MDUpdate)
  deriving DecidableEq

/-- The next read of the call on the book it meets. -/
def MDCall.read (book : OrderBook) : MDCall → Option MDCall
  | .start => some (.gotBestBid book.bestBid.value)
  | .gotBestBid bestBid =>
    let bestAsk := book.bestAsk.value
    if bestBid == kEmptyOrder && bestAsk == kEmptyOrder then some (.done none)
    else some (.gotBests bestBid bestAsk)
  | .gotBests bestBid bestAsk =>
    some (.gotBidLevel bestBid bestAsk (book.getPricesBidsInfo bestBid.price).value)
  | .gotBidLevel bestBid bestAsk bid =>
    some (.gotLevels bestBid bestAsk bid (book.getPricesAsksInfo bestAsk.price).value)
  | .gotLevels bestBid bestAsk bid ask => some (.gotTotalBid bestBid bestAsk bid ask book.bids.total)
  | .gotTotalBid bestBid bestAsk bid ask totalBid =>
    some (.done (some
      { bestBidPrice := bestBid.price
        bestBidQty := bid.quantity
        bestAskPrice := bestAsk.price
        bestAskQty := ask.quantity
        totalBidQty := totalBid
        totalAskQty := book.asks.total }))
  | .done _ => none

/-- One update call among the calls of other threads. The books that existed
since the call began are remembered. -/
structure MDRun where
  book : OrderBook
  call : MDCall
  visited : List OrderBook

inductive MDEvent
  | read
  | op (op : BookOp)

namespace MDRun

def begin (book : OrderBook) : MDRun := ⟨book, .start, [book]⟩

/-- A read advances the call, a call of another thread changes the book. The
run is over when the update call has returned. -/
def step (s : MDRun) : MDEvent → Option MDRun
  | .read => (s.call.read s.book).map fun call => { s with call }
  | .op op => match s.call with
    | .done _ => none
    | call => some ⟨s.book.step op, call, s.book.step op :: s.visited⟩

/-- The value returned is that of an uninterrupted call on a book that
existed during the call. -/
def Linearizable (s : MDRun) : Prop :=
  ∀ result, s.call = .done result → ∃ book ∈ s.visited, book.generateMDUpdate.value = result

end MDRun

namespace OrderBook

def bidPrice (book : OrderBook) : Price := book.bestBid.value.price
def askPrice (book : OrderBook) : Price := book.bestAsk.value.price
def bidLevel (price : Price) (book : OrderBook) : Quantity := (book.getPricesBidsInfo price).value.quantity
def askLevel (price : Price) (book : OrderBook) : Quantity := (book.getPricesAsksInfo price).value.quantity

theorem WellFormed.bestBid_eq_empty {book : OrderBook} (wf : book.WellFormed) :
    book.bestBid.value = kEmptyOrder ↔ book.bidPrice = 0 := by
  constructor
  · intro empty
    rw [bidPrice, empty]
    rfl
  · intro zero
    rcases wf.bestBid_price with ⟨empty, _⟩ | ⟨⟨o, member, price⟩, _⟩
    · exact (wf.bids.best_eq_empty _).mpr empty
    · exact absurd (price.trans zero) (wf.bids.valid o member).1

theorem WellFormed.bestAsk_eq_empty {book : OrderBook} (wf : book.WellFormed) :
    book.bestAsk.value = kEmptyOrder ↔ book.askPrice = 0 := by
  constructor
  · intro empty
    rw [askPrice, empty]
    rfl
  · intro zero
    rcases wf.bestAsk_price with ⟨empty, _⟩ | ⟨⟨o, member, price⟩, _⟩
    · exact (wf.asks.best_eq_empty _).mpr empty
    · exact absurd (price.trans zero) (wf.asks.valid o member).1

/-- An uninterrupted call depends on six figures of the book only. -/
theorem WellFormed.generateMDUpdate_figures {book : OrderBook} (wf : book.WellFormed) :
    book.generateMDUpdate.value =
      if book.bidPrice = 0 ∧ book.askPrice = 0 then none
      else some ⟨book.bidPrice, book.bidLevel book.bidPrice, book.askPrice, book.askLevel book.askPrice,
        book.bids.total, book.asks.total⟩ := by
  rw [generateMDUpdate_value]
  simp only [wf.bestBid_eq_empty, wf.bestAsk_eq_empty]
  rfl

end OrderBook

namespace MDCall

/-- Every figure the call has read is the same in both books. -/
def ReadKept (b b' : OrderBook) : MDCall → Prop
  | start => True
  | gotBestBid _ => b'.bidPrice = b.bidPrice
  | gotBests _ _ => b'.bidPrice = b.bidPrice ∧ b'.askPrice = b.askPrice
  | gotBidLevel bestBid _ _ =>
    b'.bidPrice = b.bidPrice ∧ b'.askPrice = b.askPrice ∧ b'.bidLevel bestBid.price = b.bidLevel bestBid.price
  | gotLevels bestBid bestAsk _ _ =>
    b'.bidPrice = b.bidPrice ∧ b'.askPrice = b.askPrice ∧ b'.bidLevel bestBid.price = b.bidLevel bestBid.price ∧
      b'.askLevel bestAsk.price = b.askLevel bestAsk.price
  | gotTotalBid bestBid bestAsk _ _ _ =>
    b'.bidPrice = b.bidPrice ∧ b'.askPrice = b.askPrice ∧ b'.bidLevel bestBid.price = b.bidLevel bestBid.price ∧
      b'.askLevel bestAsk.price = b.askLevel bestAsk.price ∧ b'.bids.total = b.bids.total
  | done _ => True

/-- Every figure the call has yet to read is the same in both books. A level
is read at the price already read, or at the best price if none is. -/
def PendingKept (b b' : OrderBook) : MDCall → Prop
  | start =>
    b'.bidPrice = b.bidPrice ∧ b'.askPrice = b.askPrice ∧ b'.bidLevel b.bidPrice = b.bidLevel b.bidPrice ∧
      b'.askLevel b.askPrice = b.askLevel b.askPrice ∧ b'.bids.total = b.bids.total ∧ b'.asks.total = b.asks.total
  | gotBestBid bestBid =>
    b'.askPrice = b.askPrice ∧ b'.bidLevel bestBid.price = b.bidLevel bestBid.price ∧
      b'.askLevel b.askPrice = b.askLevel b.askPrice ∧ b'.bids.total = b.bids.total ∧ b'.asks.total = b.asks.total
  | gotBests bestBid bestAsk =>
    b'.bidLevel bestBid.price = b.bidLevel bestBid.price ∧ b'.askLevel bestAsk.price = b.askLevel bestAsk.price ∧
      b'.bids.total = b.bids.total ∧ b'.asks.total = b.asks.total
  | gotBidLevel _ bestAsk _ =>
    b'.askLevel bestAsk.price = b.askLevel bestAsk.price ∧ b'.bids.total = b.bids.total ∧
      b'.asks.total = b.asks.total
  | gotLevels _ _ _ _ => b'.bids.total = b.bids.total ∧ b'.asks.total = b.asks.total
  | gotTotalBid _ _ _ _ _ => b'.asks.total = b.asks.total
  | done _ => True

/-- What the call has read is what it would have read on `b`. -/
def Agrees (b : OrderBook) : MDCall → Prop
  | start => True
  | gotBestBid bestBid => Best bestBid b.bidPrice
  | gotBests bestBid bestAsk => Bests bestBid bestAsk
  | gotBidLevel bestBid bestAsk bid => Bests bestBid bestAsk ∧ bid.quantity = b.bidLevel b.bidPrice
  | gotLevels bestBid bestAsk bid ask =>
    Bests bestBid bestAsk ∧ bid.quantity = b.bidLevel b.bidPrice ∧ ask.quantity = b.askLevel b.askPrice
  | gotTotalBid bestBid bestAsk bid ask totalBid =>
    Bests bestBid bestAsk ∧ bid.quantity = b.bidLevel b.bidPrice ∧ ask.quantity = b.askLevel b.askPrice ∧
      totalBid = b.bids.total
  | done result => result = b.generateMDUpdate.value
where
  /-- An order read as the best of a side whose best price is `price`. -/
  Best (order : Order) (price : Price) : Prop := order.price = price ∧ (order = kEmptyOrder ↔ price = 0)
  Bests (bestBid bestAsk : Order) : Prop :=
    Best bestBid b.bidPrice ∧ Best bestAsk b.askPrice ∧ ¬(b.bidPrice = 0 ∧ b.askPrice = 0)

variable {b book : OrderBook}

theorem pendingKept_refl (b : OrderBook) (call : MDCall) : call.PendingKept b b := by
  cases call <;> simp [PendingKept]

theorem pendingKept_trans {book' : OrderBook} {call : MDCall} (first : call.PendingKept b book)
    (second : call.PendingKept book book') : call.PendingKept b book' := by
  cases call <;> simp_all [PendingKept]

/-- A call of another thread that keeps the figures already read keeps them right. -/
theorem Agrees.kept {book' : OrderBook} {call : MDCall} (agrees : call.Agrees book)
    (kept : call.ReadKept book book') (running : ∀ result, call ≠ .done result) : call.Agrees book' := by
  cases call with
  | start => trivial
  | done result => exact absurd rfl (running result)
  | gotBestBid bestBid => simpa only [Agrees, show book'.bidPrice = book.bidPrice from kept] using agrees
  | gotBests bestBid bestAsk =>
    obtain ⟨bid, ask⟩ := kept
    simpa only [Agrees, Agrees.Bests, bid, ask] using agrees
  | gotBidLevel bestBid bestAsk info =>
    obtain ⟨bid, ask, level⟩ := kept
    rw [agrees.1.1.1] at level
    simpa only [Agrees, Agrees.Bests, bid, ask, level] using agrees
  | gotLevels bestBid bestAsk info info' =>
    obtain ⟨bid, ask, level, level'⟩ := kept
    rw [agrees.1.1.1] at level
    rw [agrees.1.2.1.1] at level'
    simpa only [Agrees, Agrees.Bests, bid, ask, level, level'] using agrees
  | gotTotalBid bestBid bestAsk info info' total =>
    obtain ⟨bid, ask, level, level', totalKept⟩ := kept
    rw [agrees.1.1.1] at level
    rw [agrees.1.2.1.1] at level'
    simpa only [Agrees, Agrees.Bests, bid, ask, level, level', totalKept] using agrees

/-- A read on a book whose pending figures are those of `b` reads what it
would have read on `b`, and leaves fewer figures pending. -/
theorem Agrees.read {call next : MDCall} (agrees : call.Agrees b) (wf : b.WellFormed)
    (wf' : book.WellFormed) (pending : call.PendingKept b book) (moved : call.read book = some next) :
    next.Agrees b ∧ next.PendingKept b book := by
  cases call with
  | start =>
    cases Option.some.inj moved
    obtain ⟨bid, rest⟩ := pending
    have best : Agrees.Best book.bestBid.value b.bidPrice := ⟨bid, by rw [wf'.bestBid_eq_empty, bid]⟩
    refine ⟨best, ?_⟩
    simpa only [PendingKept, best.1] using rest
  | gotBestBid bestBid =>
    obtain ⟨ask, rest⟩ := pending
    have best : Agrees.Best book.bestAsk.value b.askPrice := ⟨ask, by rw [wf'.bestAsk_eq_empty, ask]⟩
    simp only [MDCall.read, Bool.and_eq_true, beq_iff_eq, best.2, agrees.2] at moved
    split at moved
    next empty =>
      cases Option.some.inj moved
      exact ⟨by rw [Agrees, wf.generateMDUpdate_figures, if_pos empty], trivial⟩
    next occupied =>
      cases Option.some.inj moved
      refine ⟨⟨agrees, best, occupied⟩, ?_⟩
      simpa only [PendingKept, best.1] using rest
  | gotBests bestBid bestAsk =>
    cases Option.some.inj moved
    obtain ⟨level, rest⟩ := pending
    refine ⟨⟨agrees, ?_⟩, rest⟩
    rw [← agrees.1.1]
    exact level
  | gotBidLevel bestBid bestAsk info =>
    cases Option.some.inj moved
    obtain ⟨level, rest⟩ := pending
    refine ⟨⟨agrees.1, agrees.2, ?_⟩, rest⟩
    rw [← agrees.1.2.1.1]
    exact level
  | gotLevels bestBid bestAsk info info' =>
    cases Option.some.inj moved
    exact ⟨⟨agrees.1, agrees.2.1, agrees.2.2, pending.1⟩, pending.2⟩
  | gotTotalBid bestBid bestAsk info info' total =>
    cases Option.some.inj moved
    obtain ⟨⟨bid, ask, occupied⟩, level, level', totalBid⟩ := agrees
    refine ⟨?_, trivial⟩
    rw [Agrees, wf.generateMDUpdate_figures, if_neg occupied, bid.1, ask.1, level, level', totalBid]
    rw [show book.asks.total = b.asks.total from pending]
  | done result => contradiction

end MDCall

namespace MDRun

/-- A call of another thread changes nothing that the update call has read. -/
def KeepsRead (s : MDRun) : MDEvent → Prop
  | .read => True
  | .op op => s.call.ReadKept s.book (s.book.step op)

/-- A call of another thread changes nothing that the update call has yet to read. -/
def KeepsPending (s : MDRun) : MDEvent → Prop
  | .read => True
  | .op op => s.call.PendingKept s.book (s.book.step op)

/-- There is a moment in the run such that no call before it changes what
the update had already read, and no call after it changes what the update
had yet to read. -/
def HasCommitPoint (start : MDRun) (events : List MDEvent) : Prop :=
  ∃ before after middle, events = before ++ after ∧ exec step start before = some middle ∧
    Guarded step KeepsRead start before ∧ Guarded step KeepsPending middle after

theorem step_read {s t : MDRun} (moved : s.step .read = some t) :
    ∃ call, s.call.read s.book = some call ∧ t = { s with call } := by
  obtain ⟨call, next, rfl⟩ := Option.map_eq_some_iff.mp moved
  exact ⟨call, next, rfl⟩

theorem step_op {s t : MDRun} {op : BookOp} (moved : s.step (.op op) = some t) :
    (∀ result, s.call ≠ .done result) ∧ t = ⟨s.book.step op, s.call, s.book.step op :: s.visited⟩ := by
  unfold step at moved
  cases call : s.call <;> simp_all

/-- With no other call in between, the reads make up `generateMDUpdate`. -/
theorem exec_reads (book : OrderBook) :
    ∃ count, exec step (begin book) (List.replicate count .read) =
      some ⟨book, .done book.generateMDUpdate.value, [book]⟩ := by
  rw [OrderBook.generateMDUpdate_value]
  by_cases empty : book.bestBid.value = kEmptyOrder ∧ book.bestAsk.value = kEmptyOrder
  · refine ⟨2, ?_⟩
    simp [List.replicate, step, begin, MDCall.read, empty]
  · refine ⟨6, ?_⟩
    rw [if_neg empty]
    simp [List.replicate, step, begin, MDCall.read, empty]

/-- Before the commit point: what was read is what the current book has. -/
structure Current (s : MDRun) : Prop where
  wf : s.book.WellFormed
  agrees : s.call.Agrees s.book
  here : s.book ∈ s.visited

theorem Current.step {s t : MDRun} {event : MDEvent} (current : s.Current) (keeps : s.KeepsRead event)
    (moved : s.step event = some t) : t.Current := by
  cases event with
  | read =>
    obtain ⟨call, next, rfl⟩ := step_read moved
    exact ⟨current.wf, (current.agrees.read current.wf current.wf (MDCall.pendingKept_refl _ _) next).1, current.here⟩
  | op op =>
    obtain ⟨running, rfl⟩ := step_op moved
    exact ⟨current.wf.step op, current.agrees.kept keeps running, List.mem_cons_self⟩

/-- After the commit point `b`: what was read is what `b` has, and so is
what is still to be read. -/
structure Committed (b : OrderBook) (s : MDRun) : Prop where
  wf : s.book.WellFormed
  agrees : s.call.Agrees b
  pending : s.call.PendingKept b s.book
  visited : b ∈ s.visited

theorem Committed.step {b : OrderBook} (wf : b.WellFormed) {s t : MDRun} {event : MDEvent}
    (committed : s.Committed b) (keeps : s.KeepsPending event) (moved : s.step event = some t) :
    t.Committed b := by
  cases event with
  | read =>
    obtain ⟨call, next, rfl⟩ := step_read moved
    obtain ⟨agrees, pending⟩ := committed.agrees.read wf committed.wf committed.pending next
    exact ⟨committed.wf, agrees, pending, committed.visited⟩
  | op op =>
    obtain ⟨_, rfl⟩ := step_op moved
    exact ⟨committed.wf.step op, committed.agrees, MDCall.pendingKept_trans committed.pending keeps,
      List.mem_cons_of_mem _ committed.visited⟩

/-- An update call during which some moment separates the reads from the
changes returns the update of the book at that moment. -/
theorem linearizable_of_commitPoint (ops : List BookOp) (events : List MDEvent) (last : MDRun)
    (run : exec step (begin (OrderBook.run ops)) events = some last)
    (commit : HasCommitPoint (begin (OrderBook.run ops)) events) : last.Linearizable := by
  obtain ⟨before, after, middle, rfl, first, keepsRead, keepsPending⟩ := commit
  rw [exec_trans first] at run
  have initial : (begin (OrderBook.run ops)).Current :=
    ⟨OrderBook.run_wellFormed ops, trivial, List.mem_cons_self⟩
  have current : middle.Current :=
    exec_guarded_invariant (fun _ _ _ inv keeps moved => inv.step keeps moved) first keepsRead initial
  have atMiddle : middle.Committed middle.book :=
    ⟨current.wf, current.agrees, MDCall.pendingKept_refl _ _, current.here⟩
  have committed : last.Committed middle.book :=
    exec_guarded_invariant (fun _ _ _ inv keeps moved => inv.step current.wf keeps moved) run keepsPending atMiddle
  intro result returned
  have agrees := committed.agrees
  rw [returned] at agrees
  exact ⟨middle.book, committed.visited, agrees.symm⟩

/-- A lower bid that arrives after the best bid was read commits the update
to the book it leaves behind. -/
theorem linearizable_after_lower_bid :
    ∃ last, exec step (begin (OrderBook.run [.newBid ⟨1, 10, 5⟩]))
      [.read, .op (.newBid ⟨2, 7, 1⟩), .read, .read, .read, .read, .read] = some last ∧ last.Linearizable := by
  have samePrice : ((OrderBook.run [.newBid ⟨1, 10, 5⟩]).step (.newBid ⟨2, 7, 1⟩)).bidPrice =
      (OrderBook.run [.newBid ⟨1, 10, 5⟩]).bidPrice := by decide
  refine ⟨_, rfl, linearizable_of_commitPoint [.newBid ⟨1, 10, 5⟩]
    [.read, .op (.newBid ⟨2, 7, 1⟩), .read, .read, .read, .read, .read] _ rfl ?_⟩
  refine ⟨[.read, .op (.newBid ⟨2, 7, 1⟩)], [.read, .read, .read, .read, .read], _, rfl, rfl, ?_, ?_⟩
  · exact guarded_cons trivial rfl (guarded_cons samePrice rfl (guarded_nil _ _ _))
  · iterate 5 refine guarded_cons trivial rfl ?_
    exact guarded_nil _ _ _

/-- The only bid is cancelled right after it was read as the best: the
update carries its price with quantity zero, which no book ever had. -/
theorem not_always_linearizable : ¬∀ ops events last,
    exec step (begin (OrderBook.run ops)) events = some last → last.Linearizable := by
  intro claim
  have torn := claim [.newBid ⟨1, 10, 5⟩] [.read, .op (.cancelBid 1), .read, .read, .read, .read, .read] _ rfl
  obtain ⟨book, member, same⟩ := torn (some ⟨10, 0, 0, 0, 0, 0⟩) (by decide)
  rcases List.mem_cons.mp member with rfl | member
  · exact absurd same (by decide)
  · obtain rfl := List.mem_singleton.mp member
    exact absurd same (by decide)

end MDRun

end Stakan
