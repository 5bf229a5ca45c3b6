import Stakan.OrderBook.Concurrent

namespace Stakan
open LockedObject

/-- The calls of a book, those that change it and those that only look. -/
inductive BookCall
  | change (op : BookOp)
  | bestBid
  | bestAsk
  | pricesBidsInfo (price : Price)
  | pricesAsksInfo (price : Price)
  deriving DecidableEq

namespace OrderBook

/-- A call with what it writes to the log. -/
def serve (book : OrderBook) : BookCall → Logged OrderBook
  | .change op => book.call op
  | .bestBid => do
    let _ ← book.bestBid
    return book
  | .bestAsk => do
    let _ ← book.bestAsk
    return book
  | .pricesBidsInfo price => do
    let _ ← book.getPricesBidsInfo price
    return book
  | .pricesAsksInfo price => do
    let _ ← book.getPricesAsksInfo price
    return book

/-- One call after the other. -/
def serveAll (book : OrderBook) : List BookCall → Logged OrderBook
  | [] => return book
  | call :: calls => do
    let next ← book.serve call
    next.serveAll calls

theorem serveAll_append (book : OrderBook) (first second : List BookCall) :
    book.serveAll (first ++ second) = (book.serveAll first >>= fun next => next.serveAll second) := by
  induction first generalizing book with
  | nil => rfl
  | cons call first ih =>
    rw [List.cons_append, serveAll, serveAll]
    simp only [bind, ih, List.append_assoc]

theorem serveAll_single (book : OrderBook) (call : BookCall) : book.serveAll [call] = book.serve call := by
  simp [serveAll, bind, pure]

end OrderBook

/-- A call on one side, as a call of the book. -/
def SideCall.onBid : SideCall → BookCall
  | .change op => .change op.asBid
  | .best => .bestBid
  | .pricesInfo price => .pricesBidsInfo price

def SideCall.onAsk : SideCall → BookCall
  | .change op => .change op.asAsk
  | .best => .bestAsk
  | .pricesInfo price => .pricesAsksInfo price

theorem OrderBook.serve_onBid {book : OrderBook} {call : SideCall} {after : BookSide bidComparator}
    {answer : SideAnswer} {lines : List LogEntry}
    (performed : book.bids.perform bidTexts call = some (after, answer, lines)) :
    book.serve call.onBid = ⟨{ book with bids := after }, lines⟩ := by
  cases call with
  | change op =>
    obtain ⟨rfl, same⟩ := Prod.mk.inj (Option.some.inj performed)
    obtain ⟨_, rfl⟩ := Prod.mk.inj same
    cases op <;> exact congrArg (Logged.mk _) (List.append_nil _)
  | best =>
    obtain ⟨rfl, same⟩ := Prod.mk.inj (Option.some.inj performed)
    obtain ⟨_, rfl⟩ := Prod.mk.inj same
    exact congrArg (Logged.mk _) (List.append_nil _)
  | pricesInfo price =>
    obtain ⟨rfl, same⟩ := Prod.mk.inj (Option.some.inj performed)
    obtain ⟨_, rfl⟩ := Prod.mk.inj same
    exact congrArg (Logged.mk _) (List.append_nil _)

theorem OrderBook.serve_onAsk {book : OrderBook} {call : SideCall} {after : BookSide askComparator}
    {answer : SideAnswer} {lines : List LogEntry}
    (performed : book.asks.perform askTexts call = some (after, answer, lines)) :
    book.serve call.onAsk = ⟨{ book with asks := after }, lines⟩ := by
  cases call with
  | change op =>
    obtain ⟨rfl, same⟩ := Prod.mk.inj (Option.some.inj performed)
    obtain ⟨_, rfl⟩ := Prod.mk.inj same
    cases op <;> exact congrArg (Logged.mk _) (List.append_nil _)
  | best =>
    obtain ⟨rfl, same⟩ := Prod.mk.inj (Option.some.inj performed)
    obtain ⟨_, rfl⟩ := Prod.mk.inj same
    exact congrArg (Logged.mk _) (List.append_nil _)
  | pricesInfo price =>
    obtain ⟨rfl, same⟩ := Prod.mk.inj (Option.some.inj performed)
    obtain ⟨_, rfl⟩ := Prod.mk.inj same
    exact congrArg (Logged.mk _) (List.append_nil _)

/-- The lines of the log, in the order in which they were written. -/
def logOf {ι : Type*} (out : List (BookOutput ι)) : List LogEntry := out.filterMap (Sum.elim Output.line Output.line)

section Log

variable {ι : Type*}

theorem logOf_inl (out : List (SideOutput ι)) : logOf (out.map .inl) = out.filterMap Output.line := by
  rw [logOf, List.filterMap_map]
  rfl

theorem logOf_inr (out : List (SideOutput ι)) : logOf (out.map .inr) = out.filterMap Output.line := by
  rw [logOf, List.filterMap_map]
  rfl

theorem logOf_append (first second : List (BookOutput ι)) : logOf (first ++ second) = logOf first ++ logOf second :=
  List.filterMap_append

end Log

namespace AtomicBook

variable {ι : Type*} [DecidableEq ι]

/-- The book that the two atomic sides make up. -/
def bookOf (source : TmpSnapshotCreator) (t : AtomicBook ι) : OrderBook := ⟨t.1.memory, t.2.memory, source⟩

variable {t u : AtomicBook ι}

/-- One label of the atomic book serves at most one call. -/
theorem served_of_step (source : TmpSnapshotCreator) {label : BookLabel ι} {out : List (BookOutput ι)}
    (moved : step t label = some (u, out)) :
    ∃ calls, (t.bookOf source).serveAll calls = ⟨u.bookOf source, logOf out⟩ := by
  rcases label with label | label
  · obtain ⟨put, step, idle, rfl⟩ := Transducer.parallel_inl moved
    rw [logOf_inl]
    obtain ⟨call, answer, lines, performed, rfl⟩ | ⟨kept, silent⟩ := Atomic.performed_of_step step
    · have atBids : (t.bookOf source).bids.perform bidTexts call = some (u.1.memory, answer, lines) := performed
      refine ⟨[call.onBid], ?_⟩
      rw [OrderBook.serveAll_single, OrderBook.serve_onBid atBids, Output.filterMap_line_wrote]
      simp only [bookOf, idle]
    · refine ⟨[], ?_⟩
      rw [silent]
      simp only [bookOf, kept, idle]
      rfl
  · obtain ⟨put, step, idle, rfl⟩ := Transducer.parallel_inr moved
    rw [logOf_inr]
    obtain ⟨call, answer, lines, performed, rfl⟩ | ⟨kept, silent⟩ := Atomic.performed_of_step step
    · have atAsks : (t.bookOf source).asks.perform askTexts call = some (u.2.memory, answer, lines) := performed
      refine ⟨[call.onAsk], ?_⟩
      rw [OrderBook.serveAll_single, OrderBook.serve_onAsk atAsks, Output.filterMap_line_wrote]
      simp only [bookOf, idle]
    · refine ⟨[], ?_⟩
      rw [silent]
      simp only [bookOf, kept, idle]
      rfl

theorem served_of_run (source : TmpSnapshotCreator) {labels : List (BookLabel ι)} {out : List (BookOutput ι)}
    (ran : Transducer.run step t labels = some (u, out)) :
    ∃ calls, (t.bookOf source).serveAll calls = ⟨u.bookOf source, logOf out⟩ := by
  induction labels generalizing t out with
  | nil =>
    obtain ⟨rfl, rfl⟩ := Prod.mk.inj (Option.some.inj ran)
    exact ⟨[], rfl⟩
  | cons label labels ih =>
    obtain ⟨middle, first, rest, moved, others, rfl⟩ := Transducer.run_cons_split ran
    obtain ⟨calls, served⟩ := served_of_step source moved
    obtain ⟨calls', served'⟩ := ih others
    refine ⟨calls ++ calls', ?_⟩
    rw [OrderBook.serveAll_append, served, logOf_append]
    simp only [bind, served']

end AtomicBook

namespace ThreadedBook

variable {ι : Type*} [DecidableEq ι]

end ThreadedBook

end Stakan
