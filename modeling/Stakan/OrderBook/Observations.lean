import Stakan.OrderBook.Best
import Stakan.OrderBook.Levels
import Stakan.OrderBook.Refinement

namespace Stakan
open OrderedIndex (StrictTotal)

/-- The same quantity and the same identifiers, in whatever order. -/
def PricesInfo.Alike (info other : PricesInfo) : Prop := info.quantity = other.quantity ∧ info.ids.Perm other.ids

/-- Two books in which the same orders rest and which answer alike to every query. -/
structure OrderBook.Alike (book other : OrderBook) : Prop where
  bids : ∀ o, o ∈ book.bids.orders.ordered ↔ o ∈ other.bids.orders.ordered
  asks : ∀ o, o ∈ book.asks.orders.ordered ↔ o ∈ other.asks.orders.ordered
  totalBids : book.bids.total = other.bids.total
  totalAsks : book.asks.total = other.asks.total
  bestBid : book.bestBid.value = other.bestBid.value
  bestAsk : book.bestAsk.value = other.bestAsk.value
  bidLevels : ∀ price, (book.getPricesBidsInfo price).value.Alike (other.getPricesBidsInfo price).value
  askLevels : ∀ price, (book.getPricesAsksInfo price).value.Alike (other.getPricesAsksInfo price).value
  mdUpdate : book.generateMDUpdate.value = other.generateMDUpdate.value

section Side

variable {comparator : Order → Order → Bool} {side other : BookSide comparator}

theorem BookSide.WellFormed.mem_congr (wf : side.WellFormed) (wf' : other.WellFormed)
    (same : side.resting = other.resting) (o : Order) :
    o ∈ side.orders.ordered ↔ o ∈ other.orders.ordered := by
  rw [wf.mem_iff_resting, wf'.mem_iff_resting, same]

theorem BookSide.WellFormed.ordered_congr (wf : side.WellFormed) (wf' : other.WellFormed)
    (total : StrictTotal comparator) (same : side.resting = other.resting) :
    side.orders.ordered = other.orders.ordered :=
  wf.coherent.ordered_eq wf'.coherent total (wf.mem_congr wf' same)

theorem BookSide.WellFormed.level_alike (wf : side.WellFormed) (wf' : other.WellFormed)
    (same : side.orders.ordered = other.orders.ordered) (price : Price) (message : String) :
    (getContainerPrice side.orders price message).value.Alike
      (getContainerPrice other.orders price message).value := by
  obtain ⟨ids, quantity⟩ := wf.level price message
  obtain ⟨ids', quantity'⟩ := wf'.level price message
  rw [same] at ids quantity
  exact ⟨quantity.trans quantity'.symm, ids.trans ids'.symm⟩

end Side

namespace OrderBook

/-- What a book answers depends on its resting orders alone, not on the calls that have left them. -/
theorem WellFormed.alike {book other : OrderBook} (wf : book.WellFormed) (wf' : other.WellFormed)
    (bids : book.bids.resting = other.bids.resting) (asks : book.asks.resting = other.asks.resting) :
    Alike book other := by
  have bidsOrdered := wf.bids.ordered_congr wf'.bids bidComparator_strictTotal bids
  have asksOrdered := wf.asks.ordered_congr wf'.asks askComparator_strictTotal asks
  have totalBids : book.bids.total = other.bids.total := by rw [wf.bids.total_eq, wf'.bids.total_eq, bidsOrdered]
  have totalAsks : book.asks.total = other.asks.total := by rw [wf.asks.total_eq, wf'.asks.total_eq, asksOrdered]
  have bestBid : book.bestBid.value = other.bestBid.value := by
    rw [OrderBook.bestBid, OrderBook.bestBid, BookSide.best_value, BookSide.best_value, bidsOrdered]
  have bestAsk : book.bestAsk.value = other.bestAsk.value := by
    rw [OrderBook.bestAsk, OrderBook.bestAsk, BookSide.best_value, BookSide.best_value, asksOrdered]
  have bidLevels : ∀ price, (book.getPricesBidsInfo price).value.Alike (other.getPricesBidsInfo price).value :=
    fun price => wf.bids.level_alike wf'.bids bidsOrdered price _
  have askLevels : ∀ price, (book.getPricesAsksInfo price).value.Alike (other.getPricesAsksInfo price).value :=
    fun price => wf.asks.level_alike wf'.asks asksOrdered price _
  refine ⟨wf.bids.mem_congr wf'.bids bids, wf.asks.mem_congr wf'.asks asks, totalBids, totalAsks, bestBid, bestAsk,
    bidLevels, askLevels, ?_⟩
  rw [generateMDUpdate_value, generateMDUpdate_value, bestBid, bestAsk, (bidLevels _).1, (askLevels _).1, totalBids,
    totalAsks]

end OrderBook

end Stakan
