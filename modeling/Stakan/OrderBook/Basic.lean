import Stakan.Library.MultiIndex
import Stakan.Library.WordSum
import Stakan.Logger
import Stakan.SnapshotSource

namespace Stakan
open OrderedIndex (equalRange)

def bidComparator (a b : Order) : Bool :=
  a.price > b.price || (a.price == b.price && a.quantity > b.quantity) ||
    (a.price == b.price && a.quantity == b.quantity && a.id < b.id)

def askComparator (a b : Order) : Bool :=
  a.price < b.price || (a.price == b.price && a.quantity > b.quantity) ||
    (a.price == b.price && a.quantity == b.quantity && a.id < b.id)

/-- The order of the price-only index. -/
def priceLess (a b : Order) : Bool := a.price < b.price

/-- The resting orders of one side, indexed by the side's comparator, by
identifier and by price alone. -/
abbrev OrderContainer (comparator : Order → Order → Bool) := MultiIndex Order.id comparator priceLess

/-- The container of one side together with its running quantity counter. -/
structure BookSide (comparator : Order → Order → Bool) where
  orders : OrderContainer comparator := .empty
  total : Quantity := 0
  deriving DecidableEq

structure OrderBook where
  bids : BookSide bidComparator := {}
  asks : BookSide askComparator := {}
  snapshotSource : TmpSnapshotCreator := makeTmpSnapshotCreator
  deriving DecidableEq

/-- How the log names a side: `Bid` and `BID`, or `Ask` and `ASK`. -/
structure SideNames where
  camel : String
  upper : String

def bidNames : SideNames := ⟨"Bid", "BID"⟩
def askNames : SideNames := ⟨"Ask", "ASK"⟩

/-- What a replacement writes into the resting order: everything but the identifier. -/
def Order.assignTerms (newOrder o : Order) : Order :=
  { o with price := newOrder.price, quantity := newOrder.quantity }

def validate (order : Order) (operation : String) : Logged Bool := do
  if order.price == 0 || order.quantity == 0 then
    Logger.log .error s!"{operation}: Invalid order, id = {order.id}"
    return false
  return true

section Side

variable {comparator : Order → Order → Bool}

def BookSide.new (names : SideNames) (order : Order) (side : BookSide comparator) : Logged (BookSide comparator) := do
  if !(← validate order s!"New{names.camel}") then
    return side
  let result := side.orders.insert order
  if result.2 then
    Logger.log .info s!"New {names.upper} added, id = {order.id}"
    return { orders := result.1, total := side.total + order.quantity }
  else
    Logger.log .error s!"New{names.camel}: {names.upper} id = {order.id} already exists"
    return { side with orders := result.1 }

def BookSide.cancel (names : SideNames) (orderId : ID) (side : BookSide comparator) : Logged (BookSide comparator) :=
  match side.orders.find orderId with
  | some resting => do
    Logger.log .info s!"{names.camel} canceled, id = {orderId}"
    return { orders := side.orders.erase orderId, total := side.total - resting.quantity }
  | none => do
    Logger.log .error s!"Cancel{names.camel}: Invalid id = {orderId}"
    return side

/-- Only the identifier of the old order is looked at: the quantity taken
off the counter is the resting order's own. -/
def BookSide.replace (names : SideNames) (oldOrder newOrder : Order) (side : BookSide comparator) :
    Logged (BookSide comparator) := do
  if newOrder.price == 0 || newOrder.quantity == 0 then
    Logger.log .error s!"Replace{names.camel}: Invalid order, id = {newOrder.id}"
    return side
  if oldOrder.id != newOrder.id then
    Logger.log .error
      s!"Replace{names.camel}: Order id cannot be changed (old id = {oldOrder.id}, new id = {newOrder.id})"
    return side
  match side.orders.find oldOrder.id with
  | some resting =>
    Logger.log .info s!"Replaced {names.upper} id = {newOrder.id}"
    return { orders := side.orders.modify oldOrder.id newOrder.assignTerms
             total := side.total - resting.quantity + newOrder.quantity }
  | none =>
    Logger.log .error s!"Replace{names.camel}:, id {oldOrder.id} not found"
    return side

/-- The first order of the side's own index. -/
def BookSide.best (emptyMessage : String) (side : BookSide comparator) : Logged Order :=
  match side.orders.ordered with
  | [] => do
    Logger.log .warning emptyMessage
    return Order.ofInt 0 0 0
  | first :: _ => return first

structure PricesInfo where
  ids : List ID := []
  quantity : Quantity := 0
  deriving DecidableEq

def getContainerPrice (container : OrderContainer comparator) (price : Price) (message : String) :
    Logged PricesInfo := do
  if container.ordered.isEmpty then
    Logger.log .warning message
    return {}
  let range := equalRange (fun o => o.price < price) (fun o => price < o.price) container.secondary
  return range.foldl (fun info o => { ids := info.ids ++ [o.id], quantity := info.quantity + o.quantity }) {}

end Side

namespace OrderBook

def newBid (order : Order) (book : OrderBook) : Logged OrderBook :=
  return { book with bids := ← book.bids.new bidNames order }

def newAsk (order : Order) (book : OrderBook) : Logged OrderBook :=
  return { book with asks := ← book.asks.new askNames order }

def cancelBid (orderId : ID) (book : OrderBook) : Logged OrderBook :=
  return { book with bids := ← book.bids.cancel bidNames orderId }

def cancelAsk (orderId : ID) (book : OrderBook) : Logged OrderBook :=
  return { book with asks := ← book.asks.cancel askNames orderId }

def replaceBid (oldOrder newOrder : Order) (book : OrderBook) : Logged OrderBook :=
  return { book with bids := ← book.bids.replace bidNames oldOrder newOrder }

def replaceAsk (oldOrder newOrder : Order) (book : OrderBook) : Logged OrderBook :=
  return { book with asks := ← book.asks.replace askNames oldOrder newOrder }

def bestBid (book : OrderBook) : Logged Order := book.bids.best "BestBid: bids are empty"

def bestAsk (book : OrderBook) : Logged Order := book.asks.best "BestAsk: asks are empty"

def getPricesBidsInfo (price : Price) (book : OrderBook) : Logged PricesInfo :=
  getContainerPrice book.bids.orders price "Not bids for this price"

def getPricesAsksInfo (price : Price) (book : OrderBook) : Logged PricesInfo :=
  getContainerPrice book.asks.orders price "Not asks for this price"

def kEmptyOrder : Order := Order.ofInt 0 0 0

def generateMDUpdate (book : OrderBook) : Logged (Option MDUpdate) := do
  let bestBid ← book.bestBid
  let bestAsk ← book.bestAsk
  if bestBid == kEmptyOrder && bestAsk == kEmptyOrder then
    Logger.log .warning "OrderBook: is empty"
    return none
  let bestBidPriceInfo ← book.getPricesBidsInfo bestBid.price
  let bestAskPriceInfo ← book.getPricesAsksInfo bestAsk.price
  return some
    { bestBidPrice := bestBid.price
      bestBidQty := bestBidPriceInfo.quantity
      bestAskPrice := bestAsk.price
      bestAskQty := bestAskPriceInfo.quantity
      totalBidQty := book.bids.total
      totalAskQty := book.asks.total }

/-- The snapshot comes from the snapshot source, whatever rests in the book.
There is none only if the source's list is empty. -/
def getTopSnapshot (book : OrderBook) : Option (Snapshot × OrderBook) :=
  let (snapshot, source) := book.snapshotSource.getSnapshot
  snapshot.map fun s => (s, { book with snapshotSource := source })

end OrderBook

/-- The calls that change a book. -/
inductive BookOp
  | newBid (order : Order)
  | newAsk (order : Order)
  | cancelBid (orderId : ID)
  | cancelAsk (orderId : ID)
  | replaceBid (oldOrder newOrder : Order)
  | replaceAsk (oldOrder newOrder : Order)
  deriving DecidableEq

namespace OrderBook

def call (book : OrderBook) : BookOp → Logged OrderBook
  | .newBid order => book.newBid order
  | .newAsk order => book.newAsk order
  | .cancelBid orderId => book.cancelBid orderId
  | .cancelAsk orderId => book.cancelAsk orderId
  | .replaceBid oldOrder newOrder => book.replaceBid oldOrder newOrder
  | .replaceAsk oldOrder newOrder => book.replaceAsk oldOrder newOrder

def step (book : OrderBook) (op : BookOp) : OrderBook := (book.call op).value

/-- The book after a finite sequence of calls on a fresh one. -/
def run (ops : List BookOp) : OrderBook := ops.foldl step {}

theorem run_snoc (ops : List BookOp) (op : BookOp) : run (ops ++ [op]) = (run ops).step op := by
  simp [run]

end OrderBook

end Stakan
