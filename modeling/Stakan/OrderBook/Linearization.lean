import Stakan.OrderBook.Locking

namespace Stakan
open LockedObject
open OrderedIndex (equalRange)

variable {comparator : Order → Order → Bool}

namespace BookSide

variable (texts : SideTexts) (side : BookSide comparator)

theorem validate_of_valid {order : Order} {operation : String} (valid : (validate order operation).value = true) :
    (validate order operation).entries = [] := by
  by_cases price : order.price = 0 <;> by_cases quantity : order.quantity = 0 <;> simp_all [validate]
  rfl

theorem perform_new_of_invalid {order : Order}
    (invalid : (validate order s!"New{texts.camel}").value = false) :
    side.perform texts (.change (.new order)) =
      some (side, .nothing, (validate order s!"New{texts.camel}").entries) := by
  simp [perform, call, BookSide.new, bind, invalid, pure]

theorem perform_new_of_valid {order : Order} (valid : (validate order s!"New{texts.camel}").value = true) :
    side.perform texts (.change (.new order)) =
      if (side.orders.insert order).2 then
        some (⟨(side.orders.insert order).1, side.total + order.quantity⟩, .nothing,
          [⟨.info, s!"New {texts.upper} added, id = {order.id}"⟩])
      else some ({ side with orders := (side.orders.insert order).1 }, .nothing,
        [⟨.error, s!"New{texts.camel}: {texts.upper} id = {order.id} already exists"⟩]) := by
  have checked : validate order s!"New{texts.camel}" = ⟨true, []⟩ := by
    rw [← valid, ← validate_of_valid valid]
  simp only [perform, call, BookSide.new, checked]
  cases (side.orders.insert order).2 with
  | true => rfl
  | false => rfl

theorem perform_cancel_of_found {orderId : ID} {resting : Order} (found : side.orders.find orderId = some resting) :
    side.perform texts (.change (.cancel orderId)) =
      some (⟨side.orders.erase orderId, side.total - resting.quantity⟩, .nothing,
        [⟨.info, s!"{texts.camel} canceled, id = {orderId}"⟩]) := by
  simp only [perform, call, BookSide.cancel, found]
  rfl

theorem perform_cancel_of_absent {orderId : ID} (absent : side.orders.find orderId = none) :
    side.perform texts (.change (.cancel orderId)) =
      some (side, .nothing, [⟨.error, s!"Cancel{texts.camel}: Invalid id = {orderId}"⟩]) := by
  simp only [perform, call, BookSide.cancel, absent]
  rfl

theorem perform_replace_of_invalid (oldOrder : Order) {newOrder : Order}
    (invalid : (newOrder.price == 0 || newOrder.quantity == 0) = true) :
    side.perform texts (.change (.replace oldOrder newOrder)) =
      some (side, .nothing, [⟨.error, s!"Replace{texts.camel}: Invalid order, id = {newOrder.id}"⟩]) := by
  unfold perform call BookSide.replace
  simp only [invalid, if_true]
  rfl

theorem perform_replace_of_other_id {oldOrder newOrder : Order}
    (valid : (newOrder.price == 0 || newOrder.quantity == 0) = false) (other : (oldOrder.id != newOrder.id) = true) :
    side.perform texts (.change (.replace oldOrder newOrder)) = some (side, .nothing, [⟨.error,
      s!"Replace{texts.camel}: Order id cannot be changed (old id = {oldOrder.id}, new id = {newOrder.id})"⟩]) := by
  unfold perform call BookSide.replace
  simp only [valid, other, if_true, Bool.false_eq_true, if_false]
  rfl

theorem perform_replace_of_found {oldOrder newOrder resting : Order}
    (valid : (newOrder.price == 0 || newOrder.quantity == 0) = false) (same : (oldOrder.id != newOrder.id) = false)
    (found : side.orders.find oldOrder.id = some resting) :
    side.perform texts (.change (.replace oldOrder newOrder)) =
      some (⟨side.orders.modify oldOrder.id newOrder.assignTerms,
        side.total - resting.quantity + newOrder.quantity⟩, .nothing,
        [⟨.info, s!"Replaced {texts.upper} id = {newOrder.id}"⟩]) := by
  unfold perform call BookSide.replace
  simp only [valid, same, Bool.false_eq_true, if_false, found]
  rfl

theorem perform_replace_of_absent {oldOrder newOrder : Order}
    (valid : (newOrder.price == 0 || newOrder.quantity == 0) = false) (same : (oldOrder.id != newOrder.id) = false)
    (absent : side.orders.find oldOrder.id = none) :
    side.perform texts (.change (.replace oldOrder newOrder)) =
      some (side, .nothing, [⟨.error, s!"Replace{texts.camel}:, id {oldOrder.id} not found"⟩]) := by
  unfold perform call BookSide.replace
  simp only [valid, same, Bool.false_eq_true, if_false, absent]
  rfl

theorem perform_best_of_empty (empty : side.orders.ordered = []) :
    side.perform texts .best = some (side, .order (Order.ofInt 0 0 0), [⟨.warning, texts.emptyBest⟩]) := by
  simp only [perform, BookSide.best, empty]
  rfl

theorem perform_best_of_first {first : Order} (atHead : side.orders.ordered.head? = some first) :
    side.perform texts .best = some (side, .order first, []) := by
  obtain ⟨rest, whole⟩ := List.head?_eq_some_iff.mp atHead
  simp only [perform, BookSide.best, whole]
  rfl

/-- The orders of a price level, as the third index lists them. -/
def levelRange (price : Price) (side : BookSide comparator) : List Order :=
  equalRange (fun o => o.price < price) (fun o => price < o.price) side.orders.secondary

/-- What a loop over the first orders of a level has made of the result. -/
def scanned (price : Price) (count : Nat) (side : BookSide comparator) : PricesInfo :=
  ((side.levelRange price).take count).foldl
    (fun info o => { ids := info.ids ++ [o.id], quantity := info.quantity + o.quantity }) {}

theorem perform_pricesInfo_of_empty (price : Price) (empty : side.orders.ordered = []) :
    side.perform texts (.pricesInfo price) = some (side, .info {}, [⟨.warning, texts.emptyPrices⟩]) := by
  unfold perform getContainerPrice
  simp only [empty, List.isEmpty_nil, if_true]
  rfl

theorem perform_pricesInfo_of_scanned {price : Price} {count : Nat} (present : side.orders.ordered ≠ [])
    (finished : (side.levelRange price)[count]? = none) :
    side.perform texts (.pricesInfo price) = some (side, .info (side.scanned price count), []) := by
  have whole : (side.levelRange price).take count = side.levelRange price :=
    List.take_of_length_le (List.getElem?_eq_none_iff.mp finished)
  have full : side.orders.ordered.isEmpty = false := by simpa using present
  unfold perform getContainerPrice scanned
  rw [whole]
  simp only [full, Bool.false_eq_true, if_false]
  rfl

theorem scanned_succ {price : Price} {count : Nat} {o : Order} (atCount : (side.levelRange price)[count]? = some o) :
    side.scanned price (count + 1) =
      { ids := (side.scanned price count).ids ++ [o.id], quantity := (side.scanned price count).quantity + o.quantity } := by
  obtain ⟨within, rfl⟩ := List.getElem?_eq_some_iff.mp atCount
  rw [scanned, List.take_succ_eq_append_getElem within, List.foldl_append]
  rfl

end BookSide

namespace SidePoint

variable (texts : SideTexts)

def NewValid (order : Order) : Prop := (validate order s!"New{texts.camel}").value = true

def ReplaceValid (oldOrder newOrder : Order) : Prop :=
  (newOrder.price == 0 || newOrder.quantity == 0) = false ∧ (oldOrder.id != newOrder.id) = false

/-- What holds of a call that has not taken effect: `c` is the side as it was
when the call got the lock, `m` what the call has made of it. -/
def Stands (call : SideCall) (c : BookSide comparator) (point : SidePoint) (m : BookSide comparator) : Prop :=
  match point with
  | new order => call = .change (.new order)
  | newWaiting order => call = .change (.new order) ∧ NewValid texts order
  | newLocked order => call = .change (.new order) ∧ NewValid texts order ∧ m = c
  | newInserted order => call = .change (.new order) ∧ NewValid texts order ∧ (c.orders.insert order).2 = true ∧
      m = ⟨(c.orders.insert order).1, c.total⟩
  | newCounted order => call = .change (.new order) ∧ NewValid texts order ∧ (c.orders.insert order).2 = true ∧
      m = ⟨(c.orders.insert order).1, c.total + order.quantity⟩
  | newPresent order => call = .change (.new order) ∧ NewValid texts order ∧ (c.orders.insert order).2 = false ∧
      m = ⟨(c.orders.insert order).1, c.total⟩
  | cancel orderId => call = .change (.cancel orderId)
  | cancelLocked orderId => call = .change (.cancel orderId) ∧ m = c
  | cancelFound orderId => call = .change (.cancel orderId) ∧ m = c ∧ ∃ resting, c.orders.find orderId = some resting
  | cancelCounted orderId => call = .change (.cancel orderId) ∧
      ∃ resting, c.orders.find orderId = some resting ∧ m = ⟨c.orders, c.total - resting.quantity⟩
  | cancelErased orderId => call = .change (.cancel orderId) ∧
      ∃ resting, c.orders.find orderId = some resting ∧ m = ⟨c.orders.erase orderId, c.total - resting.quantity⟩
  | cancelAbsent orderId => call = .change (.cancel orderId) ∧ m = c ∧ c.orders.find orderId = none
  | replace oldOrder newOrder => call = .change (.replace oldOrder newOrder)
  | replaceWaiting oldOrder newOrder => call = .change (.replace oldOrder newOrder) ∧ ReplaceValid oldOrder newOrder
  | replaceLocked oldOrder newOrder =>
      call = .change (.replace oldOrder newOrder) ∧ ReplaceValid oldOrder newOrder ∧ m = c
  | replaceFound it newOrder => ∃ oldOrder resting, call = .change (.replace oldOrder newOrder) ∧
      ReplaceValid oldOrder newOrder ∧ it = oldOrder.id ∧ c.orders.find it = some resting ∧ m = c
  | replaceDebited it newOrder => ∃ oldOrder resting, call = .change (.replace oldOrder newOrder) ∧
      ReplaceValid oldOrder newOrder ∧ it = oldOrder.id ∧ c.orders.find it = some resting ∧
      m = ⟨c.orders, c.total - resting.quantity⟩
  | replaceCredited it newOrder => ∃ oldOrder resting, call = .change (.replace oldOrder newOrder) ∧
      ReplaceValid oldOrder newOrder ∧ it = oldOrder.id ∧ c.orders.find it = some resting ∧
      m = ⟨c.orders, c.total - resting.quantity + newOrder.quantity⟩
  | replaceModified newOrder => ∃ oldOrder resting, call = .change (.replace oldOrder newOrder) ∧
      ReplaceValid oldOrder newOrder ∧ c.orders.find oldOrder.id = some resting ∧
      m = ⟨c.orders.modify oldOrder.id newOrder.assignTerms, c.total - resting.quantity + newOrder.quantity⟩
  | replaceAbsent oldOrder => ∃ newOrder, call = .change (.replace oldOrder newOrder) ∧
      ReplaceValid oldOrder newOrder ∧ c.orders.find oldOrder.id = none ∧ m = c
  | best => call = .best
  | bestLocked => call = .best ∧ m = c
  | bestEmpty => call = .best ∧ m = c ∧ c.orders.ordered = []
  | bestPresent => call = .best ∧ m = c ∧ c.orders.ordered ≠ []
  | prices price => call = .pricesInfo price
  | pricesLocked price => call = .pricesInfo price ∧ m = c
  | pricesEmpty price => call = .pricesInfo price ∧ m = c ∧ c.orders.ordered = []
  | pricesScan price position info => call = .pricesInfo price ∧ m = c ∧ c.orders.ordered ≠ [] ∧
      info = c.scanned price position
  | unlocking _ | unlockingShared _ | ended _ => False

/-- What holds of a call that has taken effect. -/
def Settled (answer : SideAnswer) (point : SidePoint) : Prop :=
  point = unlocking answer ∨ point = unlockingShared answer ∨ point = ended answer

/-- What the next step of a call may be: one that shows nothing, or the one
in which the call takes effect. -/
def Acts (call : SideCall) (c : BookSide comparator)
    (next : BookSide comparator × SidePoint × List LogEntry) : Prop :=
  (next.2.2 = [] ∧ Stands texts call c next.2.1 next.1 ∧ (next.2.1.holds ≠ .exclusive → next.1 = c)) ∨
    ∃ answer, c.perform texts call = some (next.1, answer, next.2.2) ∧ Settled answer next.2.1

variable {texts : SideTexts} {call : SideCall} {c m : BookSide comparator} {point : SidePoint}
  {next : BookSide comparator × SidePoint × List LogEntry}

theorem acts_silent {after : BookSide comparator} {target : SidePoint} (stands : Stands texts call c target after)
    (given : target.holds ≠ .exclusive → after = c) : Acts texts call c (after, target, []) :=
  .inl ⟨rfl, stands, given⟩

theorem acts_commit {after : BookSide comparator} {target : SidePoint} {answer : SideAnswer} {lines : List LogEntry}
    (performed : c.perform texts call = some (after, answer, lines)) (settled : Settled answer target) :
    Acts texts call c (after, target, lines) := .inr ⟨answer, performed, settled⟩

theorem acts_new (order : Order) (acted : act texts (new order) c = some next) :
    Acts texts (.change (.new order)) c next := by
  obtain rfl := Option.some.inj acted
  cases valid : (validate order s!"New{texts.camel}").value with
  | true => exact .inl ⟨BookSide.validate_of_valid valid, ⟨rfl, valid⟩, fun _ => rfl⟩
  | false => exact acts_commit (BookSide.perform_new_of_invalid texts c valid) (.inr (.inr rfl))

theorem acts_newLocked {order : Order} (valid : NewValid texts order) (acted : act texts (newLocked order) c = some next) :
    Acts texts (.change (.new order)) c next := by
  obtain rfl := Option.some.inj acted
  cases inserted : (c.orders.insert order).2 with
  | true => exact acts_silent ⟨rfl, valid, inserted, rfl⟩ (absurd rfl)
  | false => exact acts_silent ⟨rfl, valid, inserted, rfl⟩ (absurd rfl)

theorem acts_newCounted {order : Order} (valid : NewValid texts order) (inserted : (c.orders.insert order).2 = true)
    (acted : act texts (newCounted order) ⟨(c.orders.insert order).1, c.total + order.quantity⟩ = some next) :
    Acts texts (.change (.new order)) c next := by
  obtain rfl := Option.some.inj acted
  refine acts_commit ?_ (.inl rfl)
  rw [BookSide.perform_new_of_valid texts c valid, if_pos inserted]

theorem acts_newPresent {order : Order} (valid : NewValid texts order) (refused : (c.orders.insert order).2 = false)
    (acted : act texts (newPresent order) ⟨(c.orders.insert order).1, c.total⟩ = some next) :
    Acts texts (.change (.new order)) c next := by
  obtain rfl := Option.some.inj acted
  refine acts_commit ?_ (.inl rfl)
  rw [BookSide.perform_new_of_valid texts c valid, refused, if_neg Bool.false_ne_true]

theorem acts_cancelLocked (orderId : ID) (acted : act texts (cancelLocked orderId) c = some next) :
    Acts texts (.change (.cancel orderId)) c next := by
  obtain rfl := Option.some.inj acted
  cases found : c.orders.find orderId with
  | none => exact acts_silent ⟨rfl, rfl, found⟩ (absurd rfl)
  | some resting => exact acts_silent ⟨rfl, rfl, resting, found⟩ (absurd rfl)

theorem acts_replace (oldOrder newOrder : Order) (acted : act texts (replace oldOrder newOrder) c = some next) :
    Acts texts (.change (.replace oldOrder newOrder)) c next := by
  simp only [act] at acted
  split at acted
  next invalid =>
    obtain rfl := Option.some.inj acted
    exact acts_commit (BookSide.perform_replace_of_invalid texts c oldOrder invalid) (.inr (.inr rfl))
  next valid =>
    have valid := Bool.eq_false_of_not_eq_true valid
    split at acted
    next other =>
      obtain rfl := Option.some.inj acted
      exact acts_commit (BookSide.perform_replace_of_other_id texts c valid other) (.inr (.inr rfl))
    next same =>
      obtain rfl := Option.some.inj acted
      exact acts_silent ⟨rfl, valid, Bool.eq_false_of_not_eq_true same⟩ fun _ => rfl

theorem acts_replaceLocked {oldOrder newOrder : Order} (valid : ReplaceValid oldOrder newOrder)
    (acted : act texts (replaceLocked oldOrder newOrder) c = some next) :
    Acts texts (.change (.replace oldOrder newOrder)) c next := by
  obtain rfl := Option.some.inj acted
  cases found : c.orders.find oldOrder.id with
  | none => exact acts_silent ⟨newOrder, rfl, valid, found, rfl⟩ (absurd rfl)
  | some resting => exact acts_silent ⟨oldOrder, resting, rfl, valid, rfl, found, rfl⟩ (absurd rfl)

theorem acts_bestLocked (acted : act texts bestLocked c = some next) : Acts texts .best c next := by
  obtain rfl := Option.some.inj acted
  cases orders : c.orders.ordered with
  | nil => exact acts_silent ⟨rfl, rfl, orders⟩ fun _ => rfl
  | cons first rest => exact acts_silent ⟨rfl, rfl, by simp [orders]⟩ fun _ => rfl

theorem acts_pricesLocked (price : Price) (acted : act texts (pricesLocked price) c = some next) :
    Acts texts (.pricesInfo price) c next := by
  obtain rfl := Option.some.inj acted
  cases orders : c.orders.ordered with
  | nil => exact acts_silent ⟨rfl, rfl, orders⟩ fun _ => rfl
  | cons first rest => exact acts_silent ⟨rfl, rfl, by simp [orders], rfl⟩ fun _ => rfl

/-- The loop over a price level takes effect when it has come to the end of the level. -/
theorem acts_pricesScan {price : Price} {position : Nat} (present : c.orders.ordered ≠ [])
    (acted : act texts (pricesScan price position (c.scanned price position)) c = some next) :
    Acts texts (.pricesInfo price) c next := by
  simp only [act] at acted
  split at acted
  next o atPosition =>
    obtain rfl := Option.some.inj acted
    exact acts_silent ⟨rfl, rfl, present, (c.scanned_succ atPosition).symm⟩ fun _ => rfl
  next finished =>
    obtain rfl := Option.some.inj acted
    exact acts_commit (BookSide.perform_pricesInfo_of_scanned texts c present finished) (.inr (.inl rfl))

/-- Every step of a call that has not taken effect shows nothing, unless it
is the one that writes the call's line or reads its answer: there the call
takes effect. -/
theorem acts_of_stands (stands : Stands texts call c point m) (given : point.holds ≠ .exclusive → m = c)
    (acted : act texts point m = some next) : Acts texts call c next := by
  cases point with
  | new order =>
    obtain rfl := given (by simp [holds])
    obtain rfl : call = .change (.new order) := stands
    exact acts_new order acted
  | newWaiting order =>
    obtain rfl := given (by simp [holds])
    obtain rfl := Option.some.inj acted
    exact acts_silent ⟨stands.1, stands.2, rfl⟩ (absurd rfl)
  | newLocked order =>
    obtain ⟨rfl, valid, rfl⟩ := stands
    exact acts_newLocked valid acted
  | newInserted order =>
    obtain ⟨rfl, valid, inserted, rfl⟩ := stands
    obtain rfl := Option.some.inj acted
    exact acts_silent ⟨rfl, valid, inserted, rfl⟩ (absurd rfl)
  | newCounted order =>
    obtain ⟨rfl, valid, inserted, rfl⟩ := stands
    exact acts_newCounted valid inserted acted
  | newPresent order =>
    obtain ⟨rfl, valid, refused, rfl⟩ := stands
    exact acts_newPresent valid refused acted
  | cancel orderId =>
    obtain rfl := given (by simp [holds])
    obtain rfl := Option.some.inj acted
    exact acts_silent ⟨stands, rfl⟩ (absurd rfl)
  | cancelLocked orderId =>
    obtain ⟨rfl, rfl⟩ := stands
    exact acts_cancelLocked orderId acted
  | cancelFound orderId =>
    obtain ⟨rfl, rfl, resting, found⟩ := stands
    simp only [act, found, Option.map_some, Option.some.injEq] at acted
    subst acted
    exact acts_silent ⟨rfl, resting, found, rfl⟩ (absurd rfl)
  | cancelCounted orderId =>
    obtain ⟨rfl, resting, found, rfl⟩ := stands
    simp only [act, found, Option.map_some, Option.some.injEq] at acted
    subst acted
    exact acts_silent ⟨rfl, resting, found, rfl⟩ (absurd rfl)
  | cancelErased orderId =>
    obtain ⟨rfl, resting, found, rfl⟩ := stands
    obtain rfl := Option.some.inj acted
    exact acts_commit (BookSide.perform_cancel_of_found texts c found) (.inl rfl)
  | cancelAbsent orderId =>
    obtain ⟨rfl, rfl, absent⟩ := stands
    obtain rfl := Option.some.inj acted
    exact acts_commit (BookSide.perform_cancel_of_absent texts m absent) (.inl rfl)
  | replace oldOrder newOrder =>
    obtain rfl := given (by simp [holds])
    obtain rfl : call = .change (.replace oldOrder newOrder) := stands
    exact acts_replace oldOrder newOrder acted
  | replaceWaiting oldOrder newOrder =>
    obtain rfl := given (by simp [holds])
    obtain rfl := Option.some.inj acted
    exact acts_silent ⟨stands.1, stands.2, rfl⟩ (absurd rfl)
  | replaceLocked oldOrder newOrder =>
    obtain ⟨rfl, valid, rfl⟩ := stands
    exact acts_replaceLocked valid acted
  | replaceFound it newOrder =>
    obtain ⟨oldOrder, resting, rfl, valid, rfl, found, rfl⟩ := stands
    simp only [act, found, Option.map_some, Option.some.injEq] at acted
    subst acted
    exact acts_silent ⟨oldOrder, resting, rfl, valid, rfl, found, rfl⟩ (absurd rfl)
  | replaceDebited it newOrder =>
    obtain ⟨oldOrder, resting, rfl, valid, rfl, found, rfl⟩ := stands
    obtain rfl := Option.some.inj acted
    exact acts_silent ⟨oldOrder, resting, rfl, valid, rfl, found, rfl⟩ (absurd rfl)
  | replaceCredited it newOrder =>
    obtain ⟨oldOrder, resting, rfl, valid, rfl, found, rfl⟩ := stands
    simp only [act, found, Option.map_some, Option.some.injEq] at acted
    subst acted
    exact acts_silent ⟨oldOrder, resting, rfl, valid, found, rfl⟩ (absurd rfl)
  | replaceModified newOrder =>
    obtain ⟨oldOrder, resting, rfl, valid, found, rfl⟩ := stands
    obtain rfl := Option.some.inj acted
    exact acts_commit (BookSide.perform_replace_of_found texts c valid.1 valid.2 found) (.inl rfl)
  | replaceAbsent oldOrder =>
    obtain ⟨newOrder, rfl, valid, absent, rfl⟩ := stands
    obtain rfl := Option.some.inj acted
    exact acts_commit (BookSide.perform_replace_of_absent texts m valid.1 valid.2 absent) (.inl rfl)
  | best =>
    obtain rfl := given (by simp [holds])
    obtain rfl := Option.some.inj acted
    exact acts_silent ⟨stands, rfl⟩ fun _ => rfl
  | bestLocked =>
    obtain ⟨rfl, rfl⟩ := stands
    exact acts_bestLocked acted
  | bestEmpty =>
    obtain ⟨rfl, rfl, empty⟩ := stands
    obtain rfl := Option.some.inj acted
    exact acts_commit (BookSide.perform_best_of_empty texts m empty) (.inr (.inl rfl))
  | bestPresent =>
    obtain ⟨rfl, rfl, _⟩ := stands
    obtain ⟨first, atHead, rfl⟩ := Option.map_eq_some_iff.mp acted
    exact acts_commit (BookSide.perform_best_of_first texts m atHead) (.inr (.inl rfl))
  | prices price =>
    obtain rfl := given (by simp [holds])
    obtain rfl := Option.some.inj acted
    exact acts_silent ⟨stands, rfl⟩ fun _ => rfl
  | pricesLocked price =>
    obtain ⟨rfl, rfl⟩ := stands
    exact acts_pricesLocked price acted
  | pricesEmpty price =>
    obtain ⟨rfl, rfl, empty⟩ := stands
    obtain rfl := Option.some.inj acted
    exact acts_commit (BookSide.perform_pricesInfo_of_empty texts m price empty) (.inr (.inl rfl))
  | pricesScan price position info =>
    obtain ⟨rfl, rfl, present, rfl⟩ := stands
    exact acts_pricesScan present acted
  | unlocking answer => exact stands.elim
  | unlockingShared answer => exact stands.elim
  | ended answer => exact stands.elim

/-- Outside the lock a call neither reads nor writes the side. -/
theorem act_unread (free : point.holds = .nothing) (acted : act texts point m = some next)
    (other : BookSide comparator) : act texts point other = some (other, next.2) := by
  cases point with
  | new order | newWaiting order | cancel orderId | replaceWaiting oldOrder newOrder | best | prices price =>
    obtain rfl := Option.some.inj acted
    rfl
  | replace oldOrder newOrder =>
    simp only [act] at acted ⊢
    split at acted
    next invalid =>
      obtain rfl := Option.some.inj acted
      rw [if_pos invalid]
    next valid =>
      rw [if_neg valid]
      split at acted
      next differ =>
        obtain rfl := Option.some.inj acted
        rw [if_pos differ]
      next same =>
        obtain rfl := Option.some.inj acted
        rw [if_neg same]
  | ended answer => contradiction
  | _ => contradiction

/-- A call that does not hold the lock for itself leaves the side as it is. -/
theorem act_unwritten (shared : point.holds ≠ .exclusive) (acted : act texts point m = some next) : next.1 = m := by
  cases hold : point.holds with
  | exclusive => exact absurd hold shared
  | nothing =>
    have again := act_unread hold acted m
    rw [acted, Option.some.injEq] at again
    exact congrArg Prod.fst again
  | shared =>
    cases point with
    | bestPresent =>
      obtain ⟨first, _, rfl⟩ := Option.map_eq_some_iff.mp acted
      rfl
    | pricesScan price position info =>
      simp only [act] at acted
      split at acted <;> exact Option.some.inj acted ▸ rfl
    | bestLocked | bestEmpty | pricesLocked price | pricesEmpty price | unlockingShared answer =>
      obtain rfl := Option.some.inj acted
      rfl
    | _ => contradiction

theorem act_of_settled {answer : SideAnswer} (settled : Settled answer point) (acted : act texts point m = some next) :
    next.1 = m ∧ next.2.2 = [] ∧ Settled answer next.2.1 := by
  rcases settled with rfl | rfl | rfl
  · obtain rfl := Option.some.inj acted
    exact ⟨rfl, rfl, .inr (.inr rfl)⟩
  · obtain rfl := Option.some.inj acted
    exact ⟨rfl, rfl, .inr (.inr rfl)⟩
  · contradiction

/-- A call follows no iterator to an order that is gone. -/
theorem act_defined (stands : Stands texts call c point m) : act texts point m ≠ none := by
  cases point with
  | cancelFound orderId =>
    obtain ⟨_, rfl, resting, found⟩ := stands
    simp [act, found]
  | cancelCounted orderId =>
    obtain ⟨_, resting, found, rfl⟩ := stands
    simp [act, found]
  | replaceFound it newOrder | replaceCredited it newOrder =>
    obtain ⟨oldOrder, resting, _, _, _, found, rfl⟩ := stands
    simp [act, found]
  | bestPresent =>
    obtain ⟨_, rfl, present⟩ := stands
    simpa [act, Option.map_eq_none_iff] using present
  | replace oldOrder newOrder =>
    simp only [act]
    split
    next => exact Option.some_ne_none _
    next => split <;> exact Option.some_ne_none _
  | pricesScan price position info =>
    simp only [act]
    split <;> exact Option.some_ne_none _
  | ended answer => exact stands.elim
  | _ => exact Option.some_ne_none _

theorem act_defined_of_settled {answer : SideAnswer} (settled : Settled answer point) (under : point.answer = none) :
    act texts point m ≠ none := by
  rcases settled with rfl | rfl | rfl
  · exact Option.some_ne_none _
  · exact Option.some_ne_none _
  · contradiction

/-- The lock is given back before it is taken in another way. -/
theorem act_no_upgrade (acted : act texts point m = some next) :
    point.holds = .nothing ∨ next.2.1.holds = .nothing ∨ next.2.1.holds = point.holds := by
  cases point with
  | new _ | newWaiting _ | cancel _ | replace _ _ | replaceWaiting _ _ | best | prices _ | ended _ => exact .inl rfl
  | newLocked order =>
    obtain rfl := Option.some.inj acted
    cases (m.orders.insert order).2 <;> exact .inr (.inr rfl)
  | cancelLocked orderId =>
    obtain rfl := Option.some.inj acted
    cases (m.orders.find orderId).isSome <;> exact .inr (.inr rfl)
  | replaceLocked oldOrder newOrder =>
    obtain rfl := Option.some.inj acted
    cases (m.orders.find oldOrder.id).isSome <;> exact .inr (.inr rfl)
  | cancelFound _ | cancelCounted _ | replaceFound _ _ | replaceCredited _ _ | bestPresent =>
    obtain ⟨_, _, rfl⟩ := Option.map_eq_some_iff.mp acted
    exact .inr (.inr rfl)
  | bestLocked | pricesLocked _ =>
    obtain rfl := Option.some.inj acted
    cases m.orders.ordered.isEmpty <;> exact .inr (.inr rfl)
  | pricesScan price position info =>
    simp only [act] at acted
    split at acted <;> exact Option.some.inj acted ▸ .inr (.inr rfl)
  | unlocking _ | unlockingShared _ =>
    obtain rfl := Option.some.inj acted
    exact .inr (.inl rfl)
  | _ =>
    obtain rfl := Option.some.inj acted
    exact .inr (.inr rfl)

/-- Before the lock is taken, nothing depends on the side. -/
theorem stands_of_free (free : point.holds = .nothing) (stands : Stands texts call c point c)
    (other : BookSide comparator) : Stands texts call other point other := by
  cases point with
  | new order | newWaiting order | cancel orderId | replace oldOrder newOrder | replaceWaiting oldOrder newOrder
  | best | prices price | ended answer => exact stands
  | _ => contradiction

end SidePoint

/-- The calls on one side keep to the side's lock. -/
theorem sideCode_disciplined (comparator : Order → Order → Bool) (texts : SideTexts) :
    Disciplined (sideCode comparator texts) (BookSide.perform texts) (SidePoint.Stands texts) SidePoint.Settled where
  start_free call := by
    cases call with
    | change op => cases op <;> rfl
    | best | pricesInfo price => rfl
  start call c := by
    cases call with
    | change op => cases op <;> rfl
    | best | pricesInfo price => rfl
  blind call point c free stands := SidePoint.stands_of_free free stands
  unread point m next free acted := SidePoint.act_unread free acted
  unwritten point m next := SidePoint.act_unwritten
  acts call c point m next := SidePoint.acts_of_stands
  settles answer point m next := SidePoint.act_of_settled
  unfinished call c point m stands := by
    cases point with
    | ended answer => exact stands.elim
    | _ => rfl
  answers answer point answer' settled finished := by
    rcases settled with rfl | rfl | rfl
    · contradiction
    · contradiction
    · exact (Option.some.inj finished).symm
  end_free point finished := by
    cases point with
    | ended answer => rfl
    | _ => exact absurd rfl finished
  defined call c point m stands _ := SidePoint.act_defined stands
  settled_defined answer point m := SidePoint.act_defined_of_settled
  no_upgrade point m next := SidePoint.act_no_upgrade

end Stakan
