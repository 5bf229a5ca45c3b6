import Stakan.Library.Decimal
import Stakan.OrderBook.Refinement
import Stakan.OrderBook.Sequential

namespace Stakan

/-- The line for an order that goes onto a side, and for one that is taken off it. -/
def SideNames.addedLine (names : SideNames) (id : ID) : LogEntry := ⟨.info, s!"New {names.upper} added, id = {id}"⟩
def SideNames.canceledLine (names : SideNames) (id : ID) : LogEntry := ⟨.info, s!"{names.camel} canceled, id = {id}"⟩

def SideNames.replacedLine (names : SideNames) (id : ID) : LogEntry := ⟨.info, s!"Replaced {names.upper} id = {id}"⟩

/-- What one line says about an identifier that has been resting so far, or not. -/
def readLine (names : SideNames) (id : ID) (rests : Bool) (line : LogEntry) : Bool :=
  if line = names.addedLine id then true else if line = names.canceledLine id then false else rests

/-- Whether an order with the identifier rests on the side, told from the log alone. -/
def restsByLog (names : SideNames) (log : List LogEntry) (id : ID) : Bool := log.foldl (readLine names id) false

/-- What one call on a side does, told by its lines: they name the
identifier whose entry they add, remove or replace, or nothing happens. -/
inductive Tells (names : SideNames) (before after : RestingMap) : List LogEntry → Prop
  | added (id : ID) (entry : Price × Quantity) (update : after = Function.update before id (some entry)) :
      Tells names before after [names.addedLine id]
  | canceled (id : ID) (update : after = Function.update before id none) :
      Tells names before after [names.canceledLine id]
  | replaced (id : ID) (same : ∀ id, (after id).isSome = (before id).isSome) :
      Tells names before after [names.replacedLine id]
  | nothing (same : after = before) (lines : List LogEntry) (complaints : ∀ line ∈ lines, line.level ≠ .info) :
      Tells names before after lines

namespace BookSide

variable {comparator : Order → Order → Bool} {side after : BookSide comparator}

theorem complaint_of_mem_validate {order : Order} {operation : String} {line : LogEntry}
    (member : line ∈ (validate order operation).entries) : line.level ≠ .info := by
  unfold validate at member
  split at member
  next =>
    obtain rfl := List.mem_singleton.mp member
    exact LogLevel.noConfusion
  next => cases member

theorem eq_of_performed {lines lines' : List LogEntry} {side' : BookSide comparator} {answer answer' : SideAnswer}
    (performed : some (side', answer', lines') = some (after, answer, lines)) : side' = after ∧ lines' = lines := by
  obtain ⟨first, rest⟩ := Prod.mk.inj (Option.some.inj performed)
  exact ⟨first, (Prod.mk.inj rest).2⟩

theorem tells_complaint {texts : SideTexts} {before : RestingMap} {line : LogEntry} (complaint : line.level ≠ .info) :
    Tells texts.toSideNames before before [line] :=
  .nothing rfl _ fun _ member => List.mem_singleton.mp member ▸ complaint

theorem tells_new (coherent : side.orders.Coherent) {texts : SideTexts} {order : Order} {answer : SideAnswer}
    {lines : List LogEntry}
    (performed : side.perform texts (.change (.new order)) = some (after, answer, lines)) :
    Tells texts.toSideNames side.resting after.resting lines := by
  cases valid : (validate order s!"New{texts.camel}").value with
  | false =>
    rw [perform_new_of_invalid texts side valid] at performed
    obtain ⟨rfl, rfl⟩ := eq_of_performed performed
    exact .nothing rfl _ fun line => complaint_of_mem_validate
  | true =>
    rw [perform_new_of_valid texts side valid] at performed
    cases found : side.orders.find order.id with
    | none =>
      have inserted : (side.orders.insert order).2 = true := by simp [MultiIndex.insert, found]
      rw [if_pos inserted] at performed
      obtain ⟨rfl, rfl⟩ := eq_of_performed performed
      exact .added order.id (order.price, order.quantity) (resting_update (coherent.find_insert found))
    | some resting =>
      have refused : side.orders.insert order = (side.orders, false) := by simp [MultiIndex.insert, found]
      rw [refused, if_neg Bool.false_ne_true] at performed
      obtain ⟨rfl, rfl⟩ := eq_of_performed performed
      exact tells_complaint LogLevel.noConfusion

theorem tells_cancel (coherent : side.orders.Coherent) {texts : SideTexts} {orderId : ID} {answer : SideAnswer}
    {lines : List LogEntry}
    (performed : side.perform texts (.change (.cancel orderId)) = some (after, answer, lines)) :
    Tells texts.toSideNames side.resting after.resting lines := by
  cases found : side.orders.find orderId with
  | none =>
    rw [perform_cancel_of_absent texts side found] at performed
    obtain ⟨rfl, rfl⟩ := eq_of_performed performed
    exact tells_complaint LogLevel.noConfusion
  | some resting =>
    rw [perform_cancel_of_found texts side found] at performed
    obtain ⟨rfl, rfl⟩ := eq_of_performed performed
    exact .canceled orderId (resting_update (coherent.find_erase orderId))

theorem tells_replace (coherent : side.orders.Coherent) {texts : SideTexts} {oldOrder newOrder : Order}
    {answer : SideAnswer} {lines : List LogEntry}
    (performed : side.perform texts (.change (.replace oldOrder newOrder)) = some (after, answer, lines)) :
    Tells texts.toSideNames side.resting after.resting lines := by
  cases valid : newOrder.price == 0 || newOrder.quantity == 0 with
  | true =>
    rw [perform_replace_of_invalid texts side oldOrder valid] at performed
    obtain ⟨rfl, rfl⟩ := eq_of_performed performed
    exact tells_complaint LogLevel.noConfusion
  | false => cases same : oldOrder.id != newOrder.id with
    | true =>
      rw [perform_replace_of_other_id texts side valid same] at performed
      obtain ⟨rfl, rfl⟩ := eq_of_performed performed
      exact tells_complaint LogLevel.noConfusion
    | false => cases found : side.orders.find oldOrder.id with
      | none =>
        rw [perform_replace_of_absent texts side valid same found] at performed
        obtain ⟨rfl, rfl⟩ := eq_of_performed performed
        exact tells_complaint LogLevel.noConfusion
      | some resting =>
        rw [perform_replace_of_found texts side valid same found] at performed
        obtain ⟨rfl, rfl⟩ := eq_of_performed performed
        obtain ⟨member, atId⟩ := coherent.find_eq_some.mp found
        have changed : (side.orders.modify resting.id newOrder.assignTerms).find =
            Function.update side.orders.find resting.id (some (newOrder.assignTerms resting)) :=
          coherent.find_modify member rfl
        rw [atId] at changed
        have updated : BookSide.resting ⟨side.orders.modify oldOrder.id newOrder.assignTerms,
            side.total - resting.quantity + newOrder.quantity⟩ =
              Function.update side.resting oldOrder.id (some (newOrder.price, newOrder.quantity)) :=
          resting_update changed
        refine .replaced newOrder.id fun id => ?_
        rw [updated]
        by_cases same : id = oldOrder.id
        · simp [same, BookSide.resting, found]
        · rw [Function.update_of_ne same]

/-- What the lines of a call on a side tell is what the call has done. -/
theorem tells_of_perform (coherent : side.orders.Coherent) {texts : SideTexts} {call : SideCall} {answer : SideAnswer}
    {lines : List LogEntry} (performed : side.perform texts call = some (after, answer, lines)) :
    Tells texts.toSideNames side.resting after.resting lines := by
  cases call with
  | change op => cases op with
    | new order => exact tells_new coherent performed
    | cancel orderId => exact tells_cancel coherent performed
    | replace oldOrder newOrder => exact tells_replace coherent performed
  | best =>
    obtain ⟨rfl, rfl⟩ := eq_of_performed performed
    refine .nothing rfl _ fun line member => ?_
    unfold best at member
    split at member
    next =>
      obtain rfl := List.mem_singleton.mp member
      exact LogLevel.noConfusion
    next => cases member
  | pricesInfo price =>
    obtain ⟨rfl, rfl⟩ := eq_of_performed performed
    refine .nothing rfl _ fun line member => ?_
    unfold getContainerPrice at member
    split at member
    next =>
      obtain rfl := List.mem_singleton.mp member
      exact LogLevel.noConfusion
    next => cases member

end BookSide

/-- The lines of a side can be told apart, and so can the identifiers in them. -/
structure SideNames.Distinct (names : SideNames) : Prop where
  added : ∀ id id', names.addedLine id = names.addedLine id' → id = id'
  canceled : ∀ id id', names.canceledLine id = names.canceledLine id' → id = id'
  canceled_added : ∀ id id', names.canceledLine id ≠ names.addedLine id'
  replaced_added : ∀ id id', names.replacedLine id ≠ names.addedLine id'
  replaced_canceled : ∀ id id', names.replacedLine id ≠ names.canceledLine id'

/-- The lines of the other side are never taken for lines of this one. -/
structure SideNames.Apart (names other : SideNames) : Prop where
  added_added : ∀ id id', other.addedLine id ≠ names.addedLine id'
  added_canceled : ∀ id id', other.addedLine id ≠ names.canceledLine id'
  canceled_added : ∀ id id', other.canceledLine id ≠ names.addedLine id'
  canceled_canceled : ∀ id id', other.canceledLine id ≠ names.canceledLine id'
  replaced_added : ∀ id id', other.replacedLine id ≠ names.addedLine id'
  replaced_canceled : ∀ id id', other.replacedLine id ≠ names.canceledLine id'

section Lines

variable {names other : SideNames} {before after : RestingMap} {lines : List LogEntry}

theorem readLine_complaint {line : LogEntry} (complaint : line.level ≠ .info) (id : ID) (rests : Bool) :
    readLine names id rests line = rests := by
  have notAdded : line ≠ names.addedLine id := fun same => complaint (same ▸ rfl)
  have notCanceled : line ≠ names.canceledLine id := fun same => complaint (same ▸ rfl)
  rw [readLine, if_neg notAdded, if_neg notCanceled]

theorem readLine_complaints (complaints : ∀ line ∈ lines, line.level ≠ .info) (id : ID) (rests : Bool) :
    lines.foldl (readLine names id) rests = rests := by
  induction lines generalizing rests with
  | nil => rfl
  | cons line lines ih =>
    obtain ⟨first, rest⟩ := List.forall_mem_cons.mp complaints
    rw [List.foldl_cons, readLine_complaint first, ih rest]

/-- Reading the lines of a call on the side follows what the call does. -/
theorem Tells.read (tells : Tells names before after lines) (distinct : names.Distinct) (id : ID) :
    lines.foldl (readLine names id) (before id).isSome = (after id).isSome := by
  cases tells with
  | added id' entry update =>
    rw [List.foldl_cons, List.foldl_nil, update, readLine]
    by_cases same : id = id'
    · rw [same, if_pos rfl, Function.update_self]
      rfl
    · have other : names.addedLine id' ≠ names.addedLine id := fun equal => same (distinct.added _ _ equal).symm
      have differ : names.addedLine id' ≠ names.canceledLine id := fun equal =>
        distinct.canceled_added _ _ equal.symm
      rw [if_neg other, if_neg differ, Function.update_of_ne same]
  | canceled id' update =>
    rw [List.foldl_cons, List.foldl_nil, update, readLine, if_neg (distinct.canceled_added _ _)]
    by_cases same : id = id'
    · rw [same, if_pos rfl, Function.update_self]
      rfl
    · have other : names.canceledLine id' ≠ names.canceledLine id := fun equal =>
        same (distinct.canceled _ _ equal).symm
      rw [if_neg other, Function.update_of_ne same]
  | replaced id' same =>
    rw [List.foldl_cons, List.foldl_nil, readLine, if_neg (distinct.replaced_added _ _),
      if_neg (distinct.replaced_canceled _ _), same]
  | nothing same lines complaints =>
    rw [same, readLine_complaints complaints]

/-- Reading the lines of a call on the other side changes nothing. -/
theorem Tells.skip (tells : Tells other before after lines) (apart : names.Apart other) (id : ID) (rests : Bool) :
    lines.foldl (readLine names id) rests = rests := by
  cases tells with
  | added id' entry update =>
    rw [List.foldl_cons, List.foldl_nil, readLine, if_neg (apart.added_added _ _), if_neg (apart.added_canceled _ _)]
  | canceled id' update =>
    rw [List.foldl_cons, List.foldl_nil, readLine, if_neg (apart.canceled_added _ _),
      if_neg (apart.canceled_canceled _ _)]
  | replaced id' same =>
    rw [List.foldl_cons, List.foldl_nil, readLine, if_neg (apart.replaced_added _ _),
      if_neg (apart.replaced_canceled _ _)]
  | nothing same lines complaints => exact readLine_complaints complaints id rests

end Lines

section Texts

theorem SideNames.added_inj (names : SideNames) {id id' : ID} (same : names.addedLine id = names.addedLine id') :
    id = id' := by
  have texts := congrArg (fun line => line.msg.toList) same
  simp only [addedLine, String.toList_append, List.append_cancel_left_eq] at texts
  exact Decimal.toString_injective (String.toList_injective texts)

theorem SideNames.canceled_inj (names : SideNames) {id id' : ID}
    (same : names.canceledLine id = names.canceledLine id') : id = id' := by
  have texts := congrArg (fun line => line.msg.toList) same
  simp only [canceledLine, String.toList_append, List.append_cancel_left_eq] at texts
  exact Decimal.toString_injective (String.toList_injective texts)

/-- The first five characters of a line's text: they tell the kinds of lines apart. -/
def LogEntry.lead (line : LogEntry) : List Char := line.msg.toList.take 5

theorem ne_of_lead {line line' : LogEntry} {lead lead' : List Char} (first : line.lead = lead)
    (second : line'.lead = lead') (differ : lead ≠ lead') : line ≠ line' := by
  rintro rfl
  exact differ (first.symm.trans second)

theorem lead_added_bid (id : ID) : (bidNames.addedLine id).lead = ['N', 'e', 'w', ' ', 'B'] := by
  simp only [LogEntry.lead, SideNames.addedLine, String.toList_append]
  rfl

theorem lead_added_ask (id : ID) : (askNames.addedLine id).lead = ['N', 'e', 'w', ' ', 'A'] := by
  simp only [LogEntry.lead, SideNames.addedLine, String.toList_append]
  rfl

theorem lead_canceled_bid (id : ID) : (bidNames.canceledLine id).lead = ['B', 'i', 'd', ' ', 'c'] := by
  simp only [LogEntry.lead, SideNames.canceledLine, String.toList_append]
  rfl

theorem lead_canceled_ask (id : ID) : (askNames.canceledLine id).lead = ['A', 's', 'k', ' ', 'c'] := by
  simp only [LogEntry.lead, SideNames.canceledLine, String.toList_append]
  rfl

theorem lead_replaced (names : SideNames) (id : ID) : (names.replacedLine id).lead = ['R', 'e', 'p', 'l', 'a'] := by
  simp only [LogEntry.lead, SideNames.replacedLine, String.toList_append]
  rfl

theorem bidNames_distinct : bidNames.Distinct where
  added _ _ := bidNames.added_inj
  canceled _ _ := bidNames.canceled_inj
  canceled_added id id' := ne_of_lead (lead_canceled_bid id) (lead_added_bid id') (by decide)
  replaced_added id id' := ne_of_lead (lead_replaced _ id) (lead_added_bid id') (by decide)
  replaced_canceled id id' := ne_of_lead (lead_replaced _ id) (lead_canceled_bid id') (by decide)

theorem askNames_distinct : askNames.Distinct where
  added _ _ := askNames.added_inj
  canceled _ _ := askNames.canceled_inj
  canceled_added id id' := ne_of_lead (lead_canceled_ask id) (lead_added_ask id') (by decide)
  replaced_added id id' := ne_of_lead (lead_replaced _ id) (lead_added_ask id') (by decide)
  replaced_canceled id id' := ne_of_lead (lead_replaced _ id) (lead_canceled_ask id') (by decide)

theorem bidNames_apart : bidNames.Apart askNames where
  added_added id id' := ne_of_lead (lead_added_ask id) (lead_added_bid id') (by decide)
  added_canceled id id' := ne_of_lead (lead_added_ask id) (lead_canceled_bid id') (by decide)
  canceled_added id id' := ne_of_lead (lead_canceled_ask id) (lead_added_bid id') (by decide)
  canceled_canceled id id' := ne_of_lead (lead_canceled_ask id) (lead_canceled_bid id') (by decide)
  replaced_added id id' := ne_of_lead (lead_replaced _ id) (lead_added_bid id') (by decide)
  replaced_canceled id id' := ne_of_lead (lead_replaced _ id) (lead_canceled_bid id') (by decide)

theorem askNames_apart : askNames.Apart bidNames where
  added_added id id' := ne_of_lead (lead_added_bid id) (lead_added_ask id') (by decide)
  added_canceled id id' := ne_of_lead (lead_added_bid id) (lead_canceled_ask id') (by decide)
  canceled_added id id' := ne_of_lead (lead_canceled_bid id) (lead_added_ask id') (by decide)
  canceled_canceled id id' := ne_of_lead (lead_canceled_bid id) (lead_canceled_ask id') (by decide)
  replaced_added id id' := ne_of_lead (lead_replaced _ id) (lead_added_ask id') (by decide)
  replaced_canceled id id' := ne_of_lead (lead_replaced _ id) (lead_canceled_ask id') (by decide)

end Texts

theorem BookSide.WellFormed.perform {comparator : Order → Order → Bool} {side after : BookSide comparator}
    {texts : SideTexts} {call : SideCall} {answer : SideAnswer} {lines : List LogEntry} (wf : side.WellFormed)
    (total : OrderedIndex.StrictTotal comparator)
    (performed : side.perform texts call = some (after, answer, lines)) : after.WellFormed := by
  cases call with
  | change op =>
    obtain ⟨rfl, _⟩ := eq_of_performed performed
    exact wf.step total texts.toSideNames op
  | best | pricesInfo price =>
    obtain ⟨rfl, _⟩ := eq_of_performed performed
    exact wf

theorem BookSide.perform_defined {comparator : Order → Order → Bool} (side : BookSide comparator) (texts : SideTexts)
    (call : SideCall) : ∃ after answer lines, side.perform texts call = some (after, answer, lines) := by
  cases call <;> exact ⟨_, _, _, rfl⟩

/-- A call of the book is a call on one of its sides. -/
theorem BookCall.side_cases (call : BookCall) : ∃ side : SideCall, call = side.onBid ∨ call = side.onAsk := by
  cases call with
  | change op => cases op with
    | newBid order => exact ⟨.change (.new order), .inl rfl⟩
    | newAsk order => exact ⟨.change (.new order), .inr rfl⟩
    | cancelBid orderId => exact ⟨.change (.cancel orderId), .inl rfl⟩
    | cancelAsk orderId => exact ⟨.change (.cancel orderId), .inr rfl⟩
    | replaceBid oldOrder newOrder => exact ⟨.change (.replace oldOrder newOrder), .inl rfl⟩
    | replaceAsk oldOrder newOrder => exact ⟨.change (.replace oldOrder newOrder), .inr rfl⟩
  | bestBid => exact ⟨.best, .inl rfl⟩
  | bestAsk => exact ⟨.best, .inr rfl⟩
  | pricesBidsInfo price => exact ⟨.pricesInfo price, .inl rfl⟩
  | pricesAsksInfo price => exact ⟨.pricesInfo price, .inr rfl⟩

namespace OrderBook

/-- The log tells of every identifier on which sides it rests. -/
structure ToldBy (book : OrderBook) (log : List LogEntry) : Prop where
  wf : book.WellFormed
  bids : ∀ id, restsByLog bidNames log id = (book.bids.resting id).isSome
  asks : ∀ id, restsByLog askNames log id = (book.asks.resting id).isSome

theorem toldBy_fresh : ToldBy {} [] := ⟨run_wellFormed [], fun _ => rfl, fun _ => rfl⟩

theorem ToldBy.serve {book : OrderBook} {log : List LogEntry} (told : book.ToldBy log) (call : BookCall) :
    (book.serve call).value.ToldBy (log ++ (book.serve call).entries) := by
  obtain ⟨side, rfl | rfl⟩ := call.side_cases
  · obtain ⟨after, answer, lines, performed⟩ := book.bids.perform_defined bidTexts side
    have tells := BookSide.tells_of_perform told.wf.bids.coherent performed
    rw [serve_onBid performed]
    refine ⟨⟨told.wf.bids.perform bidComparator_strictTotal performed, told.wf.asks⟩, fun id => ?_, fun id => ?_⟩
    · rw [restsByLog, List.foldl_append]
      exact (congrArg (lines.foldl _) (told.bids id)).trans (tells.read bidNames_distinct id)
    · rw [restsByLog, List.foldl_append]
      exact (tells.skip askNames_apart id _).trans (told.asks id)
  · obtain ⟨after, answer, lines, performed⟩ := book.asks.perform_defined askTexts side
    have tells := BookSide.tells_of_perform told.wf.asks.coherent performed
    rw [serve_onAsk performed]
    refine ⟨⟨told.wf.bids, told.wf.asks.perform askComparator_strictTotal performed⟩, fun id => ?_, fun id => ?_⟩
    · rw [restsByLog, List.foldl_append]
      exact (tells.skip bidNames_apart id _).trans (told.bids id)
    · rw [restsByLog, List.foldl_append]
      exact (congrArg (lines.foldl _) (told.asks id)).trans (tells.read askNames_distinct id)

theorem ToldBy.serveAll {book : OrderBook} {log : List LogEntry} (told : book.ToldBy log) (calls : List BookCall) :
    (book.serveAll calls).value.ToldBy (log ++ (book.serveAll calls).entries) := by
  induction calls generalizing book log with
  | nil => simpa [OrderBook.serveAll, pure] using told
  | cons call calls ih =>
    have next := ih (told.serve call)
    rwa [List.append_assoc] at next

end OrderBook

theorem BookSide.WellFormed.rests_iff {comparator : Order → Order → Bool} {side : BookSide comparator}
    (wf : side.WellFormed) (id : ID) : (side.resting id).isSome = true ↔ ∃ o ∈ side.orders.ordered, o.id = id := by
  rw [BookSide.resting, Option.isSome_map, Option.isSome_iff_exists]
  exact exists_congr fun o => wf.coherent.find_eq_some

/-- The log is an audit trail: once no call is under way, whatever threads
have worked on a fresh book, the lines they have left tell of every
identifier whether an order with it rests on the bid side, and on the ask side. -/
theorem ThreadedBook.auditable {ι : Type*} [DecidableEq ι] (labels : List (BookLabel ι)) (last : ThreadedBook ι)
    (out : List (BookOutput ι)) (ran : Transducer.run step (start {}) labels = some (last, out)) (quiet : last.Quiet)
    (id : ID) :
    (restsByLog bidNames (logOf out) id = true ↔ ∃ o ∈ last.1.memory.orders.ordered, o.id = id) ∧
      (restsByLog askNames (logOf out) id = true ↔ ∃ o ∈ last.2.memory.orders.ordered, o.id = id) := by
  obtain ⟨labels', last', matched, related⟩ := simulates.run ran (start_related {})
  obtain ⟨calls, served⟩ := AtomicBook.served_of_run makeTmpSnapshotCreator matched
  obtain ⟨bids, asks⟩ := related.memory quiet
  have told := OrderBook.toldBy_fresh.serveAll calls
  have whole : ({} : OrderBook).serveAll calls = ⟨last'.bookOf makeTmpSnapshotCreator, logOf out⟩ := served
  rw [whole, List.nil_append] at told
  rw [bids, asks, told.bids id, told.asks id]
  exact ⟨told.wf.bids.rests_iff id, told.wf.asks.rests_iff id⟩

theorem ThreadedBook.auditable_raceForIdentifier :
    ∃ last out, Transducer.run step (start {}) raceForIdentifier = some (last, out) ∧ last.Quiet ∧
      (restsByLog bidNames (logOf out) 7 = true ↔ ∃ o ∈ last.1.memory.orders.ordered, o.id = 7) ∧
      (restsByLog askNames (logOf out) 7 = true ↔ ∃ o ∈ last.2.memory.orders.ordered, o.id = 7) := by
  refine ⟨_, _, rfl, ⟨fun i => by cases i <;> rfl, fun _ => rfl⟩, ?_⟩
  exact auditable raceForIdentifier _ _ rfl ⟨fun i => by cases i <;> rfl, fun _ => rfl⟩ 7

end Stakan
