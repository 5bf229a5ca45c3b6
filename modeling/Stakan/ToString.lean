import Stakan.Interface
import Stakan.Library.Decimal

namespace Stakan

/-- The line of an order. -/
def Order.line (order : Order) : String := s!"Price: {order.price}, Quantity: {order.quantity}\n"

/-- The lines of one side, up to the first order without an identifier. -/
def sideLines : List Order → String
  | [] => ""
  | order :: rest => if order.id == 0 then "" else order.line ++ sideLines rest

/-- `to_string` of a snapshot. -/
def Snapshot.toString (s : Snapshot) : String :=
  if s.topBids[0].id == 0 && s.topAsks[0].id == 0 then ""
  else "Top Bids:\n" ++ sideLines s.topBids.toList ++ "Top Asks:\n" ++ sideLines s.topAsks.toList

/-- `to_string` of an update. -/
def MDUpdate.toString (u : MDUpdate) : String :=
  if u.bestAskPrice == 0 && u.bestBidPrice == 0 then ""
  else s!"Best bid price: {u.bestBidPrice}\nBid items by this price: {u.bestBidQty}\n" ++
    s!"Best ask price: {u.bestAskPrice}\nAsk items by this price: {u.bestAskQty}\n" ++
    s!"Total bid quantity: {u.totalBidQty}\nTotal ask quantity: {u.totalAskQty}\n"

/-- What a text shows of one side. -/
def visible (orders : List Order) : List (Price × Quantity) :=
  (orders.takeWhile fun order => order.id ≠ 0).map fun order => (order.price, order.quantity)

def Snapshot.visible (s : Snapshot) : List (Price × Quantity) × List (Price × Quantity) :=
  (Stakan.visible s.topBids.toList, Stakan.visible s.topAsks.toList)

/-- The lines of the orders that are visible. -/
def linesOf : List (Price × Quantity) → String
  | [] => ""
  | level :: rest => Order.line ⟨0, level.1, level.2⟩ ++ linesOf rest

theorem sideLines_eq (orders : List Order) : sideLines orders = linesOf (visible orders) := by
  induction orders with
  | nil => rfl
  | cons order rest ih =>
    by_cases hidden : order.id = 0
    · simp [sideLines, visible, hidden, linesOf]
    · have shown : visible (order :: rest) = (order.price, order.quantity) :: visible rest := by
        simp [visible, hidden]
      rw [shown, sideLines, if_neg (by simpa using hidden), ih]
      rfl

theorem Order.line_toList (order : Order) (rest : List Char) :
    order.line.toList ++ rest = "Price: ".toList ++ ((toString order.price).toList ++
      ',' :: (" Quantity: ".toList ++ ((toString order.quantity).toList ++ '\n' :: rest))) := by
  simp only [Order.line, String.toList_append, List.append_assoc]
  rfl

theorem Order.line_cancel {o o' : Order} {rest rest' : List Char}
    (same : o.line.toList ++ rest = o'.line.toList ++ rest') :
    o.price = o'.price ∧ o.quantity = o'.quantity ∧ rest = rest' := by
  rw [Order.line_toList, Order.line_toList, List.append_cancel_left_eq] at same
  obtain ⟨price, same⟩ := Decimal.cancel (by decide) same
  rw [List.append_cancel_left_eq] at same
  obtain ⟨quantity, same⟩ := Decimal.cancel (by decide) same
  exact ⟨price, quantity, same⟩

/-- Lines are read up to a character that begins none. -/
theorem linesOf_cancel {levels levels' : List (Price × Quantity)} {c : Char} (ends : c ≠ 'P') {rest rest' : List Char}
    (same : (linesOf levels).toList ++ c :: rest = (linesOf levels').toList ++ c :: rest') :
    levels = levels' ∧ rest = rest' := by
  have begins (level : Price × Quantity) (more : List (Price × Quantity)) (rest : List Char) :
      ∃ tail, (linesOf (level :: more)).toList ++ rest = 'P' :: tail := by
    rw [linesOf, String.toList_append, List.append_assoc, Order.line_toList]
    exact ⟨_, rfl⟩
  induction levels generalizing levels' with
  | nil =>
    cases levels' with
    | nil => exact ⟨rfl, (List.cons.inj same).2⟩
    | cons level more =>
      obtain ⟨tail, shape⟩ := begins level more (c :: rest')
      exact absurd (List.cons.inj (same.trans shape)).1 ends
  | cons level more ih =>
    cases levels' with
    | nil =>
      obtain ⟨tail, shape⟩ := begins level more (c :: rest)
      exact absurd (List.cons.inj (same.symm.trans shape)).1 ends
    | cons level' more' =>
      simp only [linesOf, String.toList_append, List.append_assoc] at same
      obtain ⟨price, quantity, same⟩ := Order.line_cancel same
      obtain ⟨rfl, rest⟩ := ih same
      exact ⟨by rw [Prod.ext price quantity], rest⟩

theorem visible_eq_nil (orders : Vector Order topN) : visible orders.toList = [] ↔ orders[0].id = 0 := by
  have within : 0 < orders.toList.length := by rw [Vector.length_toList]; decide
  have front : orders.toList[0] = orders[0] := Vector.getElem_toList within
  cases list : orders.toList with
  | nil => simp [list] at within
  | cons first rest =>
    rw [← front]
    simp only [list, List.getElem_cons_zero]
    by_cases hidden : first.id = 0
    · simp [visible, hidden]
    · simp [visible, hidden]

/-- The text of a snapshot that shows anything. -/
theorem Snapshot.toString_eq (s : Snapshot) : s.toString =
    if s.visible = ([], []) then "" else "Top Bids:\n" ++ linesOf s.visible.1 ++ "Top Asks:\n" ++ linesOf s.visible.2 := by
  have blank : (s.topBids[0].id == 0 && s.topAsks[0].id == 0) = true ↔ s.visible = ([], []) := by
    rw [Bool.and_eq_true, beq_iff_eq, beq_iff_eq, ← visible_eq_nil, ← visible_eq_nil, Snapshot.visible, Prod.mk.injEq]
  by_cases shows : s.visible = ([], [])
  · rw [Snapshot.toString, if_pos (blank.mpr shows), if_pos shows]
  · rw [Snapshot.toString, if_neg (mt blank.mp shows), if_neg shows, sideLines_eq, sideLines_eq]
    rfl

/-- Two snapshots have the same text exactly when they show the same levels. -/
theorem Snapshot.toString_eq_iff_visible (s t : Snapshot) : s.toString = t.toString ↔ s.visible = t.visible := by
  constructor
  · intro same
    rw [Snapshot.toString_eq, Snapshot.toString_eq] at same
    have chars := congrArg String.toList same
    by_cases first : s.visible = ([], [])
    · by_cases second : t.visible = ([], [])
      · rw [first, second]
      · simp [if_pos first, if_neg second, String.toList_append] at chars
    · by_cases second : t.visible = ([], [])
      · simp [if_neg first, if_pos second, String.toList_append] at chars
      · rw [if_neg first, if_neg second] at chars
        simp only [String.toList_append, List.append_assoc, List.append_cancel_left_eq] at chars
        obtain ⟨bids, rest⟩ := linesOf_cancel (c := 'T') (by decide) chars
        have asks := (List.append_right_inj "op Asks:\n".toList).mp rest
        have ended := congrArg (· ++ ['.']) asks
        exact Prod.ext bids (linesOf_cancel (by decide) ended).1
  · intro same
    rw [Snapshot.toString_eq, Snapshot.toString_eq, same]

/-- The lines of an update, each with its label. -/
def MDUpdate.fields (u : MDUpdate) : List (String × UInt64) :=
  [("Best bid price: ", u.bestBidPrice), ("Bid items by this price: ", u.bestBidQty),
    ("Best ask price: ", u.bestAskPrice), ("Ask items by this price: ", u.bestAskQty),
    ("Total bid quantity: ", u.totalBidQty), ("Total ask quantity: ", u.totalAskQty)]

def labelled (fields : List (String × UInt64)) : List Char :=
  fields.flatMap fun field => field.1.toList ++ (toString field.2).toList ++ ['\n']

theorem labelled_cancel {fields fields' : List (String × UInt64)} (labels : fields.map Prod.fst = fields'.map Prod.fst)
    (same : labelled fields = labelled fields') : fields = fields' := by
  induction fields generalizing fields' with
  | nil => exact (List.map_eq_nil_iff.mp labels.symm).symm
  | cons field rest ih =>
    cases fields' with
    | nil => contradiction
    | cons field' rest' =>
      obtain ⟨label, labels⟩ := List.cons.inj labels
      simp only [labelled, List.flatMap_cons, label, List.append_assoc, List.append_cancel_left_eq,
        List.singleton_append] at same
      obtain ⟨number, same⟩ := Decimal.cancel (by decide) same
      have others : labelled rest = labelled rest' := by
        simp only [labelled, List.append_assoc]
        exact same
      rw [ih labels others, Prod.ext label number]

theorem MDUpdate.toString_toList {u : MDUpdate} (shown : ¬(u.bestBidPrice = 0 ∧ u.bestAskPrice = 0)) :
    u.toString.toList = labelled u.fields := by
  have shows : ¬(u.bestAskPrice == 0 && u.bestBidPrice == 0) = true := by
    rw [Bool.and_eq_true, beq_iff_eq, beq_iff_eq]
    exact fun both => shown both.symm
  rw [MDUpdate.toString, if_neg shows]
  simp only [String.toList_append, labelled, MDUpdate.fields, List.flatMap_cons, List.flatMap_nil, List.append_assoc]
  rfl

/-- Two updates have the same text exactly when they are equal, or neither has a best price. -/
theorem MDUpdate.toString_eq_iff_or_blank (u v : MDUpdate) : u.toString = v.toString ↔
    u = v ∨ (u.bestBidPrice = 0 ∧ u.bestAskPrice = 0) ∧ v.bestBidPrice = 0 ∧ v.bestAskPrice = 0 := by
  have blank {w : MDUpdate} (none_shown : w.bestBidPrice = 0 ∧ w.bestAskPrice = 0) : w.toString = "" := by
    simp [MDUpdate.toString, none_shown]
  have begins {w : MDUpdate} (shown : ¬(w.bestBidPrice = 0 ∧ w.bestAskPrice = 0)) : w.toString ≠ "" := by
    intro empty
    have chars := MDUpdate.toString_toList shown
    rw [empty] at chars
    exact absurd chars (by simp [labelled, MDUpdate.fields])
  constructor
  · intro same
    by_cases first : u.bestBidPrice = 0 ∧ u.bestAskPrice = 0
    · by_cases second : v.bestBidPrice = 0 ∧ v.bestAskPrice = 0
      · exact .inr ⟨first, second⟩
      · exact absurd (same.symm.trans (blank first)) (begins second)
    · by_cases second : v.bestBidPrice = 0 ∧ v.bestAskPrice = 0
      · exact absurd (same.trans (blank second)) (begins first)
      · have chars : labelled u.fields = labelled v.fields := by
          rw [← MDUpdate.toString_toList first, ← MDUpdate.toString_toList second, same]
        have labels : u.fields.map Prod.fst = v.fields.map Prod.fst := rfl
        have numbers := labelled_cancel labels chars
        cases u
        cases v
        simp_all [MDUpdate.fields]
  · rintro (rfl | ⟨first, second⟩)
    · rfl
    · rw [blank first, blank second]

end Stakan
