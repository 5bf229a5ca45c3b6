import Mathlib.Data.List.Sort
import Mathlib.Order.Defs.LinearOrder

namespace OrderedIndex

variable {α : Type*}

/-- What an ordered index asks of its comparator: a strict weak order,
given by asymmetry and by transitivity of "not after". -/
structure StrictWeak (lt : α → α → Bool) : Prop where
  asymm : ∀ a b, lt a b = true → lt b a = false
  negTrans : ∀ a b c, lt b a = false → lt c b = false → lt c a = false

/-- A strict weak order in which only equal elements are equivalent. -/
structure StrictTotal (lt : α → α → Bool) : Prop extends StrictWeak lt where
  connected : ∀ a b, lt a b = false → lt b a = false → a = b

theorem StrictWeak.irrefl {lt : α → α → Bool} (weak : StrictWeak lt) (a : α) : lt a a = false := by
  cases before : lt a a with
  | false => rfl
  | true => exact before.symm.trans (weak.asymm a a before)

theorem StrictWeak.trans {lt : α → α → Bool} (weak : StrictWeak lt) {a b c : α} (first : lt a b = true)
    (second : lt b c = true) : lt a c = true := by
  cases through : lt a c with
  | true => rfl
  | false =>
    have notBefore := weak.negTrans b c a (weak.asymm b c second) through
    exact notBefore.symm.trans first

/-- Of two elements one comes before the other, or they are equal, and no two of these hold at once. -/
theorem StrictTotal.exactly_one [BEq α] [LawfulBEq α] {lt : α → α → Bool} (total : StrictTotal lt) (a b : α) :
    [lt a b, lt b a, a == b].count true = 1 := by
  by_cases same : a = b
  · subst same
    rw [total.irrefl a, beq_self_eq_true]
    rfl
  · rw [beq_false_of_ne same]
    cases first : lt a b with
    | true =>
      rw [total.asymm a b first]
      rfl
    | false =>
      cases second : lt b a with
      | true => rfl
      | false => exact absurd (total.connected a b first second) same

/-- A comparator that compares ranks in a linear order is a strict weak order. -/
theorem StrictWeak.of_rank {β : Type*} [LinearOrder β] {lt : α → α → Bool} (rank : α → β)
    (compares : ∀ a b, lt a b = true ↔ rank a < rank b) : StrictWeak lt where
  asymm a b before := by
    rw [compares] at before
    exact Bool.eq_false_iff.mpr fun back => before.asymm ((compares b a).mp back)
  negTrans a b c first second := by
    rw [Bool.eq_false_iff, ne_eq, compares, not_lt] at first second ⊢
    exact first.trans second

theorem StrictTotal.of_rank {β : Type*} [LinearOrder β] {lt : α → α → Bool} (rank : α → β)
    (injective : ∀ a b, rank a = rank b → a = b) (compares : ∀ a b, lt a b = true ↔ rank a < rank b) :
    StrictTotal lt where
  toStrictWeak := .of_rank rank compares
  connected a b first second := by
    rw [Bool.eq_false_iff, ne_eq, compares, not_lt] at first second
    exact injective a b (le_antisymm second first)

/-- No element comes after a later one; equivalent elements may sit side by side. -/
def Sorted (lt : α → α → Bool) (l : List α) : Prop := l.Pairwise fun a b => lt b a = false

/-- Insertion at the upper bound: after every element that does not come
after the new one, so that equivalent elements keep their arrival order. -/
def link (lt : α → α → Bool) (x : α) (l : List α) : List α := l.orderedInsert (fun a b => lt a b = true) x

/-- A changed value keeps its place when it fits between its two neighbours. -/
def inPlace (lt : α → α → Bool) (before after : List α) (x : α) : Bool :=
  before.getLast?.all (fun a => !lt x a) && after.head?.all (fun b => !lt b x)

/-- The node found by `p` takes the value `x`: it stays where it is if the
value is in place there, and is unlinked and linked again otherwise. -/
def relink (lt : α → α → Bool) (p : α → Bool) (x : α) (l : List α) : List α :=
  let before := l.takeWhile fun a => !p a
  let after := (l.dropWhile fun a => !p a).tail
  if inPlace lt before after x then before ++ x :: after else link lt x (before ++ after)

/-- The elements from the first that is not `below` up to the first that is `above`. -/
def equalRange (below above : α → Bool) (l : List α) : List α :=
  (l.dropWhile below).takeWhile fun a => !above a

/-- Under a total comparator a sorted index without repetitions is strictly sorted. -/
theorem Sorted.strict {lt : α → α → Bool} (total : StrictTotal lt) {l : List α} (sorted : Sorted lt l)
    (nodup : l.Nodup) : l.Pairwise fun a b => lt a b = true :=
  List.Pairwise.imp₂ (fun a b notAfter different =>
    Bool.of_not_eq_false fun notBefore => different (total.connected a b notBefore notAfter)) sorted nodup

theorem link_perm (lt : α → α → Bool) (x : α) (l : List α) : (link lt x l).Perm (x :: l) :=
  List.perm_orderedInsert _ x l

@[simp] theorem mem_link {lt : α → α → Bool} {x a : α} {l : List α} : a ∈ link lt x l ↔ a = x ∨ a ∈ l :=
  List.mem_orderedInsert _

theorem Sorted.link {lt : α → α → Bool} (weak : StrictWeak lt) {x : α} {l : List α}
    (sorted : Sorted lt l) : Sorted lt (link lt x l) := by
  induction l with
  | nil => exact List.pairwise_singleton _ _
  | cons b l ih =>
    obtain ⟨head, tail⟩ := List.pairwise_cons.mp sorted
    unfold OrderedIndex.link
    rw [List.orderedInsert_cons]
    split
    next before =>
      refine List.pairwise_cons.mpr ⟨?_, sorted⟩
      intro c member
      rcases List.mem_cons.mp member with rfl | later
      · exact weak.asymm x c before
      · exact weak.negTrans x b c (weak.asymm x b before) (head c later)
    next notBefore =>
      refine List.pairwise_cons.mpr ⟨?_, ih tail⟩
      intro c member
      rcases mem_link.mp member with rfl | later
      · simpa using notBefore
      · exact head c later

/-- A list cut at the first node that `p` finds. -/
theorem cut_at_node {p : α → Bool} {l : List α} {x : α} (member : x ∈ l) (found : p x = true) :
    ∃ before node after, l = before ++ node :: after ∧ p node = true ∧
      (l.takeWhile fun a => !p a) = before ∧ (l.dropWhile fun a => !p a).tail = after ∧
      l.eraseP p = before ++ after := by
  obtain ⟨node, before, after, none, atNode, cut, erased⟩ := List.exists_of_eraseP member found
  have skip : ∀ a ∈ before, (!p a) = true := by
    intro a early
    simpa using none a early
  refine ⟨before, node, after, cut, atNode, ?_, ?_, erased⟩
  · rw [cut, List.takeWhile_append_of_pos skip]
    simp [atNode]
  · rw [cut, List.dropWhile_append_of_pos skip]
    simp [atNode]

theorem relink_perm (lt : α → α → Bool) {p : α → Bool} {l : List α} {a : α} (x : α)
    (member : a ∈ l) (found : p a = true) : (relink lt p x l).Perm (x :: l.eraseP p) := by
  obtain ⟨before, node, after, _, _, front, back, erased⟩ := cut_at_node member found
  simp only [relink, front, back, erased]
  split
  · exact List.perm_middle
  · exact link_perm lt x _

theorem Sorted.eraseP {lt : α → α → Bool} {l : List α} (sorted : Sorted lt l) (p : α → Bool) :
    Sorted lt (l.eraseP p) := List.Pairwise.sublist List.eraseP_sublist sorted

/-- Only the two neighbours are compared, yet a value in place is not
before anything to its left nor after anything to its right. -/
theorem Sorted.insert_inPlace {lt : α → α → Bool} (weak : StrictWeak lt) {before after : List α} {x : α}
    (sorted : Sorted lt (before ++ after)) (placed : inPlace lt before after x = true) :
    Sorted lt (before ++ x :: after) := by
  obtain ⟨front, back, across⟩ := List.pairwise_append.mp sorted
  simp only [inPlace, Bool.and_eq_true] at placed
  have left : ∀ a ∈ before, lt x a = false := by
    intro a member
    obtain ⟨init, last, rfl⟩ := List.eq_nil_or_concat' before |>.resolve_left (List.ne_nil_of_mem member)
    have atLast : lt x last = false := by simpa using placed.1
    rcases List.mem_append.mp member with early | same
    · exact weak.negTrans a last x ((List.pairwise_append.mp front).2.2 a early last (by simp)) atLast
    · rw [List.mem_singleton.mp same]; exact atLast
  have right : ∀ b ∈ after, lt b x = false := by
    intro b member
    cases after with
    | nil => simp at member
    | cons first rest =>
      have atFirst : lt first x = false := by simpa using placed.2
      rcases List.mem_cons.mp member with rfl | later
      · exact atFirst
      · exact weak.negTrans x first b atFirst ((List.pairwise_cons.mp back).1 b later)
  refine List.pairwise_append.mpr ⟨front, List.pairwise_cons.mpr ⟨right, back⟩, ?_⟩
  intro a early b member
  rcases List.mem_cons.mp member with rfl | later
  · exact left a early
  · exact across a early b later

theorem Sorted.relink {lt : α → α → Bool} (weak : StrictWeak lt) {p : α → Bool} {l : List α} {a : α} (x : α)
    (sorted : Sorted lt l) (member : a ∈ l) (found : p a = true) : Sorted lt (relink lt p x l) := by
  obtain ⟨before, node, after, _, _, front, back, erased⟩ := cut_at_node member found
  have rest := sorted.eraseP p
  rw [erased] at rest
  simp only [OrderedIndex.relink, front, back]
  split
  next placed => exact rest.insert_inPlace weak placed
  next => exact rest.link weak

theorem takeWhile_eq_filter {p : α → Bool} {l : List α}
    (downward : l.Pairwise fun a b => p b = true → p a = true) : l.takeWhile p = l.filter p := by
  induction l with
  | nil => rfl
  | cons a l ih =>
    obtain ⟨head, tail⟩ := List.pairwise_cons.mp downward
    cases here : p a with
    | true => simp only [List.takeWhile_cons, List.filter_cons, here, if_true, ih tail]
    | false =>
      have none : ∀ b ∈ l, ¬p b = true := by
        intro b member high
        rw [head b member high] at here
        contradiction
      simp only [List.takeWhile_cons, List.filter_cons, here, Bool.false_eq_true, if_false,
        List.filter_eq_nil_iff.mpr none]

theorem dropWhile_eq_filter {p : α → Bool} {l : List α}
    (downward : l.Pairwise fun a b => p b = true → p a = true) :
    l.dropWhile p = l.filter fun a => !p a := by
  induction l with
  | nil => rfl
  | cons a l ih =>
    obtain ⟨head, tail⟩ := List.pairwise_cons.mp downward
    cases here : p a with
    | true => simp only [List.dropWhile_cons, List.filter_cons, here, if_true, ih tail, Bool.not_true,
        Bool.false_eq_true, if_false]
    | false =>
      have all : ∀ b ∈ l, (!p b) = true := by
        intro b member
        by_contra high
        rw [head b member (by simpa using high)] at here
        contradiction
      simp only [List.dropWhile_cons, List.filter_cons, here, Bool.false_eq_true, if_false, Bool.not_false,
        if_true, List.filter_eq_self.mpr all]

/-- On a sorted index the two bounds enclose exactly the elements that are
neither below nor above, in index order. -/
theorem Sorted.equalRange_eq_filter {lt : α → α → Bool} {below above : α → Bool} {l : List α}
    (sorted : Sorted lt l) (downward : ∀ a b, lt b a = false → below b = true → below a = true)
    (upward : ∀ a b, lt b a = false → above a = true → above b = true) :
    equalRange below above l = l.filter fun a => !above a && !below a := by
  have low : l.Pairwise fun a b => below b = true → below a = true :=
    sorted.imp fun {a b} ordered => downward a b ordered
  have high : (l.filter fun a => !below a).Pairwise fun a b => (!above b) = true → (!above a) = true := by
    refine (List.Pairwise.sublist List.filter_sublist sorted).imp fun {a b} ordered under => ?_
    by_contra above
    rw [upward a b ordered (by simpa using above)] at under
    contradiction
  rw [equalRange, dropWhile_eq_filter low, takeWhile_eq_filter high, List.filter_filter]

end OrderedIndex
