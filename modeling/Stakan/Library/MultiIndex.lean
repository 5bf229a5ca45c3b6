import Mathlib.Data.List.Nodup
import Stakan.Library.OrderedIndex

open OrderedIndex (StrictWeak StrictTotal Sorted link relink)

/-- A container of elements with three indices: an ordered one, a hashed one
with unique keys, and a second ordered one. Each index is the list of its
elements in iteration order. A node is designated by its unique key. -/
structure MultiIndex {α κ : Type*} (key : α → κ) (lt lt' : α → α → Bool) where
  ordered : List α
  hashed : List α
  secondary : List α
  deriving DecidableEq

namespace MultiIndex

variable {α κ : Type*} [DecidableEq κ] {key : α → κ} {lt lt' : α → α → Bool}

def empty : MultiIndex key lt lt' := ⟨[], [], []⟩

/-- The test that recognizes the node with key `k`. -/
def atKey (key : α → κ) (k : κ) (a : α) : Bool := key a == k

def find (c : MultiIndex key lt lt') (k : κ) : Option α := c.hashed.find? (atKey key k)

/-- Insertion is refused exactly when the unique index holds the key; the
flag says whether the element went in. -/
def insert (c : MultiIndex key lt lt') (x : α) : MultiIndex key lt lt' × Bool :=
  if (c.find (key x)).isSome then (c, false)
  else (⟨link lt x c.ordered, x :: c.hashed, link lt' x c.secondary⟩, true)

/-- The node with key `k` leaves every index. -/
def erase (c : MultiIndex key lt lt') (k : κ) : MultiIndex key lt lt' :=
  ⟨c.ordered.eraseP (atKey key k), c.hashed.eraseP (atKey key k), c.secondary.eraseP (atKey key k)⟩

/-- In-place change of the node with key `k`, after which every index puts
the node where it belongs. A change to a key that another node holds costs
the node its place in the container. -/
def modify (c : MultiIndex key lt lt') (k : κ) (change : α → α) : MultiIndex key lt lt' :=
  match c.find k with
  | none => c
  | some a =>
    let x := change a
    if key x ≠ k ∧ (c.find (key x)).isSome then c.erase k
    else ⟨relink lt (atKey key k) x c.ordered, x :: c.hashed.eraseP (atKey key k),
      relink lt' (atKey key k) x c.secondary⟩

/-- The three indices agree: one set of elements, one node a key, each
ordered index sorted by its own comparator. -/
structure Coherent (c : MultiIndex key lt lt') : Prop where
  hashed_perm : c.hashed.Perm c.ordered
  secondary_perm : c.secondary.Perm c.ordered
  ordered_sorted : Sorted lt c.ordered
  secondary_sorted : Sorted lt' c.secondary
  keys_nodup : (c.ordered.map key).Nodup

omit [DecidableEq κ] in
theorem empty_coherent : (empty : MultiIndex key lt lt').Coherent :=
  ⟨.nil, .nil, .nil, .nil, .nil⟩

@[simp] theorem atKey_eq_true {k : κ} {a : α} : atKey key k a = true ↔ key a = k := by simp [atKey]

section Unique

variable {l : List α}

omit [DecidableEq κ] in
theorem eq_of_key_eq (unique : (l.map key).Nodup) {a b : α} (atA : a ∈ l) (atB : b ∈ l)
    (same : key a = key b) : a = b := List.inj_on_of_nodup_map unique atA atB same

/-- Under unique keys, taking out the first element with a key leaves all the others as they stand. -/
theorem eraseP_atKey (unique : (l.map key).Nodup) (k : κ) :
    l.eraseP (atKey key k) = l.filter fun a => !atKey key k a := by
  induction l with
  | nil => rfl
  | cons first rest ih =>
    obtain ⟨absent, unique⟩ := List.nodup_cons.mp unique
    by_cases same : atKey key k first = true
    · rw [List.eraseP_cons_of_pos same, List.filter_cons_of_neg (by simp [same])]
      refine (List.filter_eq_self.mpr fun a member => ?_).symm
      have other : key a ≠ k := fun equal =>
        absent (atKey_eq_true.mp same ▸ equal ▸ List.mem_map_of_mem member)
      simpa [atKey] using other
    · rw [List.eraseP_cons_of_neg same, List.filter_cons_of_pos (by rw [Bool.eq_false_iff.mpr same]; rfl), ih unique]

theorem mem_eraseP_atKey (unique : (l.map key).Nodup) {k : κ} {a : α} :
    a ∈ l.eraseP (atKey key k) ↔ a ∈ l ∧ key a ≠ k := by
  rw [eraseP_atKey unique, List.mem_filter]
  simp [atKey]

theorem find?_atKey (unique : (l.map key).Nodup) {k : κ} {a : α} :
    l.find? (atKey key k) = some a ↔ a ∈ l ∧ key a = k := by
  constructor
  · intro found
    exact ⟨List.mem_of_find?_eq_some found, by simpa using List.find?_some found⟩
  · rintro ⟨member, atK⟩
    cases found : l.find? (atKey key k) with
    | none => exact absurd atK (by simpa using List.find?_eq_none.mp found a member)
    | some b =>
      have atB : key b = k := by simpa using List.find?_some found
      rw [eq_of_key_eq unique (List.mem_of_find?_eq_some found) member (atB.trans atK.symm)]

end Unique

namespace Coherent

variable {c : MultiIndex key lt lt'}

omit [DecidableEq κ] in
theorem hashed_nodup (coherent : c.Coherent) : (c.hashed.map key).Nodup :=
  (coherent.hashed_perm.map key).nodup_iff.mpr coherent.keys_nodup

omit [DecidableEq κ] in
theorem ordered_nodup (coherent : c.Coherent) : c.ordered.Nodup := List.Nodup.of_map key coherent.keys_nodup

omit [DecidableEq κ] in
theorem ordered_strict (coherent : c.Coherent) (total : StrictTotal lt) :
    c.ordered.Pairwise fun a b => lt a b = true := coherent.ordered_sorted.strict total coherent.ordered_nodup

omit [DecidableEq κ] in
/-- Under a total comparator the ordered index is determined by the elements. -/
theorem ordered_eq {d : MultiIndex key lt lt'} (coherent : c.Coherent) (other : d.Coherent) (total : StrictTotal lt)
    (same : ∀ a, a ∈ c.ordered ↔ a ∈ d.ordered) : c.ordered = d.ordered := by
  have perm : c.ordered.Perm d.ordered :=
    (List.perm_ext_iff_of_nodup coherent.ordered_nodup other.ordered_nodup).mpr same
  refine List.Perm.eq_of_pairwise ?_ (coherent.ordered_strict total) (other.ordered_strict total) perm
  intro a b _ _ before after
  rw [total.asymm a b before] at after
  contradiction

theorem find_eq_some (coherent : c.Coherent) {k : κ} {a : α} :
    c.find k = some a ↔ a ∈ c.ordered ∧ key a = k := by
  rw [find, find?_atKey coherent.hashed_nodup, coherent.hashed_perm.mem_iff]

theorem find_eq_none (coherent : c.Coherent) {k : κ} : c.find k = none ↔ ∀ a ∈ c.ordered, key a ≠ k := by
  simp only [find, List.find?_eq_none, atKey_eq_true, coherent.hashed_perm.mem_iff, ne_eq]

/-- Erasing a key gives, in each index, the elements with another key. -/
theorem mem_erase (coherent : c.Coherent) {k : κ} {a : α} :
    a ∈ (c.erase k).ordered ↔ a ∈ c.ordered ∧ key a ≠ k := mem_eraseP_atKey coherent.keys_nodup

theorem perm_eraseP {l l' : List α} (perm : l.Perm l') (unique : (l'.map key).Nodup) (k : κ) :
    (l.eraseP (atKey key k)).Perm (l'.eraseP (atKey key k)) := by
  have unique' : (l.map key).Nodup := (perm.map key).nodup_iff.mpr unique
  have nodup := (List.Nodup.of_map key unique).sublist (List.eraseP_sublist (p := atKey key k))
  have nodup' := (List.Nodup.of_map key unique').sublist (List.eraseP_sublist (p := atKey key k))
  refine (List.perm_ext_iff_of_nodup nodup' nodup).mpr fun a => ?_
  rw [mem_eraseP_atKey unique, mem_eraseP_atKey unique', perm.mem_iff]

theorem erase (coherent : c.Coherent) (k : κ) : (c.erase k).Coherent where
  hashed_perm := perm_eraseP coherent.hashed_perm coherent.keys_nodup k
  secondary_perm := perm_eraseP coherent.secondary_perm coherent.keys_nodup k
  ordered_sorted := coherent.ordered_sorted.eraseP _
  secondary_sorted := coherent.secondary_sorted.eraseP _
  keys_nodup := coherent.keys_nodup.sublist (List.eraseP_sublist.map key)

/-- What erasing takes out of the ordered index, and nothing else. -/
theorem perm_cons_erase (coherent : c.Coherent) {a : α} (member : a ∈ c.ordered) :
    c.ordered.Perm (a :: (c.erase (key a)).ordered) := by
  obtain ⟨b, before, after, _, found, cut, erased⟩ :=
    List.exists_of_eraseP (p := atKey key (key a)) member (by simp)
  have same : b = a := eq_of_key_eq coherent.keys_nodup (by simp [cut]) member (by simpa using found)
  rw [MultiIndex.erase, erased, cut, same]
  exact List.perm_middle

theorem insert_of_absent (coherent : c.Coherent) {x : α} (absent : ∀ a ∈ c.ordered, key a ≠ key x) :
    c.insert x = (⟨link lt x c.ordered, x :: c.hashed, link lt' x c.secondary⟩, true) := by
  simp [insert, coherent.find_eq_none.mpr absent]

theorem insert_of_present (coherent : c.Coherent) {x a : α} (member : a ∈ c.ordered)
    (same : key a = key x) : c.insert x = (c, false) := by
  simp [insert, coherent.find_eq_some.mpr ⟨member, same⟩]

theorem insert (coherent : c.Coherent) (weak : StrictWeak lt) (weak' : StrictWeak lt') (x : α) :
    (c.insert x).1.Coherent := by
  by_cases absent : ∀ a ∈ c.ordered, key a ≠ key x
  · rw [coherent.insert_of_absent absent]
    have perm := OrderedIndex.link_perm lt x c.ordered
    refine ⟨(coherent.hashed_perm.cons x).trans perm.symm, ?_, coherent.ordered_sorted.link weak,
      coherent.secondary_sorted.link weak', ?_⟩
    · exact (OrderedIndex.link_perm lt' x c.secondary).trans ((coherent.secondary_perm.cons x).trans perm.symm)
    · refine (perm.map key).nodup_iff.mpr (List.nodup_cons.mpr ⟨?_, coherent.keys_nodup⟩)
      intro member
      obtain ⟨a, atA, same⟩ := List.mem_map.mp member
      exact absent a atA same
  · obtain ⟨a, member, same⟩ : ∃ a ∈ c.ordered, key a = key x := by simpa using absent
    rw [coherent.insert_of_present member same]
    exact coherent

/-- A change that keeps the key never meets a conflict: the element's new
value replaces the old one in every index. -/
theorem modify_of_present (coherent : c.Coherent) {a : α} (member : a ∈ c.ordered) {change : α → α}
    (keeps : key (change a) = key a) :
    c.modify (key a) change = ⟨relink lt (atKey key (key a)) (change a) c.ordered,
      change a :: c.hashed.eraseP (atKey key (key a)), relink lt' (atKey key (key a)) (change a) c.secondary⟩ := by
  simp [modify, coherent.find_eq_some.mpr ⟨member, rfl⟩, keeps]

theorem modify_perm (coherent : c.Coherent) {a : α} (member : a ∈ c.ordered) {change : α → α}
    (keeps : key (change a) = key a) :
    (c.modify (key a) change).ordered.Perm (change a :: (c.erase (key a)).ordered) := by
  rw [coherent.modify_of_present member keeps]
  exact OrderedIndex.relink_perm lt (change a) member (by simp)

theorem modify (coherent : c.Coherent) (weak : StrictWeak lt) (weak' : StrictWeak lt') {a : α}
    (member : a ∈ c.ordered) {change : α → α} (keeps : key (change a) = key a) :
    (c.modify (key a) change).Coherent := by
  have erased := coherent.erase (key a)
  have perm := coherent.modify_perm member keeps
  have member' : a ∈ c.secondary := coherent.secondary_perm.mem_iff.mpr member
  rw [coherent.modify_of_present member keeps] at perm ⊢
  refine ⟨(erased.hashed_perm.cons _).trans perm.symm, ?_, coherent.ordered_sorted.relink weak _ member (by simp),
    coherent.secondary_sorted.relink weak' _ member' (by simp), ?_⟩
  · exact (OrderedIndex.relink_perm lt' (change a) member' (by simp)).trans
      ((erased.secondary_perm.cons _).trans perm.symm)
  · refine (perm.map key).nodup_iff.mpr (List.nodup_cons.mpr ⟨?_, erased.keys_nodup⟩)
    intro other
    obtain ⟨b, atB, same⟩ := List.mem_map.mp other
    exact (coherent.mem_erase.mp atB).2 (same.trans keeps)

theorem find_insert (coherent : c.Coherent) {x : α} (absent : c.find (key x) = none) :
    (c.insert x).1.find = Function.update c.find (key x) (some x) := by
  rw [coherent.insert_of_absent (coherent.find_eq_none.mp absent)]
  funext k
  by_cases same : k = key x
  · subst same
    simp [find, atKey]
  · rw [Function.update_of_ne same]
    simp [find, atKey, Ne.symm same]

theorem find_erase (coherent : c.Coherent) (k : κ) :
    (c.erase k).find = Function.update c.find k none := by
  funext k'
  refine Option.ext fun a => ?_
  by_cases same : k' = k
  · subst same
    simp [(coherent.erase k').find_eq_some, coherent.mem_erase]
  · rw [Function.update_of_ne same, (coherent.erase k).find_eq_some, coherent.find_eq_some, coherent.mem_erase]
    constructor
    · rintro ⟨⟨member, _⟩, atK⟩
      exact ⟨member, atK⟩
    · rintro ⟨member, rfl⟩
      exact ⟨⟨member, same⟩, rfl⟩

theorem find_modify (coherent : c.Coherent) {a : α} (member : a ∈ c.ordered) {change : α → α}
    (keeps : key (change a) = key a) :
    (c.modify (key a) change).find = Function.update c.find (key a) (some (change a)) := by
  rw [coherent.modify_of_present member keeps]
  have erased := coherent.find_erase (key a)
  funext k
  by_cases same : k = key a
  · subst same
    simp [find, atKey, keeps]
  · rw [Function.update_of_ne same, ← Function.update_of_ne same none c.find, ← erased]
    simp [find, MultiIndex.erase, atKey, keeps, Ne.symm same]

end Coherent

/-- Two containers that may differ in their first index only. -/
structure SameBelow {lt₁ lt₂ : α → α → Bool} (c : MultiIndex key lt₁ lt') (d : MultiIndex key lt₂ lt') : Prop where
  hashed : c.hashed = d.hashed
  secondary : c.secondary = d.secondary

namespace SameBelow

variable {lt₁ lt₂ : α → α → Bool} {c : MultiIndex key lt₁ lt'} {d : MultiIndex key lt₂ lt'}

theorem find (same : SameBelow c d) (k : κ) : c.find k = d.find k := by
  rw [MultiIndex.find, MultiIndex.find, same.hashed]

/-- The comparator of the first index has no part in what an operation does to the others. -/
theorem insert (same : SameBelow c d) (x : α) : SameBelow (c.insert x).1 (d.insert x).1 := by
  unfold MultiIndex.insert
  rw [same.find]
  split
  next => exact same
  next => exact ⟨congrArg (x :: ·) same.hashed, congrArg (link lt' x) same.secondary⟩

theorem erase (same : SameBelow c d) (k : κ) : SameBelow (c.erase k) (d.erase k) :=
  ⟨congrArg (List.eraseP _) same.hashed, congrArg (List.eraseP _) same.secondary⟩

theorem modify (same : SameBelow c d) (k : κ) (change : α → α) :
    SameBelow (c.modify k change) (d.modify k change) := by
  unfold MultiIndex.modify
  rw [same.find]
  cases d.find k with
  | none => exact same
  | some a =>
    dsimp only
    rw [same.find]
    split
    next => exact same.erase k
    next => exact ⟨congrArg (fun l => change a :: List.eraseP _ l) same.hashed, congrArg (relink lt' _ _) same.secondary⟩

omit [DecidableEq κ] in
theorem ordered_perm (same : SameBelow c d) (coherent : c.Coherent) (other : d.Coherent) :
    c.ordered.Perm d.ordered := by
  have hashed := other.hashed_perm
  rw [← same.hashed] at hashed
  exact coherent.hashed_perm.symm.trans hashed

end SameBelow

end MultiIndex
