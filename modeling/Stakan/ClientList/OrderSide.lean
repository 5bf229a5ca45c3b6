import Stakan.ClientList.Contexts
import Stakan.Library.MultiIndex

namespace Stakan

namespace OrderSide

/-- The list and the map hold the same orders, and each iterator of the map
designates the node of its own identifier. -/
structure InSync (side : OrderSide) : Prop where
  ids_nodup : (side.inOrder.map ListNode.id).Nodup
  same_ids : ∀ id, id ∈ side.inOrder.map ListNode.id ↔ id ∈ side.byId
  own_node : ∀ id entry, side.byId.lookup id = some entry → (⟨entry.it, id⟩ : ListNode) ∈ side.inOrder

/-- Besides, the nodes of the list are objects of their own. -/
structure Sound (side : OrderSide) : Prop extends InSync side where
  nodes_nodup : (side.inOrder.map ListNode.node).Nodup
  older : ∀ entry ∈ side.inOrder, entry.node < side.nextNode

variable {side : OrderSide}

/-- The key is read through the pointer that has moved into the entry. -/
theorem addOrder_rightFirst (side : OrderSide) (order : OrderPtr) :
    side.addOrder .rightFirst order = .error .undefinedBehaviour := by
  cases order with
  | none => rfl
  | some ref => rfl

/-- The side with one more order at its end. -/
def withOrder (side : OrderSide) (ref : OrderRef) : OrderSide where
  byId := side.byId.insert ref.order.id ⟨some ref, side.nextNode⟩
  inOrder := side.inOrder ++ [⟨side.nextNode, ref.order.id⟩]
  nextNode := side.nextNode + 1

theorem addOrder_leftFirst (side : OrderSide) (ref : OrderRef) :
    side.addOrder .leftFirst (some ref) = .ok (side.withOrder ref) := rfl

theorem after_addOrder_rightFirst (side : OrderSide) (order : OrderPtr) :
    side.after (·.addOrder .rightFirst order) = side := by
  simp only [OrderSide.after, addOrder_rightFirst]

theorem after_addOrder_leftFirst (side : OrderSide) (ref : OrderRef) :
    side.after (·.addOrder .leftFirst (some ref)) = side.withOrder ref := rfl

theorem sound_empty : Sound {} where
  ids_nodup := .nil
  same_ids id := by simp
  own_node id entry found := by simp at found
  nodes_nodup := .nil
  older entry member := by simp at member

theorem Sound.withOrder (sound : side.Sound) {ref : OrderRef} (new : ref.order.id ∉ side.byId) :
    (side.withOrder ref).Sound where
  ids_nodup := by
    have absent : ref.order.id ∉ side.inOrder.map ListNode.id := fun member => new ((sound.same_ids _).mp member)
    simp only [OrderSide.withOrder, List.map_append, List.map_cons, List.map_nil]
    exact List.nodup_append.mpr ⟨sound.ids_nodup, List.nodup_singleton _, by
      intro id member other single same
      rw [same, List.mem_singleton.mp single] at member
      exact absent member⟩
  same_ids id := by
    have same := sound.same_ids id
    simp only [OrderSide.withOrder, List.map_append, List.mem_append, same, List.map_cons, List.map_nil,
      List.mem_singleton, AList.mem_insert]
    tauto
  own_node id entry found := by
    simp only [OrderSide.withOrder] at found ⊢
    by_cases own : id = ref.order.id
    · subst own
      rw [AList.lookup_insert] at found
      cases Option.some.inj found
      simp
    · rw [AList.lookup_insert_ne own] at found
      exact List.mem_append_left _ (sound.own_node id entry found)
  nodes_nodup := by
    simp only [OrderSide.withOrder, List.map_append, List.map_cons, List.map_nil]
    exact List.nodup_append.mpr ⟨sound.nodes_nodup, List.nodup_singleton _, by
      intro node member other single same
      obtain ⟨entry, inside, rfl⟩ := List.mem_map.mp member
      have older := sound.older entry inside
      rw [same, List.mem_singleton.mp single] at older
      omega⟩
  older entry member := by
    simp only [OrderSide.withOrder] at member ⊢
    rcases List.mem_append.mp member with old | new
    · have older := sound.older entry old
      omega
    · rw [List.mem_singleton.mp new]
      exact Nat.lt_succ_self side.nextNode

/-- An identifier goes from the map together with its node. -/
theorem Sound.without (sound : side.Sound) {id : ID} {rest : List ListNode} (kept : rest.Sublist side.inOrder)
    (left : ∀ entry, entry ∈ rest ↔ entry ∈ side.inOrder ∧ entry.id ≠ id) :
    Sound { side with byId := side.byId.erase id, inOrder := rest } where
  ids_nodup := (kept.map ListNode.id).nodup sound.ids_nodup
  same_ids other := by
    rw [AList.mem_erase, ← sound.same_ids]
    simp only [List.mem_map, left]
    constructor
    · rintro ⟨entry, ⟨member, different⟩, rfl⟩
      exact ⟨different, entry, member, rfl⟩
    · rintro ⟨different, entry, member, rfl⟩
      exact ⟨entry, ⟨member, different⟩, rfl⟩
  own_node other entry found := by
    have different : other ≠ id := by
      rintro rfl
      rw [AList.lookup_erase] at found
      contradiction
    rw [AList.lookup_erase_ne different] at found
    exact (left _).mpr ⟨sound.own_node other entry found, different⟩
  nodes_nodup := (kept.map ListNode.node).nodup sound.nodes_nodup
  older entry member := sound.older entry (kept.subset member)

/-- There is no such order, or none at all. -/
def FindsNothing (side : OrderSide) : Option ID → Prop
  | some id => id ∉ side.byId
  | none => side.inOrder = []

theorem InSync.inOrder_eq_nil (sync : side.InSync) : side.inOrder = [] ↔ side.byId.keys = [] := by
  rw [← List.map_eq_nil_iff (f := ListNode.id), List.eq_nil_iff_forall_not_mem, List.eq_nil_iff_forall_not_mem]
  exact forall_congr' fun id => not_congr ((sync.same_ids id).trans AList.mem_keys)

/-- The iterator of an entry designates a node of the list. -/
theorem InSync.valid (sync : side.InSync) {id : ID} {entry : OrderEntry} (found : side.byId.lookup id = some entry) :
    side.inOrder.any (·.node == entry.it) = true :=
  List.any_eq_true.mpr ⟨_, sync.own_node id entry found, by simp⟩

/-- What a removal does: nothing when it finds nothing, or the order and its node go. -/
theorem InSync.removeOrder_cases (sync : side.InSync) (orderId : Option ID) :
    side.FindsNothing orderId ∧ side.removeOrder orderId = .ok side ∨
      (∃ id entry, orderId = some id ∧ side.byId.lookup id = some entry ∧ side.removeOrder orderId = .ok
        { side with
          byId := side.byId.erase id
          inOrder := side.inOrder.eraseP (MultiIndex.atKey ListNode.node entry.it) }) ∨
      ∃ last, orderId = none ∧ side.inOrder.getLast? = some last ∧ side.removeOrder orderId = .ok
        { side with byId := side.byId.erase last.id, inOrder := side.inOrder.dropLast } := by
  unfold OrderSide.removeOrder
  by_cases empty : side.byId.keys = []
  · refine Or.inl ⟨?_, by simp [empty]⟩
    cases orderId with
    | some id =>
      intro member
      rw [AList.mem_keys, empty] at member
      simp at member
    | none => exact sync.inOrder_eq_nil.mpr empty
  simp only [if_neg empty]
  cases orderId with
  | none =>
    cases end_ : side.inOrder.getLast? with
    | none => exact absurd (sync.inOrder_eq_nil.mp (List.getLast?_eq_none_iff.mp end_)) empty
    | some last => exact Or.inr (Or.inr ⟨last, rfl, rfl, rfl⟩)
  | some id =>
    cases found : side.byId.lookup id with
    | none => exact Or.inl ⟨AList.lookup_eq_none.mp found, by simp only [found]⟩
    | some entry =>
      refine Or.inr (Or.inl ⟨id, entry, rfl, found, ?_⟩)
      simp only [found, sync.valid found, if_true]
      rfl

theorem InSync.removeOrder_ok (sync : side.InSync) (orderId : Option ID) :
    ∃ left, side.removeOrder orderId = .ok left := by
  rcases sync.removeOrder_cases orderId with ⟨_, same⟩ | ⟨_, _, _, _, removed⟩ | ⟨_, _, _, removed⟩
  · exact ⟨_, same⟩
  · exact ⟨_, removed⟩
  · exact ⟨_, removed⟩

theorem Sound.removeOrder (sound : side.Sound) (orderId : Option ID) :
    (side.after (·.removeOrder orderId)).Sound := by
  rcases sound.removeOrder_cases orderId with ⟨_, same⟩ | ⟨id, entry, _, found, removed⟩ | ⟨last, _, at_end, removed⟩
  · rwa [OrderSide.after, same]
  · rw [OrderSide.after, removed]
    refine sound.without List.eraseP_sublist fun other => ?_
    rw [MultiIndex.mem_eraseP_atKey sound.nodes_nodup]
    have own := sound.own_node id entry found
    refine and_congr_right fun member => not_congr ⟨fun same => ?_, fun same => ?_⟩
    · rw [MultiIndex.eq_of_key_eq sound.nodes_nodup member own same]
    · rw [MultiIndex.eq_of_key_eq sound.ids_nodup member own same]
  · rw [OrderSide.after, removed]
    refine sound.without (List.dropLast_sublist _) fun other => ?_
    have whole := List.dropLast_append_getLast? last at_end
    have nodup := sound.ids_nodup
    rw [← whole, List.map_append] at nodup
    have apart := (List.nodup_append.mp nodup).2.2
    constructor
    · intro member
      refine ⟨List.dropLast_subset _ member, fun same => ?_⟩
      exact apart other.id (List.mem_map_of_mem member) last.id (by simp) same
    · rintro ⟨member, different⟩
      rw [← whole] at member
      rcases List.mem_append.mp member with front | back
      · exact front
      · rw [List.mem_singleton.mp back] at different
        contradiction

/-- Every look-up of a read succeeds. -/
theorem InSync.orders_ok (sync : side.InSync) : ∃ orders, side.orders = .ok orders := by
  have found : ∀ entry ∈ side.inOrder, ∃ known, side.byId.lookup entry.id = some known := by
    intro entry member
    have key := (sync.same_ids entry.id).mp (List.mem_map_of_mem member)
    exact Option.isSome_iff_exists.mp (AList.lookup_isSome.mpr key)
  unfold orders
  generalize side.inOrder = entries at found
  induction entries with
  | nil => exact ⟨[], rfl⟩
  | cons entry rest ih =>
    obtain ⟨known, atEntry⟩ := found entry List.mem_cons_self
    obtain ⟨orders, read⟩ := ih fun other member => found other (List.mem_cons_of_mem _ member)
    exact ⟨known.order :: orders, by rw [List.mapM_cons, atEntry, read]; rfl⟩

end OrderSide

end Stakan
