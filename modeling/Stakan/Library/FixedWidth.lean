import Mathlib.Data.List.OfFn
import Mathlib.Data.Vector.Basic

/-- The `n` elements of a list from an offset on. -/
def slice {α : Type*} (l : List α) (offset n : Nat) : List α := (l.drop offset).take n

/-- A representation of values by strings of one length, each of which stands for one value. -/
structure FixedWidth (α β : Type*) where
  width : Nat
  encode : β → List α
  decode : List α → β
  encode_length : ∀ b, (encode b).length = width
  decode_encode : ∀ b, decode (encode b) = b
  encode_decode : ∀ l, l.length = width → encode (decode l) = l

section Slice

variable {α : Type*} {l : List α}

theorem slice_slice {a n b m : Nat} (within : b + m ≤ n) : slice (slice l a n) b m = slice l (a + b) m := by
  rw [slice, slice, slice, List.drop_take, List.drop_drop, List.take_take, Nat.min_eq_left (by omega)]

theorem slice_drop (l : List α) (a b n : Nat) : slice (l.drop a) b n = slice l (a + b) n := by
  rw [slice, slice, List.drop_drop]

theorem slice_append_slice (l : List α) (a n m : Nat) : slice l a n ++ slice l (a + n) m = slice l a (n + m) := by
  rw [slice, slice, slice, ← List.drop_drop, List.take_add]

theorem slice_length {a n : Nat} (within : a + n ≤ l.length) : (slice l a n).length = n := by
  rw [slice, List.length_take, List.length_drop]
  omega

theorem slice_all {n : Nat} (whole : l.length = n) : slice l 0 n = l := by
  rw [slice, List.drop_zero, ← whole, List.take_length]

theorem slice_left (front rest : List α) : slice (front ++ rest) 0 front.length = front := by
  rw [slice, List.drop_zero, List.take_left]

theorem slice_right (front rest : List α) (offset n : Nat) :
    slice (front ++ rest) (front.length + offset) n = slice rest offset n := by
  rw [slice, slice, ← List.drop_drop, List.drop_left]

end Slice

namespace FixedWidth

variable {α β γ : Type*}

theorem decode_slice (c : FixedWidth α β) (b : β) (rest : List α) :
    c.decode (slice (c.encode b ++ rest) 0 c.width) = b := by
  rw [← c.encode_length b, slice_left, c.decode_encode]

/-- Two values, one after the other. -/
def pair (c : FixedWidth α β) (d : FixedWidth α γ) : FixedWidth α (β × γ) where
  width := c.width + d.width
  encode p := c.encode p.1 ++ d.encode p.2
  decode l := (c.decode (slice l 0 c.width), d.decode (slice l c.width d.width))
  encode_length p := by rw [List.length_append, c.encode_length, d.encode_length]
  decode_encode p := by
    have second : slice (c.encode p.1 ++ d.encode p.2) c.width d.width = d.encode p.2 := by
      have skipped := slice_right (c.encode p.1) (d.encode p.2) 0 d.width
      rw [c.encode_length] at skipped
      exact skipped.trans (slice_all (d.encode_length p.2))
    rw [second, d.decode_encode, c.decode_slice]
  encode_decode l size := by
    rw [c.encode_decode _ (slice_length (by omega)), d.encode_decode _ (slice_length (by omega))]
    have joined := slice_append_slice l 0 c.width d.width
    rwa [Nat.zero_add, slice_all size] at joined

theorem pair_decode (c : FixedWidth α β) (d : FixedWidth α γ) (l : List α) :
    (c.pair d).decode l = (c.decode (slice l 0 c.width), d.decode (slice l c.width d.width)) := rfl

theorem pair_width (c : FixedWidth α β) (d : FixedWidth α γ) : (c.pair d).width = c.width + d.width := rfl

/-- The same representation for another type of values. -/
def map (c : FixedWidth α β) (make : β → γ) (back : γ → β) (make_back : ∀ g, make (back g) = g)
    (back_make : ∀ b, back (make b) = b) : FixedWidth α γ where
  width := c.width
  encode g := c.encode (back g)
  decode l := make (c.decode l)
  encode_length g := c.encode_length (back g)
  decode_encode g := by rw [c.decode_encode, make_back]
  encode_decode l size := by rw [back_make, c.encode_decode l size]

theorem map_decode (c : FixedWidth α β) {make : β → γ} {back : γ → β} (make_back : ∀ g, make (back g) = g)
    (back_make : ∀ b, back (make b) = b) (l : List α) :
    (c.map make back make_back back_make).decode l = make (c.decode l) := rfl

theorem flatMap_length (c : FixedWidth α β) (values : List β) :
    (values.flatMap c.encode).length = values.length * c.width := by
  induction values with
  | nil => rw [List.flatMap_nil, List.length_nil, List.length_nil, Nat.zero_mul]
  | cons b values ih =>
    rw [List.flatMap_cons, List.length_append, c.encode_length, ih, List.length_cons, Nat.succ_mul, Nat.add_comm]

theorem slice_flatMap (c : FixedWidth α β) (values : List β) (i : Nat) (within : i < values.length) :
    slice (values.flatMap c.encode) (i * c.width) c.width = c.encode values[i] := by
  induction values generalizing i with
  | nil => simp at within
  | cons b values ih =>
    cases i with
    | zero =>
      rw [Nat.zero_mul, List.flatMap_cons, ← c.encode_length b, slice_left]
      rfl
    | succ i =>
      have skipped := slice_right (c.encode b) (values.flatMap c.encode) (i * c.width) c.width
      rw [c.encode_length] at skipped
      rw [List.flatMap_cons, Nat.succ_mul, Nat.add_comm, skipped, ih i (by simpa using within)]
      rfl

theorem flatMap_ofFn (c : FixedWidth α β) (n : Nat) {l : List α} (size : l.length = n * c.width) :
    (List.ofFn fun i : Fin n => c.decode (slice l (i * c.width) c.width)).flatMap c.encode = l := by
  induction n generalizing l with
  | zero =>
    rw [Nat.zero_mul] at size
    rw [List.ofFn_zero, List.eq_nil_of_length_eq_zero size]
    rfl
  | succ n ih =>
    rw [Nat.succ_mul] at size
    have later := ih (l := l.drop c.width) (by rw [List.length_drop]; omega)
    have shifted : (fun i : Fin n => c.decode (slice l (i.succ * c.width) c.width)) =
        fun i : Fin n => c.decode (slice (l.drop c.width) (i * c.width) c.width) := by
      funext i
      rw [slice_drop, Fin.val_succ, Nat.succ_mul, Nat.add_comm]
    rw [List.ofFn_succ, List.flatMap_cons, shifted, later, Fin.val_zero, Nat.zero_mul,
      c.encode_decode _ (slice_length (by omega)), slice, List.drop_zero, List.take_append_drop]

/-- A fixed number of values, one after the other. -/
def vector (c : FixedWidth α β) (n : Nat) : FixedWidth α (Vector β n) where
  width := n * c.width
  encode values := values.toList.flatMap c.encode
  decode l := Vector.ofFn fun i => c.decode (slice l (i * c.width) c.width)
  encode_length values := by rw [c.flatMap_length, Vector.length_toList]
  decode_encode values := by
    ext i within
    rw [Vector.getElem_ofFn, c.slice_flatMap _ i (by simpa using within), c.decode_encode]
    simp
  encode_decode l size := by rw [Vector.toList_ofFn, c.flatMap_ofFn n size]

theorem vector_decode_slice (c : FixedWidth α β) (n : Nat) (l : List α) (offset : Nat) :
    (c.vector n).decode (slice l offset (n * c.width)) =
      Vector.ofFn fun i : Fin n => c.decode (slice l (offset + i * c.width) c.width) := by
  refine congrArg Vector.ofFn (funext fun i => ?_)
  have within : i * c.width + c.width ≤ n * c.width := by
    rw [← Nat.succ_mul]
    exact Nat.mul_le_mul_right _ i.isLt
  rw [slice_slice within]

end FixedWidth
