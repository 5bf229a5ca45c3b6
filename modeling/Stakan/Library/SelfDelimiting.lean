import Mathlib.Data.List.Basic

namespace SelfDelimiting

variable {α β : Type} {encode : β → List α} {read : List α → Option (β × List α)}

/-- The reader takes the encoding of a value off the front of any data, and nothing behind it. -/
def Delimits (encode : β → List α) (read : List α → Option (β × List α)) (b : β) : Prop :=
  ∀ rest, read (encode b ++ rest) = some (b, rest)

/-- At most `fuel` values, one after the other, up to the end of the data. -/
def readUpTo (read : List α → Option (β × List α)) : Nat → List α → Option (List β)
  | _, [] => some []
  | 0, _ :: _ => none
  | fuel + 1, a :: data => do
    let (b, rest) ← read (a :: data)
    return b :: (← readUpTo read fuel rest)

/-- A stream of values, none of which is empty. -/
def readStream (read : List α → Option (β × List α)) (data : List α) : Option (List β) :=
  readUpTo read data.length data

theorem readUpTo_flatMap (nonempty : ∀ b, encode b ≠ []) {bs : List β} (delimits : ∀ b ∈ bs, Delimits encode read b)
    {fuel : Nat} (enough : (bs.flatMap encode).length ≤ fuel) :
    readUpTo read fuel (bs.flatMap encode) = some bs := by
  induction bs generalizing fuel with
  | nil => rw [List.flatMap_nil, readUpTo]
  | cons b bs ih =>
    have first := delimits b List.mem_cons_self (bs.flatMap encode)
    obtain ⟨a, data, start⟩ := List.exists_cons_of_ne_nil (nonempty b)
    rw [List.flatMap_cons, start, List.cons_append, List.length_cons, List.length_append] at enough
    obtain ⟨fuel, rfl⟩ : ∃ smaller, fuel = smaller + 1 := ⟨fuel - 1, by omega⟩
    have later : readUpTo read fuel (bs.flatMap encode) = some bs :=
      ih (fun other member => delimits other (List.mem_cons_of_mem _ member)) (by omega)
    rw [start, List.cons_append] at first
    rw [List.flatMap_cons, start, List.cons_append, readUpTo, first]
    simp [later]

/-- Values that the reader delimits are read from a stream as they were written. -/
theorem readStream_flatMap (nonempty : ∀ b, encode b ≠ []) {bs : List β}
    (delimits : ∀ b ∈ bs, Delimits encode read b) :
    readStream read (bs.flatMap encode) = some bs :=
  readUpTo_flatMap nonempty delimits (Nat.le_refl _)

/-- The encoding of one value is not the beginning of another's. -/
theorem Delimits.eq_of_begins {b b' : β} (delimits : Delimits encode read b) (delimits' : Delimits encode read b')
    (begins : encode b <+: encode b') : b = b' := by
  obtain ⟨rest, whole⟩ := begins
  have first := delimits rest
  have second := delimits' []
  rw [List.append_nil, ← whole, first] at second
  exact congrArg Prod.fst (Option.some.inj second)

end SelfDelimiting
