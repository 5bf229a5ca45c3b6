import Mathlib.Data.List.Basic

namespace Delimited

variable {α : Type*} {d : α}

/-- A piece ends with its only delimiter. -/
def Piece (d : α) (piece : List α) : Prop := ∃ line, piece = line ++ [d] ∧ d ∉ line

/-- Pieces cut off the front of a stream in order, and what is left of it. -/
structure Cut (d : α) (stream : List α) (pieces : List (List α)) (rest : List α) : Prop where
  whole : pieces.flatten ++ rest = stream
  terminated : ∀ piece ∈ pieces, Piece d piece

theorem Cut.start (stream : List α) : Cut d stream [] stream where
  whole := rfl
  terminated piece member := by simp at member

/-- What arrives later changes nothing that has been cut off. -/
theorem Cut.append {stream rest : List α} {pieces : List (List α)} (cut : Cut d stream pieces rest) (more : List α) :
    Cut d (stream ++ more) pieces (rest ++ more) where
  whole := by rw [← List.append_assoc, cut.whole]
  terminated := cut.terminated

theorem Cut.trans {stream middle rest : List α} {pieces later : List (List α)} (cut : Cut d stream pieces middle)
    (next : Cut d middle later rest) : Cut d stream (pieces ++ later) rest where
  whole := by rw [List.flatten_append, List.append_assoc, next.whole, cut.whole]
  terminated piece member := by
    rcases List.mem_append.mp member with first | second
    · exact cut.terminated piece first
    · exact next.terminated piece second

/-- The piece up to the first delimiter. -/
theorem cut_first [DecidableEq α] {stream : List α} (delimited : d ∈ stream) :
    Cut d stream [stream.take (stream.idxOf d + 1)] (stream.drop (stream.idxOf d + 1)) where
  whole := by simp
  terminated piece member := by
    obtain rfl := List.mem_singleton.mp member
    have within := List.idxOf_lt_length_of_mem delimited
    refine ⟨stream.take (stream.idxOf d), ?_, fun inside => ?_⟩
    · rw [List.take_succ_eq_append_getElem within, List.getElem_idxOf within]
    · exact Nat.lt_irrefl _ ((List.mem_take_iff_idxOf_lt delimited).mp inside)

theorem line_unique {line line' rest rest' : List α} (same : line ++ d :: rest = line' ++ d :: rest')
    (first : d ∉ line) (second : d ∉ line') : line = line' ∧ rest = rest' := by
  induction line generalizing line' with
  | nil =>
    cases line' with
    | nil => exact ⟨rfl, (List.cons.inj same).2⟩
    | cons a line' => exact absurd (by rw [(List.cons.inj same).1]; exact List.mem_cons_self) second
  | cons a line ih =>
    cases line' with
    | nil => exact absurd (by rw [(List.cons.inj same).1]; exact List.mem_cons_self) first
    | cons b line' =>
      obtain ⟨rfl, tails⟩ := List.cons.inj same
      obtain ⟨rfl, rfl⟩ := ih tails (List.not_mem_of_not_mem_cons first) (List.not_mem_of_not_mem_cons second)
      exact ⟨rfl, rfl⟩

/-- Two ways to cut a stream agree as far as both go. -/
theorem Cut.isPrefix {stream rest rest' : List α} {pieces pieces' : List (List α)} (cut : Cut d stream pieces rest)
    (other : Cut d stream pieces' rest') (ended : d ∉ rest') :
    ∃ later, pieces' = pieces ++ later ∧ Cut d rest later rest' := by
  induction pieces generalizing stream pieces' with
  | nil =>
    have same : rest = stream := cut.whole
    exact ⟨pieces', rfl, same ▸ other⟩
  | cons piece pieces ih =>
    obtain ⟨line, rfl, noEnd⟩ := cut.terminated piece List.mem_cons_self
    have later : Cut d (pieces.flatten ++ rest) pieces rest :=
      ⟨rfl, fun piece member => cut.terminated piece (List.mem_cons_of_mem _ member)⟩
    have front : line ++ d :: (pieces.flatten ++ rest) = stream := by simpa using cut.whole
    cases pieces' with
    | nil =>
      have same : rest' = stream := other.whole
      exact absurd (by simp [same, ← front]) ended
    | cons piece' pieces' =>
      obtain ⟨line', rfl, noEnd'⟩ := other.terminated piece' List.mem_cons_self
      have front' : line' ++ d :: (pieces'.flatten ++ rest') = stream := by simpa using other.whole
      obtain ⟨rfl, left⟩ := line_unique (front.trans front'.symm) noEnd noEnd'
      have other' : Cut d (pieces.flatten ++ rest) pieces' rest' :=
        ⟨left.symm, fun piece member => other.terminated piece (List.mem_cons_of_mem _ member)⟩
      obtain ⟨more, rfl, agree⟩ := ih later other'
      exact ⟨more, rfl, agree⟩

theorem Cut.unique {stream rest rest' : List α} {pieces pieces' : List (List α)} (cut : Cut d stream pieces rest)
    (other : Cut d stream pieces' rest') (ended : d ∉ rest) (ended' : d ∉ rest') :
    pieces' = pieces ∧ rest' = rest := by
  obtain ⟨later, rfl, left⟩ := cut.isPrefix other ended'
  cases later with
  | nil =>
    have same : rest' = rest := left.whole
    exact ⟨List.append_nil pieces, same⟩
  | cons piece later =>
    obtain ⟨line, rfl, _⟩ := left.terminated piece List.mem_cons_self
    refine absurd ?_ ended
    rw [← left.whole]
    simp

end Delimited
