import Stakan.TCPServer.ParseClientId

namespace Stakan.TCPServer

/-- The bytes that may follow the number. -/
def Trailing (b : UInt8) : Prop := b = byte '\n' ∨ b = byte '\r' ∨ b = byte ' '

def Digit (b : UInt8) : Prop := byte '0' ≤ b ∧ b ≤ byte '9'

instance (b : UInt8) : Decidable (Trailing b) := inferInstanceAs (Decidable (_ ∨ _ ∨ _))
instance (b : UInt8) : Decidable (Digit b) := inferInstanceAs (Decidable (_ ∧ _))

/-- The shape of a HELLO: spaces, the word, one space, digits and the end of the line. -/
structure HelloShape (frame blanks digits ending : List UInt8) : Prop where
  whole : frame = blanks ++ (kHello ++ byte ' ' :: (digits ++ ending))
  blanks_space : ∀ b ∈ blanks, b = byte ' '
  digits_digit : ∀ b ∈ digits, Digit b
  ending_trailing : ∀ b ∈ ending, Trailing b

/-- A step that reads a byte has found one, and goes on with it. -/
theorem byteAt_bind {α : Type} {frame : List UInt8} {i : Nat} {rest : UInt8 → Except Failure α} {result : α}
    (read : (byteAt frame i >>= rest) = .ok result) :
    ∃ c, frame[i]? = some c ∧ frame.drop i = c :: frame.drop (i + 1) ∧ rest c = .ok result := by
  unfold byteAt at read
  split at read
  next c at_i =>
    obtain ⟨within, value⟩ := List.getElem?_eq_some_iff.mp at_i
    refine ⟨c, at_i, ?_, read⟩
    rw [List.drop_eq_getElem_cons within, value]
  next => contradiction

theorem trimEnd_trailing {frame : List UInt8} {n finish : Nat} (trimmed : trimEnd frame n = .ok finish) :
    finish ≤ n ∧ ∀ j b, finish ≤ j → j < n → frame[j]? = some b → Trailing b := by
  induction n with
  | zero =>
    obtain rfl := Except.ok.inj trimmed
    exact ⟨le_rfl, fun j b _ before => by omega⟩
  | succ last ih =>
    obtain ⟨c, at_last, _, rest⟩ := byteAt_bind trimmed
    split at rest
    next trailing =>
      obtain ⟨upper, ending⟩ := ih rest
      refine ⟨by omega, fun j b lower before at_j => ?_⟩
      by_cases same : j = last
      · subst same
        obtain rfl := Option.some.inj (at_last.symm.trans at_j)
        exact trailing
      · exact ending j b lower (by omega) at_j
    next =>
      obtain rfl := Except.ok.inj rest
      exact ⟨le_rfl, fun j b lower before => by omega⟩

theorem skipSpaces_blanks {frame : List UInt8} {left beg first : Nat}
    (skipped : skipSpaces frame beg left = .ok first) :
    beg ≤ first ∧ first ≤ beg + left ∧ ∀ b ∈ (frame.drop beg).take (first - beg), b = byte ' ' := by
  induction left generalizing beg with
  | zero =>
    obtain rfl := Except.ok.inj skipped
    simp
  | succ left ih =>
    obtain ⟨c, _, cut, rest⟩ := byteAt_bind skipped
    split at rest
    next space =>
      obtain ⟨lower, upper, blanks⟩ := ih rest
      refine ⟨by omega, by omega, ?_⟩
      rw [cut, show first - beg = first - (beg + 1) + 1 by omega, List.take_succ_cons]
      intro b member
      rcases List.mem_cons.mp member with rfl | later
      · exact space
      · exact blanks b later
    next =>
      obtain rfl := Except.ok.inj rest
      simp

theorem matchesFrom_found {frame word : List UInt8} {i : Nat} (matched : matchesFrom frame word i = .ok true) :
    frame.drop i = word ++ frame.drop (i + word.length) := by
  induction word generalizing i with
  | nil => simp
  | cons k word ih =>
    obtain ⟨c, _, cut, rest⟩ := byteAt_bind matched
    split at rest
    next same =>
      rw [cut, ih rest, same, List.length_cons, List.cons_append, Nat.add_right_comm, Nat.add_assoc]
    next => contradiction

theorem readDigits_digits {frame : List UInt8} {left i : Nat} {id number : ClientId}
    (read : readDigits frame i left id = .ok number) (positive : number ≠ 0) :
    ∀ b ∈ (frame.drop i).take left, Digit b := by
  induction left generalizing i id with
  | zero => simp
  | succ left ih =>
    obtain ⟨c, _, cut, rest⟩ := byteAt_bind read
    split at rest
    next => exact absurd (Except.ok.inj rest).symm positive
    next digit =>
      obtain ⟨lower, upper⟩ := not_or.mp digit
      rw [cut, List.take_succ_cons]
      intro b member
      rcases List.mem_cons.mp member with rfl | later
      · exact ⟨UInt8.not_lt.mp lower, UInt8.not_lt.mp upper⟩
      · exact ih rest b later

/-- Where the parser has been when it returns the number of a client. -/
structure Accepts (frame : List UInt8) (c : ClientId) (beg finish : Nat) : Prop where
  trimmed : trimEnd frame frame.length = .ok finish
  skipped : skipSpaces frame 0 finish = .ok beg
  long : beg + (kHello.length + 2) ≤ finish
  matched : matchesFrom frame kHello beg = .ok true
  space : frame.drop (beg + kHello.length) = byte ' ' :: frame.drop (beg + kHello.length + 1)
  read : readDigits frame (beg + kHello.length + 1) (finish - (beg + kHello.length + 1)) 0 = .ok c

theorem parseClientId_accepts {frame : List UInt8} {c : ClientId} (parsed : parseClientId frame = .ok c)
    (valid : c ≠ 0) : ∃ beg finish, Accepts frame c beg finish := by
  have nothing : (pure 0 : Except Failure ClientId) ≠ .ok c := fun same => valid (Except.ok.inj same).symm
  obtain ⟨finish, trimmed, bound⟩ := trimEnd_ok frame frame.length le_rfl
  obtain ⟨beg, skipped⟩ := skipSpaces_ok frame finish 0 (by omega)
  refine ⟨beg, finish, ?_⟩
  have hello : kHello.length = 5 := rfl
  simp only [parseClientId, trimmed, skipped, bind, Except.bind] at parsed
  split at parsed
  next => exact absurd parsed nothing
  split at parsed
  next => exact absurd parsed nothing
  have size : sizeSub finish beg = .ok (finish - beg) := if_pos (by omega)
  simp only [size] at parsed
  split at parsed
  next => exact absurd parsed nothing
  next long =>
    cases matched : matchesFrom frame kHello beg with
    | error failure => simp [matched] at parsed
    | ok found =>
      cases at_space : byteAt frame (beg + kHello.length) with
      | error failure => cases found <;> simp [matched, at_space, nothing] at parsed
      | ok between =>
        have rest : sizeSub finish (beg + kHello.length + 1) = .ok (finish - (beg + kHello.length + 1)) :=
          if_pos (by omega)
        simp only [matched, at_space, rest] at parsed
        split at parsed
        next => exact absurd parsed nothing
        next found_hello =>
          split at parsed
          next => exact absurd parsed nothing
          next space =>
            obtain ⟨_, _, cut, same⟩ := byteAt_bind (show (byteAt frame (beg + kHello.length) >>= pure) = .ok between by
              rw [at_space]; rfl)
            rw [Except.ok.inj same, not_not.mp space] at cut
            exact ⟨trimmed, skipped, by omega, by rw [matched]; simpa using found_hello, cut, parsed⟩

/-- A frame that is taken for the HELLO of a client has the shape of one. -/
theorem parseClientId_shape {frame : List UInt8} {c : ClientId} (parsed : parseClientId frame = .ok c)
    (valid : c ≠ 0) : ∃ blanks digits ending, HelloShape frame blanks digits ending ∧ digits ≠ [] := by
  obtain ⟨beg, finish, trimmed, skipped, long, matched, space, read⟩ := parseClientId_accepts parsed valid
  obtain ⟨within, trailing⟩ := trimEnd_trailing trimmed
  obtain ⟨_, _, blanks⟩ := skipSpaces_blanks skipped
  let digits := beg + kHello.length + 1
  refine ⟨frame.take beg, (frame.drop digits).take (finish - digits), frame.drop finish, ⟨?_, ?_, ?_, ?_⟩, ?_⟩
  · have rest : frame.drop digits = (frame.drop digits).take (finish - digits) ++ frame.drop finish := by
      have tail : (frame.drop digits).drop (finish - digits) = frame.drop finish := by
        rw [List.drop_drop, show digits + (finish - digits) = finish by omega]
      rw [← tail, List.take_append_drop]
    rw [← rest, ← space, ← matchesFrom_found matched, List.take_append_drop]
  · simpa using blanks
  · exact readDigits_digits read valid
  · intro b member
    obtain ⟨j, at_j⟩ := List.mem_iff_getElem?.mp member
    rw [List.getElem?_drop] at at_j
    obtain ⟨inside, _⟩ := List.getElem?_eq_some_iff.mp at_j
    exact trailing (finish + j) b (by omega) inside at_j
  · have hello : kHello.length = 5 := rfl
    refine List.ne_nil_of_length_pos ?_
    rw [List.length_take, List.length_drop]
    omega

end Stakan.TCPServer
