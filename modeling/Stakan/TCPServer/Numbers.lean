import Stakan.TCPServer.Grammar

namespace Stakan.TCPServer

/-- The number that a string of digits denotes in the decimal system. -/
def decimalValue (digits : List UInt8) : Nat :=
  digits.foldl (fun n c => n * 10 + (c.toNat - (byte '0').toNat)) 0

/-- The accumulator of the loop after one more digit. -/
def nextId (id : ClientId) (c : UInt8) : ClientId := id * 10 + (c - byte '0').toUInt64

theorem Digit.not_trailing {b : UInt8} (digit : Digit b) : ¬Trailing b := by
  rintro (rfl | rfl | rfl) <;> exact absurd digit.1 (by decide)

theorem byteAt_of_drop {frame rest : List UInt8} {i : Nat} {c : UInt8} (cut : frame.drop i = c :: rest) :
    byteAt frame i = .ok c ∧ frame.drop (i + 1) = rest := by
  constructor
  · have at_i : frame[i]? = some c := by
      rw [← Nat.add_zero i, ← List.getElem?_drop, cut]
      rfl
    rw [byteAt, at_i]
  · rw [← List.drop_drop, cut]
    rfl

theorem trimEnd_skips {frame : List UInt8} {m n : Nat} (le : m ≤ n)
    (trailing : ∀ j, m ≤ j → j < n → ∃ b, frame[j]? = some b ∧ Trailing b) :
    trimEnd frame n = trimEnd frame m := by
  induction n, le using Nat.le_induction with
  | base => rfl
  | succ n le ih =>
    obtain ⟨b, at_n, trails⟩ := trailing n le (Nat.lt_succ_self n)
    have skipped := ih fun j lower upper => trailing j lower (by omega)
    have byte_n : byteAt frame n = .ok b := by rw [byteAt, at_n]
    rw [trimEnd, byte_n, ← skipped]
    exact if_pos trails

theorem trimEnd_stops {frame : List UInt8} {last : Nat} {c : UInt8} (at_last : frame[last]? = some c)
    (stops : ¬Trailing c) : trimEnd frame (last + 1) = .ok (last + 1) := by
  have byte_last : byteAt frame last = .ok c := by rw [byteAt, at_last]
  rw [trimEnd, byte_last]
  exact if_neg stops

theorem trimEnd_append {body ending : List UInt8} {c : UInt8} (trailing : ∀ b ∈ ending, Trailing b)
    (stops : ¬Trailing c) :
    trimEnd (body ++ [c] ++ ending) (body ++ [c] ++ ending).length = .ok (body.length + 1) := by
  have size : (body ++ [c] ++ ending).length = body.length + 1 + ending.length := by
    simp only [List.length_append, List.length_singleton]
  rw [size, trimEnd_skips (m := body.length + 1) (by omega) fun j lower upper => ?_]
  · refine trimEnd_stops ?_ stops
    simp
  · have inside : j - (body.length + 1) < ending.length := by omega
    refine ⟨ending[j - (body.length + 1)], ?_, trailing _ (List.getElem_mem inside)⟩
    rw [List.getElem?_append_right (by simpa using lower)]
    simp [inside]

theorem skipSpaces_skips {frame blanks rest : List UInt8} {beg left : Nat} {c : UInt8}
    (cut : frame.drop beg = blanks ++ c :: rest) (spaces : ∀ b ∈ blanks, b = byte ' ') (stops : c ≠ byte ' ')
    (within : blanks.length < left) : skipSpaces frame beg left = .ok (beg + blanks.length) := by
  induction blanks generalizing beg left with
  | nil =>
    obtain ⟨left, rfl⟩ := Nat.exists_eq_succ_of_ne_zero (Nat.ne_of_gt within)
    rw [skipSpaces, (byteAt_of_drop cut).1]
    exact if_neg stops
  | cons b blanks ih =>
    rw [List.length_cons] at within
    obtain ⟨left, rfl⟩ := Nat.exists_eq_succ_of_ne_zero (by omega : left ≠ 0)
    obtain ⟨at_beg, later⟩ := byteAt_of_drop cut
    have shorter : blanks.length < left := by omega
    have rest := ih later (fun b member => spaces b (List.mem_cons_of_mem _ member)) shorter
    rw [skipSpaces, at_beg, List.length_cons, Nat.add_comm blanks.length, ← Nat.add_assoc, ← rest]
    exact if_pos (spaces b List.mem_cons_self)

theorem matchesFrom_of_drop {frame word rest : List UInt8} {i : Nat} (cut : frame.drop i = word ++ rest) :
    matchesFrom frame word i = .ok true := by
  induction word generalizing i with
  | nil => rfl
  | cons k word ih =>
    obtain ⟨at_i, later⟩ := byteAt_of_drop cut
    rw [matchesFrom, at_i, ← ih later]
    exact if_pos rfl

theorem readDigits_of_drop {frame digits rest : List UInt8} {i : Nat} (cut : frame.drop i = digits ++ rest)
    (all : ∀ b ∈ digits, Digit b) (id : ClientId) :
    readDigits frame i digits.length id = .ok (digits.foldl nextId id) := by
  induction digits generalizing i id with
  | nil => rfl
  | cons c digits ih =>
    obtain ⟨at_i, later⟩ := byteAt_of_drop cut
    obtain ⟨lower, upper⟩ := all c List.mem_cons_self
    have rest := ih later (fun b member => all b (List.mem_cons_of_mem _ member)) (nextId id c)
    rw [List.length_cons, readDigits, at_i, List.foldl_cons, ← rest]
    exact if_neg (not_or.mpr ⟨UInt8.not_lt.mpr lower, UInt8.not_lt.mpr upper⟩)

/-- The loop computes the decimal value modulo 2^64. -/
theorem foldl_nextId {digits : List UInt8} (all : ∀ b ∈ digits, Digit b) (n : Nat) :
    digits.foldl nextId (UInt64.ofNat n) =
      UInt64.ofNat (digits.foldl (fun n c => n * 10 + (c.toNat - (byte '0').toNat)) n) := by
  induction digits generalizing n with
  | nil => rfl
  | cons c digits ih =>
    have digit : (c - byte '0').toUInt64 = UInt64.ofNat (c.toNat - (byte '0').toNat) := by
      rw [← UInt8.toNat_sub_of_le _ _ (all c List.mem_cons_self).1]
      exact (UInt64.ofNat_uInt8ToNat _).symm
    have next : nextId (UInt64.ofNat n) c = UInt64.ofNat (n * 10 + (c.toNat - (byte '0').toNat)) := by
      rw [nextId, digit, UInt64.ofNat_add, UInt64.ofNat_mul]
      rfl
    rw [List.foldl_cons, List.foldl_cons, next]
    exact ih (fun b member => all b (List.mem_cons_of_mem _ member)) _

/-- The end of the line goes, and the number stays. -/
theorem HelloShape.trimmed {frame blanks digits ending : List UInt8} (shape : HelloShape frame blanks digits ending)
    (number : digits ≠ []) : trimEnd frame frame.length = .ok (blanks.length + 6 + digits.length) := by
  obtain ⟨whole, _, all, trailing⟩ := shape
  have some_digit : 0 < digits.length := List.length_pos_iff.mpr number
  have ends : frame =
      blanks ++ (kHello ++ byte ' ' :: digits.dropLast) ++ [digits.getLast number] ++ ending := by
    have split := List.dropLast_concat_getLast number
    rw [whole]
    conv_lhs => rw [← split]
    simp
  have last := (all _ (List.getLast_mem number)).not_trailing
  have body : (blanks ++ (kHello ++ byte ' ' :: digits.dropLast)).length + 1 = blanks.length + 6 + digits.length := by
    have hello : kHello.length = 5 := rfl
    simp only [List.length_append, List.length_cons, List.length_dropLast, hello]
    omega
  rw [ends, trimEnd_append trailing last, body]

/-- A HELLO with a number is taken for that number, modulo 2^64. -/
theorem HelloShape.parsed {frame blanks digits ending : List UInt8} (shape : HelloShape frame blanks digits ending)
    (number : digits ≠ []) : parseClientId frame = .ok (UInt64.ofNat (decimalValue digits)) := by
  have trimmed := shape.trimmed number
  obtain ⟨whole, spaces, all, _⟩ := shape
  have hello : kHello.length = 5 := rfl
  have some_digit : 0 < digits.length := List.length_pos_iff.mpr number
  have skipped : skipSpaces frame 0 (blanks.length + 6 + digits.length) = .ok blanks.length := by
    have first : frame.drop 0 = blanks ++ byte 'H' :: (bytesOf "ELLO" ++ byte ' ' :: (digits ++ ending)) := whole
    rw [skipSpaces_skips first spaces (by decide) (by omega), Nat.zero_add]
  have at_hello : frame.drop blanks.length = kHello ++ byte ' ' :: (digits ++ ending) := by
    rw [whole, List.drop_left]
  have at_space : frame.drop (blanks.length + kHello.length) = byte ' ' :: (digits ++ ending) := by
    rw [← List.drop_drop, at_hello, List.drop_left]
  obtain ⟨space, at_digits⟩ := byteAt_of_drop at_space
  have long : sizeSub (blanks.length + 6 + digits.length) blanks.length = .ok (6 + digits.length) := by
    rw [sizeSub, if_pos (by omega), Nat.add_assoc, Nat.add_sub_cancel_left]
  have rest : sizeSub (blanks.length + 6 + digits.length) (blanks.length + kHello.length + 1) =
      .ok digits.length := by
    rw [sizeSub, hello, if_pos (by omega)]
    exact congrArg _ (by omega)
  have value : digits.foldl nextId 0 = UInt64.ofNat (decimalValue digits) := foldl_nextId all 0
  have not_empty : frame.isEmpty = false := by
    rw [List.isEmpty_eq_false_iff_exists_mem]
    exact ⟨byte ' ', by simp [whole]⟩
  have not_blank : ¬blanks.length ≥ blanks.length + 6 + digits.length := by omega
  have not_short : ¬6 + digits.length < kHello.length + 2 := by omega
  rw [← value, ← readDigits_of_drop at_digits all 0]
  simp [parseClientId, trimmed, skipped, matchesFrom_of_drop at_hello, space, long, rest, not_empty, not_blank,
    not_short, bind, Except.bind]

/-- The parser accepts the HELLOs with a number, returns 0 for all other
frames, and reads none outside its bounds. -/
structure ParsesGrammar (frame : List UInt8) : Prop where
  safe : ∃ id, parseClientId frame = .ok id
  accepted : ∀ blanks digits ending, HelloShape frame blanks digits ending → digits ≠ [] →
    parseClientId frame = .ok (UInt64.ofNat (decimalValue digits))
  refused : (¬∃ blanks digits ending, HelloShape frame blanks digits ending ∧ digits ≠ []) →
    parseClientId frame = .ok 0

theorem parseClientId_grammar (frame : List UInt8) : ParsesGrammar frame where
  safe := parseClientId_ok frame
  accepted _ _ _ shape number := shape.parsed number
  refused other := by
    obtain ⟨id, parsed⟩ := parseClientId_ok frame
    by_cases valid : id = 0
    · rw [parsed, valid]
    · exact absurd (parseClientId_shape parsed valid) other

/-- The number that a HELLO writes. -/
def Writes (frame : List UInt8) (n : Nat) : Prop :=
  ∃ blanks digits ending, HelloShape frame blanks digits ending ∧ digits ≠ [] ∧ decimalValue digits = n

/-- A number that does not fit in 64 bits is refused. -/
def RefusesOverflow (frame : List UInt8) : Prop := ∀ n, Writes frame n → 2 ^ 64 ≤ n → parseClientId frame = .ok 0

/-- Two frames taken for the same client write the same number. -/
def NoCollision (frame other : List UInt8) : Prop :=
  ∀ c ≠ 0, parseClientId frame = .ok c → parseClientId other = .ok c →
    ∀ n n', Writes frame n → Writes other n' → n = n'

theorem Writes.parsed {frame : List UInt8} {n : Nat} (writes : Writes frame n) :
    parseClientId frame = .ok (UInt64.ofNat n) := by
  obtain ⟨_, _, _, shape, number, rfl⟩ := writes
  exact shape.parsed number

theorem ofNat_eq_iff {n n' : Nat} : UInt64.ofNat n = UInt64.ofNat n' ↔ n % 2 ^ 64 = n' % 2 ^ 64 := by
  rw [← UInt64.toNat_inj, UInt64.toNat_ofNat', UInt64.toNat_ofNat']

theorem ofNat_eq_zero_iff {n : Nat} : UInt64.ofNat n = 0 ↔ 2 ^ 64 ∣ n :=
  ofNat_eq_iff.trans (Nat.dvd_iff_mod_eq_zero ..).symm

/-- Overflow is refused exactly where the number fits or is a multiple of 2^64.
Two frames do not collide exactly where no two different numbers of theirs are
congruent modulo 2^64, but for the multiples of 2^64. -/
theorem noCollision_iff (frame other : List UInt8) :
    (RefusesOverflow frame ↔ ∀ n, Writes frame n → n < 2 ^ 64 ∨ 2 ^ 64 ∣ n) ∧
    (NoCollision frame other ↔
      ∀ n n', Writes frame n → Writes other n' → n % 2 ^ 64 = n' % 2 ^ 64 → n = n' ∨ 2 ^ 64 ∣ n) := by
  refine ⟨⟨fun refuses n writes => ?_, fun fits n writes large => ?_⟩,
    ⟨fun apart n n' writes writes' same => ?_, fun apart c valid parsed parsed' n n' writes writes' => ?_⟩⟩
  · by_cases fits : n < 2 ^ 64
    · exact Or.inl fits
    · have zero := Except.ok.inj (writes.parsed.symm.trans (refuses n writes (Nat.not_lt.mp fits)))
      exact Or.inr (ofNat_eq_zero_iff.mp zero)
  · have multiple := (fits n writes).resolve_left (Nat.not_lt.mpr large)
    rw [writes.parsed, ofNat_eq_zero_iff.mpr multiple]
  · by_cases zero : UInt64.ofNat n = 0
    · exact Or.inr (ofNat_eq_zero_iff.mp zero)
    · have equal : UInt64.ofNat n' = UInt64.ofNat n := ofNat_eq_iff.mpr same.symm
      exact Or.inl (apart _ zero writes.parsed (by rw [writes'.parsed, equal]) n n' writes writes')
  · have first := Except.ok.inj (writes.parsed.symm.trans parsed)
    have second := Except.ok.inj (writes'.parsed.symm.trans parsed')
    have same := ofNat_eq_iff.mp (first.trans second.symm)
    refine (apart n n' writes writes' same).resolve_right fun multiple => valid ?_
    rw [← first, ofNat_eq_zero_iff.mpr multiple]

theorem writes_line (digits : List UInt8) (number : digits ≠ []) (all : digits.all (Digit ·)) :
    Writes (bytesOf "HELLO " ++ digits ++ bytesOf "\n") (decimalValue digits) := by
  have ends : ∀ b ∈ bytesOf "\n", Trailing b := by
    intro b member
    rw [List.mem_singleton.mp member]
    decide
  have shape : HelloShape (bytesOf "HELLO " ++ digits ++ bytesOf "\n") [] digits (bytesOf "\n") :=
    ⟨by rw [List.append_assoc]; rfl, by simp, by simpa using all, ends⟩
  exact ⟨[], digits, bytesOf "\n", shape, number, rfl⟩

/-- A number of 65 bits is taken for client 1. -/
theorem overflowing_hello_collides : ¬∀ frame other, NoCollision frame other := by
  intro claim
  have one := writes_line (bytesOf "1") (by decide) (by decide)
  have large := writes_line (bytesOf "18446744073709551617") (by decide) (by decide)
  exact absurd (claim _ _ 1 (by decide) (by decide) (by decide) _ _ one large) (by decide)

end Stakan.TCPServer
