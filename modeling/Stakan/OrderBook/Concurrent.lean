import Stakan.OrderBook.Linearization

namespace Stakan
open LockedObject

/-- What is seen of one side of a book, and of both. -/
abbrev SideOutput (ι : Type*) := Output ι SideCall SideAnswer LogEntry
abbrev BookOutput (ι : Type*) := SideOutput ι ⊕ SideOutput ι

/-- A label says which side the caller works on. -/
abbrev BookLabel (ι : Type*) := Label ι SideCall ⊕ Label ι SideCall

/-- A book with its two locks, and the calls under way on each side. -/
abbrev ThreadedBook (ι : Type*) :=
  State ι (BookSide bidComparator) SidePoint × State ι (BookSide askComparator) SidePoint

/-- The book whose calls take effect in one piece. -/
abbrev AtomicBook (ι : Type*) :=
  Atomic ι (BookSide bidComparator) SideCall SideAnswer × Atomic ι (BookSide askComparator) SideCall SideAnswer

variable {ι : Type*}

namespace ThreadedBook

def start (book : OrderBook) : ThreadedBook ι := ({ memory := book.bids }, { memory := book.asks })

/-- One step of one thread, on either side. -/
def step [DecidableEq ι] : ThreadedBook ι → BookLabel ι → Option (ThreadedBook ι × List (BookOutput ι)) :=
  Transducer.parallel (LockedObject.step (sideCode bidComparator bidTexts))
    (LockedObject.step (sideCode askComparator askTexts))

/-- No call is under way. -/
def Quiet (s : ThreadedBook ι) : Prop := (∀ i, s.1.calls i = none) ∧ ∀ i, s.2.calls i = none

end ThreadedBook

namespace AtomicBook

def start (book : OrderBook) : AtomicBook ι := ({ memory := book.bids }, { memory := book.asks })

def step [DecidableEq ι] : AtomicBook ι → BookLabel ι → Option (AtomicBook ι × List (BookOutput ι)) :=
  Transducer.parallel (Atomic.step (BookSide.perform bidTexts)) (Atomic.step (BookSide.perform askTexts))

end AtomicBook

namespace ThreadedBook

variable [DecidableEq ι]

/-- Each side's memory is the atomic one but for the work of the owner of the side's lock. -/
def SidesRelated (s : ThreadedBook ι) (t : AtomicBook ι) : Prop :=
  Related (sideCode bidComparator bidTexts) (SidePoint.Stands bidTexts) SidePoint.Settled s.1 t.1 ∧
    Related (sideCode askComparator askTexts) (SidePoint.Stands askTexts) SidePoint.Settled s.2 t.2

theorem simulates : Transducer.Simulates (step (ι := ι)) AtomicBook.step SidesRelated :=
  (sideCode_disciplined bidComparator bidTexts).simulates.parallel (sideCode_disciplined askComparator askTexts).simulates

omit [DecidableEq ι] in
theorem start_related (book : OrderBook) : SidesRelated (ι := ι) (start book) (AtomicBook.start book) :=
  ⟨related_start _ _ _ _, related_start _ _ _ _⟩

omit [DecidableEq ι] in
theorem SidesRelated.memory {s : ThreadedBook ι} {t : AtomicBook ι} (related : SidesRelated s t) (quiet : s.Quiet) :
    s.1.memory = t.1.memory ∧ s.2.memory = t.2.memory :=
  ⟨related.1.memory_of_quiet quiet.1, related.2.memory_of_quiet quiet.2⟩

/-- The calls of a book are linearizable: whatever any number of threads see
of it, step by step and in whatever order, they could have seen of a book
that performs every call in one piece between its invocation and its return,
and once no call is under way it is that book. -/
theorem linearizable (book : OrderBook) (labels : List (BookLabel ι)) (last : ThreadedBook ι)
    (out : List (BookOutput ι)) (ran : Transducer.run step (start book) labels = some (last, out)) :
    ∃ labels' last', Transducer.run AtomicBook.step (AtomicBook.start book) labels' = some (last', out) ∧
      (last.Quiet → last.1.memory = last'.1.memory ∧ last.2.memory = last'.2.memory) := by
  obtain ⟨labels', last', matched, related⟩ := simulates.run ran (start_related book)
  exact ⟨labels', last', matched, related.memory⟩

/-- Two new bids race for one identifier: the first one called is the second one to get the lock. -/
def raceForIdentifier : List (BookLabel Bool) :=
  [.invoke false (.change (.new ⟨7, 100, 1⟩)), .invoke true (.change (.new ⟨7, 90, 2⟩)), .act false, .act true,
    .act true, .act true, .act true, .act true, .act true, .act false, .act false, .act false, .act false,
    .finish false, .finish true].map .inl

theorem linearizable_raceForIdentifier :
    ∃ last out, Transducer.run step (start {}) raceForIdentifier = some (last, out) ∧
      ∃ labels' last', Transducer.run AtomicBook.step (AtomicBook.start {}) labels' = some (last', out) ∧
        (last.Quiet → last.1.memory = last'.1.memory ∧ last.2.memory = last'.2.memory) :=
  ⟨_, _, rfl, linearizable {} raceForIdentifier _ _ rfl⟩

/-- The caller goes on with a call of its own. -/
def GoesOn : BookLabel ι → Prop
  | .inl (.invoke _ _) | .inr (.invoke _ _) => False
  | _ => True

/-- What the counter of a side can be at a moment when it is read without the
lock: that of the side before or after a call that is being performed, or,
within a replacement, the counter without the quantity replaced. -/
def TotalSeen {comparator : Order → Order → Bool} (names : SideNames) (total : Quantity)
    (t : Atomic ι (BookSide comparator) SideCall SideAnswer) : Prop :=
  total = t.memory.total ∨ ∃ i op, t.calls i = some (.waiting (.change op)) ∧
    (total = (t.memory.step names op).total ∨ ∃ oldOrder newOrder resting,
      op = .replace oldOrder newOrder ∧ t.memory.orders.find oldOrder.id = some resting ∧
        total = t.memory.total - resting.quantity)

theorem step_of_perform {comparator : Order → Order → Bool} {texts : SideTexts} {c after : BookSide comparator}
    {op : SideOp} {answer : SideAnswer} {lines : List LogEntry}
    (performed : c.perform texts (.change op) = some (after, answer, lines)) : c.step texts.toSideNames op = after :=
  congrArg Prod.fst (Option.some.inj performed)

/-- The counter while a call of the owner of the lock is at work. -/
theorem total_of_stands {comparator : Order → Order → Bool} {texts : SideTexts} {call : SideCall}
    {c m : BookSide comparator} {point : SidePoint} (stands : point.Stands texts call c m)
    (owner : point.holds = .exclusive) :
    m.total = c.total ∨ ∃ op, call = .change op ∧
      (m.total = (c.step texts.toSideNames op).total ∨ ∃ oldOrder newOrder resting,
        op = .replace oldOrder newOrder ∧ c.orders.find oldOrder.id = some resting ∧
          m.total = c.total - resting.quantity) := by
  cases point with
  | newLocked order =>
    obtain ⟨_, _, rfl⟩ := stands
    exact .inl rfl
  | newInserted order | newPresent order =>
    obtain ⟨_, _, _, rfl⟩ := stands
    exact .inl rfl
  | newCounted order =>
    obtain ⟨rfl, valid, inserted, rfl⟩ := stands
    refine .inr ⟨_, rfl, .inl ?_⟩
    have performed := BookSide.perform_new_of_valid texts c valid
    rw [if_pos inserted] at performed
    rw [step_of_perform performed]
  | cancelLocked orderId =>
    obtain ⟨_, rfl⟩ := stands
    exact .inl rfl
  | cancelFound orderId | cancelAbsent orderId =>
    obtain ⟨_, rfl, _⟩ := stands
    exact .inl rfl
  | cancelCounted orderId | cancelErased orderId =>
    obtain ⟨rfl, resting, found, rfl⟩ := stands
    refine .inr ⟨_, rfl, .inl ?_⟩
    rw [step_of_perform (BookSide.perform_cancel_of_found texts c found)]
  | replaceLocked oldOrder newOrder =>
    obtain ⟨_, _, rfl⟩ := stands
    exact .inl rfl
  | replaceFound it newOrder =>
    obtain ⟨_, _, _, _, _, _, rfl⟩ := stands
    exact .inl rfl
  | replaceAbsent oldOrder =>
    obtain ⟨_, _, _, _, rfl⟩ := stands
    exact .inl rfl
  | replaceDebited it newOrder =>
    obtain ⟨oldOrder, resting, rfl, valid, rfl, found, rfl⟩ := stands
    exact .inr ⟨_, rfl, .inr ⟨oldOrder, newOrder, resting, rfl, found, rfl⟩⟩
  | replaceCredited it newOrder =>
    obtain ⟨oldOrder, resting, rfl, valid, rfl, found, rfl⟩ := stands
    refine .inr ⟨_, rfl, .inl ?_⟩
    rw [step_of_perform (BookSide.perform_replace_of_found texts c valid.1 valid.2 found)]
  | replaceModified newOrder =>
    obtain ⟨oldOrder, resting, rfl, valid, found, rfl⟩ := stands
    refine .inr ⟨_, rfl, .inl ?_⟩
    rw [step_of_perform (BookSide.perform_replace_of_found texts c valid.1 valid.2 found)]
  | unlocking answer => exact stands.elim
  | _ => contradiction

omit [DecidableEq ι] in
theorem totalSeen_of_related {comparator : Order → Order → Bool} {texts : SideTexts}
    {s : State ι (BookSide comparator) SidePoint} {t : Atomic ι (BookSide comparator) SideCall SideAnswer}
    (related : Related (sideCode comparator texts) (SidePoint.Stands texts) SidePoint.Settled s t) :
    TotalSeen texts.toSideNames s.memory.total t := by
  obtain same | ⟨i, p, call, standing, owner, pending⟩ := related.memory
  · exact .inl (congrArg BookSide.total same)
  · have stands := related.waiting i p call standing pending
    rw [if_pos owner] at stands
    obtain unchanged | ⟨op, rfl, changed⟩ := total_of_stands stands owner
    · exact .inl unchanged
    · exact .inr ⟨i, op, pending, changed⟩

/-- `GenerateMDUpdate` loads the counters without the locks. What it can meet,
whatever the other threads are doing, is the counter between two calls, or
one from which a replacement has taken the old quantity but not yet put the
new one. -/
theorem totals_seen (book : OrderBook) (labels : List (BookLabel ι)) (last : ThreadedBook ι) (out : List (BookOutput ι))
    (ran : Transducer.run step (start book) labels = some (last, out)) :
    ∃ labels' last', Transducer.run AtomicBook.step (AtomicBook.start book) labels' = some (last', out) ∧
      TotalSeen bidNames last.1.memory.total last'.1 ∧ TotalSeen askNames last.2.memory.total last'.2 := by
  obtain ⟨labels', last', matched, bids, asks⟩ := simulates.run ran (start_related book)
  have seenBids := totalSeen_of_related bids
  have seenAsks := totalSeen_of_related asks
  exact ⟨labels', last', matched, seenBids, seenAsks⟩

/-- One bid of 10, being replaced by one of 4: for a moment the counter is zero. -/
def halfReplaced : List (BookLabel Unit) :=
  [.invoke () (.change (.new ⟨1, 100, 10⟩)), .act (), .act (), .act (), .act (), .act (), .act (), .finish (),
    .invoke () (.change (.replace ⟨1, 100, 10⟩ ⟨1, 100, 4⟩)), .act (), .act (), .act (), .act ()].map .inl

theorem totals_seen_halfReplaced :
    ∃ last out, Transducer.run step (start {}) halfReplaced = some (last, out) ∧ last.1.memory.total = 0 ∧
      ∃ labels' last', Transducer.run AtomicBook.step (AtomicBook.start {}) labels' = some (last', out) ∧
        TotalSeen bidNames last.1.memory.total last'.1 ∧ TotalSeen askNames last.2.memory.total last'.2 :=
  ⟨_, _, rfl, by decide, totals_seen {} halfReplaced _ _ rfl⟩

end ThreadedBook

end Stakan
