import Stakan.DOMManager.Basic
import Stakan.Library.History

namespace Stakan.DOMManager
open LabelledRun History

/-- The start command accepted last, unless a stop has come since. -/
def Current (terms : BroadcastTerms) : List Action → Prop :=
  Since (fun _ action => action = .accepted terms) fun action => action ≠ .stopped

/-- A wait has the interval and the flag of the command, a snapshot sent has its flag. -/
def Uses (terms : BroadcastTerms) : Action → Prop
  | .armed used => used = terms
  | .sent useTestBroadcast => useTestBroadcast = terms.useTestBroadcast
  | .accepted _ | .stopped => True

/-- Every wait armed and every snapshot sent from the timer has used what the
start command in force at that moment asks for. -/
def UsesTerms (trace : List Action) : Prop :=
  ∀ before action after, trace = before ++ action :: after → ∀ terms, Current terms before → Uses terms action

/-- A wait that completes with success while the loop is on is one of the
start command in force, or has the same interval and flag. -/
def CompletesCurrent (s : DOMManager) : Event → Prop
  | .complete i _ => ∀ wait terms, s.completions[i]? = some ⟨wait, false⟩ → s.broadcasting = true →
      Current terms s.trace → wait = terms
  | _ => True

theorem current_snoc {terms : BroadcastTerms} {trace : List Action} {action : Action} :
    Current terms (trace ++ [action]) ↔ action = .accepted terms ∨ action ≠ .stopped ∧ Current terms trace := since_snoc

/-- A misuse in the history, as a property of what led to it. -/
theorem usesTerms_iff {trace : List Action} : UsesTerms trace ↔
    ¬Since (fun before action => ∃ terms, Current terms before ∧ ¬Uses terms action) (fun _ => True) trace := by
  simp only [UsesTerms, Since, implies_true, and_true, not_exists, not_and, not_not]

theorem usesTerms_snoc {trace : List Action} {action : Action} :
    UsesTerms (trace ++ [action]) ↔ UsesTerms trace ∧ ∀ terms, Current terms trace → Uses terms action := by
  simp only [usesTerms_iff, since_snoc, not_or, not_exists, not_and, not_not, true_implies]
  exact and_comm

/-- A start command is in force only while the loop is on. -/
def OffWithout (s : DOMManager) : Prop := ∀ terms, Current terms s.trace → s.broadcasting = true

theorem OffWithout.step {s after : DOMManager} {event : Event} (off : OffWithout s)
    (moved : step s event = some after) : OffWithout after := by
  intro terms current
  cases moves_of_step moved with
  | served | expired | passed => exact off terms current
  | started => rfl
  | stopped => simp [current_snoc] at current
  | broadcast i fetched wait enqueued at_i on => exact on

theorem UsesTerms.step {s after : DOMManager} {event : Event} (uses : UsesTerms s.trace) (off : OffWithout s)
    (completes : CompletesCurrent s event) (moved : step s event = some after) : UsesTerms after.trace := by
  cases moves_of_step moved with
  | served | expired | passed => exact uses
  | started terms fetched idle =>
    have accepted : UsesTerms (s.trace ++ [.accepted terms]) := usesTerms_snoc.mpr ⟨uses, fun _ _ => trivial⟩
    refine usesTerms_snoc.mpr ⟨accepted, fun other current => ?_⟩
    rcases current_snoc.mp current with same | ⟨_, former⟩
    · exact Action.accepted.inj same
    · rw [off other former] at idle
      contradiction
  | stopped fetched => exact usesTerms_snoc.mpr ⟨uses, fun _ _ => trivial⟩
  | broadcast i fetched wait enqueued at_i on =>
    have sent : UsesTerms (s.trace ++ [.sent wait.useTestBroadcast]) := by
      refine usesTerms_snoc.mpr ⟨uses, fun terms current => ?_⟩
      exact congrArg BroadcastTerms.useTestBroadcast (completes wait terms at_i on current)
    refine usesTerms_snoc.mpr ⟨sent, fun terms current => ?_⟩
    rcases current_snoc.mp current with same | ⟨_, former⟩
    · contradiction
    · exact completes wait terms at_i on former

/-- The completion of an earlier loop's wait arms the timer with the earlier terms. -/
theorem not_usesTerms_of_stale {s after : DOMManager} {event : Event} (stale : ¬CompletesCurrent s event)
    (moved : step s event = some after) : ¬UsesTerms after.trace := by
  intro uses
  cases event with
  | complete i fetched =>
    simp only [CompletesCurrent, not_forall] at stale
    obtain ⟨wait, terms, at_i, on, current, other⟩ := stale
    cases moves_of_step moved with
    | passed _ _ completion same reason =>
      obtain rfl := Option.some.inj (at_i.symm.trans same)
      rw [on] at reason
      simp at reason
    | broadcast _ _ used enqueued same _ =>
      obtain ⟨rfl, _⟩ := Completion.mk.inj (Option.some.inj (at_i.symm.trans same))
      refine other (uses (s.trace ++ [.sent wait.useTestBroadcast]) (.armed wait) [] rfl terms ?_)
      exact current_snoc.mpr (Or.inr ⟨by simp, current⟩)
  | handle | expire => exact stale trivial

/-- The timer keeps to the start command in force exactly as long as no wait
from before it, with another interval or flag, completes with success. -/
theorem always_usesTerms_iff (events : List Event) (last : DOMManager) (run : exec step {} events = some last) :
    Always step (fun s => UsesTerms s.trace) {} events ↔ Guarded step CompletesCurrent {} events := by
  constructor
  · intro always
    exact always.guarded_of_broken (fun _ _ _ _ stale moved => not_usesTerms_of_stale stale moved) run
  · intro guarded
    have preserved : ∀ s event t, UsesTerms s.trace ∧ OffWithout s → CompletesCurrent s event →
        step s event = some t → UsesTerms t.trace ∧ OffWithout t := by
      intro s event t ⟨uses, off⟩ completes moved
      exact ⟨uses.step off completes moved, off.step moved⟩
    have initial : UsesTerms [] ∧ OffWithout {} := by
      refine ⟨usesTerms_iff.mpr (not_since_nil _ _), fun terms current => ?_⟩
      exact absurd current (not_since_nil _ _)
    exact (guarded.always preserved initial).mono fun _ => And.left

/-- Stopped after its wait has expired and started again with twice the
interval, the loop goes back to the former one. -/
theorem restarted_loop_not_usesTerms : ¬∀ events last, exec step {} events = some last → UsesTerms last.trace := by
  intro claim
  let events : List Event := [.handle (.startBroadcast ⟨100, true⟩) (.ok none), .expire,
    .handle .stopBroadcast (.ok none), .handle (.startBroadcast ⟨200, true⟩) (.ok none), .complete 0 (.ok none)]
  let former : List Action := [.accepted ⟨100, true⟩, .armed ⟨100, true⟩, .stopped]
  let restarted : List Action := former ++ [.accepted ⟨200, true⟩] ++ [.armed ⟨200, true⟩] ++ [.sent true]
  obtain ⟨last, run, trace⟩ : ∃ last, exec step {} events = some last ∧
      last.trace = restarted ++ [.armed ⟨100, true⟩] := ⟨_, rfl, rfl⟩
  have uses := claim events last run
  have current : Current ⟨200, true⟩ restarted := by
    rw [current_snoc, current_snoc, current_snoc]
    simp
  have same : (⟨100, true⟩ : BroadcastTerms) = ⟨200, true⟩ := uses restarted _ [] trace _ current
  exact absurd same (by decide)

/-- A loop that goes round twice. -/
theorem repeated_loop_usesTerms : Always step (fun s => UsesTerms s.trace) {}
    [.handle (.startBroadcast ⟨100, true⟩) (.ok none), .expire, .complete 0 (.ok none)] := by
  refine (always_usesTerms_iff _ _ rfl).mpr ?_
  refine guarded_cons trivial rfl ?_
  refine guarded_cons trivial rfl ?_
  refine guarded_cons ?_ rfl (guarded_nil _ _ _)
  intro wait terms at_i _ current
  cases at_i
  have trace : Current terms ([] ++ [.accepted ⟨100, true⟩] ++ [.armed ⟨100, true⟩]) := current
  rw [current_snoc, current_snoc] at trace
  simpa [Current, not_since_nil] using trace

end Stakan.DOMManager
