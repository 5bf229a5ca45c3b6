import Stakan.DOMManager.Basic

namespace Stakan.DOMManager
open LabelledRun

/-- The loop has one wait at most. While it is on it waits or is about to go
on, and while it is off it does not wait. -/
structure Looping (s : DOMManager) : Prop where
  one : s.pending.length ≤ 1
  alive : s.broadcasting = true → s.pending ≠ [] ∨ ∃ completion ∈ s.completions, completion.error = false
  idle : s.broadcasting = false → s.pending = []

theorem Looping.step {s after : DOMManager} {event : Event} (looping : Looping s)
    (moved : step s event = some after) : Looping after := by
  obtain ⟨one, alive, idle⟩ := looping
  cases moves_of_step moved with
  | served => exact ⟨one, alive, idle⟩
  | started terms fetched off => exact ⟨le_rfl, fun _ => Or.inl (List.cons_ne_nil _ _), fun off => by contradiction⟩
  | stopped fetched => exact ⟨Nat.zero_le 1, fun on => by contradiction, fun _ => rfl⟩
  | expired waiting =>
    refine ⟨Nat.zero_le 1, fun _ => Or.inr ?_, fun _ => rfl⟩
    obtain ⟨wait, rest, pending⟩ := List.exists_cons_of_ne_nil waiting
    exact ⟨⟨wait, false⟩, List.mem_append_right _ (by simp [pending]), rfl⟩
  | passed i fetched completion at_i reason =>
    refine ⟨one, fun on => ?_, idle⟩
    refine (alive on).imp_right fun ⟨other, member, succeeded⟩ => ⟨other, ?_, succeeded⟩
    -- the completion that goes is an error, so it is not the one that keeps the loop alive
    obtain ⟨j, at_j⟩ := List.mem_iff_getElem?.mp member
    refine List.mem_eraseIdx_iff_getElem?.mpr ⟨j, ?_, at_j⟩
    rintro rfl
    obtain rfl := Option.some.inj (at_i.symm.trans at_j)
    rcases reason with failed | off
    · rw [failed] at succeeded
      contradiction
    · rw [show s.broadcasting = true from on] at off
      contradiction
  | broadcast i fetched wait enqueued at_i on =>
    refine ⟨le_rfl, fun _ => Or.inl (List.cons_ne_nil _ _), fun off => ?_⟩
    rw [show s.broadcasting = false from off] at on
    contradiction

theorem looping_initial : Looping {} := ⟨Nat.zero_le 1, fun on => by contradiction, fun _ => rfl⟩

/-- Only a start command turns the loop on again. -/
theorem step_off {s after : DOMManager} {event : Event} (off : s.broadcasting = false)
    (noStart : ∀ terms fetched, event ≠ .handle (.startBroadcast terms) fetched) (moved : step s event = some after) :
    after.broadcasting = false := by
  cases moves_of_step moved with
  | served | expired | passed => exact off
  | started terms fetched => exact absurd rfl (noStart terms fetched)
  | stopped => rfl
  | broadcast i fetched wait enqueued at_i on => exact off

/-- While the loop is off a completion, even of a wait that has expired, sends nothing. -/
theorem complete_off {s after : DOMManager} {i : Nat} {fetched : Fetched} (off : s.broadcasting = false)
    (moved : step s (.complete i fetched) = some after) : after.enqueued = s.enqueued := by
  cases moves_of_step moved with
  | passed => rfl
  | broadcast _ _ wait enqueued at_i on =>
    rw [off] at on
    contradiction

/-- What is to hold of the timer in every state. -/
structure TimerSound (s : DOMManager) : Prop where
  one : s.pending.length ≤ 1
  alive : s.broadcasting = true → s.pending ≠ [] ∨ ∃ completion ∈ s.completions, completion.error = false
  idle : s.broadcasting = false → s.pending = []
  silent : s.broadcasting = false → ∀ events t, exec step s events = some t →
    (∀ terms fetched, .handle (.startBroadcast terms) fetched ∉ events) →
      ∀ i fetched after, step t (.complete i fetched) = some after → after.enqueued = t.enqueued

/-- In whatever order commands and completions come, the loop neither dies
while it is on nor waits or sends while it is off. -/
theorem run_timerSound (events : List Event) (last : DOMManager) (run : exec step {} events = some last) :
    TimerSound last := by
  obtain ⟨one, alive, idle⟩ := exec_invariant (fun _ _ _ looping moved => Looping.step looping moved) run looping_initial
  refine ⟨one, alive, idle, fun off later t continued noStart i fetched after moved => ?_⟩
  have noneStarts : ∀ event ∈ later, ∀ terms fetched, event ≠ .handle (.startBroadcast terms) fetched := by
    intro event member terms fetched same
    exact noStart terms fetched (same ▸ member)
  have still := exec_invariant_of_forall_mem (fun _ _ _ off noStart moved => step_off off noStart moved) continued
    noneStarts off
  exact complete_off still moved

/-- Stopped after its wait has expired, and started again before the completion has run. -/
theorem restarted_loop_sound : ∃ last : DOMManager, TimerSound last ∧ last.broadcasting = true ∧
    last.completions.length = 1 := by
  let events : List Event := [.handle (.startBroadcast ⟨100, true⟩) (.ok none), .expire,
    .handle .stopBroadcast (.ok none), .handle (.startBroadcast ⟨200, true⟩) (.ok none)]
  obtain ⟨last, run, on, queued⟩ : ∃ last, exec step {} events = some last ∧ last.broadcasting = true ∧
      last.completions.length = 1 := ⟨_, rfl, rfl, rfl⟩
  exact ⟨last, run_timerSound events last run, on, queued⟩

end Stakan.DOMManager
