import Stakan.TCPServer.Session

namespace Stakan.Session

theorem notifyDisconnectOnce_accepted (s : Session) : s.notifyDisconnectOnce.accepted = s.accepted := by
  unfold notifyDisconnectOnce
  split <;> rfl

theorem read_accepted (s : Session) : s.read.accepted = s.accepted := by
  unfold read
  split
  next => exact notifyDisconnectOnce_accepted s
  next => rfl

theorem write_accepted (s : Session) : s.write.accepted = s.accepted := by
  unfold write
  split
  next => exact notifyDisconnectOnce_accepted _
  next => split <;> rfl

theorem stop_accepted (s : Session) : s.stop.accepted = s.accepted := by
  unfold stop
  split <;> rfl

theorem processWrite_accepted (error : Bool) (s : Session) : (processWrite error s).accepted = s.accepted := by
  cases error with
  | true => exact notifyDisconnectOnce_accepted _
  | false =>
    simp only [processWrite, Bool.false_eq_true, if_false]
    split
    next => rfl
    next => exact write_accepted _

/-- A message is accepted once or ignored. -/
theorem sendMsg_accepted (message : List UInt8) (s : Session) :
    (s.sendMsg message).accepted = s.accepted ∨
      (s.sendMsg message).accepted = s.accepted ++ [⟨s.accepted.length, message⟩] := by
  unfold sendMsg
  split
  next => exact .inl rfl
  next =>
    split
    next => exact .inr rfl
    next => exact .inr (write_accepted _)

/-- A connected session accepts every message. -/
theorem sendMsg_takes {s : Session} (up : s.disconnected = false) (opened : s.socketOpen = true) (message : List UInt8) :
    (s.sendMsg message).accepted = s.accepted ++ [⟨s.accepted.length, message⟩] := by
  unfold sendMsg
  rw [if_neg (by simp [up, opened])]
  dsimp only
  split
  next => rfl
  next => exact write_accepted _

theorem perform_accepted (requests : List Request) (s : Session) :
    s.accepted <+: (requests.foldl perform s).accepted := by
  induction requests generalizing s with
  | nil => exact List.prefix_refl _
  | cons request requests ih =>
    refine List.IsPrefix.trans ?_ (ih (s.perform request))
    cases request with
    | sendMsg message =>
      rcases sendMsg_accepted message s with same | more
      · exact ⟨[], by rw [List.append_nil]; exact same.symm⟩
      · exact ⟨_, more.symm⟩
    | stop => exact ⟨[], by rw [List.append_nil]; exact (stop_accepted s).symm⟩

theorem processRead_accepted (error : Bool) (count : Nat) (onData : OnData) (s : Session) :
    s.accepted <+: (processRead error count onData s).accepted := by
  unfold processRead
  split
  next =>
    simp only [notifyDisconnectOnce_accepted, List.prefix_refl]
  next =>
    have handled := perform_accepted onData.requests { s with
      readBuffer := s.readBuffer.drop count, frames := s.frames ++ [s.readBuffer.take count] }
    split
    next => exact handled
    next => rwa [read_accepted]

/-- No event takes back a message that has been accepted. -/
theorem step_accepted {s after : Session} {event : Event} (moved : step s event = some after) :
    s.accepted <+: after.accepted := by
  cases moves_of_step moved with
  | start =>
    simp only [read_accepted, List.prefix_refl]
  | sendMsg message => exact perform_accepted [.sendMsg message] s
  | stop => exact perform_accepted [.stop] s
  | receive bytes => exact List.prefix_refl _
  | readDone onData => exact processRead_accepted _ _ _ { s with reading := false }
  | readFailed => exact processRead_accepted _ _ _ { s with reading := false }
  | writeDone i | writeFailed i =>
    simp only [processWrite_accepted, List.prefix_refl]

end Stakan.Session
