namespace Stakan

inductive LogLevel
  | info
  | warning
  | error
  deriving DecidableEq

/-- One line of the log; the wall-clock time in front of it is left out. -/
structure LogEntry where
  level : LogLevel
  msg : String
  deriving DecidableEq

/-- A computation that writes log lines. Nothing reads the log back. -/
structure Logged (α : Type) where
  value : α
  entries : List LogEntry

instance : Monad Logged where
  pure a := ⟨a, []⟩
  bind x f := ⟨(f x.value).value, x.entries ++ (f x.value).entries⟩

def Logger.log (level : LogLevel) (msg : String) : Logged Unit := ⟨(), [⟨level, msg⟩]⟩

namespace Logged

variable {α β : Type}

@[simp] theorem value_pure (a : α) : (pure a : Logged α).value = a := rfl
@[simp] theorem value_bind (x : Logged α) (f : α → Logged β) : (x >>= f).value = (f x.value).value := rfl

@[simp] theorem value_ite (c : Prop) [Decidable c] (x y : Logged α) :
    (if c then x else y).value = if c then x.value else y.value := apply_ite value c x y

end Logged

end Stakan
