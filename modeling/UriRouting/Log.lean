/-! # Log records

A computation that reports on its way is a value together with its records, in order. One that can
fail keeps the records made before the failure. -/

set_option autoImplicit false

namespace UriRouting

inductive Level where
  | debug | info | warning | error
deriving DecidableEq, Repr

structure Record where
  level : Level
  text : String
deriving DecidableEq, Repr

structure Logged (α : Type) where
  value : α
  log : List Record := []

namespace Logged

variable {α β : Type}

protected def pure (a : α) : Logged α := ⟨a, []⟩

protected def bind (x : Logged α) (f : α → Logged β) : Logged β :=
  let y := f x.value
  ⟨y.value, x.log ++ y.log⟩

instance : Monad Logged where
  pure := Logged.pure
  bind := Logged.bind

end Logged

def report (level : Level) (text : String) : Logged Unit := ⟨(), [⟨level, text⟩]⟩

abbrev LoggedExcept (ε : Type) := ExceptT ε Logged

end UriRouting
