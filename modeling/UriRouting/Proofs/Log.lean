import UriRouting.Log
import UriRouting.Proofs.Outcome

/-! # What logged computations yield

A logged computation that may fail is taken apart from its front: what it yields, and what it has
reported until then. -/

set_option autoImplicit false

namespace UriRouting

variable {ε ε' α β : Type}

/-- The computation succeeds with the given value and the given records. -/
def Yields (x : LoggedExcept ε α) (a : α) (log : List Record) : Prop := x.run = ⟨.ok a, log⟩

namespace Yields

theorem eq {x : LoggedExcept ε α} {a b : α} {log log' : List Record} (h : Yields x a log)
    (h' : Yields x b log') : a = b ∧ log = log' := by
  have hEq := h.symm.trans h'
  cases hEq
  exact ⟨rfl, rfl⟩

theorem of_run {x : LoggedExcept ε α} {a : α} (hValue : x.run.value.toOption = some a)
    (hLog : x.run.log = []) : Yields x a [] := by
  rw [Yields]
  generalize x.run = result at hValue hLog
  obtain ⟨_ | b, log⟩ := result
  · cases hValue
  · cases hValue
    cases hLog
    rfl

theorem run_bind_eq (x : LoggedExcept ε α) (f : α → LoggedExcept ε β) :
    (x >>= f).run = (match x.run with
      | ⟨.ok a, log⟩ => ⟨(f a).run.value, log ++ (f a).run.log⟩
      | ⟨.error e, log⟩ => ⟨.error e, log⟩) := by
  rw [ExceptT.run_bind]
  generalize x.run = result
  obtain ⟨value, log⟩ := result
  cases value with
  | ok a => rfl
  | error e => exact congrArg (Logged.mk (Except.error e)) (List.append_nil log)

theorem run_bind {x : LoggedExcept ε α} {a : α} {log : List Record} (h : Yields x a log)
    (f : α → LoggedExcept ε β) : (x >>= f).run = ⟨(f a).run.value, log ++ (f a).run.log⟩ := by
  rw [run_bind_eq, show x.run = _ from h]

theorem bind_iff {x : LoggedExcept ε α} {f : α → LoggedExcept ε β} {b : β} {log : List Record} :
    Yields (x >>= f) b log ↔
      ∃ a front back, Yields x a front ∧ Yields (f a) b back ∧ log = front ++ back := by
  rw [Yields, run_bind_eq]
  constructor
  · intro h
    split at h
    · rename_i a front hRun
      obtain ⟨hValue, rfl⟩ := Logged.mk.inj h
      refine ⟨a, front, _, hRun, ?_, rfl⟩
      rw [Yields, ← hValue]
    · cases h
  · rintro ⟨a, front, back, hx, hf, rfl⟩
    rw [show x.run = _ from hx]
    simp only [show (f a).run = _ from hf]

theorem pure_iff {a b : α} {log : List Record} :
    Yields (pure a : LoggedExcept ε α) b log ↔ b = a ∧ log = [] := by
  constructor
  · intro h
    cases h
    exact ⟨rfl, rfl⟩
  · rintro ⟨rfl, rfl⟩
    rfl

theorem throw_iff {e : ε} {b : α} {log : List Record} :
    Yields (throw e : LoggedExcept ε α) b log ↔ False := by
  refine ⟨fun h => ?_, False.elim⟩
  cases h

theorem lift_iff {x : Logged α} {b : α} {log : List Record} :
    Yields (liftM x : LoggedExcept ε α) b log ↔ b = x.value ∧ log = x.log := by
  have hRun : (liftM x : LoggedExcept ε α).run = ⟨.ok x.value, x.log ++ []⟩ := rfl
  rw [Yields, hRun, List.append_nil]
  constructor
  · intro h
    cases h
    exact ⟨rfl, rfl⟩
  · rintro ⟨rfl, rfl⟩
    rfl

theorem adapt_iff {x : LoggedExcept ε α} {f : ε → ε'} {b : α} {log : List Record} :
    Yields (x.adapt f) b log ↔ Yields x b log := by
  have hRun : (x.adapt f).run = ⟨x.run.value.mapError f, x.run.log ++ []⟩ := rfl
  rw [Yields, Yields, hRun, List.append_nil, Logged.mk.injEq, mapError_eq_ok_iff, ← Logged.mk.injEq]

end Yields

end UriRouting
