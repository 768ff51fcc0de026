import Mathlib.Tactic.TypeStar

/-!
# Results that are wrapped

A reader often reads a part and then wraps what it has read. Such a result is `.ok` exactly if the
part was read, and has the error of the part otherwise. The error may be wrapped as well. Without
its error a result is an option.
-/

namespace Except

variable {ε α β : Type*} {e : Except ε α} {f : α → β}

theorem map_eq_ok {b : β} : e.map f = .ok b ↔ ∃ a, e = .ok a ∧ f a = b := by
  cases e <;> simp [Except.map]

theorem map_eq_error {err : ε} : e.map f = .error err ↔ e = .error err := by
  cases e <;> simp [Except.map]

theorem exists_map_eq_ok : (∃ b, e.map f = .ok b) ↔ ∃ a, e = .ok a := by
  cases e <;> simp [Except.map]

theorem mapError_eq_ok {ε' : Type*} {g : ε → ε'} {a : α} : e.mapError g = .ok a ↔ e = .ok a := by
  cases e with
  | error own =>
    change Except.error (g own) = Except.ok a ↔ _
    simp
  | ok own =>
    change Except.ok own = Except.ok a ↔ _
    simp

theorem mapError_eq_error {ε' : Type*} {g : ε → ε'} {err : ε'} :
    e.mapError g = .error err ↔ ∃ own, e = .error own ∧ g own = err := by
  cases e with
  | error own =>
    change Except.error (g own) = Except.error err ↔ _
    simp
  | ok a =>
    change Except.ok a = Except.error err ↔ _
    simp

theorem toOption_eq_some {a : α} : e.toOption = some a ↔ e = .ok a := by
  cases e <;> simp [Except.toOption]

end Except
