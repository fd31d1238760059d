import Mathlib

/-! # Peeling computations that may fail

A successful run of a bind is a successful run of both halves.  Every inversion of a fallible
function in this development goes through these lemmas and never unfolds the monad.
-/

namespace Craq.Lib

universe u v

variable {ε : Type u} {α β : Type v} {x : Except ε α} {a : α}

theorem bind_eq_ok {f : α → Except ε β} {b : β} :
    (x >>= f) = .ok b ↔ ∃ a, x = .ok a ∧ f a = .ok b := by
  cases x with
  | error e | ok a => simp [bind, Except.bind]

theorem map_eq_ok {f : α → β} {b : β} : x.map f = .ok b ↔ ∃ a, x = .ok a ∧ f a = b := by
  cases x with
  | error e | ok a => simp [Except.map]

theorem ok_of_mapError {δ : Type u} {f : ε → δ} (h : x.mapError f = .ok a) : x = .ok a := by
  cases x with
  | error e => cases h
  | ok b =>
    cases h
    rfl

theorem ite_error_eq_ok {p : Prop} [Decidable p] {e : ε} :
    (if p then .error e else x) = .ok a ↔ ¬p ∧ x = .ok a := by
  by_cases hp : p <;> simp [hp]

theorem toOption_eq_some : x.toOption = some a ↔ x = .ok a := by
  cases x with
  | error e | ok b => simp [Except.toOption]

/-- A run known to succeed, with the value it yields read off by evaluation. -/
theorem eq_ok_getD (default : α) (h : x.toOption.isSome = true) :
    x = .ok (x.toOption.getD default) := by
  cases x with
  | error e => cases h
  | ok a => rfl

theorem mapM_eq_ok {γ : Type v} {f : γ → Except ε α} {g : γ → α} {items : List γ}
    (h : ∀ item ∈ items, f item = .ok (g item)) : items.mapM f = .ok (items.map g) := by
  induction items with
  | nil => rfl
  | cons item items ih =>
    have head : f item = .ok (g item) := h item List.mem_cons_self
    have tail : items.mapM f = .ok (items.map g) :=
      ih fun other hother => h other (List.mem_cons_of_mem item hother)
    rw [List.mapM_cons, head, tail]
    rfl

end Craq.Lib
