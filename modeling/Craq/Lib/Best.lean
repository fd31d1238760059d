import Mathlib

/-! # The least element of a list

A scan that keeps the wanted element with the least key.  Where the keys tell the elements apart,
what it finds does not depend on the order of the list.
-/

namespace Craq.Lib

universe u v

variable {α : Type u} {κ : Type v} [LinearOrder κ]

def keepLeast (key : α → κ) (wanted : α → Bool) (best : Option α) (item : α) : Option α :=
  if !wanted item then best
  else match best with
    | none => some item
    | some current => if key item < key current then some item else best

variable {key : α → κ} {wanted : α → Bool}

theorem keepLeast_comm {first second : α} (h : key first = key second → first = second)
    (best : Option α) :
    keepLeast key wanted (keepLeast key wanted best first) second =
      keepLeast key wanted (keepLeast key wanted best second) first := by
  by_cases hSame : first = second
  · rw [hSame]
  have hKeys : key first ≠ key second := fun hEq => hSame (h hEq)
  cases hFirst : wanted first with
  | false => simp [keepLeast, hFirst]
  | true =>
    cases hSecond : wanted second with
    | false => simp [keepLeast, hSecond]
    | true =>
      cases best with
      | none =>
        rcases lt_or_gt_of_ne hKeys with hLt | hLt
        · simp [keepLeast, hFirst, hSecond, hLt, hLt.not_gt]
        · simp [keepLeast, hFirst, hSecond, hLt, hLt.not_gt]
      | some current =>
        simp only [keepLeast, hFirst, hSecond, Bool.not_true, Bool.false_eq_true, if_false]
        grind

theorem foldl_keepLeast_perm {items other : List α} (hPerm : items.Perm other)
    (hKeys : ∀ first ∈ items, ∀ second ∈ items, key first = key second → first = second)
    (best : Option α) :
    items.foldl (keepLeast key wanted) best = other.foldl (keepLeast key wanted) best :=
  hPerm.foldl_eq' (fun first hFirst second hSecond best =>
    keepLeast_comm (hKeys first hFirst second hSecond) best) best

theorem keepLeast_isSome {best : Option α} {item : α} (h : best.isSome = true ∨ wanted item = true) :
    (keepLeast key wanted best item).isSome = true := by
  cases hWanted : wanted item with
  | false =>
    rcases h with hBest | hItem
    · simpa [keepLeast, hWanted] using hBest
    · exact absurd (hWanted.symm.trans hItem) nofun
  | true =>
    simp only [keepLeast, hWanted, Bool.not_true, Bool.false_eq_true, if_false]
    cases best with
    | none => rfl
    | some current =>
      simp only
      split <;> rfl

theorem foldl_keepLeast_isSome {items : List α} {best : Option α}
    (h : best.isSome = true ∨ ∃ item ∈ items, wanted item = true) :
    (items.foldl (keepLeast key wanted) best).isSome = true := by
  induction items generalizing best with
  | nil =>
    rcases h with hBest | ⟨item, hItem, -⟩
    · exact hBest
    · exact absurd hItem List.not_mem_nil
  | cons item items ih =>
    rw [List.foldl_cons]
    apply ih
    rcases h with hBest | ⟨other, hOther, hWanted⟩
    · exact .inl (keepLeast_isSome (.inl hBest))
    · rcases List.mem_cons.mp hOther with rfl | hLater
      · exact .inl (keepLeast_isSome (.inr hWanted))
      · exact .inr ⟨other, hLater, hWanted⟩

end Craq.Lib
