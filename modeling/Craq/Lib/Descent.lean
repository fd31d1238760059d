import Craq.Lib.Except

/-! # Rounds that come to rest

A round takes a state to the next one or fails.  Where every round from a state that is not at rest
lowers a weight, the rounds come to rest, and on the way no state comes back.
-/

namespace Craq.Lib

universe u v

variable {State : Type u} {Failure : Type v}

/-- So many rounds; the first failure ends them. -/
def rounds (round : State → Except Failure State) : Nat → State → Except Failure State
  | 0, state => .ok state
  | count + 1, state => do
    let next ← round state
    rounds round count next

/-- Among the states with the invariant, the weight falls until there is rest. -/
structure Descends (round : State → Except Failure State) (Kept AtRest : State → Prop)
    (weight : State → Nat) : Prop where
  falls : ∀ state, Kept state → ¬AtRest state →
    ∃ next, round state = .ok next ∧ Kept next ∧ weight next < weight state
  rests : ∀ state next, Kept state → AtRest state → round state = .ok next → next = state

namespace Descends

variable {round : State → Except Failure State} {Kept AtRest : State → Prop} {weight : State → Nat}
  (h : Descends round Kept AtRest weight)

include h

theorem exists_rest {state : State} (hKept : Kept state) :
    ∃ count ≤ weight state, ∃ final, rounds round count state = .ok final ∧ AtRest final := by
  induction hWeight : weight state using Nat.strongRecOn generalizing state with
  | ind bound ih =>
    by_cases hRest : AtRest state
    · exact ⟨0, Nat.zero_le bound, state, rfl, hRest⟩
    obtain ⟨next, hRound, hNext, hFalls⟩ := h.falls state hKept hRest
    rw [hWeight] at hFalls
    obtain ⟨count, hCount, final, hRounds, hFinal⟩ := ih (weight next) hFalls hNext rfl
    refine ⟨count + 1, Nat.lt_of_le_of_lt hCount hFalls, final, ?_, hFinal⟩
    rw [rounds, hRound]
    exact hRounds

theorem next {state next : State} (hKept : Kept state) (hRound : round state = .ok next) :
    Kept next ∧ weight next ≤ weight state := by
  by_cases hRest : AtRest state
  · cases h.rests state next hKept hRest hRound
    exact ⟨hKept, le_rfl⟩
  · obtain ⟨other, hOther, hNext, hFalls⟩ := h.falls state hKept hRest
    cases hRound.symm.trans hOther
    exact ⟨hNext, hFalls.le⟩

theorem rounds_kept {count : Nat} {state final : State} (hKept : Kept state)
    (hRounds : rounds round count state = .ok final) : Kept final ∧ weight final ≤ weight state := by
  induction count generalizing state with
  | zero =>
    cases hRounds
    exact ⟨hKept, le_rfl⟩
  | succ count ih =>
    obtain ⟨middle, hRound, hRest⟩ := bind_eq_ok.mp hRounds
    obtain ⟨hMiddle, hFirst⟩ := h.next hKept hRound
    obtain ⟨hFinal, hLater⟩ := ih hMiddle hRest
    exact ⟨hFinal, hLater.trans hFirst⟩

theorem not_back {state : State} (hKept : Kept state) (hRest : ¬AtRest state) {count : Nat}
    (hCount : 0 < count) : rounds round count state ≠ .ok state := by
  obtain ⟨count, rfl⟩ := Nat.exists_eq_succ_of_ne_zero hCount.ne'
  intro hRounds
  obtain ⟨next, hRound, hLater⟩ := bind_eq_ok.mp hRounds
  obtain ⟨other, hOther, hNext, hFalls⟩ := h.falls state hKept hRest
  cases hRound.symm.trans hOther
  have hBack := (h.rounds_kept hNext hLater).2
  exact absurd hBack (Nat.not_le.mpr hFalls)

end Descends

end Craq.Lib
