import Mathlib

/-! # Runs of a partial step function

A system is given by what each action makes of a state.  `run` computes the state after a list of
actions; `Reaches` is what invariants are proved over, with a condition on the steps taken.
-/

namespace Craq.Lib

universe u v

variable {State : Type u} {Action : Type v}

def run (step : State → Action → Option State) : List Action → State → Option State
  | [], state => some state
  | action :: actions, state => (step state action).bind (run step actions)

/-- The step function that refuses a step the check does not pass. -/
def guarded (check : State → Action → Bool) (step : State → Action → Option State) (state : State)
    (action : Action) : Option State :=
  if check state action then step state action else none

/-- Steps that all meet the condition lead from `start` to the state. -/
inductive Reaches (step : State → Action → Option State) (allowed : State → Action → Prop)
    (start : State) : State → Prop where
  | refl : Reaches step allowed start start
  | tail {state next : State} {action : Action} :
      Reaches step allowed start state → allowed state action → step state action = some next →
      Reaches step allowed start next

variable {step : State → Action → Option State} {allowed : State → Action → Prop}
  {start middle finish : State}

namespace Reaches

theorem trans (first : Reaches step allowed start middle)
    (second : Reaches step allowed middle finish) : Reaches step allowed start finish := by
  induction second with
  | refl => exact first
  | tail _ hallowed hstep ih => exact ih.tail hallowed hstep

/-- What holds at the start and is kept by every step that meets the condition always holds. -/
theorem invariant {inv : State → Prop} (h : Reaches step allowed start finish) (hstart : inv start)
    (keep : ∀ state action next, inv state → allowed state action →
      step state action = some next → inv next) : inv finish := by
  induction h with
  | refl => exact hstart
  | tail _ hallowed hstep ih => exact keep _ _ _ ih hallowed hstep

theorem mono {weaker : State → Action → Prop} (h : Reaches step allowed start finish)
    (hmono : ∀ state action, allowed state action → weaker state action) :
    Reaches step weaker start finish := by
  induction h with
  | refl => exact .refl
  | tail _ hallowed hstep ih => exact ih.tail (hmono _ _ hallowed) hstep

/-- A computed run, when the condition holds of each of its actions wherever it is taken. -/
theorem of_run {actions : List Action} (hallowed : ∀ action ∈ actions, ∀ state, allowed state action)
    (hrun : run step actions start = some finish) : Reaches step allowed start finish := by
  induction actions generalizing start with
  | nil =>
    cases hrun
    exact .refl
  | cons action actions ih =>
    obtain ⟨next, hstep, hrun⟩ := Option.bind_eq_some_iff.mp hrun
    have ⟨hfirst, hrest⟩ := List.forall_mem_cons.mp hallowed
    have first : Reaches step allowed start next := .tail .refl (hfirst start) hstep
    exact first.trans (ih hrest hrun)

/-- A computed run in which each step has passed a check that implies the condition. -/
theorem of_guarded_run {check : State → Action → Bool} {actions : List Action}
    (himp : ∀ state action, check state action = true → allowed state action)
    (hrun : run (guarded check step) actions start = some finish) :
    Reaches step allowed start finish := by
  induction actions generalizing start with
  | nil =>
    cases hrun
    exact .refl
  | cons action actions ih =>
    obtain ⟨next, hstep, hrun⟩ := Option.bind_eq_some_iff.mp hrun
    simp only [guarded, Option.ite_none_right_eq_some] at hstep
    have first : Reaches step allowed start next := .tail .refl (himp _ _ hstep.1) hstep.2
    exact first.trans (ih hrun)

theorem of_isSome {actions : List Action} (h : (run step actions start).isSome = true) :
    Reaches step (fun _ _ => True) start (Option.get _ h) :=
  .of_run (fun _ _ _ => trivial) (Option.some_get h).symm

theorem of_checked [∀ state action, Decidable (allowed state action)] {actions : List Action}
    (h : (run (guarded (fun state action => decide (allowed state action)) step) actions
      start).isSome = true) : Reaches step allowed start (Option.get _ h) :=
  .of_guarded_run (fun _ _ => of_decide_eq_true) (Option.some_get h).symm

end Reaches

theorem not_invariant_of_run {inv : State → Prop} [DecidablePred inv] (actions : List Action)
    (hrun : (run step actions start).map (fun state => decide (inv state)) = some false) :
    ¬∀ state, Reaches step (fun _ _ => True) start state → inv state := by
  intro hall
  obtain ⟨state, hstate, hinv⟩ := Option.map_eq_some_iff.mp hrun
  exact of_decide_eq_false hinv (hall state (.of_run (fun _ _ _ => trivial) hstate))

end Craq.Lib
