import Craq.Coordinator.Edits

/-! # Sweeps that change nothing

A pass that reports no plan leaves the state as it found it.  A sweep without plans is therefore a
statement about the state it started from: the pass had nothing to do at any of its slots.
-/

namespace Craq.Coordinator

open Craq.Lib

/-! ## Silent passes -/

def Silent (pass : ClusterState → Nat → Except Error PassResult) : Prop :=
  ∀ state slot updated, pass state slot = .ok (updated, none) → updated = state

variable {state later : ClusterState}

theorem sweep_silent {pass : ClusterState → Nat → Except Error PassResult} (hSilent : Silent pass)
    {remaining : Int} {slots : List Nat} (h : sweep pass remaining slots state = .ok (later, [])) :
    later = state := by
  induction slots with
  | nil =>
    cases h
    rfl
  | cons slot rest ih =>
    rw [sweep] at h
    split at h
    · cases h
      rfl
    · obtain ⟨⟨next, changed⟩, hRun, h⟩ := bind_eq_ok.mp h
      cases changed with
      | none =>
        cases hSilent state slot next hRun
        exact ih h
      | some slotPlan =>
        obtain ⟨⟨final, more⟩, -, h⟩ := bind_eq_ok.mp h
        cases h

theorem sweep_eq_nil_iff {pass : ClusterState → Nat → Except Error PassResult}
    (hSilent : Silent pass) {remaining : Int} (hRemaining : remaining ≠ 0) (slots : List Nat)
    (state : ClusterState) :
    sweep pass remaining slots state = .ok (state, []) ↔
      ∀ slot ∈ slots, pass state slot = .ok (state, none) := by
  induction slots with
  | nil => simp [sweep]
  | cons slot rest ih =>
    rw [sweep, if_neg hRemaining, bind_eq_ok, List.forall_mem_cons]
    constructor
    · rintro ⟨⟨next, changed⟩, hRun, h⟩
      cases changed with
      | none =>
        cases hSilent state slot next hRun
        exact ⟨hRun, ih.mp h⟩
      | some slotPlan =>
        obtain ⟨⟨final, more⟩, -, h⟩ := bind_eq_ok.mp h
        cases h
    · rintro ⟨hHere, hRest⟩
      exact ⟨(state, none), hHere, ih.mpr hRest⟩

theorem sweep_total (pass : ClusterState → Nat → PassResult) (remaining : Int) (slots : List Nat)
    (state : ClusterState) :
    ∃ result, sweep (fun s i => .ok (pass s i)) remaining slots state = .ok result := by
  induction slots generalizing remaining state with
  | nil => exact ⟨_, rfl⟩
  | cons slot rest ih =>
    rw [sweep]
    split
    · exact ⟨_, rfl⟩
    · cases hPass : pass state slot with
      | mk next changed =>
        cases changed with
        | none => exact ih remaining next
        | some slotPlan =>
          obtain ⟨⟨final, more⟩, hRest⟩ :=
            ih (if 0 < remaining then remaining - 1 else remaining) next
          exact ⟨(final, slotPlan :: more), bind_eq_ok.mpr ⟨_, rfl, bind_eq_ok.mpr ⟨_, hRest, rfl⟩⟩⟩

/-! ## The passes are silent -/

theorem Edits.silent {run : ClusterState → Nat → PassResult} {aim : Nat → List String} {pass : Pass}
    (h : ∀ state slot, Edits state slot (aim slot) pass (run state slot)) :
    Silent fun state slot => .ok (run state slot) := by
  intro state slot updated hRun
  injection hRun with hRun
  exact (hRun ▸ h state slot).eq_of_none

theorem finalizeDrainReplacement_silent :
    Silent fun state slot => .ok (finalizeDrainReplacement state slot) :=
  Edits.silent fun state slot => finalizeDrainReplacement_edits state slot []

theorem finalizeJoinRebalance_silent (desired : List Chain) :
    Silent fun state slot => .ok (finalizeJoinRebalance (desiredAt desired slot) state slot) :=
  Edits.silent fun state slot => finalizeJoinRebalance_edits (desiredAt desired slot) state slot

theorem appendMissingDesiredReplicas_silent (desired : List Chain) :
    Silent fun state slot =>
      .ok (appendMissingDesiredReplicas (desiredAt desired slot) state slot) :=
  Edits.silent fun state slot => appendMissingDesiredReplicas_edits (desiredAt desired slot) state slot

/-! ## A reconcile without dead nodes -/

theorem repairDeadReplicas_of_deadFree {slot : Nat}
    (h : ∀ id ∈ state.idsAt slot, state.isDead id = false) :
    repairDeadReplicas state slot = .ok (state, none) := by
  have hNone : chainContainsDeadReplica state (state.chainAt slot) = false := by
    simp only [chainContainsDeadReplica, List.any_eq_false]
    intro replica hReplica
    simp [h _ (mem_replicaIDs.mpr ⟨replica, hReplica, rfl⟩)]
  simp [repairDeadReplicas, hNone]

theorem repair_sweep_eq_nil (hFree : DeadFree state) (slots : List Nat) :
    sweep repairDeadReplicas (-1) slots state = .ok (state, []) := by
  induction slots with
  | nil => rfl
  | cons slot rest ih =>
    rw [sweep, if_neg (by decide)]
    exact bind_eq_ok.mpr ⟨_, repairDeadReplicas_of_deadFree (hFree slot), ih⟩

structure NothingToFinish (state : ClusterState) (desired : Option (List Chain)) : Prop where
  drain : ∀ i < state.slotCount.toNat, finalizeDrainReplacement state i = (state, none)
  join : ∀ chains, desired = some chains → ∀ i < state.slotCount.toNat,
    finalizeJoinRebalance (desiredAt chains i) state i = (state, none)

variable {desired : Option (List Chain)} {policy : ReconfigurationPolicy}

theorem finishTransitions_eq_nil_iff (hFree : DeadFree state) :
    finishTransitions state = .ok (later, desired, []) ↔
      later = state ∧ buildDesiredPlacementFromState state = .ok desired ∧
        NothingToFinish state desired := by
  have hUnbounded : (-1 : Int) ≠ 0 := by decide
  have hDrainIff := sweep_eq_nil_iff finalizeDrainReplacement_silent hUnbounded
    (List.range state.slotCount.toNat) state
  have hJoinIff := fun chains => sweep_eq_nil_iff (finalizeJoinRebalance_silent chains) hUnbounded
    (List.range state.slotCount.toNat) state
  simp only [List.mem_range, Except.ok.injEq] at hDrainIff hJoinIff
  constructor
  · intro h
    obtain ⟨⟨repaired, repairs⟩, hRepair, h⟩ := bind_eq_ok.mp h
    rw [repair_sweep_eq_nil hFree] at hRepair
    cases hRepair
    obtain ⟨⟨drained, drains⟩, hDrain, h⟩ := bind_eq_ok.mp h
    obtain ⟨target, hTarget, h⟩ := bind_eq_ok.mp h
    cases target with
    | none =>
      cases h
      cases sweep_silent finalizeDrainReplacement_silent hDrain
      exact ⟨rfl, hTarget, hDrainIff.mp hDrain, by simp⟩
    | some chains =>
      obtain ⟨⟨joined, joins⟩, hJoin, h⟩ := bind_eq_ok.mp h
      simp only [List.nil_append, Except.ok.injEq, Prod.mk.injEq, List.append_eq_nil_iff] at h
      obtain ⟨rfl, rfl, rfl, rfl⟩ := h
      cases sweep_silent finalizeDrainReplacement_silent hDrain
      cases sweep_silent (finalizeJoinRebalance_silent chains) hJoin
      refine ⟨rfl, hTarget, hDrainIff.mp hDrain, ?_⟩
      rintro _ ⟨⟩
      exact (hJoinIff chains).mp hJoin
  · rintro ⟨rfl, hTarget, hNothing⟩
    refine bind_eq_ok.mpr ⟨_, repair_sweep_eq_nil hFree _,
      bind_eq_ok.mpr ⟨_, hDrainIff.mpr hNothing.drain, bind_eq_ok.mpr ⟨desired, hTarget, ?_⟩⟩⟩
    cases desired with
    | none => rfl
    | some chains =>
      exact bind_eq_ok.mpr ⟨_, (hJoinIff chains).mpr (hNothing.join chains rfl), rfl⟩

theorem remainingChangedChainBudget_ne_zero (policy : ReconfigurationPolicy) :
    remainingChangedChainBudget policy 0 ≠ 0 := by
  unfold remainingChangedChainBudget
  split
  · decide
  · split
    · omega
    · push_cast
      omega

theorem mem_appendPrioritySlots_iff (hSound : Sound state) {slot : Nat} :
    slot ∈ appendPrioritySlots state ↔ slot < state.slotCount.toNat := by
  refine ⟨mem_appendPrioritySlots hSound, fun h => ?_⟩
  have hCount := hSound.count
  have hInside : slot < state.chains.length := by omega
  rw [appendPrioritySlots, List.mem_insertionSort, List.mem_map]
  exact ⟨state.chains[slot], List.getElem_mem hInside,
    hSound.slot slot _ (List.getElem?_eq_getElem hInside)⟩

def NothingToFill (state : ClusterState) (desired : Option (List Chain)) : Prop :=
  ∀ chains, desired = some chains → ∀ i < state.slotCount.toNat,
    appendMissingDesiredReplicas (desiredAt chains i) state i = (state, none)

theorem fillMissing_eq_nil_iff (hSound : Sound state) :
    fillMissing policy desired state = .ok (state, []) ↔ NothingToFill state desired := by
  cases desired with
  | none => simp [fillMissing, NothingToFill]
  | some chains =>
    rw [fillMissing, sweep_eq_nil_iff (appendMissingDesiredReplicas_silent chains)
      (remainingChangedChainBudget_ne_zero policy)]
    simp only [mem_appendPrioritySlots_iff hSound, Except.ok.injEq, NothingToFill,
      Option.some.injEq, forall_eq']

theorem fillMissing_silent (h : fillMissing policy desired state = .ok (later, [])) :
    later = state := by
  cases desired with
  | none =>
    cases h
    rfl
  | some chains => exact sweep_silent (appendMissingDesiredReplicas_silent chains) h

theorem fillMissing_total (policy : ReconfigurationPolicy) (desired : Option (List Chain))
    (state : ClusterState) : ∃ result, fillMissing policy desired state = .ok result := by
  cases desired with
  | none => exact ⟨_, rfl⟩
  | some chains =>
    exact sweep_total (fun s i => appendMissingDesiredReplicas (desiredAt chains i) s i) _ _ state

end Craq.Coordinator
