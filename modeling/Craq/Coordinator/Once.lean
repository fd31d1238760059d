import Craq.Coordinator.Changed

/-! # A plan gives a slot steps at most once

A reconcile may list a slot twice, when the repair only removed a dead replica and a finalization
follows.  The earlier of the two plans then has no steps: once a plan with steps has changed a
chain, the chain holds a joining or leaving replica and every later pass leaves it alone.
-/

namespace Craq.Coordinator

open Craq.Lib

/-- Of two plans of one slot the earlier has no steps. -/
def StepsOnce (plans : List SlotPlan) : Prop :=
  plans.Pairwise fun earlier later => earlier.slot = later.slot → earlier.steps = []

/-- A tail joins the chain, or replicas beyond the factor leave it. -/
def Closed (factor : Int) (chain : Chain) : Prop :=
  hasJoiningReplica chain = true ∨
    (hasLeavingReplica chain = true ∧ ((activeReplicaIDs chain).length : Int) = factor)

section Change

variable {state : ClusterState} {slot : Nat} {after : List Replica}
  {steps : List ReconfigurationStep}

theorem Change.closed (h : Change state slot after steps) (hSteps : steps ≠ []) (chain : Chain) :
    Closed state.replicationFactor { chain with replicas := after } := by
  cases h with
  | @repaired added =>
    obtain ⟨nodeID, hNode⟩ := List.exists_mem_of_ne_nil added (by simpa using hSteps)
    left
    simp only [hasJoiningReplica, List.any_eq_true, decide_eq_true_eq]
    exact ⟨⟨nodeID, .joining⟩, by simp [joiners, hNode], rfl⟩
  | appended => exact .inl (by simp [hasJoiningReplica])
  | @retired kept left alive joinless perm full left_ne =>
    obtain ⟨nodeID, hNode⟩ := List.exists_mem_of_ne_nil left left_ne
    right
    constructor
    · simp only [hasLeavingReplica, List.any_eq_true, decide_eq_true_eq]
      exact ⟨⟨nodeID, .leaving⟩, by simp [hNode], rfl⟩
    · exact (congrArg (fun ids : List String => (ids.length : Int))
        (activeIDs_active_append_leaving kept left)).trans full

theorem Closed.not_change (h : Closed state.replicationFactor (state.chainAt slot))
    (hAlive : chainContainsDeadReplica state (state.chainAt slot) = false) :
    ¬Change state slot after steps := by
  intro hChange
  cases hChange with
  | repaired dead =>
    rw [hAlive] at dead
    cases dead
  | appended alive settled =>
    simp only [hasPendingReplicaState, Bool.or_eq_false_iff] at settled
    rcases h with hJoining | ⟨hLeaving, -⟩
    · rw [hJoining] at settled
      cases settled.1
    · rw [hLeaving] at settled
      cases settled.2
  | @retired kept left alive joinless perm full left_ne =>
    rcases h with hJoining | ⟨-, hFull⟩
    · rw [hJoining] at joinless
      cases joinless
    · have hLength := perm.length_eq
      have hLeft := List.length_pos_iff.mpr left_ne
      rw [List.length_append, ClusterState.activesAt] at hLength
      omega

end Change

section Along

variable {policy : ReconfigurationPolicy} {start later : ClusterState} {plans : List SlotPlan}

theorem Path.stepped (h : Path policy start later plans) :
    StepsOnce plans ∧ ∀ slotPlan ∈ plans,
      chainContainsDeadReplica later (later.chainAt slotPlan.slot) = false ∧
      (slotPlan.steps ≠ [] → Closed later.replicationFactor (later.chainAt slotPlan.slot)) := by
  induction h with
  | rest => exact ⟨List.Pairwise.nil, nofun⟩
  | @change state plans slot after steps path inside change domains ih =>
    obtain ⟨hOnce, hListed⟩ := ih
    have hAlive : chainContainsDeadReplica (state.setReplicas slot after)
        { state.chainAt slot with replicas := after } = false := by
      rw [chainContainsDeadReplica, List.any_eq_false]
      intro replica hReplica
      rw [setReplicas_isDead, change.alive _ (mem_replicaIDs.mpr ⟨replica, hReplica, rfl⟩)]
      exact Bool.false_ne_true
    constructor
    · refine List.pairwise_append.mpr ⟨hOnce, List.pairwise_singleton _ _, ?_⟩
      intro earlier hEarlier last hLast hSlot
      cases List.mem_singleton.mp hLast
      by_contra hSteps
      obtain ⟨hClean, hClosed⟩ := hListed earlier hEarlier
      rw [hSlot] at hClean hClosed
      exact (hClosed hSteps).not_change hClean change
    · intro slotPlan hPlan
      by_cases hSlot : slotPlan.slot = slot
      · rw [hSlot, setReplicas_chainAt_self _ _ _ inside]
        refine ⟨hAlive, fun hSteps => ?_⟩
        rcases List.mem_append.mp hPlan with hOld | hNew
        · obtain ⟨hClean, hClosed⟩ := hListed slotPlan hOld
          rw [hSlot] at hClean hClosed
          exact absurd change ((hClosed hSteps).not_change hClean)
        · cases List.mem_singleton.mp hNew
          exact change.closed hSteps _
      · rw [setReplicas_chainAt_of_ne _ _ _ hSlot]
        rcases List.mem_append.mp hPlan with hOld | hNew
        · exact hListed slotPlan hOld
        · exact absurd (congrArg SlotPlan.slot (List.mem_singleton.mp hNew)) hSlot

end Along

/-- The plan of a reconcile or of a single event gives no slot steps twice. -/
theorem planReconfiguration_stepsOnce {state : ClusterState} (hSound : Sound state)
    {events : List Event} (hEvents : events.length ≤ 1) {policy : ReconfigurationPolicy}
    {plan : ReconfigurationPlan} (h : planReconfiguration state events policy = .ok plan) :
    StepsOnce plan.changedSlots := by
  obtain ⟨start, -, -, hPath⟩ := planReconfiguration_path hSound hEvents h
  exact hPath.stepped.1

end Craq.Coordinator
