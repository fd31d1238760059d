import Craq.Coordinator.Once
import Craq.Coordinator.Runs

/-! # The slots that a plan lists

A planner call with at most one event reconciles once, from the state that the event leaves.  The
slots such a plan lists are those whose chains it has changed.
-/

namespace Craq.Coordinator

open Craq.Lib

section Listed

variable {policy : ReconfigurationPolicy} {start later : ClusterState} {plans : List SlotPlan}

theorem Path.slots_lt (h : Path policy start later plans) :
    ∀ slot ∈ plans.map (·.slot), slot < start.chains.length := by
  induction h with
  | rest => simp
  | change path inside change domains ih =>
    intro slot hSlot
    rw [List.map_append, List.mem_append] at hSlot
    rcases hSlot with hOld | hNew
    · exact ih slot hOld
    · rw [List.mem_singleton.mp hNew, ← path.length]
      exact inside

theorem Path.chainAt_of_not_mem (h : Path policy start later plans) {i : Nat}
    (hi : i ∉ plans.map (·.slot)) : later.chainAt i = start.chainAt i := by
  induction h with
  | rest => rfl
  | change path inside change domains ih =>
    rw [List.map_append, List.mem_append, not_or] at hi
    have hNe : i ≠ _ := fun hEq => hi.2 (List.mem_singleton.mpr hEq)
    rw [setReplicas_chainAt_of_ne _ _ _ hNe]
    exact ih hi.1

/-- A slot without dead replicas that a path has changed: a tail joins it, or replicas beyond the
factor leave it. -/
def InTransition (start state : ClusterState) (slot : Nat) : Prop :=
  (hasJoiningReplica (state.chainAt slot) = true ∧
      (start.chainAt slot).replicas.length < (state.chainAt slot).replicas.length) ∨
    (hasLeavingReplica (state.chainAt slot) = true ∧
      ((state.activesAt slot).length : Int) = start.replicationFactor ∧
      (start.activesAt slot).length > (state.activesAt slot).length)

variable {state : ClusterState} {slot : Nat}

theorem InTransition.ne (h : InTransition start state slot) :
    state.chainAt slot ≠ start.chainAt slot := by
  intro hSame
  rcases h with ⟨-, hLonger⟩ | ⟨-, -, hFewer⟩
  · rw [hSame] at hLonger
    omega
  · rw [ClusterState.activesAt, ClusterState.activesAt, hSame] at hFewer
    omega

theorem InTransition.closed (h : InTransition start state slot) :
    Closed start.replicationFactor (state.chainAt slot) :=
  h.imp (fun hJoins => hJoins.1) fun hLeaves => ⟨hLeaves.1, hLeaves.2.1⟩

theorem tables_containsDead (h : state = { start with chains := state.chains }) (chain : Chain) :
    chainContainsDeadReplica state chain = chainContainsDeadReplica start chain := by
  rw [h]
  rfl

theorem Change.inTransition {after : List Replica} {steps : List ReconfigurationStep}
    (h : Change state slot after steps) (hInside : slot < state.chains.length)
    (hAlive : chainContainsDeadReplica state (state.chainAt slot) = false) :
    InTransition state (state.setReplicas slot after) slot := by
  rw [InTransition, ClusterState.activesAt, setReplicas_chainAt_self _ _ _ hInside]
  cases h with
  | repaired dead =>
    rw [hAlive] at dead
    cases dead
  | appended alive settled joins =>
    left
    constructor
    · simp [hasJoiningReplica]
    · simp
  | @retired kept left alive joinless perm full left_ne =>
    right
    have hLength := perm.length_eq
    have hLeft := List.length_pos_iff.mpr left_ne
    rw [List.length_append] at hLength
    have hKept : activeReplicaIDs { state.chainAt slot with
        replicas := kept.map (⟨·, .active⟩) ++ left.map (⟨·, .leaving⟩) } = kept :=
      activeIDs_active_append_leaving kept left
    refine ⟨?_, ?_, ?_⟩
    · obtain ⟨nodeID, hNode⟩ := List.exists_mem_of_ne_nil left left_ne
      simp only [hasLeavingReplica, List.any_eq_true, decide_eq_true_eq]
      exact ⟨⟨nodeID, .leaving⟩, by simp [hNode], rfl⟩
    · rw [hKept]
      exact full
    · rw [hKept]
      omega

theorem InTransition.of_chain {first second : ClusterState} (h : InTransition first state slot)
    (hChain : first.chainAt slot = second.chainAt slot)
    (hFactor : first.replicationFactor = second.replicationFactor) :
    InTransition second state slot := by
  rw [InTransition, ClusterState.activesAt, ClusterState.activesAt, hChain, hFactor] at h
  exact h

theorem Path.listed (h : Path policy start later plans) :
    ∀ slot ∈ plans.map (·.slot),
      (chainContainsDeadReplica start (start.chainAt slot) = true ∧
        chainContainsDeadReplica start (later.chainAt slot) = false) ∨
      (chainContainsDeadReplica start (start.chainAt slot) = false ∧
        InTransition start later slot) := by
  induction h with
  | rest => simp
  | @change state plans slot after steps path inside change domains ih =>
    intro i hi
    rw [List.map_append, List.mem_append, List.map_singleton, List.mem_singleton] at hi
    by_cases hSlot : i = slot
    · subst hSlot
      cases hDead : chainContainsDeadReplica start (start.chainAt i) with
      | true =>
        left
        refine ⟨rfl, ?_⟩
        rw [setReplicas_chainAt_self _ _ _ inside, chainContainsDeadReplica, List.any_eq_false]
        intro replica hReplica
        rw [← tables_isDead path.tables, change.alive _ (mem_replicaIDs.mpr ⟨replica, hReplica, rfl⟩)]
        exact Bool.false_ne_true
      | false =>
        right
        refine ⟨rfl, ?_⟩
        have hAlive : chainContainsDeadReplica state (state.chainAt i) = false := by
          by_contra hSome
          rw [Bool.not_eq_false] at hSome
          rw [path.unrepaired hSome, tables_containsDead path.tables, hDead] at hSome
          cases hSome
        have hFactor := tables_factor path.tables
        by_cases hOld : i ∈ plans.map (·.slot)
        · rcases ih i hOld with ⟨hWas, -⟩ | ⟨-, hTransition⟩
          · rw [hDead] at hWas
            cases hWas
          · exact absurd change ((hFactor ▸ hTransition.closed).not_change hAlive)
        · exact (change.inTransition inside hAlive).of_chain (path.chainAt_of_not_mem hOld) hFactor
    · have hOld := hi.resolve_right hSlot
      rw [InTransition, ClusterState.activesAt, setReplicas_chainAt_of_ne _ _ _ hSlot]
      exact ih i hOld

/-- A plan lists exactly the slots whose chains it changes. -/
theorem Path.mem_slots_iff (h : Path policy start later plans) (slot : Nat) :
    slot ∈ plans.map (·.slot) ↔ later.chainAt slot ≠ start.chainAt slot := by
  constructor
  · intro hListed hSame
    rcases h.listed slot hListed with ⟨hDead, hAlive⟩ | ⟨-, hTransition⟩
    · rw [hSame, hDead] at hAlive
      cases hAlive
    · exact hTransition.ne hSame
  · intro hNe
    by_contra hOut
    exact hNe (h.chainAt_of_not_mem hOut)

end Listed

end Craq.Coordinator
