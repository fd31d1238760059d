import Craq.Coordinator.Changed
import Craq.Coordinator.Order

/-! # Runs of the planner under conditions

An invariant of the planner is shown for the initial placement, for one event and for the path of
one reconcile.  The conditions of a run are put on those steps: on an event in the state it meets,
and on the state that a reconcile starts from.
-/

namespace Craq.Coordinator

open Craq.Lib

section Runs

variable (allowed : ClusterState → Event → Prop) (meets : ReconfigurationPolicy → ClusterState → Prop)

/-- Each event is allowed where it is applied, and each reconcile starts in a state that meets the
condition. -/
def EventsPass (policy : ReconfigurationPolicy) : List Event → ClusterState → Prop
  | [], _ => True
  | event :: rest, state => allowed state event ∧ ∀ applied, applyEvent state event = .ok applied →
      meets policy applied ∧ ∀ later plans, reconcileState applied policy = .ok (later, plans) →
        EventsPass policy rest later

/-- Without events the planner reconciles the state it is given. -/
def PlanPasses (policy : ReconfigurationPolicy) (events : List Event) (state : ClusterState) : Prop :=
  if events.isEmpty then meets policy state else EventsPass allowed meets policy events state

/-- The states that successful planner calls lead to when all their steps meet the conditions. -/
inductive ReachableWhile : ClusterState → Prop where
  | initial {cfg : Config} {nodes : List Node} {state : ClusterState} :
      buildInitialPlacement cfg nodes = .ok state → ReachableWhile state
  | plan {state : ClusterState} {events : List Event} {policy : ReconfigurationPolicy}
      {plan : ReconfigurationPlan} :
      ReachableWhile state → PlanPasses allowed meets policy events state →
      planReconfiguration state events policy = .ok plan → ReachableWhile plan.updatedState
  | progress {state updated : ClusterState} {event : Event} :
      ReachableWhile state → allowed state event → applyProgress state event = .ok updated →
      ReachableWhile updated

end Runs

section Invariants

variable {allowed : ClusterState → Event → Prop}
  {meets : ReconfigurationPolicy → ClusterState → Prop} {state : ClusterState}

theorem ReachableWhile.reachable (h : ReachableWhile allowed meets state) : Reachable state := by
  induction h with
  | initial h => exact .initial h
  | plan _ _ h ih => exact .plan ih h
  | progress _ _ h ih => exact .progress ih h

theorem eventsPass_of_true (policy : ReconfigurationPolicy) (events : List Event)
    (state : ClusterState) : EventsPass (fun _ _ => True) (fun _ _ => True) policy events state := by
  induction events generalizing state with
  | nil => trivial
  | cons event rest ih => exact ⟨trivial, fun _ _ => ⟨trivial, fun later _ _ => ih later⟩⟩

theorem Reachable.while_true (h : Reachable state) :
    ReachableWhile (fun _ _ => True) (fun _ _ => True) state := by
  induction h with
  | initial h => exact .initial h
  | @plan state events policy plan _ h ih =>
    refine .plan ih ?_ h
    rw [PlanPasses]
    split
    · trivial
    · exact eventsPass_of_true policy events state
  | progress _ h ih => exact .progress ih trivial h

theorem applyEvent_of_progress {updated : ClusterState} {event : Event}
    (h : applyProgressEvent state event = .ok updated) : applyEvent state event = .ok updated := by
  obtain ⟨-, _, _, -, -, ⟨hKind, -, -⟩ | ⟨hKind, -, -⟩⟩ := applyProgressEvent_cases h
  · simpa only [applyEvent, hKind] using h
  · simpa only [applyEvent, hKind] using h

section Rule

variable {P : ClusterState → Prop}
  (hEvent : ∀ state event updated, Sound state → P state → allowed state event →
    applyEvent state event = .ok updated → P updated)
  (hTrace : ∀ policy start later plans, Sound start → P start → meets policy start →
    Trace policy start later plans → P later)

include hEvent hTrace

theorem reconcileEvents_keeps {policy : ReconfigurationPolicy} {events : List Event}
    {later : ClusterState} {plans : List SlotPlan} (hSound : Sound state) (hState : P state)
    (hPass : EventsPass allowed meets policy events state)
    (h : reconcileEvents policy events state = .ok (later, plans)) : P later := by
  induction events generalizing state plans with
  | nil =>
    cases h
    exact hState
  | cons event rest ih =>
    obtain ⟨applied, hApply, h⟩ := bind_eq_ok.mp h
    obtain ⟨⟨reconciled, slotPlans⟩, hReconcile, h⟩ := bind_eq_ok.mp h
    obtain ⟨⟨last, more⟩, hRest, h⟩ := bind_eq_ok.mp h
    cases h
    have hApply := ok_of_mapError hApply
    have hReconcile := ok_of_mapError hReconcile
    have hApplied := applyEvent_sound hSound hApply
    obtain ⟨hAllowed, hNext⟩ := hPass
    obtain ⟨hMeets, hRestPass⟩ := hNext applied hApply
    have hReconciled := (reconcileState_trace hApplied hReconcile).1
    exact ih ((hReconciled.path hApplied).sound hApplied)
      (hTrace policy applied reconciled slotPlans hApplied
        (hEvent state event applied hSound hState hAllowed hApply) hMeets hReconciled)
      (hRestPass _ _ hReconcile) hRest

theorem ReachableWhile.invariant
    (hInitial : ∀ cfg nodes state, buildInitialPlacement cfg nodes = .ok state → P state)
    (h : ReachableWhile allowed meets state) : P state := by
  induction h with
  | initial h => exact hInitial _ _ _ h
  | @plan state events policy plan hReachable hPass h ih =>
    have hSound := hReachable.reachable.sound.1
    obtain ⟨-, hRun⟩ := hReachable.reachable.planReconfiguration_ok h
    rw [PlanPasses] at hPass
    rw [reconcileAll] at hRun
    split at hRun
    · rename_i hNone
      rw [if_pos hNone] at hPass
      exact hTrace policy state _ _ hSound ih hPass
        (reconcileState_trace hSound (ok_of_mapError hRun)).1
    · rename_i hSome
      rw [if_neg hSome] at hPass
      exact reconcileEvents_keeps hEvent hTrace hSound ih hPass hRun
  | @progress state updated event hReachable hAllowed h ih =>
    have hRun := hReachable.reachable.applyProgress_ok h
    exact hEvent state event updated hReachable.reachable.sound.1 ih hAllowed
      (applyEvent_of_progress hRun)

end Rule

end Invariants

/-! ## The steps seen from a chain -/

/-- An event leaves the chains alone, makes one joining replica active or removes one replica. -/
inductive EventEffect (state : ClusterState) (event : Event) (updated : ClusterState) : Prop where
  | membership (kind : event.kind.IsMembership) (chains : updated.chains = state.chains)
  | activated {index : Nat} {nodeID : String} (kind : event.kind = .replicaBecameActive)
      (replica : (state.chainAt event.slot.toNat).replicas[index]? = some ⟨nodeID, .joining⟩)
      (name : nodeID = event.nodeID)
      (result : updated = activateReplica state event.slot.toNat index)
  | removed {index : Nat} (kind : event.kind = .replicaRemoved)
      (chains : updated.chains = (state.setReplicas event.slot.toNat
        ((state.chainAt event.slot.toNat).replicas.eraseIdx index)).chains)

variable {state updated : ClusterState} {event : Event}

theorem applyEvent_effect (hSound : Sound state) (h : applyEvent state event = .ok updated) :
    EventEffect state event updated := by
  by_cases hKind : event.kind.IsMembership
  · exact .membership hKind (applyEvent_membership hSound hKind h).2
  have hProgress : applyProgressEvent state event = .ok updated := by
    simp only [EventKind.IsMembership, not_or] at hKind
    obtain ⟨hRegister, hAdd, hDrain, hDead⟩ := hKind
    rw [applyEvent] at h
    split at h
    · exact absurd ‹_› hRegister
    · exact absurd ‹_› hAdd
    · exact absurd ‹_› hDrain
    · exact absurd ‹_› hDead
    · exact h
    · exact h
    · cases h
  obtain ⟨-, index, replica, hIndex, hID, ⟨hActive, hState, hResult⟩ | ⟨hRemoved, -, rfl⟩⟩ :=
    applyProgressEvent_cases hProgress
  · obtain ⟨nodeID, replicaState⟩ := replica
    cases hState
    exact .activated hActive hIndex hID hResult
  · exact .removed hRemoved (removeReplica_chains ..)

theorem applyEvent_factor (hSound : Sound state) (h : applyEvent state event = .ok updated) :
    updated.replicationFactor = state.replicationFactor := by
  rcases applyEvent_ok hSound h with hProgress | ⟨-, -, hFactor⟩
  · exact hProgress.factor
  · exact hFactor

theorem applyEvent_keeps {P : List Replica → Prop} (hSound : Sound state)
    (hActivate : ∀ index, event.kind = .replicaBecameActive →
      (state.chainAt event.slot.toNat).replicas[index]? = some ⟨event.nodeID, .joining⟩ →
      P (state.chainAt event.slot.toNat).replicas →
      P ((state.chainAt event.slot.toNat).replicas.modify index
        fun replica => { replica with state := .active }))
    (hRemove : ∀ replicas kept : List Replica, kept.Sublist replicas → P replicas → P kept)
    (hState : ∀ i, P (state.chainAt i).replicas) (h : applyEvent state event = .ok updated) :
    ∀ i, P (updated.chainAt i).replicas := by
  have hWritten : ∀ replicas, P replicas →
      ∀ i, P ((state.setReplicas event.slot.toNat replicas).chainAt i).replicas :=
    fun replicas hNew i => setReplicas_pointwise state event.slot.toNat replicas
      (R := fun _ old new => P old → P new) (fun _ _ hOld => hOld) (fun _ => hNew) i (hState i)
  intro i
  cases applyEvent_effect hSound h with
  | membership _ hChains =>
    rw [chainAt_congr hChains]
    exact hState i
  | @activated index nodeID hKind hIndex hName hResult =>
    subst hName hResult
    exact hWritten _ (hActivate index hKind hIndex (hState _)) i
  | @removed index _ hChains =>
    rw [chainAt_congr hChains]
    exact hWritten _ (hRemove _ _ (List.eraseIdx_sublist ..) (hState _)) i

theorem buildInitialPlacement_clean {cfg : Config} {nodes : List Node}
    (h : buildInitialPlacement cfg nodes = .ok state) (i : Nat) :
    Clean state.nodesByID (state.chainAt i) := by
  have hNone : ∀ slot, Clean state.nodesByID ⟨slot, []⟩ :=
    fun slot => ⟨by simp, apart_nil state.nodesByID⟩
  by_cases hInside : i < state.chains.length
  · have hChain : state.chainAt i ∈ state.chains := by
      simp [ClusterState.chainAt, hInside]
    by_cases hNodes : nodes = []
    · subst hNodes
      obtain ⟨⟨⟩, -, h⟩ := bind_eq_ok.mp h
      cases h
      obtain ⟨slot, -, hEmpty⟩ := List.mem_map.mp hChain
      rw [← hEmpty]
      exact hNone slot
    · have hFull := buildInitialPlacement_full hNodes h _ hChain
      exact ⟨hFull.active, hFull.apart⟩
  · have hOut : state.chainAt i = ⟨i, []⟩ := by
      simp [ClusterState.chainAt, hInside]
    rw [hOut]
    exact hNone i

end Craq.Coordinator
