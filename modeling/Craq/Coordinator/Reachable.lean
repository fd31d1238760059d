import Craq.Coordinator.EventFacts

/-! # Reachable cluster states

The states that successful planner calls lead to from an initial placement.  They are well formed,
and no step of the planner takes away the last active replica of a chain without handing over to a
replica that was active in between.
-/

namespace Craq.Coordinator

open Craq.Lib

inductive Reachable : ClusterState → Prop where
  | initial {cfg : Config} {nodes : List Node} {state : ClusterState} :
      buildInitialPlacement cfg nodes = .ok state → Reachable state
  | plan {state : ClusterState} {events : List Event} {policy : ReconfigurationPolicy}
      {plan : ReconfigurationPlan} :
      Reachable state → planReconfiguration state events policy = .ok plan →
      Reachable plan.updatedState
  | progress {state updated : ClusterState} {event : Event} :
      Reachable state → applyProgress state event = .ok updated → Reachable updated

/-! ## The initial placement -/

variable {cfg : Config} {state : ClusterState}

theorem validateConfig_ok (h : validateConfig cfg = .ok ()) :
    0 < cfg.slotCount ∧ 0 < cfg.replicationFactor := by
  rw [validateConfig, ite_error_eq_ok, ite_error_eq_ok] at h
  omega

theorem emptyPlacement_sound (h : validateConfig cfg = .ok ()) :
    Sound (emptyPlacement cfg) ∧ DeadFree (emptyPlacement cfg) := by
  obtain ⟨hSlots, hFactor⟩ := validateConfig_ok h
  have hEmpty : ∀ i, (emptyPlacement cfg).idsAt i = [] := by
    intro i
    by_cases hi : i < cfg.slotCount.toNat <;>
      simp [ClusterState.idsAt, ClusterState.chainAt, emptyPlacement, emptyChains, replicaIDs, hi]
  refine ⟨⟨hFactor, ?_, ?_, ?_, ?_, List.nodup_nil, ?_, ?_, ?_, ?_, ?_, ?_⟩, ?_⟩
  · simp only [emptyPlacement, emptyChains, List.length_map, List.length_range]
    omega
  · intro i chain hi
    simp only [emptyPlacement, emptyChains, List.getElem?_map, Option.map_eq_some_iff] at hi
    obtain ⟨slot, hSlot, rfl⟩ := hi
    obtain ⟨hBound, rfl⟩ := List.getElem?_eq_some_iff.mp hSlot
    simp
  · intro i
    rw [hEmpty]
    exact List.nodup_nil
  · intro i id hid
    rw [hEmpty] at hid
    cases hid
  · intro id
    simp [emptyPlacement]
  · intro id hid
    simp [emptyPlacement] at hid
  · intro id node hNode
    simp [emptyPlacement] at hNode
  · simp [emptyPlacement]
  · intro id _
    simp [emptyPlacement]
  · intro id _
    simp [emptyPlacement]
  · intro i id hid
    rw [hEmpty] at hid
    cases hid

theorem getElem?_foldl_insert {α : Type} (nodes : List Node) (value : α)
    (start : Std.ExtTreeMap String α) (id : String) :
    (nodes.foldl (fun table node => table.insert node.id value) start)[id]? =
      if id ∈ nodes.map (·.id) then some value else start[id]? := by
  induction nodes generalizing start with
  | nil => simp
  | cons node rest ih =>
    rw [List.foldl_cons, ih, Std.ExtTreeMap.getElem?_insert]
    by_cases hRest : id ∈ rest.map (·.id)
    · simp [hRest]
    · by_cases hEq : node.id = id
      · simp [hEq]
      · simp [hRest, hEq, Ne.symm hEq]

theorem steadyPlacement_sound (hCfg : validateConfig cfg = .ok ()) {normalized : NormalizedNodes}
    (hNormal : Normal normalized) {chains : List Chain}
    (h : buildSteadyStateChains cfg.slotCount cfg.replicationFactor normalized.nodes
      normalized.nodesByID = .ok chains) :
    Sound (steadyPlacement cfg normalized chains) ∧
      DeadFree (steadyPlacement cfg normalized chains) := by
  obtain ⟨hSlots, hFactor⟩ := validateConfig_ok hCfg
  obtain ⟨hPlaced, hLength⟩ := buildSteadyStateChains_ok h
  have hAlive : ∀ id, (steadyPlacement cfg normalized chains).isDead id = false := by
    intro id
    simp only [ClusterState.isDead, steadyPlacement, getElem?_foldl_insert]
    split <;> simp
  have hDrawn : ∀ i, DrawnFrom normalized.nodes
      ((steadyPlacement cfg normalized chains).idsAt i) := by
    intro i
    by_cases hi : i < chains.length
    · simpa [ClusterState.idsAt, ClusterState.chainAt, steadyPlacement, hi] using
        hPlaced.drawn chains[i] (List.getElem_mem hi)
    · simp [ClusterState.idsAt, ClusterState.chainAt, steadyPlacement, hi, replicaIDs]
      exact ⟨List.nodup_nil, by simp⟩
  refine ⟨⟨hFactor, ?_, hPlaced.slot, fun i => (hDrawn i).nodup, ?_, hNormal.nodup,
    fun id => (hNormal.keys id).symm, ?_, hNormal.ids, hNormal.named, ?_, ?_⟩, fun i id _ => hAlive id⟩
  · simp only [steadyPlacement]
    omega
  · intro i id hid
    obtain ⟨node, hNode, rfl⟩ := (hDrawn i).member id hid
    exact (hNormal.keys _).mpr (hNormal.order ▸ List.mem_map_of_mem hNode)
  · intro id hid
    have hMem := hNormal.order ▸ (hNormal.keys id).mp hid
    rw [Std.ExtTreeMap.mem_iff_isSome_getElem?]
    simp only [steadyPlacement, getElem?_foldl_insert, hMem, if_true, Option.isSome_some]
  · intro id hDead
    rw [hAlive] at hDead
    cases hDead
  · intro id hDead
    rw [hAlive] at hDead
    cases hDead

theorem buildInitialPlacement_ok {nodes : List Node}
    (h : buildInitialPlacement cfg nodes = .ok state) : Sound state ∧ DeadFree state := by
  obtain ⟨_, hCfg, h⟩ := bind_eq_ok.mp h
  have hCfg := ok_of_mapError hCfg
  split at h
  · cases h
    exact emptyPlacement_sound hCfg
  obtain ⟨normalized, hNormalized, h⟩ := bind_eq_ok.mp h
  rw [ite_error_eq_ok] at h
  obtain ⟨chains, hChains, h⟩ := bind_eq_ok.mp h.2
  cases h
  exact steadyPlacement_sound hCfg (normalizeNodes_ok (ok_of_mapError hNormalized)).1
    (ok_of_mapError hChains)

/-! ## One event -/

variable {updated later : ClusterState} {event : Event} {policy : ReconfigurationPolicy}
  {events : List Event}

theorem applyEvent_ok (hSound : Sound state) (h : applyEvent state event = .ok updated) :
    Progressed state event updated ∨
      (Sound updated ∧ updated.chains = state.chains ∧
        updated.replicationFactor = state.replicationFactor) := by
  unfold applyEvent at h
  split at h
  · obtain ⟨hAdded, hChains, hFactor, -⟩ := addNode_ok hSound h
    exact .inr ⟨hAdded, hChains, hFactor⟩
  · obtain ⟨hAdded, hChains, hFactor, -⟩ := addNode_ok hSound h
    exact .inr ⟨hAdded, hChains, hFactor⟩
  · rw [beginDrainNode, ite_error_eq_ok, ite_error_eq_ok, ite_error_eq_ok] at h
    obtain ⟨-, -, hAlive, h⟩ := h
    cases h
    exact .inr ⟨hSound.markDraining (by simpa using hAlive), rfl, rfl⟩
  · rw [markNodeDead, ite_error_eq_ok, ite_error_eq_ok] at h
    obtain ⟨-, -, h⟩ := h
    cases h
    exact .inr ⟨hSound.markDead _, rfl, rfl⟩
  · exact .inl (applyProgressEvent_ok hSound h)
  · exact .inl (applyProgressEvent_ok hSound h)
  · cases h

theorem applyEvent_sound (hSound : Sound state) (h : applyEvent state event = .ok updated) :
    Sound updated := by
  rcases applyEvent_ok hSound h with hProgress | ⟨hTables, -⟩
  · exact hProgress.sound
  · exact hTables

theorem reconcileEvents_ok {plans : List SlotPlan} (hSound : Sound state) (hFree : DeadFree state)
    (h : reconcileEvents policy events state = .ok (later, plans)) :
    Sound later ∧ DeadFree later := by
  induction events generalizing state plans with
  | nil =>
    cases h
    exact ⟨hSound, hFree⟩
  | cons event rest ih =>
    obtain ⟨applied, hApply, h⟩ := bind_eq_ok.mp h
    obtain ⟨⟨reconciled, slotPlans⟩, hReconcile, h⟩ := bind_eq_ok.mp h
    obtain ⟨⟨last, more⟩, hRest, h⟩ := bind_eq_ok.mp h
    cases h
    have hApplied := applyEvent_sound hSound (ok_of_mapError hApply)
    obtain ⟨hReconciled, -, hReconciledFree, -⟩ :=
      reconcileState_ok hApplied (ok_of_mapError hReconcile)
    exact ih hReconciled hReconciledFree hRest

theorem SameCluster.deadFree {copy : ClusterState} (h : SameCluster state copy)
    (hFree : DeadFree state) : DeadFree copy := by
  intro i id hid
  rw [h.isDead]
  exact hFree i id (by simpa only [ClusterState.idsAt, h.replicas] using hid)

theorem Progressed.deadFree (h : Progressed state event updated) (hFree : DeadFree state) :
    DeadFree updated :=
  fun i id hid => (h.isDead id).trans (hFree i id (h.ids_subset i hid))

theorem planReconfiguration_eq_ok {plan : ReconfigurationPlan}
    (h : planReconfiguration state events policy = .ok plan) :
    0 ≤ policy.maxChangedChains ∧ ∃ working, cloneAndValidateState state = .ok working ∧
      reconcileAll policy events working = .ok (plan.updatedState, plan.changedSlots) := by
  rw [planReconfiguration, ite_error_eq_ok] at h
  obtain ⟨working, hClone, hPlan⟩ := bind_eq_ok.mp h.2
  obtain ⟨⟨later, plans⟩, hRun, hPlan⟩ := bind_eq_ok.mp hPlan
  cases hPlan
  exact ⟨not_lt.mp h.1, working, ok_of_mapError hClone, hRun⟩

theorem planReconfiguration_sound (hSound : Sound state) (hFree : DeadFree state)
    {plan : ReconfigurationPlan} (h : planReconfiguration state events policy = .ok plan) :
    Sound plan.updatedState ∧ DeadFree plan.updatedState := by
  obtain ⟨-, working, hClone, hRun⟩ := planReconfiguration_eq_ok h
  obtain ⟨hWorking, hSame⟩ := cloneAndValidateState_ok hSound hClone
  rw [reconcileAll] at hRun
  split at hRun
  · obtain ⟨hLater, -, hLaterFree, -⟩ := reconcileState_ok hWorking (ok_of_mapError hRun)
    exact ⟨hLater, hLaterFree⟩
  · exact reconcileEvents_ok hWorking (hSame.deadFree hFree) hRun

theorem applyProgress_sound (hSound : Sound state) (hFree : DeadFree state)
    (h : applyProgress state event = .ok updated) : Sound updated ∧ DeadFree updated := by
  obtain ⟨working, hClone, h⟩ := bind_eq_ok.mp h
  rw [ite_error_eq_ok] at h
  obtain ⟨hWorking, hSame⟩ := cloneAndValidateState_ok hSound (ok_of_mapError hClone)
  have hProgress := applyProgressEvent_ok hWorking (ok_of_mapError h.2)
  exact ⟨hProgress.sound, hProgress.deadFree (hSame.deadFree hFree)⟩

theorem Reachable.sound (h : Reachable state) : Sound state ∧ DeadFree state := by
  induction h with
  | initial h => exact buildInitialPlacement_ok h
  | plan _ h ih => exact planReconfiguration_sound ih.1 ih.2 h
  | progress _ h ih => exact applyProgress_sound ih.1 ih.2 h

/-! ## Well-formedness -/

structure WellFormed (state : ClusterState) : Prop where
  chainCount : (state.chains.length : Int) = state.slotCount
  chainSlot : ∀ (i : Nat) (chain : Chain), state.chains[i]? = some chain → chain.slot = i
  known : ∀ chain ∈ state.chains, ∀ replica ∈ chain.replicas, replica.nodeID ∈ state.nodesByID
  distinct : ∀ chain ∈ state.chains, (replicaIDs chain.replicas).Nodup
  orderNodup : state.nodeOrder.Nodup
  orderKeys : ∀ id, id ∈ state.nodeOrder ↔ id ∈ state.nodesByID
  health : ∀ id ∈ state.nodesByID, id ∈ state.nodeHealthByID
  deadNotInChain : ∀ id, state.isDead id = true →
    ∀ chain ∈ state.chains, id ∉ replicaIDs chain.replicas
  deadNotReady : ∀ id, state.isDead id = true → id ∉ state.readyNodeIDs
  deadNotDraining : ∀ id, state.isDead id = true → id ∉ state.drainingNodeIDs

theorem exists_chainAt {chain : Chain} (h : chain ∈ state.chains) :
    ∃ i, state.chainAt i = chain := by
  obtain ⟨i, hi⟩ := List.getElem?_of_mem h
  exact ⟨i, by simp [ClusterState.chainAt, hi]⟩

/-- Every state that planner calls lead to is well formed. -/
theorem reachable_wellFormed {state : ClusterState} (h : Reachable state) : WellFormed state := by
  obtain ⟨hSound, hFree⟩ := h.sound
  refine ⟨hSound.count, hSound.slot, ?_, ?_, hSound.orderNodup, hSound.orderKeys, hSound.health, ?_,
    hSound.deadNotReady, hSound.deadNotDraining⟩
  · intro chain hChain replica hReplica
    obtain ⟨i, rfl⟩ := exists_chainAt hChain
    exact hSound.known i _ (mem_replicaIDs.mpr ⟨replica, hReplica, rfl⟩)
  · intro chain hChain
    obtain ⟨i, rfl⟩ := exists_chainAt hChain
    exact hSound.nodup i
  · intro id hDead chain hChain hMem
    obtain ⟨i, rfl⟩ := exists_chainAt hChain
    rw [hFree i id hMem] at hDead
    cases hDead

def inRack (id rack : String) : Node := ⟨id, "", .ofList [("rack", rack)]⟩

def soloPlacement : ClusterState :=
  { chains := [⟨0, [⟨"a", .active⟩]⟩]
    nodesByID := .ofList [("a", (⟨"a", "", ∅⟩ : Node)), ("b", ⟨"b", "", ∅⟩)]
    nodeHealthByID := .ofList [("a", NodeHealth.alive), ("b", .alive)]
    readyNodeIDs := .ofList [("a", true), ("b", true)]
    drainingNodeIDs := ∅
    nodeOrder := ["a", "b"]
    slotCount := 1
    replicationFactor := 1 }

theorem soloPlacement_reachable : Reachable soloPlacement := by
  have hBuild : buildInitialPlacement ⟨1, 1⟩ [⟨"a", "", ∅⟩, ⟨"b", "", ∅⟩] = .ok soloPlacement := by
    decide +kernel
  exact .initial hBuild

/-! ## Active-anchor continuity -/

inductive PlannerStep where
  | planEvent (event : Event) (policy : ReconfigurationPolicy)
  | reconcile (policy : ReconfigurationPolicy)
  | progress (event : Event)

def PlannerStep.run (state : ClusterState) : PlannerStep → Except Error ClusterState
  | .planEvent event policy => (planReconfiguration state [event] policy).map (·.updatedState)
  | .reconcile policy => (planReconfiguration state [] policy).map (·.updatedState)
  | .progress event => applyProgress state event

theorem Reachable.step (h : Reachable state) {step : PlannerStep}
    (hRun : step.run state = .ok later) : Reachable later := by
  cases step with
  | planEvent event policy | reconcile policy =>
    obtain ⟨plan, hPlan, rfl⟩ := map_eq_ok.mp hRun
    exact .plan h hPlan
  | progress event => exact .progress h hRun

theorem Reachable.steps (h : Reachable state) {steps : List PlannerStep}
    (hRun : steps.foldlM PlannerStep.run state = .ok later) : Reachable later := by
  induction steps generalizing state with
  | nil =>
    cases hRun
    exact h
  | cons step rest ih =>
    obtain ⟨next, hStep, hRest⟩ := bind_eq_ok.mp hRun
    exact ih (h.step hStep) hRest

def PlannerStep.Activates (step : PlannerStep) (slot : Nat) (nodeID : String) : Prop :=
  ∃ event policy, step = .planEvent event policy ∧ event.kind = .replicaBecameActive ∧
    event.slot = slot ∧ event.nodeID = nodeID

theorem planReconfiguration_map_ok
    (h : (planReconfiguration state events policy).map (·.updatedState) = .ok later) :
    ∃ working plans, cloneAndValidateState state = .ok working ∧
      reconcileAll policy events working = .ok (later, plans) := by
  obtain ⟨plan, hPlan, rfl⟩ := map_eq_ok.mp h
  obtain ⟨-, working, hClone, hRun⟩ := planReconfiguration_eq_ok hPlan
  exact ⟨working, plan.changedSlots, hClone, hRun⟩

/-- A reconcile that follows `state` keeps one of several active replicas, whichever one is
discounted, when it must leave at least two of them. -/
theorem Follows.exists_active_ne (h : Follows state later) (hSound : Sound later)
    (hFactor : state.replicationFactor ≠ 1) (hPos : 0 < state.replicationFactor) {i : Nat}
    {old discounted : String} (hOld : old ∈ state.activesAt i) (hNe : old ≠ discounted) :
    ∃ id ∈ later.activesAt i, id ≠ discounted := by
  rcases h.kept i with hSame | hFull
  · exact ⟨old, hSame ▸ hOld, hNe⟩
  · by_contra hAll
    push Not at hAll
    have hNodup : (later.activesAt i).Nodup := nodup_filter_ids hSound i _
    have hSubset : later.activesAt i ⊆ [discounted] := fun id hid => by simp [hAll id hid]
    have hShort := (hNodup.subperm hSubset).length_le
    rw [List.length_singleton] at hShort
    omega

theorem exists_mem_of_anchored {first second : List String} (h : first ≠ [])
    (hSubset : first ⊆ second) : ∃ id ∈ first, id ∈ second := by
  obtain ⟨id, hid⟩ := List.exists_mem_of_ne_nil first h
  exact ⟨id, hid, hSubset hid⟩

/-- The event case: the event adds at most one active replica and the reconcile adds none. -/
theorem event_anchor {applied : ClusterState} (hSound : Sound state) (hFree : DeadFree state)
    (hApply : applyEvent state event = .ok applied) {plans : List SlotPlan}
    (hReconcile : reconcileState applied policy = .ok (later, plans)) {slot : Nat}
    (hActive : state.activesAt slot ≠ []) :
    ∃ id ∈ later.activesAt slot, id ∈ state.activesAt slot ∨
      (state.replicationFactor = 1 ∧ event.kind = .replicaBecameActive ∧ event.slot = slot ∧
        event.nodeID = id) := by
  obtain ⟨hLater, hEvolves, -, hFollows⟩ :=
    reconcileState_ok (applyEvent_sound hSound hApply) hReconcile
  rcases applyEvent_ok hSound hApply with hProgress | ⟨-, hChains, -⟩
  · have hFollows := hFollows (hProgress.deadFree hFree)
    obtain ⟨old, hOld⟩ := List.exists_mem_of_ne_nil _ hActive
    have hOldApplied := hProgress.active_kept hFree slot hOld
    have hNonempty := hEvolves.anchored slot (List.ne_nil_of_mem hOldApplied)
    by_cases hNew : event.nodeID ∈ state.activesAt slot
    · obtain ⟨id, hid, hMem⟩ := exists_mem_of_anchored hNonempty (hEvolves.active_subset slot)
      rcases hProgress.active_new slot id hMem with hMem | ⟨-, -, rfl⟩
      · exact ⟨id, hid, .inl hMem⟩
      · exact ⟨_, hid, .inl hNew⟩
    · by_cases hFactor : state.replicationFactor = 1
      · obtain ⟨id, hid, hMem⟩ := exists_mem_of_anchored hNonempty (hEvolves.active_subset slot)
        refine ⟨id, hid, ?_⟩
        exact (hProgress.active_new slot id hMem).imp_right fun hEvent => ⟨hFactor, hEvent⟩
      · have hApplied := hProgress.factor
        have hOther : old ≠ event.nodeID := fun hEq => hNew (hEq ▸ hOld)
        obtain ⟨id, hid, hNe⟩ := hFollows.exists_active_ne hLater (hApplied ▸ hFactor)
          (hApplied ▸ hSound.factor) hOldApplied hOther
        refine ⟨id, hid, .inl ?_⟩
        rcases hProgress.active_new slot id (hEvolves.active_subset slot hid) with hMem | hEvent
        · exact hMem
        · exact absurd hEvent.2.2.symm hNe
  · have hSame : applied.activesAt slot = state.activesAt slot := by
      simp only [ClusterState.activesAt, ClusterState.chainAt, hChains]
    obtain ⟨id, hid, hMem⟩ := exists_mem_of_anchored
      (hEvolves.anchored slot (hSame ▸ hActive)) (hEvolves.active_subset slot)
    exact ⟨id, hid, .inl (hSame ▸ hMem)⟩

/-- Some node that is active in the chain after the step was active before it; with a replication
factor of one, it may instead be the node whose activation the planned event reports. -/
theorem active_anchor_continuity {state later : ClusterState} (hReachable : Reachable state)
    {step : PlannerStep} (h : step.run state = .ok later) {slot : Nat}
    (hActive : state.activesAt slot ≠ []) :
    ∃ id ∈ later.activesAt slot, id ∈ state.activesAt slot ∨
      (state.replicationFactor = 1 ∧ step.Activates slot id) := by
  obtain ⟨hSound, hFree⟩ := hReachable.sound
  have hCopy : ∀ {working : ClusterState}, SameCluster state working →
      working.activesAt slot = state.activesAt slot := fun hSame => by
    simp only [ClusterState.activesAt, activeReplicaIDs, hSame.replicas]
  cases step with
  | planEvent event policy =>
    obtain ⟨working, plans, hClone, hRun⟩ := planReconfiguration_map_ok h
    obtain ⟨hWorking, hSame⟩ := cloneAndValidateState_ok hSound hClone
    obtain ⟨applied, hApply, hRun⟩ := bind_eq_ok.mp hRun
    obtain ⟨⟨reconciled, slotPlans⟩, hReconcile, hRun⟩ := bind_eq_ok.mp hRun
    obtain ⟨⟨last, more⟩, hRest, hRun⟩ := bind_eq_ok.mp hRun
    cases hRest
    cases hRun
    have hActiveCopy : working.activesAt slot ≠ [] := by rwa [hCopy hSame]
    obtain ⟨id, hid, hMem⟩ := event_anchor hWorking (hSame.deadFree hFree) (ok_of_mapError hApply)
      (ok_of_mapError hReconcile) hActiveCopy
    rw [hCopy hSame, hSame.factor] at hMem
    exact ⟨id, hid, hMem.imp_right fun hStep => ⟨hStep.1, event, policy, rfl, hStep.2⟩⟩
  | reconcile policy =>
    obtain ⟨working, plans, hClone, hRun⟩ := planReconfiguration_map_ok h
    obtain ⟨hWorking, hSame⟩ := cloneAndValidateState_ok hSound hClone
    obtain ⟨-, hEvolves, -, -⟩ := reconcileState_ok hWorking (ok_of_mapError hRun)
    obtain ⟨id, hid, hMem⟩ := exists_mem_of_anchored
      (hEvolves.anchored slot (hCopy hSame ▸ hActive)) (hEvolves.active_subset slot)
    exact ⟨id, hid, .inl (hCopy hSame ▸ hMem)⟩
  | progress event =>
    obtain ⟨working, hClone, h⟩ := bind_eq_ok.mp h
    rw [ite_error_eq_ok] at h
    obtain ⟨hWorking, hSame⟩ := cloneAndValidateState_ok hSound (ok_of_mapError hClone)
    have hProgress := applyProgressEvent_ok hWorking (ok_of_mapError h.2)
    obtain ⟨id, hid⟩ := List.exists_mem_of_ne_nil _ hActive
    refine ⟨id, hProgress.active_kept (hSame.deadFree hFree) slot ?_, .inl hid⟩
    rwa [hCopy hSame]

/-! ### A slot with one replica

Node `a` is drained and hands the slot over to `b`. -/

def drainA : PlannerStep := .planEvent ⟨.beginDrainNode, zeroNode, "a", 0⟩ ⟨0⟩

def activeB : PlannerStep := .planEvent ⟨.replicaBecameActive, zeroNode, "b", 0⟩ ⟨0⟩

def soloDraining : ClusterState := (drainA.run soloPlacement).toOption.getD soloPlacement

def soloHandedOver : ClusterState := (activeB.run soloDraining).toOption.getD soloDraining

theorem drainA_run : drainA.run soloPlacement = .ok soloDraining :=
  eq_ok_getD soloPlacement (by decide +kernel)

theorem activeB_run : activeB.run soloDraining = .ok soloHandedOver :=
  eq_ok_getD soloDraining (by decide +kernel)

theorem soloDraining_reachable : Reachable soloDraining :=
  soloPlacement_reachable.step drainA_run

/-- After the drain and the handover `b` is the head and `a` leaves behind it. -/
theorem soloHandedOver_wellFormed :
    soloHandedOver.idsAt 0 = ["b", "a"] ∧ WellFormed soloHandedOver :=
  ⟨by decide +kernel, reachable_wellFormed (soloDraining_reachable.step activeB_run)⟩

theorem drain_keeps_anchor :
    ∃ id ∈ soloDraining.activesAt 0, id ∈ soloPlacement.activesAt 0 ∨
      (soloPlacement.replicationFactor = 1 ∧ drainA.Activates 0 id) :=
  active_anchor_continuity soloPlacement_reachable drainA_run (by decide +kernel)

/-- With one replica per slot, planning with the activation report hands the slot over in the same
step: no node is active on both sides. -/
theorem handover_loses_anchor :
    ¬∀ (state later : ClusterState) (step : PlannerStep) (slot : Nat), Reachable state →
      step.run state = .ok later → state.activesAt slot ≠ [] →
      ∃ id, id ∈ state.activesAt slot ∧ id ∈ later.activesAt slot := by
  intro hAll
  have hOld : soloDraining.activesAt 0 = ["a"] := by decide +kernel
  have hNew : soloHandedOver.activesAt 0 = ["b"] := by decide +kernel
  obtain ⟨id, hBefore, hAfter⟩ := hAll soloDraining soloHandedOver activeB 0
    soloDraining_reachable activeB_run (by simp [hOld])
  rw [hOld, List.mem_singleton] at hBefore
  rw [hNew, List.mem_singleton, hBefore] at hAfter
  exact absurd hAfter (by decide)

end Craq.Coordinator
