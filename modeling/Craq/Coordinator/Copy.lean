import Craq.Coordinator.Reachable
import Craq.Lib.Map

/-! # The working copy of a reachable state

The planner validates and copies the state before it plans.  On a reachable state the copy is the
state itself, so the planner cannot refuse the state it produced.
-/

namespace Craq.Coordinator

open Craq.Lib

/-- What the copy would otherwise tidy up: marks are set or absent, and there is a slot. -/
structure Tidy (state : ClusterState) : Prop where
  slots : 0 < state.slotCount
  ready : ∀ (id : String) (mark : Bool), state.readyNodeIDs[id]? = some mark → mark = true
  draining : ∀ (id : String) (mark : Bool), state.drainingNodeIDs[id]? = some mark → mark = true

/-! ## The copy of a tidy state -/

theorem checkNodeOrder_of_known {nodesByID : Std.ExtTreeMap String Node}
    {health : Std.ExtTreeMap String NodeHealth} {order seen : List String} (hNodup : order.Nodup)
    (hSeen : ∀ id ∈ order, id ∉ seen) (hKnown : ∀ id ∈ order, id ∈ nodesByID)
    (hHealth : ∀ id ∈ order, id ∈ health) :
    checkNodeOrder nodesByID order seen health = .ok health := by
  induction order generalizing seen with
  | nil => rfl
  | cons id rest ih =>
    obtain ⟨hOut, hRest⟩ := List.nodup_cons.mp hNodup
    rw [List.forall_mem_cons] at hSeen hKnown hHealth
    rw [checkNodeOrder, if_neg (not_not.mpr hKnown.1), if_neg hSeen.1,
      insertIfNew_of_mem hHealth.1]
    apply ih hRest _ hKnown.2 hHealth.2
    intro other hOther
    rw [List.mem_cons, not_or]
    exact ⟨fun hEq => hOut (hEq ▸ hOther), hSeen.2 other hOther⟩

theorem fillHealth_of_known {ids : List String} {health : Std.ExtTreeMap String NodeHealth}
    (h : ∀ id ∈ ids, id ∈ health) :
    ids.foldl (fun health id => health.insertIfNew id .alive) health = health := by
  induction ids with
  | nil => rfl
  | cons id rest ih =>
    rw [List.forall_mem_cons] at h
    rw [List.foldl_cons, insertIfNew_of_mem h.1]
    exact ih h.2

theorem checkChainNodes_of_known {nodesByID : Std.ExtTreeMap String Node} {ids : List String}
    (h : ∀ id ∈ ids, id ∈ nodesByID) : checkChainNodes nodesByID ids = .ok () := by
  induction ids with
  | nil => rfl
  | cons id rest ih =>
    rw [List.forall_mem_cons] at h
    rw [checkChainNodes, if_neg (not_not.mpr h.1)]
    exact ih h.2

variable {marks : Std.ExtTreeMap String Bool} {state : ClusterState}

theorem filter_marks (h : ∀ (id : String) (mark : Bool), marks[id]? = some mark → mark = true) :
    (marks.filter fun _ mark => mark) = marks := by
  apply Std.ExtTreeMap.ext_getElem?
  intro id
  rw [Std.ExtTreeMap.getElem?_filter']
  cases hMark : marks[id]? with
  | none => rfl
  | some mark => simp [h id mark hMark]

theorem renumberChains_of_slots {chains : List Chain}
    (h : ∀ (i : Nat) (chain : Chain), chains[i]? = some chain → chain.slot = i) :
    renumberChains chains = chains := by
  apply List.ext_getElem?
  intro i
  rw [renumberChains, List.getElem?_mapIdx]
  cases hChain : chains[i]? with
  | none => rfl
  | some chain =>
    cases h i chain hChain
    rfl

theorem cloneAndValidateState_of_tidy (hSound : Sound state) (hTidy : Tidy state) :
    cloneAndValidateState state = .ok state := by
  have hConfig : validateConfig ⟨state.slotCount, state.replicationFactor⟩ = .ok () := by
    have hSlots := hTidy.slots
    have hFactor := hSound.factor
    rw [validateConfig, if_neg (by dsimp only; omega), if_neg (by dsimp only; omega)]
  have hOrder : (if state.nodeOrder.isEmpty then state.nodesByID.keys else state.nodeOrder) =
      state.nodeOrder := by
    split
    · rename_i hEmpty
      rw [List.isEmpty_iff.mp hEmpty, List.eq_nil_iff_forall_not_mem]
      intro id hid
      have hMem := (hSound.orderKeys id).mpr (by simpa using hid)
      rw [List.isEmpty_iff.mp hEmpty] at hMem
      cases hMem
    · rfl
  have hKnown : ∀ id ∈ state.chains.flatMap fun chain => replicaIDs chain.replicas,
      id ∈ state.nodesByID := by
    intro id hid
    obtain ⟨chain, hChain, hMem⟩ := List.mem_flatMap.mp hid
    obtain ⟨i, rfl⟩ := exists_chainAt hChain
    exact hSound.known i id hMem
  have hHealth : ∀ id ∈ state.nodeOrder, id ∈ state.nodeHealthByID := fun id hid =>
    hSound.health id ((hSound.orderKeys id).mp hid)
  have hChecked : checkNodeOrder state.nodesByID state.nodeOrder [] state.nodeHealthByID =
      .ok state.nodeHealthByID :=
    checkNodeOrder_of_known hSound.orderNodup (fun _ _ => List.not_mem_nil)
      (fun id hid => (hSound.orderKeys id).mp hid) hHealth
  have hFilled : state.nodesByID.keys.foldl (fun health id => health.insertIfNew id .alive)
      state.nodeHealthByID = state.nodeHealthByID :=
    fillHealth_of_known fun id hid => hSound.health id (Std.ExtTreeMap.mem_keys.mp hid)
  refine bind_eq_ok.mpr ⟨(), hConfig, ?_⟩
  rw [if_neg (not_not.mpr hSound.count)]
  dsimp only
  rw [hOrder, hChecked]
  refine bind_eq_ok.mpr ⟨_, rfl, bind_eq_ok.mpr ⟨(), checkChainNodes_of_known hKnown, ?_⟩⟩
  rw [hFilled, renumberChains_of_slots hSound.slot, filter_marks hTidy.ready,
    filter_marks hTidy.draining]

/-! ## Reachable states are tidy -/

theorem marks_insert (h : ∀ (id : String) (mark : Bool), marks[id]? = some mark → mark = true)
    (nodeID id : String) (mark : Bool) (hMark : (marks.insert nodeID true)[id]? = some mark) :
    mark = true := by
  rw [getElem?_insert_ite] at hMark
  split at hMark
  · injection hMark with hMark
    exact hMark.symm
  · exact h id mark hMark

theorem marks_erase (h : ∀ (id : String) (mark : Bool), marks[id]? = some mark → mark = true)
    (nodeID id : String) (mark : Bool) (hMark : (marks.erase nodeID)[id]? = some mark) :
    mark = true := by
  rw [getElem?_erase_ite] at hMark
  split at hMark
  · cases hMark
  · exact h id mark hMark

theorem Tidy.of_tables {later : ClusterState} (h : Tidy state)
    (hTables : later = { state with chains := later.chains }) : Tidy later := by
  rw [hTables]
  exact ⟨h.slots, h.ready, h.draining⟩

variable {updated : ClusterState} {event : Event}

theorem Tidy.addNode (h : Tidy state) {node : Node} {ready : Bool}
    (hRun : addNode state node ready = .ok updated) : Tidy updated := by
  obtain ⟨normalized, -, hRun⟩ := bind_eq_ok.mp hRun
  dsimp only at hRun
  split at hRun
  · rw [ite_error_eq_ok, ite_error_eq_ok] at hRun
    obtain ⟨-, -, hRun⟩ := hRun
    split at hRun
    · cases hRun
      exact ⟨h.slots, marks_insert h.ready _, h.draining⟩
    · cases hRun
      exact h
  · cases hRun
    refine ⟨h.slots, ?_, marks_erase h.draining _⟩
    dsimp only
    split
    · exact marks_insert h.ready _
    · exact marks_erase h.ready _

theorem Tidy.applyProgressEvent (h : Tidy state)
    (hRun : applyProgressEvent state event = .ok updated) : Tidy updated := by
  obtain ⟨-, index, replica, -, -, hCase⟩ := applyProgressEvent_cases hRun
  rcases hCase with ⟨-, -, rfl⟩ | ⟨-, -, rfl⟩
  · exact ⟨h.slots, h.ready, h.draining⟩
  · unfold removeReplica
    dsimp only
    split
    · exact ⟨h.slots, h.ready, marks_erase h.draining _⟩
    · exact ⟨h.slots, h.ready, h.draining⟩

theorem Tidy.applyEvent (h : Tidy state) (hRun : applyEvent state event = .ok updated) :
    Tidy updated := by
  unfold Coordinator.applyEvent at hRun
  split at hRun
  · exact h.addNode hRun
  · exact h.addNode hRun
  · rw [beginDrainNode, ite_error_eq_ok, ite_error_eq_ok, ite_error_eq_ok] at hRun
    obtain ⟨-, -, -, hRun⟩ := hRun
    cases hRun
    exact ⟨h.slots, h.ready, marks_insert h.draining _⟩
  · rw [markNodeDead, ite_error_eq_ok, ite_error_eq_ok] at hRun
    obtain ⟨-, -, hRun⟩ := hRun
    cases hRun
    exact ⟨h.slots, marks_erase h.ready _, marks_erase h.draining _⟩
  · exact h.applyProgressEvent hRun
  · exact h.applyProgressEvent hRun
  · cases hRun

theorem Tidy.reconcileEvents {policy : ReconfigurationPolicy} {events : List Event}
    {later : ClusterState} {plans : List SlotPlan} (hSound : Sound state) (h : Tidy state)
    (hRun : reconcileEvents policy events state = .ok (later, plans)) : Tidy later := by
  induction events generalizing state plans with
  | nil =>
    cases hRun
    exact h
  | cons event rest ih =>
    obtain ⟨applied, hApply, hRun⟩ := bind_eq_ok.mp hRun
    obtain ⟨⟨reconciled, slotPlans⟩, hReconcile, hRun⟩ := bind_eq_ok.mp hRun
    obtain ⟨⟨last, more⟩, hRest, hRun⟩ := bind_eq_ok.mp hRun
    cases hRun
    have hApply := ok_of_mapError hApply
    obtain ⟨hReconciled, hEvolves, -⟩ :=
      reconcileState_ok (applyEvent_sound hSound hApply) (ok_of_mapError hReconcile)
    exact ih hReconciled ((h.applyEvent hApply).of_tables hEvolves.tables) hRest

theorem buildInitialPlacement_tidy {cfg : Config} {nodes : List Node}
    (h : buildInitialPlacement cfg nodes = .ok state) : Tidy state := by
  obtain ⟨_, hCfg, h⟩ := bind_eq_ok.mp h
  have hSlots := (validateConfig_ok (ok_of_mapError hCfg)).1
  have hNone : ∀ (id : String) (mark : Bool),
      (∅ : Std.ExtTreeMap String Bool)[id]? = some mark → mark = true := by
    intro id mark hMark
    simp at hMark
  split at h
  · cases h
    exact ⟨hSlots, hNone, hNone⟩
  obtain ⟨normalized, -, h⟩ := bind_eq_ok.mp h
  rw [ite_error_eq_ok] at h
  obtain ⟨chains, -, h⟩ := bind_eq_ok.mp h.2
  cases h
  refine ⟨hSlots, ?_, hNone⟩
  intro id mark hMark
  rw [steadyPlacement, getElem?_foldl_insert] at hMark
  split at hMark
  · injection hMark with hMark
    exact hMark.symm
  · exact hNone id mark hMark

theorem Reachable.tidy (h : Reachable state) : Tidy state := by
  induction h with
  | initial h => exact buildInitialPlacement_tidy h
  | plan hReachable h ih =>
    obtain ⟨-, working, hClone, hRun⟩ := planReconfiguration_eq_ok h
    have hSound := hReachable.sound.1
    rw [cloneAndValidateState_of_tidy hSound ih] at hClone
    cases hClone
    unfold reconcileAll at hRun
    split at hRun
    · obtain ⟨-, hEvolves, -⟩ := reconcileState_ok hSound (ok_of_mapError hRun)
      exact ih.of_tables hEvolves.tables
    · exact ih.reconcileEvents hSound hRun
  | progress hReachable h ih =>
    obtain ⟨working, hClone, h⟩ := bind_eq_ok.mp h
    rw [ite_error_eq_ok] at h
    have hClone := ok_of_mapError hClone
    rw [cloneAndValidateState_of_tidy hReachable.sound.1 ih] at hClone
    cases hClone
    exact ih.applyProgressEvent (ok_of_mapError h.2)

/-- The planner accepts every reachable state and works on it as it is. -/
theorem Reachable.copy (h : Reachable state) : cloneAndValidateState state = .ok state :=
  cloneAndValidateState_of_tidy h.sound.1 h.tidy

theorem Reachable.planReconfiguration_ok (hReachable : Reachable state) {events : List Event}
    {policy : ReconfigurationPolicy} {plan : ReconfigurationPlan}
    (h : planReconfiguration state events policy = .ok plan) :
    0 ≤ policy.maxChangedChains ∧
      reconcileAll policy events state = .ok (plan.updatedState, plan.changedSlots) := by
  obtain ⟨hPolicy, working, hClone, hRun⟩ := planReconfiguration_eq_ok h
  rw [hReachable.copy] at hClone
  cases hClone
  exact ⟨hPolicy, hRun⟩

theorem Reachable.applyProgress_ok (hReachable : Reachable state)
    (h : applyProgress state event = .ok updated) :
    applyProgressEvent state event = .ok updated := by
  rw [applyProgress, hReachable.copy] at h
  obtain ⟨working, hWorking, h⟩ := bind_eq_ok.mp h
  cases hWorking
  rw [ite_error_eq_ok] at h
  exact ok_of_mapError h.2

end Craq.Coordinator
