import Craq.Coordinator.Runs

/-! # Failure domains along a run

Dead repair and drain replacement check a candidate against the whole chain, and a missing replica
is taken from a placement whose chains keep the failure domains apart.  Join rebalancing checks
neither: the node it brings in stands next to the one it replaces until that one has left.
-/

namespace Craq.Coordinator

open Craq.Lib

/-- Where optional rebalancing is on, no exchange brings a node into the failure domain of the node
it replaces. -/
def ExchangesApart (policy : ReconfigurationPolicy) (state : ClusterState) : Prop :=
  0 < policy.maxChangedChains → ∀ i added removed, Exchange state i added removed →
    hasFailureDomainConflict (nodeOf state.nodesByID added) (nodeOf state.nodesByID removed) = false

theorem Apart.conflict_eq_false {nodesByID : Std.ExtTreeMap String Node} {ids : List String}
    (h : Apart nodesByID ids) {left right : String} (hLeft : left ∈ ids) (hRight : right ∈ ids)
    (hNe : left ≠ right) :
    hasFailureDomainConflict (nodeOf nodesByID left) (nodeOf nodesByID right) = false := by
  rw [Bool.eq_false_iff]
  intro hConflict
  obtain ⟨key, value, hFirst, hSecond⟩ := hasFailureDomainConflict_iff.mp hConflict
  exact h left hLeft right hRight hNe key value hFirst hSecond

theorem oneMemberReplacement_eq_some {current target : List String} {added removed : String}
    (hCurrent : "" ∉ current) (hTarget : "" ∉ target)
    (h : oneMemberReplacement current target = some (added, removed)) :
    added ∈ target ∧ ∀ id ∈ current, id ≠ removed → id ∈ target := by
  refine ⟨(oneMemberReplacement_some hTarget h).1, ?_⟩
  obtain ⟨_, -, hRest⟩ := Option.bind_eq_some_iff.mp h
  obtain ⟨_, hRemoved, hPair⟩ := Option.bind_eq_some_iff.mp hRest
  cases hPair
  intro id hid hNe
  by_contra hOut
  have hMem : id ∈ current.filter (· ∉ target) := List.mem_filter.mpr ⟨hid, by simpa using hOut⟩
  rw [extraNode_some hCurrent hRemoved] at hMem
  exact hNe (List.mem_singleton.mp hMem)

variable {state : ClusterState}

theorem Exchange.apart (hSound : Sound state) {slot : Nat} {added removed : String}
    (h : Exchange state slot added removed) (hApart : Apart state.nodesByID (state.idsAt slot))
    (hPair : hasFailureDomainConflict (nodeOf state.nodesByID added)
      (nodeOf state.nodesByID removed) = false) :
    Apart state.nodesByID (state.idsAt slot ++ [added]) := by
  obtain ⟨hSettled, chains, hAims, hReplacement⟩ := h
  rw [ClusterState.activesAt, activeReplicaIDs_of_settled (by simp [hSettled])] at hReplacement
  obtain ⟨hWanted, hOthers⟩ := oneMemberReplacement_eq_some hSound.named_of_mem
    (fun hMem => hSound.named (buildDesiredPlacement_mem hSound hAims hMem).1) hReplacement
  apply hApart.append
  intro id hid hNe
  by_cases hRemoved : id = removed
  · rwa [hRemoved]
  · exact (aimAt_apart hSound hAims slot).conflict_eq_false hWanted (hOthers id hid hRemoved)
      (Ne.symm hNe)

/-! ## The steps -/

def AllApart (state : ClusterState) : Prop := ∀ i, Apart state.nodesByID (state.idsAt i)

theorem removeReplica_nodesByID (state : ClusterState) (slot index : Nat) (nodeID : String) :
    (removeReplica state slot index nodeID).nodesByID = state.nodesByID := by
  simp only [removeReplica]
  split <;> rfl

variable {updated : ClusterState} {event : Event}

theorem applyProgressEvent_nodesByID (h : applyProgressEvent state event = .ok updated) :
    updated.nodesByID = state.nodesByID := by
  obtain ⟨-, index, replica, -, -, ⟨-, -, rfl⟩ | ⟨-, -, rfl⟩⟩ := applyProgressEvent_cases h
  · rfl
  · exact removeReplica_nodesByID ..

theorem applyEvent_nodesByID (h : applyEvent state event = .ok updated) {id : String}
    (hKnown : id ∈ state.nodesByID) : updated.nodesByID[id]? = state.nodesByID[id]? := by
  have hAdd : ∀ ready, addNode state event.node ready = .ok updated →
      updated.nodesByID[id]? = state.nodesByID[id]? := by
    intro ready hRun
    obtain ⟨normalized, -, hRun⟩ := bind_eq_ok.mp hRun
    dsimp only at hRun
    split at hRun
    · rw [ite_error_eq_ok, ite_error_eq_ok] at hRun
      obtain ⟨-, -, hRun⟩ := hRun
      split at hRun <;> cases hRun <;> rfl
    · rename_i hNew
      cases hRun
      rw [getElem?_insert_ite, if_neg]
      rintro rfl
      rw [Std.ExtTreeMap.mem_iff_isSome_getElem?, hNew] at hKnown
      cases hKnown
  rw [applyEvent] at h
  split at h
  · exact hAdd _ h
  · exact hAdd _ h
  · rw [beginDrainNode, ite_error_eq_ok, ite_error_eq_ok, ite_error_eq_ok] at h
    cases h.2.2.2
    rfl
  · rw [markNodeDead, ite_error_eq_ok, ite_error_eq_ok] at h
    cases h.2.2
    rfl
  · rw [applyProgressEvent_nodesByID h]
  · rw [applyProgressEvent_nodesByID h]
  · cases h

theorem applyEvent_idsAt (hSound : Sound state) (h : applyEvent state event = .ok updated) (i : Nat) :
    updated.idsAt i ⊆ state.idsAt i := by
  rcases applyEvent_ok hSound h with hProgress | ⟨-, hChains, -⟩
  · exact hProgress.ids_subset i
  · rw [ClusterState.idsAt, chainAt_congr hChains]
    exact List.Subset.refl _

theorem AllApart.applyEvent (hSound : Sound state) (h : AllApart state)
    (hRun : applyEvent state event = .ok updated) : AllApart updated := by
  intro i
  have hSubset := applyEvent_idsAt hSound hRun i
  refine ((h i).subset hSubset).congr ?_
  intro id hid
  exact applyEvent_nodesByID hRun (hSound.known i id (hSubset hid))

theorem AllApart.path {policy : ReconfigurationPolicy} {start later : ClusterState}
    {plans : List SlotPlan} (hSound : Sound start) (h : AllApart start)
    (hExchanges : ExchangesApart policy start) (hPath : Path policy start later plans) :
    AllApart later := by
  have hKeeps := hPath.keeps (P := fun _ replicas => Apart start.nodesByID (replicaIDs replicas))
    hSound h ?_
  · intro i
    rw [tables_nodesByID hPath.tables]
    exact hKeeps i
  intro state slot after steps hState hTables _ hSlot _ hDomains
  rcases hDomains with hKeep | ⟨hOptional, added, removed, hExchange, rfl⟩
  · rw [KeepsApart, tables_nodesByID hTables] at hKeep
    exact hKeep hSlot
  · rw [replicaIDs_append]
    exact hExchange.apart hSound (h slot) (hExchanges hOptional slot added removed hExchange)

/-! ## Whole runs -/

/-- Where no exchange brings a node into the failure domain of the node it replaces, no two nodes of
a chain share the value of a failure-domain key. -/
theorem failure_domains_apart {state : ClusterState}
    (h : ReachableWhile (fun _ _ => True) ExchangesApart state) :
    ∀ chain ∈ state.chains, Apart state.nodesByID (replicaIDs chain.replicas) := by
  have hAll : AllApart state := by
    refine h.invariant ?_ ?_ ?_
    · intro state event updated hSound hState _ hRun
      exact hState.applyEvent hSound hRun
    · intro policy start later plans hSound hStart hExchanges hTrace
      exact hStart.path hSound hExchanges (hTrace.path hSound)
    · intro cfg nodes state hBuild i
      exact (buildInitialPlacement_clean hBuild i).apart
  intro chain hChain
  obtain ⟨i, rfl⟩ := exists_chainAt hChain
  exact hAll i

/-! ### A second node joins

The node `a` holds both slots alone when `b` is added and join rebalancing gives it the second. -/

def lonePlacement : ClusterState :=
  (buildInitialPlacement ⟨2, 1⟩ [inRack "a" "r1"]).toOption.getD (emptyPlacement ⟨2, 1⟩)

theorem lonePlacement_ok :
    buildInitialPlacement ⟨2, 1⟩ [inRack "a" "r1"] = .ok lonePlacement :=
  eq_ok_getD _ (by decide +kernel)

def arrival (rack : String) : Event := ⟨.addNode, inRack "b" rack, "", 0⟩

def arrived (rack : String) : ClusterState :=
  (applyEvent lonePlacement (arrival rack)).toOption.getD lonePlacement

theorem exchangesApart_other_rack : ExchangesApart ⟨1⟩ (arrived "r2") := by
  rintro - i added removed ⟨-, chains, hAims, hReplacement⟩
  have hChains : buildDesiredPlacementFromState (arrived "r2") =
      .ok (some [⟨0, [⟨"a", .active⟩]⟩, ⟨1, [⟨"b", .active⟩]⟩]) := by decide +kernel
  rw [hChains] at hAims
  cases hAims
  match i with
  | 0 =>
    have hSame : oneMemberReplacement ((arrived "r2").activesAt 0)
        (aimAt [⟨0, [⟨"a", .active⟩]⟩, ⟨1, [⟨"b", .active⟩]⟩] 0) = none := by decide +kernel
    rw [hSame] at hReplacement
    cases hReplacement
  | 1 =>
    have hPair : oneMemberReplacement ((arrived "r2").activesAt 1)
        (aimAt [⟨0, [⟨"a", .active⟩]⟩, ⟨1, [⟨"b", .active⟩]⟩] 1) = some ("b", "a") := by
      decide +kernel
    rw [hPair] at hReplacement
    cases hReplacement
    decide +kernel
  | i + 2 => simp [oneMemberReplacement, aimAt, desiredAt, extraNode, extraNodeFrom, replicaIDs]
      at hReplacement

/-- From another rack, `b` joins behind `a`. -/
theorem other_rack_apart :
    ∃ plan, planReconfiguration lonePlacement [arrival "r2"] ⟨1⟩ = .ok plan ∧
      (plan.updatedState.chainAt 1).replicas = [⟨"a", .active⟩, ⟨"b", .joining⟩] ∧
      ∀ chain ∈ plan.updatedState.chains,
        Apart plan.updatedState.nodesByID (replicaIDs chain.replicas) := by
  have hPass : PlanPasses (fun _ _ => True) ExchangesApart ⟨1⟩ [arrival "r2"] lonePlacement := by
    rw [PlanPasses, if_neg (by decide)]
    refine ⟨trivial, fun applied hApplied => ⟨?_, fun _ _ _ => trivial⟩⟩
    rw [eq_ok_getD (x := applyEvent lonePlacement (arrival "r2")) lonePlacement
      (by decide +kernel)] at hApplied
    cases hApplied
    exact exchangesApart_other_rack
  have hPlan := eq_ok_getD (x := planReconfiguration lonePlacement [arrival "r2"] ⟨1⟩)
    ⟨lonePlacement, [], []⟩ (by decide +kernel)
  exact ⟨_, hPlan, by decide +kernel,
    failure_domains_apart (.plan (.initial lonePlacement_ok) hPass hPlan)⟩

/-- From the rack of `a`, `b` joins behind `a` as well. -/
theorem same_rack_together :
    ¬∀ state, Reachable state →
      ∀ chain ∈ state.chains, Apart state.nodesByID (replicaIDs chain.replicas) := by
  intro hAll
  have hPlan := eq_ok_getD (x := planReconfiguration lonePlacement [arrival "r1"] ⟨1⟩)
    ⟨lonePlacement, [], []⟩ (by decide +kernel)
  have hApart := hAll _ (.plan (.initial lonePlacement_ok) hPlan)
    ⟨1, [⟨"a", .active⟩, ⟨"b", .joining⟩]⟩ (by decide +kernel)
  exact hApart "a" (by decide) "b" (by decide) (by decide) "rack" "r1" (by decide +kernel)
    (by decide +kernel)

end Craq.Coordinator
