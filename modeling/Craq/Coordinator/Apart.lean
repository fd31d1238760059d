import Craq.Coordinator.PlacementFacts
import Craq.Lib.Map

/-! # Failure domains within a chain

Two nodes conflict when they give some failure-domain key the same value.  The greedy construction
only takes nodes that conflict with none of the chain, so the chains of a placement are free of
conflicts.
-/

namespace Craq.Coordinator

open Craq.Lib

def nodeOf (nodesByID : Std.ExtTreeMap String Node) (nodeID : String) : Node :=
  nodesByID[nodeID]?.getD zeroNode

/-- No two of the nodes share the value of a failure-domain key. -/
def Apart (nodesByID : Std.ExtTreeMap String Node) (ids : List String) : Prop :=
  ∀ left ∈ ids, ∀ right ∈ ids, left ≠ right → ∀ key value : String,
    (nodeOf nodesByID left).failureDomains[key]? = some value →
      (nodeOf nodesByID right).failureDomains[key]? ≠ some value

theorem hasFailureDomainConflict_iff {candidate existing : Node} :
    hasFailureDomainConflict candidate existing = true ↔
      ∃ key value : String, candidate.failureDomains[key]? = some value ∧
        existing.failureDomains[key]? = some value := by
  simp only [hasFailureDomainConflict, List.any_eq_true, decide_eq_true_eq, Prod.exists,
    Std.ExtTreeMap.mem_toList_iff_getElem?_eq_some]

theorem apart_nil (nodesByID : Std.ExtTreeMap String Node) : Apart nodesByID [] := by
  intro left hLeft
  cases hLeft

variable {nodesByID : Std.ExtTreeMap String Node} {ids : List String} {chain : Chain}

theorem Apart.subset {other : List String} (h : Apart nodesByID ids) (hSubset : other ⊆ ids) :
    Apart nodesByID other :=
  fun left hLeft right hRight => h left (hSubset hLeft) right (hSubset hRight)

theorem Apart.congr {other : Std.ExtTreeMap String Node} (h : Apart nodesByID ids)
    (hSame : ∀ id ∈ ids, other[id]? = nodesByID[id]?) : Apart other ids := by
  intro left hLeft right hRight
  rw [nodeOf, nodeOf, hSame left hLeft, hSame right hRight]
  exact h left hLeft right hRight

theorem Apart.append {nodeID : String} (h : Apart nodesByID ids)
    (hNew : ∀ id ∈ ids, id ≠ nodeID →
      hasFailureDomainConflict (nodeOf nodesByID nodeID) (nodeOf nodesByID id) = false) :
    Apart nodesByID (ids ++ [nodeID]) := by
  have hNone : ∀ id ∈ ids, id ≠ nodeID → ∀ key value : String,
      (nodeOf nodesByID nodeID).failureDomains[key]? = some value →
        (nodeOf nodesByID id).failureDomains[key]? ≠ some value := by
    intro id hid hNe key value hKey hSame
    have hConflict := hasFailureDomainConflict_iff.mpr ⟨key, value, hKey, hSame⟩
    rw [hNew id hid hNe] at hConflict
    cases hConflict
  intro left hLeft right hRight hNe key value hKey
  rw [List.mem_append, List.mem_singleton] at hLeft hRight
  rcases hLeft with hLeft | rfl <;> rcases hRight with hRight | rfl
  · exact h left hLeft right hRight hNe key value hKey
  · exact fun hSame => hNone left hLeft hNe key value hSame hKey
  · exact hNone right hRight (Ne.symm hNe) key value hKey
  · exact absurd rfl hNe

def Tabled (nodesByID : Std.ExtTreeMap String Node) (nodes : List Node) : Prop :=
  ∀ node ∈ nodes, nodesByID[node.id]? = some node

theorem Apart.append_eligible {candidate : Node} (h : Apart nodesByID (replicaIDs chain.replicas))
    (hTable : nodesByID[candidate.id]? = some candidate)
    (hEligible : isEligible candidate chain nodesByID = true) :
    Apart nodesByID (replicaIDs chain.replicas ++ [candidate.id]) := by
  apply h.append
  intro id hid _
  obtain ⟨replica, hReplica, rfl⟩ := mem_replicaIDs.mp hid
  have hAll := List.all_eq_true.mp hEligible replica hReplica
  simp only [Bool.and_eq_true, Bool.not_eq_true'] at hAll
  rw [nodeOf, nodeOf, hTable]
  exact hAll.2

/-! ## The steady-state construction -/

/-- What the construction says of a chain besides its nodes being distinct. -/
structure Clean (nodesByID : Std.ExtTreeMap String Node) (chain : Chain) : Prop where
  active : ∀ replica ∈ chain.replicas, replica.state = .active
  apart : Apart nodesByID (replicaIDs chain.replicas)

variable {nodes : List Node}

theorem fillChain_clean (hTabled : Tabled nodesByID nodes) {slot missing position : Nat}
    {filled : Chain} {counts : Counts} (hChain : Clean nodesByID chain)
    (h : fillChain nodes nodesByID slot missing position chain counts = .ok filled) :
    Clean nodesByID filled := by
  induction missing generalizing position chain counts with
  | zero =>
    cases h
    exact hChain
  | succ missing ih =>
    rw [fillChain] at h
    split at h
    · cases h
    · rename_i candidate hCandidate
      obtain ⟨hMem, hEligible⟩ := selectReplicaCandidate_some hCandidate
      have hAppend := appendReplicaWithState_chain chain candidate.id .active counts
      generalize appendReplicaWithState chain candidate.id .active counts = appended at h hAppend
      obtain ⟨appendedChain, appendedCounts⟩ := appended
      subst hAppend
      refine ih ⟨?_, ?_⟩ h
      · intro replica hReplica
        rcases List.mem_append.mp hReplica with hOld | hNew
        · exact hChain.active replica hOld
        · rw [List.mem_singleton.mp hNew]
      · rw [replicaIDs_append]
        exact hChain.apart.append_eligible (hTabled candidate hMem) hEligible

theorem rebalanceSteadyStateChain_clean {slot : Nat} (h : Clean nodesByID chain) :
    Clean nodesByID (rebalanceSteadyStateChain slot chain) := by
  refine ⟨?_, h.apart.subset (rebalanceSteadyStateChain_perm slot chain).subset⟩
  rw [rebalanceSteadyStateChain]
  split
  · exact h.active
  · intro replica hReplica
    obtain ⟨nodeID, -, rfl⟩ := List.mem_map.mp hReplica
    rfl

theorem buildChainsFrom_clean {replicationFactor : Nat} (hTabled : Tabled nodesByID nodes)
    {slots : List Nat} {counts : Counts} {chains built : List Chain}
    (hChains : ∀ chain ∈ chains, Clean nodesByID chain)
    (h : buildChainsFrom replicationFactor nodes nodesByID slots counts chains = .ok built) :
    ∀ chain ∈ built, Clean nodesByID chain := by
  induction slots generalizing counts chains with
  | nil =>
    cases h
    exact hChains
  | cons slot rest ih =>
    rw [buildChainsFrom] at h
    obtain ⟨tentative, hFill, h⟩ := bind_eq_ok.mp h
    have hEmpty : Clean nodesByID ⟨slot, []⟩ := ⟨by simp, apart_nil nodesByID⟩
    have hTentative := fillChain_clean hTabled hEmpty hFill
    refine ih ?_ h
    intro chain hChain
    rcases List.mem_append.mp hChain with hOld | hNew
    · exact hChains chain hOld
    · rw [List.mem_singleton.mp hNew]
      split
      · exact rebalanceSteadyStateChain_clean hTentative
      · exact hTentative

theorem buildSteadyStateChains_clean {slotCount replicationFactor : Int} {chains : List Chain}
    (hTabled : Tabled nodesByID nodes)
    (h : buildSteadyStateChains slotCount replicationFactor nodes nodesByID = .ok chains) :
    ∀ chain ∈ chains, Clean nodesByID chain :=
  buildChainsFrom_clean hTabled (by simp) h

/-! ## Tables -/

def tableNodes (table : Std.ExtTreeMap String Node) (nodes : List Node) :
    Std.ExtTreeMap String Node :=
  nodes.foldl (fun table node => table.insert node.id node) table

theorem tableNodes_getElem? (hNodup : (nodes.map (·.id)).Nodup) (table : Std.ExtTreeMap String Node) :
    Tabled (tableNodes table nodes) nodes ∧
      ∀ id, id ∉ nodes.map (·.id) → (tableNodes table nodes)[id]? = table[id]? := by
  induction nodes generalizing table with
  | nil => exact ⟨by simp [Tabled], fun _ _ => rfl⟩
  | cons node rest ih =>
    obtain ⟨hFresh, hRest⟩ := List.nodup_cons.mp hNodup
    obtain ⟨hTabled, hOthers⟩ := ih hRest (table.insert node.id node)
    refine ⟨?_, ?_⟩
    · rintro other (_ | ⟨_, hOther⟩)
      · rw [tableNodes, List.foldl_cons]
        exact (hOthers node.id hFresh).trans (by rw [getElem?_insert_ite, if_pos rfl])
      · exact hTabled other hOther
    · intro id hid
      rw [List.map_cons, List.mem_cons, not_or] at hid
      rw [tableNodes, List.foldl_cons]
      exact (hOthers id hid.2).trans (by rw [getElem?_insert_ite, if_neg (Ne.symm hid.1)])

end Craq.Coordinator
