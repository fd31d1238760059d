import Craq.Coordinator.Apart
import Craq.Coordinator.Passes

/-! # What each pass does to a chain

A pass leaves the state alone, or it edits the chain of its slot and records that in a plan.  There is
one description for the edit of each pass, with all that the pass has checked before it, and what a
reconcile preserves is proved from these descriptions.
-/

namespace Craq.Coordinator

open Craq.Lib

/-! ## Nodes that join -/

def ClusterState.survivors (state : ClusterState) (slot : Nat) : List Replica :=
  (state.chainAt slot).replicas.filter fun replica => !state.isDead replica.nodeID

def joiners (ids : List String) : List Replica := ids.map (⟨·, .joining⟩)

/-- The nodes may join the replicas: they are placeable, and none of them is there already. -/
structure Joins (state : ClusterState) (replicas : List Replica) (added : List String) : Prop where
  known : ∀ id ∈ added, id ∈ state.nodesByID
  placeable : ∀ id ∈ added, state.placeable id = true
  nodup : (replicaIDs replicas).Nodup → (replicaIDs replicas ++ added).Nodup

theorem replicaIDs_joiners (ids : List String) : replicaIDs (joiners ids) = ids :=
  replicaIDs_map_mk ids .joining

theorem replicaIDs_retired (kept left : List String) :
    replicaIDs (kept.map (⟨·, .active⟩) ++ left.map (⟨·, .leaving⟩)) = kept ++ left := by
  rw [replicaIDs_append, replicaIDs_map_mk, replicaIDs_map_mk]

theorem survivors_sublist (state : ClusterState) (slot : Nat) :
    (replicaIDs (state.survivors slot)).Sublist (state.idsAt slot) :=
  List.filter_sublist.map _

section Joining

variable {state : ClusterState} {slot : Nat}

theorem selected_joins (hSound : Sound state) {other : ClusterState}
    (hTables : other = { state with chains := other.chains }) {chain : Chain} {candidate : Node}
    (h : selectTailRepairCandidate other chain = some candidate) :
    Joins state chain.replicas [candidate.id] ∧
      (Apart state.nodesByID (replicaIDs chain.replicas) →
        Apart state.nodesByID (replicaIDs chain.replicas ++ [candidate.id])) := by
  obtain ⟨hMem, hEligible⟩ := selectReplicaCandidate_some h
  have hNodes : orderedNodes other other.placeable = orderedNodes state state.placeable := by
    rw [hTables]
    rfl
  rw [hNodes] at hMem
  rw [tables_nodesByID hTables] at hEligible
  obtain ⟨hKnown, hPlaceable⟩ := mem_orderedNodes hMem hSound
  refine ⟨⟨by simpa using hKnown, by simpa using hPlaceable, ?_⟩, ?_⟩
  · intro hNodup
    exact List.nodup_append_comm.mp
      (List.nodup_cons.mpr ⟨isEligible_not_mem hEligible, hNodup⟩)
  · intro hApart
    exact hApart.append_eligible (orderedNodes_getElem? hSound hMem) hEligible

theorem Joins.append {replicas : List Replica} {nodeID : String} {added : List String}
    (h : Joins state replicas [nodeID]) (h' : Joins state (replicas ++ [⟨nodeID, .joining⟩]) added) :
    Joins state replicas (nodeID :: added) where
  known := List.forall_mem_cons.mpr ⟨h.known nodeID (by simp), h'.known⟩
  placeable := List.forall_mem_cons.mpr ⟨h.placeable nodeID (by simp), h'.placeable⟩
  nodup hNodup := by
    have hBoth := h'.nodup (by rw [replicaIDs_append]; exact h.nodup hNodup)
    rw [replicaIDs_append, List.append_assoc] at hBoth
    exact hBoth

theorem appendRepairs_joins (hSound : Sound state) (missing : Nat) {other : ClusterState}
    (hTables : other = { state with chains := other.chains })
    (hSlot : slot < other.chains.length) (steps : List ReconfigurationStep) :
    ∃ added, Joins state (other.chainAt slot).replicas added ∧
      (Apart state.nodesByID (other.idsAt slot) →
        Apart state.nodesByID (other.idsAt slot ++ added)) ∧
      added.length ≤ missing ∧
      appendRepairs slot missing other steps =
        (other.setReplicas slot ((other.chainAt slot).replicas ++ joiners added),
          steps ++ added.map (⟨.appendTail, slot, ·, ""⟩)) := by
  have hNone : Joins state (other.chainAt slot).replicas [] := ⟨by simp, by simp, by simp⟩
  induction missing generalizing other steps with
  | zero =>
    exact ⟨[], hNone, by simp, le_rfl, by simp [appendRepairs, joiners, setReplicas_self]⟩
  | succ missing ih =>
    rw [appendRepairs]
    split
    · exact ⟨[], hNone, by simp, Nat.zero_le _, by simp [joiners, setReplicas_self]⟩
    · rename_i candidate hCandidate
      obtain ⟨hJoin, hApart⟩ := selected_joins hSound hTables hCandidate
      generalize hNext : other.setReplicas slot
        ((other.chainAt slot).replicas ++ [⟨candidate.id, .joining⟩]) = next
      have hReplicas : (next.chainAt slot).replicas =
          (other.chainAt slot).replicas ++ [⟨candidate.id, .joining⟩] := by
        rw [← hNext, setReplicas_chainAt_self _ _ _ hSlot]
      have hNextTables : next = { state with chains := next.chains } := by
        rw [← hNext, ClusterState.setReplicas, hTables]
      obtain ⟨added, hJoins, hKeeps, hLength, hRun⟩ := ih hNextTables
        (by rwa [← hNext, setReplicas_length])
        (steps ++ [⟨.appendTail, slot, candidate.id, ""⟩]) ⟨by simp, by simp, by simp⟩
      rw [ClusterState.idsAt, hReplicas, replicaIDs_append, List.append_assoc] at hKeeps
      refine ⟨candidate.id :: added, hJoin.append (hReplicas ▸ hJoins), ?_, ?_, ?_⟩
      · intro hOld
        exact hKeeps (hApart hOld)
      · simpa using hLength
      · rw [hRun, hReplicas, ← hNext, setReplicas_setReplicas]
        simp [joiners]

theorem Joins.single {replicas : List Replica} {nodeID : String}
    (h : nodeID ∈ state.nodesByID ∧ state.placeable nodeID = true)
    (hFresh : nodeID ∉ replicaIDs replicas) : Joins state replicas [nodeID] where
  known := by simpa using h.1
  placeable := by simpa using h.2
  nodup hNodup := List.nodup_append_comm.mp (List.nodup_cons.mpr ⟨hFresh, hNodup⟩)

theorem aimAt_apart (hSound : Sound state) {chains : List Chain}
    (h : buildDesiredPlacementFromState state = .ok (some chains)) (slot : Nat) :
    Apart state.nodesByID (aimAt chains slot) := by
  by_cases hBound : slot < chains.length
  · have hMem : desiredAt chains slot ∈ chains := by simp [desiredAt, hBound]
    obtain ⟨hPlaced, -⟩ := buildDesiredPlacement_placed h
    simp only [buildDesiredPlacementFromState] at h
    split at h
    · cases h
    obtain ⟨built, hBuilt, hSome⟩ := bind_eq_ok.mp h
    cases hSome
    obtain ⟨hTabled, -⟩ := tableNodes_getElem? (orderedNodes_nodup hSound state.placeable) ∅
    refine ((buildSteadyStateChains_clean hTabled hBuilt) _ hMem).apart.congr ?_
    intro id hid
    obtain ⟨node, hNode, rfl⟩ := (hPlaced.drawn _ hMem).member id hid
    exact (orderedNodes_getElem? hSound hNode).trans (hTabled node hNode).symm
  · simp [aimAt, desiredAt, hBound, replicaIDs, apart_nil]

end Joining

/-! ## Edits -/

/-- The passes, in the order in which a reconcile runs them. -/
inductive Pass where
  | repair | drain | join | fill | replace | exchange

/-- What a pass does at a slot to which the placement gives the chain `aim`: the new replicas and the
steps that say so. -/
inductive Edit (state : ClusterState) (slot : Nat) (aim : List String) :
    Pass → List Replica → List ReconfigurationStep → Prop where
  | repaired {added : List String}
      (dead : chainContainsDeadReplica state (state.chainAt slot) = true)
      (anchored : (state.survivors slot).countP (·.state = .active) ≠ 0)
      (joins : Joins state (state.survivors slot) added)
      (apart : Apart state.nodesByID (replicaIDs (state.survivors slot)) →
        Apart state.nodesByID (replicaIDs (state.survivors slot) ++ added))
      (room : added.length ≤ state.replicationFactor.toNat - (state.survivors slot).length) :
      Edit state slot aim .repair (state.survivors slot ++ joiners added)
        (added.map (⟨.appendTail, slot, ·, ""⟩))
  | drained (joinless : hasJoiningReplica (state.chainAt slot) = false)
      (draining : activeReplicaIDsWithDrain state (state.chainAt slot) ≠ [])
      (full : ((activeReplicaIDsExcludingDraining state (state.chainAt slot)).length : Int) =
        state.replicationFactor) :
      Edit state slot aim .drain
        ((activeReplicaIDsExcludingDraining state (state.chainAt slot)).map (⟨·, .active⟩) ++
          (activeReplicaIDsWithDrain state (state.chainAt slot)).map (⟨·, .leaving⟩))
        ((activeReplicaIDsWithDrain state (state.chainAt slot)).map (⟨.markLeaving, slot, ·, ""⟩))
  | joined {extra : String} (settled : hasPendingReplicaState (state.chainAt slot) = false)
      (steady : firstActiveDrainingReplicaID state (state.chainAt slot) = "")
      (spare : ((state.activesAt slot).length : Int) = state.replicationFactor + 1)
      (found : extraNode (state.activesAt slot) aim = some extra) :
      Edit state slot aim .join (aim.map (⟨·, .active⟩) ++ [extra].map (⟨·, .leaving⟩))
        ([extra].map (⟨.markLeaving, slot, ·, ""⟩))
  | filled {nodeID replaced : String} (settled : hasPendingReplicaState (state.chainAt slot) = false)
      (short : ((state.chainAt slot).replicas.length : Int) < state.replicationFactor)
      (begins : state.idsAt slot <+: aim) (wanted : nodeID ∈ aim)
      (fresh : nodeID ∉ state.idsAt slot) :
      Edit state slot aim .fill ((state.chainAt slot).replicas ++ [⟨nodeID, .joining⟩])
        [⟨.appendTail, slot, nodeID, replaced⟩]
  | replaced {candidate : Node} {replaced : String}
      (settled : hasPendingReplicaState (state.chainAt slot) = false)
      (draining : firstActiveDrainingReplicaID state (state.chainAt slot) ≠ "")
      (selected : selectTailRepairCandidate state (state.chainAt slot) = some candidate) :
      Edit state slot aim .replace ((state.chainAt slot).replicas ++ [⟨candidate.id, .joining⟩])
        [⟨.appendTail, slot, candidate.id, replaced⟩]
  | exchanged {added removed : String}
      (settled : hasPendingReplicaState (state.chainAt slot) = false)
      (steady : firstActiveDrainingReplicaID state (state.chainAt slot) = "")
      (full : ((state.activesAt slot).length : Int) = state.replicationFactor)
      (replacement : oneMemberReplacement (state.activesAt slot) aim = some (added, removed)) :
      Edit state slot aim .exchange ((state.chainAt slot).replicas ++ [⟨added, .joining⟩])
        [⟨.appendTail, slot, added, removed⟩]

/-- A visit of a slot leaves the state alone or makes one edit and records it. -/
def Edits (state : ClusterState) (slot : Nat) (aim : List String) (pass : Pass)
    (result : PassResult) : Prop :=
  result = (state, none) ∨ ∃ after steps, result = changeChain state slot after steps ∧
    Edit state slot aim pass after steps

section Passes

variable {state : ClusterState} {slot : Nat}

theorem Edits.eq_of_none {aim : List String} {pass : Pass} {updated : ClusterState}
    (h : Edits state slot aim pass (updated, none)) : updated = state := by
  rcases h with hNone | ⟨after, steps, hMade, -⟩
  · cases hNone
    rfl
  · cases hMade

theorem alive_of_repaired {added : List String} (h : Joins state (state.survivors slot) added) :
    ∀ id ∈ replicaIDs (state.survivors slot ++ joiners added), state.isDead id = false := by
  intro id hid
  rw [replicaIDs_append, replicaIDs_joiners] at hid
  rcases List.mem_append.mp hid with hKept | hAdded
  · obtain ⟨replica, hReplica, rfl⟩ := mem_replicaIDs.mp hKept
    simpa using (List.mem_filter.mp hReplica).2
  · exact isDead_of_isAlive (placeable_isAlive (h.placeable id hAdded))

variable {result : PassResult}

theorem repairDeadReplicas_edits (hSound : Sound state) (hSlot : slot < state.chains.length)
    (aim : List String) (h : repairDeadReplicas state slot = .ok result) :
    (result = (state, none) ∧ chainContainsDeadReplica state (state.chainAt slot) = false) ∨
      ∃ after steps, result = changeChain state slot after steps ∧
        Edit state slot aim .repair after steps := by
  simp only [repairDeadReplicas] at h
  split at h
  · rename_i hAlive
    cases h
    exact .inl ⟨rfl, by simpa using hAlive⟩
  rename_i hDead
  rw [Bool.not_eq_true', Bool.not_eq_false] at hDead
  rw [ite_error_eq_ok] at h
  obtain ⟨hAnchored, h⟩ := h
  have hTables : state.setReplicas slot (state.survivors slot) =
      { state with chains := (state.setReplicas slot (state.survivors slot)).chains } := rfl
  obtain ⟨added, hJoins, hApart, hLength, hRun⟩ := appendRepairs_joins hSound
    (state.replicationFactor.toNat - (state.survivors slot).length) hTables
    (by rwa [setReplicas_length]) []
  rw [ClusterState.idsAt, setReplicas_chainAt_self _ _ _ hSlot] at hApart
  rw [setReplicas_chainAt_self _ _ _ hSlot] at hJoins hRun
  rw [setReplicas_setReplicas, List.nil_append] at hRun
  rw [ClusterState.survivors] at hRun
  rw [hRun] at h
  split at h
  · rename_i hSame
    rw [setReplicas_chainAt_self _ _ _ hSlot] at hSame
    obtain ⟨replica, hReplica, hFound⟩ := List.any_eq_true.mp hDead
    have hReplicas := congrArg Chain.replicas hSame
    dsimp only at hReplicas
    rw [hReplicas] at hReplica
    rw [alive_of_repaired hJoins _ (mem_replicaIDs.mpr ⟨replica, hReplica, rfl⟩)] at hFound
    cases hFound
  · cases h
    exact .inr ⟨_, _, rfl, .repaired hDead hAnchored hJoins hApart hLength⟩

theorem finalizeDrainReplacement_edits (state : ClusterState) (slot : Nat) (aim : List String) :
    Edits state slot aim .drain (finalizeDrainReplacement state slot) := by
  simp only [finalizeDrainReplacement]
  split
  · exact .inl rfl
  rename_i hJoinless
  split
  · exact .inl rfl
  rename_i hDraining
  split
  · exact .inl rfl
  rename_i hFull
  exact .inr ⟨_, _, rfl, .drained (by simpa using hJoinless) (by simpa using hDraining)
    (not_not.mp hFull)⟩

theorem finalizeJoinRebalance_edits (desired : Chain) (state : ClusterState) (slot : Nat) :
    Edits state slot (replicaIDs desired.replicas) .join
      (finalizeJoinRebalance desired state slot) := by
  simp only [finalizeJoinRebalance]
  split
  · exact .inl rfl
  rename_i hSettled
  split
  · exact .inl rfl
  rename_i hSteady
  split
  · exact .inl rfl
  rename_i hSpare
  split
  · rename_i extra newNode hExtra hNew
    split
    · exact .inl rfl
    exact .inr ⟨_, _, rfl, .joined (Bool.not_eq_true _ ▸ hSettled) (not_not.mp hSteady)
      (not_not.mp hSpare) hExtra⟩
  · exact .inl rfl

theorem appendMissingDesiredReplicas_edits (desired : Chain) (state : ClusterState) (slot : Nat) :
    Edits state slot (replicaIDs desired.replicas) .fill
      (appendMissingDesiredReplicas desired state slot) := by
  simp only [appendMissingDesiredReplicas]
  split
  · exact .inl rfl
  rename_i hSettled
  split
  · exact .inl rfl
  rename_i hShort
  split
  · exact .inl rfl
  rename_i hBegins
  split
  · exact .inl rfl
  rename_i nextNodeID hNext
  split
  · exact .inl rfl
  rename_i hOk
  simp only [Bool.not_eq_true', Bool.not_eq_false, List.isPrefixOf_iff_prefix] at hBegins
  exact .inr ⟨_, _, rfl, .filled (Bool.not_eq_true _ ▸ hSettled) (not_le.mp hShort) hBegins
    (List.mem_of_getElem? hNext) (not_or.mp hOk).2⟩

theorem appendDrainReplacement_edits (aim : List String)
    (h : appendDrainReplacement state slot = .ok result) :
    Edits state slot aim .replace result := by
  simp only [appendDrainReplacement] at h
  split at h
  · cases h
    exact .inl rfl
  rename_i hSettled
  split at h
  · cases h
    exact .inl rfl
  rename_i hDraining
  split at h
  · cases h
  rename_i candidate hCandidate
  cases h
  exact .inr ⟨_, _, rfl, .replaced (Bool.not_eq_true _ ▸ hSettled) hDraining hCandidate⟩

theorem appendJoinRebalance_edits {desired : Chain}
    (h : appendJoinRebalance desired state slot = .ok result) :
    Edits state slot (replicaIDs desired.replicas) .exchange result := by
  simp only [appendJoinRebalance] at h
  split at h
  · cases h
    exact .inl rfl
  rename_i hSettled
  split at h
  · cases h
    exact .inl rfl
  rename_i hSteady
  split at h
  · cases h
    exact .inl rfl
  split at h
  · cases h
    exact .inl rfl
  rename_i hFull
  split at h
  · split at h
    · cases h
    · cases h
      exact .inl rfl
  · rename_i added removed hReplacement
    split at h
    · cases h
      exact .inl rfl
    cases h
    exact .inr ⟨_, _, rfl, .exchanged (Bool.not_eq_true _ ▸ hSettled) (not_not.mp hSteady)
      (not_not.mp (not_or.mp hFull).1) hReplacement⟩

end Passes

end Craq.Coordinator
