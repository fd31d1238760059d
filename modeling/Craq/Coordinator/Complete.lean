import Craq.Coordinator.Order

/-! # When the greedy construction finds a placement

Each position of a chain takes some eligible node and never gives it back, so that it can get stuck
although a placement exists.  It does not where every set of nodes that share nothing, and that is
too small, leaves another node that shares nothing with them.
-/

namespace Craq.Coordinator

open Craq.Lib

abbrev FailureDomains := Std.ExtTreeMap String String

/-- The two give no failure-domain key the same value. -/
def Unrelated (left right : FailureDomains) : Prop :=
  ∀ key value : String, left[key]? = some value → right[key]? ≠ some value

theorem Unrelated.symm {left right : FailureDomains} (h : Unrelated left right) :
    Unrelated right left :=
  fun key value hRight hLeft => h key value hLeft hRight

theorem hasFailureDomainConflict_eq_false_iff {candidate existing : Node} :
    hasFailureDomainConflict candidate existing = false ↔
      Unrelated candidate.failureDomains existing.failureDomains := by
  rw [← Bool.not_eq_true, hasFailureDomainConflict_iff]
  simp only [Unrelated, not_exists, not_and, ne_eq]

section Pattern

variable (domains : List FailureDomains) (count : Nat)

/-- There are so many nodes that share no failure-domain value. -/
def Spread : Prop :=
  ∃ chosen : List FailureDomains,
    chosen.Subperm domains ∧ chosen.Pairwise Unrelated ∧ chosen.length = count

/-- Fewer nodes than that which share no value leave another one that shares none with them. -/
def Extends : Prop :=
  ∀ chosen : List FailureDomains, chosen.Subperm domains → chosen.Pairwise Unrelated →
    chosen.length < count →
      ∃ another, (another :: chosen).Subperm domains ∧ ∀ held ∈ chosen, Unrelated another held

end Pattern

/-! ## No position gets stuck -/

structure Filled (nodes : List Node) (chain : Chain) (chosen : List Node) : Prop where
  ids : replicaIDs chain.replicas = chosen.map (·.id)
  nodup : chosen.Nodup
  subset : chosen ⊆ nodes
  unrelated : chosen.Pairwise fun left right =>
    Unrelated left.failureDomains right.failureDomains

section Filling

variable {nodes : List Node} {nodesByID : Std.ExtTreeMap String Node}
  (hTabled : Tabled nodesByID nodes)

include hTabled

variable {chain : Chain} {chosen : List Node}

theorem isEligible_iff (h : Filled nodes chain chosen) {node : Node} :
    isEligible node chain nodesByID = true ↔
      ∀ held ∈ chosen, held.id ≠ node.id ∧
        Unrelated node.failureDomains held.failureDomains := by
  have hChosen : ∀ held ∈ chosen, nodesByID[held.id]?.getD zeroNode = held := by
    intro held hHeld
    rw [hTabled held (h.subset hHeld)]
    rfl
  have hAll : isEligible node chain nodesByID = true ↔ ∀ id ∈ replicaIDs chain.replicas,
      id ≠ node.id ∧ hasFailureDomainConflict node (nodesByID[id]?.getD zeroNode) = false := by
    simp [isEligible, replicaIDs]
  rw [hAll, h.ids, List.forall_mem_map]
  refine forall₂_congr fun held hHeld => ?_
  rw [hChosen held hHeld, hasFailureDomainConflict_eq_false_iff]

theorem exists_eligible (hIDs : (nodes.map (·.id)).Nodup) {count : Nat}
    (hExtends : Extends (nodes.map (·.failureDomains)) count) (h : Filled nodes chain chosen)
    (hShort : chosen.length < count) : ∃ node ∈ nodes, isEligible node chain nodesByID = true := by
  have hSubperm : chosen.Subperm nodes := List.subperm_of_subset h.nodup h.subset
  obtain ⟨order, hOrder, hSublist⟩ := hSubperm
  obtain ⟨rest, hRest⟩ := hSublist.exists_perm_append
  have hSplit : nodes.Perm (chosen ++ rest) := hRest.trans (hOrder.append_right rest)
  have hDomains : (nodes.map (·.failureDomains)).Perm
      (chosen.map (·.failureDomains) ++ rest.map (·.failureDomains)) := by
    rw [← List.map_append]
    exact hSplit.map _
  obtain ⟨another, hAnother, hUnrelated⟩ := hExtends (chosen.map (·.failureDomains))
    ((List.sublist_append_left _ _).subperm.trans hDomains.symm.subperm)
    (List.pairwise_map.mpr h.unrelated) (by rwa [List.length_map])
  -- The further failure domains are those of a node outside the chain.
  have hBeyond : [another].Subperm (rest.map (·.failureDomains)) := by
    apply (List.subperm_append_left (chosen.map (·.failureDomains))).mp
    refine List.Subperm.trans ?_ hDomains.subperm
    exact (List.perm_append_singleton another _).subperm.trans hAnother
  obtain ⟨node, hNode, rfl⟩ := List.mem_map.mp (hBeyond.subset (List.mem_singleton_self another))
  refine ⟨node, hSplit.mem_iff.mpr (List.mem_append_right _ hNode), ?_⟩
  rw [isEligible_iff hTabled h]
  intro held hHeld
  refine ⟨?_, hUnrelated _ (List.mem_map_of_mem hHeld)⟩
  have hNodup : ((chosen ++ rest).map (·.id)).Nodup := (hSplit.map _).nodup_iff.mp hIDs
  rw [List.map_append, List.nodup_append] at hNodup
  exact hNodup.2.2 _ (List.mem_map_of_mem hHeld) _ (List.mem_map_of_mem hNode)

theorem Filled.append (h : Filled nodes chain chosen) {candidate : Node} (hMem : candidate ∈ nodes)
    (hEligible : isEligible candidate chain nodesByID = true) (state : ReplicaState) :
    Filled nodes { chain with replicas := chain.replicas ++ [⟨candidate.id, state⟩] }
      (chosen ++ [candidate]) := by
  have hApart := (isEligible_iff hTabled h).mp hEligible
  constructor
  · rw [replicaIDs_append, h.ids, List.map_append]
    rfl
  · refine List.nodup_append_comm.mp (List.nodup_cons.mpr ⟨?_, h.nodup⟩)
    exact fun hHeld => (hApart candidate hHeld).1 rfl
  · exact List.append_subset.mpr ⟨h.subset, List.cons_subset.mpr ⟨hMem, List.nil_subset _⟩⟩
  · rw [List.pairwise_append]
    refine ⟨h.unrelated, List.pairwise_singleton _ _, ?_⟩
    intro held hHeld last hLast
    cases List.mem_singleton.mp hLast
    exact (hApart held hHeld).2.symm

theorem fillChain_succeeds (hIDs : (nodes.map (·.id)).Nodup) {slot missing position : Nat}
    {counts : Counts} (h : Filled nodes chain chosen)
    (hExtends : Extends (nodes.map (·.failureDomains)) (chosen.length + missing)) :
    ∃ filled, fillChain nodes nodesByID slot missing position chain counts = .ok filled := by
  induction missing generalizing position chain counts chosen with
  | zero => exact ⟨chain, rfl⟩
  | succ missing ih =>
    obtain ⟨node, hNode, hEligible⟩ := exists_eligible hTabled hIDs hExtends h (by omega)
    obtain ⟨candidate, hCandidate⟩ : ∃ candidate,
        selectReplicaCandidate nodes chain nodesByID counts = some candidate := by
      rw [selectReplicaCandidate_eq, ← Option.isSome_iff_exists]
      exact foldl_keepLeast_isSome (.inr ⟨node, hNode, hEligible⟩)
    have ⟨hMem, hTaken⟩ := selectReplicaCandidate_some hCandidate
    rw [fillChain, hCandidate]
    simp only
    have hAppend := appendReplicaWithState_chain chain candidate.id .active counts
    generalize appendReplicaWithState chain candidate.id .active counts = appended at hAppend
    obtain ⟨appendedChain, appendedCounts⟩ := appended
    subst hAppend
    apply ih (h.append hTabled hMem hTaken .active)
    rwa [List.length_append, List.length_singleton, Nat.add_right_comm]

theorem buildChainsFrom_succeeds (hIDs : (nodes.map (·.id)).Nodup) {replicationFactor : Nat}
    (hExtends : Extends (nodes.map (·.failureDomains)) replicationFactor) (slots : List Nat)
    (counts : Counts) (chains : List Chain) :
    ∃ built, buildChainsFrom replicationFactor nodes nodesByID slots counts chains = .ok built := by
  induction slots generalizing counts chains with
  | nil => exact ⟨chains, rfl⟩
  | cons slot rest ih =>
    have hEmpty : Filled nodes ⟨slot, []⟩ [] :=
      ⟨rfl, List.nodup_nil, List.nil_subset _, List.Pairwise.nil⟩
    obtain ⟨tentative, hFill⟩ := fillChain_succeeds hTabled hIDs hEmpty
      (by rwa [List.length_nil, Nat.zero_add])
    rw [buildChainsFrom, hFill]
    exact ih _ _

end Filling

theorem buildInitialPlacement_eq {slotCount replicationFactor : Int} {nodes : List Node}
    (hSlots : 0 < slotCount) (hFactor : 0 < replicationFactor) (hNodes : nodes ≠ [])
    (hValid : ∀ node ∈ nodes, node.Valid) (hIDs : (nodes.map (·.id)).Nodup)
    (hEnough : replicationFactor.toNat ≤ nodes.length) :
    ∃ normalized : NormalizedNodes, normalized.nodes = nodes.map normalizeNode ∧
      Tabled normalized.nodesByID normalized.nodes ∧
      buildInitialPlacement ⟨slotCount, replicationFactor⟩ nodes =
        ((buildSteadyStateChains slotCount replicationFactor normalized.nodes
          normalized.nodesByID).mapError (.wrapped "buildSteadyStateChains")).map
            (steadyPlacement ⟨slotCount, replicationFactor⟩ normalized) := by
  have hNormalized := normalizeNodes_iff.mpr ⟨hNodes, ⟨hValid, hIDs⟩, rfl⟩
  have hTable := (tableNodes_getElem? ((normalizeNode_ids nodes).symm ▸ hIDs) ∅).1
  refine ⟨⟨nodes.map normalizeNode, tableNodes ∅ (nodes.map normalizeNode), nodes.map (·.id)⟩, rfl,
    hTable, ?_⟩
  have hConfig : validateConfig ⟨slotCount, replicationFactor⟩ = .ok () := by
    rw [validateConfig, if_neg (by simpa using hSlots), if_neg (by simpa using hFactor)]
  have hFits : ¬replicationFactor > ((nodes.map normalizeNode).length : Int) := by
    rw [List.length_map]
    omega
  rw [buildInitialPlacement, hConfig, hNormalized]
  simp only [List.isEmpty_iff, hNodes, if_false]
  simp only [Except.mapError, bind, Except.bind, if_neg hFits]
  cases buildSteadyStateChains slotCount replicationFactor (nodes.map normalizeNode) _ <;> rfl

/-- The condition builds a set of nodes that share nothing, one node at a time. -/
theorem Extends.spread {domains : List FailureDomains} {count : Nat} (h : Extends domains count)
    {size : Nat} (hSize : size ≤ count) : Spread domains size := by
  induction size with
  | zero => exact ⟨[], List.nil_subperm, List.Pairwise.nil, rfl⟩
  | succ size ih =>
    obtain ⟨chosen, hChosen, hApart, hLength⟩ := ih (Nat.le_of_succ_le hSize)
    obtain ⟨another, hMore, hAnother⟩ := h chosen hChosen hApart (hLength ▸ hSize)
    exact ⟨another :: chosen, hMore, List.pairwise_cons.mpr ⟨hAnother, hApart⟩,
      congrArg Nat.succ hLength⟩

/-- The construction succeeds if every set of too few nodes that share nothing leaves another node
that shares nothing with them. -/
theorem bootstrap_complete {slotCount replicationFactor : Int} {nodes : List Node}
    (hSlots : 0 < slotCount) (hFactor : 0 < replicationFactor)
    (hValid : ∀ node ∈ nodes, node.Valid) (hIDs : (nodes.map (·.id)).Nodup)
    (hExtends : Extends (nodes.map (·.failureDomains)) replicationFactor.toNat) :
    ∃ state, buildInitialPlacement ⟨slotCount, replicationFactor⟩ nodes = .ok state := by
  have hEnough : replicationFactor.toNat ≤ nodes.length := by
    obtain ⟨chosen, hChosen, -, hLength⟩ := hExtends.spread le_rfl
    have hFits := hChosen.length_le
    rwa [hLength, List.length_map] at hFits
  have hNodes : nodes ≠ [] := by
    rintro rfl
    rw [List.length_nil] at hEnough
    omega
  obtain ⟨normalized, hNormalized, hTabled, hBuild⟩ :=
    buildInitialPlacement_eq hSlots hFactor hNodes hValid hIDs hEnough
  have hSame : normalized.nodes.map (·.failureDomains) = nodes.map (·.failureDomains) := by
    rw [hNormalized, List.map_map]
    rfl
  obtain ⟨chains, hChains⟩ := buildChainsFrom_succeeds hTabled
    (by rwa [hNormalized, normalizeNode_ids]) (hSame ▸ hExtends) (List.range slotCount.toNat) ∅ []
  rw [hBuild, buildSteadyStateChains, hChains]
  exact ⟨_, rfl⟩

def located (id rack zone : String) : Node :=
  ⟨id, "", .ofList [("rack", rack), ("zone", zone)]⟩

/-- Two nodes in two racks of two zones hold two replicas of each of three slots. -/
theorem two_locations_bootstrap :
    ∃ state, buildInitialPlacement ⟨3, 2⟩ [located "a" "r1" "z1", located "b" "r2" "z2"] =
      .ok state := by
  have hApart : Unrelated (located "a" "r1" "z1").failureDomains
      (located "b" "r2" "z2").failureDomains :=
    hasFailureDomainConflict_eq_false_iff.mp (by decide +kernel)
  refine bootstrap_complete (by decide) (by decide) ?_ (by decide) ?_
  · intro node hNode
    rcases List.mem_pair.mp hNode with rfl | rfl
    · exact ⟨by decide, rfl⟩
    · exact ⟨by decide, rfl⟩
  · intro chosen hChosen _ hShort
    rcases chosen with - | ⟨held, - | ⟨second, more⟩⟩
    · exact ⟨_, (List.singleton_sublist.mpr List.mem_cons_self).subperm, List.forall_mem_nil _⟩
    · rcases List.mem_pair.mp (List.singleton_subperm_iff.mp hChosen) with rfl | rfl
      · exact ⟨_, (List.Perm.swap ..).subperm, List.forall_mem_singleton.mpr hApart.symm⟩
      · exact ⟨_, .refl _, List.forall_mem_singleton.mpr hApart⟩
    · exact absurd hShort (Nat.not_lt.mpr (Nat.le_add_left 2 more.length))

/-- `b` and `c` share nothing, but `a` comes first by name and shares a value with each of them. -/
theorem first_by_name_blocks :
    Spread [(located "a" "r1" "z1").failureDomains, (located "b" "r1" "z2").failureDomains,
        (located "c" "r2" "z1").failureDomains] 2 ∧
      buildInitialPlacement ⟨1, 2⟩
        [located "a" "r1" "z1", located "b" "r1" "z2", located "c" "r2" "z1"] =
          .error (.wrapped "buildSteadyStateChains" (.placement 0 1)) := by
  constructor
  · have hApart : Unrelated (located "b" "r1" "z2").failureDomains
        (located "c" "r2" "z1").failureDomains :=
      hasFailureDomainConflict_eq_false_iff.mp (by decide +kernel)
    exact ⟨_, (List.sublist_cons_self _ _).subperm, List.pairwise_pair.mpr hApart, rfl⟩
  · decide +kernel

end Craq.Coordinator
