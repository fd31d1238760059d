import Craq.Coordinator.Apart
import Craq.Coordinator.Reachable
import Craq.Lib.Best

/-! # The bootstrap placement and the order of its input

The greedy construction compares nodes by their counts and, last, by their IDs.  On nodes with
distinct IDs this is a strict total order, so every choice it makes, and with them every chain,
depends on the set of nodes only.
-/

namespace Craq.Coordinator

open Craq.Lib

/-! ## Choosing a candidate -/

/-- What `compareNodes` compares, from the first to the last criterion. -/
def rank (counts : Counts) (node : Node) : Int ×ₗ Int ×ₗ Int ×ₗ String :=
  toLex ((countsOf counts node.id).tailCount, toLex ((countsOf counts node.id).headCount,
    toLex ((countsOf counts node.id).replicaCount, node.id)))

theorem compareNodes_lt_iff (a b : Node) (counts : Counts) :
    compareNodes a b counts = .lt ↔ rank counts a < rank counts b := by
  simp only [compareNodes, rank, Ordering.then_eq_lt, compare_lt_iff_lt, compare_eq_iff_eq,
    Prod.Lex.toLex_lt_toLex]

theorem selectReplicaCandidate_eq (nodes : List Node) (chain : Chain)
    (nodesByID : Std.ExtTreeMap String Node) (counts : Counts) :
    selectReplicaCandidate nodes chain nodesByID counts =
      nodes.foldl (keepLeast (rank counts) (isEligible · chain nodesByID)) none := by
  rw [selectReplicaCandidate]
  congr 1
  funext best node
  cases best with
  | none => rfl
  | some current => simp only [keepLeast, compareNodes_lt_iff]

/-- The same nodes under the same IDs in another order. -/
structure Reordered (nodes other : List Node) : Prop where
  perm : nodes.Perm other
  nodup : (nodes.map (·.id)).Nodup

section Reordered

variable {nodes other : List Node} (h : Reordered nodes other)
  (nodesByID : Std.ExtTreeMap String Node)

include h

theorem Reordered.eq_of_id {first second : Node} (hFirst : first ∈ nodes) (hSecond : second ∈ nodes)
    (hID : first.id = second.id) : first = second :=
  List.inj_on_of_nodup_map h.nodup hFirst hSecond hID

theorem Reordered.selectReplicaCandidate (chain : Chain) (counts : Counts) :
    selectReplicaCandidate nodes chain nodesByID counts =
      Coordinator.selectReplicaCandidate other chain nodesByID counts := by
  rw [selectReplicaCandidate_eq, selectReplicaCandidate_eq]
  apply foldl_keepLeast_perm h.perm
  intro first hFirst second hSecond hRank
  apply h.eq_of_id hFirst hSecond
  simp only [rank, EmbeddingLike.apply_eq_iff_eq, Prod.mk.injEq] at hRank
  exact hRank.2.2.2

theorem Reordered.fillChain (slot missing position : Nat) (chain : Chain) (counts : Counts) :
    fillChain nodes nodesByID slot missing position chain counts =
      Coordinator.fillChain other nodesByID slot missing position chain counts := by
  induction missing generalizing position chain counts with
  | zero => rfl
  | succ missing ih =>
    rw [Coordinator.fillChain, Coordinator.fillChain, h.selectReplicaCandidate nodesByID]
    cases Coordinator.selectReplicaCandidate other chain nodesByID counts with
    | none => rfl
    | some candidate => exact ih ..

theorem Reordered.buildChainsFrom (replicationFactor : Nat) (slots : List Nat) (counts : Counts)
    (chains : List Chain) :
    buildChainsFrom replicationFactor nodes nodesByID slots counts chains =
      Coordinator.buildChainsFrom replicationFactor other nodesByID slots counts chains := by
  induction slots generalizing counts chains with
  | nil => rfl
  | cons slot rest ih =>
    rw [Coordinator.buildChainsFrom, Coordinator.buildChainsFrom, h.fillChain nodesByID,
      h.perm.length_eq]
    cases Coordinator.fillChain other nodesByID slot replicationFactor 0 ⟨slot, []⟩ counts with
    | error err => rfl
    | ok tentative => exact ih ..

end Reordered

/-! ## Normalizing -/

def Node.Valid (node : Node) : Prop :=
  node.id ≠ "" ∧ checkFailureDomains node.id node.failureDomains.toList = .ok ()

variable {normalized : NormalizedNodes} {nodes other : List Node}

theorem normalizeNodesFrom_iff {acc : NormalizedNodes} :
    normalizeNodesFrom acc nodes = .ok normalized ↔
      ((∀ node ∈ nodes, node.Valid ∧ node.id ∉ acc.nodesByID) ∧ (nodes.map (·.id)).Nodup) ∧
      normalized =
        { nodes := acc.nodes ++ nodes.map normalizeNode
          nodesByID := tableNodes acc.nodesByID (nodes.map normalizeNode)
          nodeOrder := acc.nodeOrder ++ nodes.map (·.id) } := by
  induction nodes generalizing acc with
  | nil => simp [normalizeNodesFrom, tableNodes, eq_comm]
  | cons node rest ih =>
    rw [normalizeNodesFrom, ite_error_eq_ok, ite_error_eq_ok, bind_eq_ok]
    simp only [ih, Std.ExtTreeMap.mem_insert, Std.LawfulEqCmp.compare_eq_iff_eq, List.map_cons,
      List.nodup_cons, List.mem_map, List.forall_mem_cons, Node.Valid, List.append_assoc,
      List.singleton_append, not_or]
    constructor
    · rintro ⟨hNamed, hFresh, ⟨⟩, hDomains, ⟨hRest, hNodup⟩, rfl⟩
      refine ⟨⟨⟨⟨⟨hNamed, hDomains⟩, hFresh⟩, ?_⟩, ?_, hNodup⟩, rfl⟩
      · exact fun other hOther => ⟨(hRest other hOther).1, (hRest other hOther).2.2⟩
      · rintro ⟨other, hOther, hSame⟩
        exact (hRest other hOther).2.1 hSame.symm
    · rintro ⟨⟨⟨⟨⟨hNamed, hDomains⟩, hFresh⟩, hRest⟩, hApart, hNodup⟩, rfl⟩
      refine ⟨hNamed, hFresh, (), hDomains, ⟨fun other hOther => ?_, hNodup⟩, rfl⟩
      exact ⟨(hRest other hOther).1, fun hSame => hApart ⟨other, hOther, hSame.symm⟩,
        (hRest other hOther).2⟩

theorem Reordered.tableNodes (h : Reordered nodes other) (table : Std.ExtTreeMap String Node) :
    tableNodes table nodes = tableNodes table other := by
  apply h.perm.foldl_eq'
  intro first hFirst second hSecond table
  by_cases hID : first.id = second.id
  · rw [h.eq_of_id hFirst hSecond hID]
  · apply Std.ExtTreeMap.ext_getElem?
    intro id
    simp only [getElem?_insert_ite]
    by_cases hFirstID : first.id = id
    · rw [if_pos hFirstID, if_pos hFirstID, if_neg (fun hEq => hID (hFirstID.trans hEq.symm))]
    · rw [if_neg hFirstID, if_neg hFirstID]

theorem normalizeNodes_iff :
    normalizeNodes nodes = .ok normalized ↔
      nodes ≠ [] ∧ ((∀ node ∈ nodes, node.Valid) ∧ (nodes.map (·.id)).Nodup) ∧
      normalized = ⟨nodes.map normalizeNode, tableNodes ∅ (nodes.map normalizeNode),
        nodes.map (·.id)⟩ := by
  rw [normalizeNodes, ite_error_eq_ok, normalizeNodesFrom_iff, List.isEmpty_iff]
  simp

theorem normalizeNode_ids (nodes : List Node) :
    (nodes.map normalizeNode).map (·.id) = nodes.map (·.id) := by
  rw [List.map_map]
  rfl

theorem normalizeNodes_perm (hPerm : nodes.Perm other) (h : normalizeNodes nodes = .ok normalized) :
    ∃ reordered, normalizeNodes other = .ok reordered ∧
      reordered.nodesByID = normalized.nodesByID ∧ Reordered normalized.nodes reordered.nodes := by
  obtain ⟨hSome, ⟨hValid, hNodup⟩, rfl⟩ := normalizeNodes_iff.mp h
  have hReordered : Reordered (nodes.map normalizeNode) (other.map normalizeNode) :=
    ⟨hPerm.map normalizeNode, (normalizeNode_ids nodes).symm ▸ hNodup⟩
  refine ⟨_, normalizeNodes_iff.mpr ⟨?_, ⟨?_, ?_⟩, rfl⟩, ?_, hReordered⟩
  · rintro rfl
    exact hSome hPerm.eq_nil
  · exact fun node hNode => hValid node (hPerm.mem_iff.mpr hNode)
  · exact ((hPerm.map _).nodup_iff).mp hNodup
  · exact (hReordered.tableNodes ∅).symm

/-! ## The placement -/

theorem buildInitialPlacement_chains_of_ok {cfg : Config} (hPerm : nodes.Perm other)
    {state : ClusterState} (h : buildInitialPlacement cfg nodes = .ok state) :
    ∃ reordered, buildInitialPlacement cfg other = .ok reordered ∧
      reordered.chains = state.chains := by
  obtain ⟨⟨⟩, hCfg, h⟩ := bind_eq_ok.mp h
  by_cases hEmpty : nodes = []
  · subst hEmpty
    rw [← hPerm.nil_eq]
    exact ⟨state, by rw [buildInitialPlacement, hCfg]; exact h, rfl⟩
  have hOther : other ≠ [] := by
    rintro rfl
    exact hEmpty hPerm.eq_nil
  rw [if_neg (by simpa using hEmpty)] at h
  obtain ⟨normalized, hNormalized, h⟩ := bind_eq_ok.mp h
  obtain ⟨reordered, hNormalizedOther, hTable, hReordered⟩ :=
    normalizeNodes_perm hPerm (ok_of_mapError hNormalized)
  rw [ite_error_eq_ok] at h
  obtain ⟨hCount, h⟩ := h
  obtain ⟨chains, hChains, h⟩ := bind_eq_ok.mp h
  cases h
  have hBuilt : buildSteadyStateChains cfg.slotCount cfg.replicationFactor reordered.nodes
      reordered.nodesByID = .ok chains := by
    rw [hTable, buildSteadyStateChains, ← hReordered.buildChainsFrom]
    exact ok_of_mapError hChains
  refine ⟨steadyPlacement cfg reordered chains, ?_, rfl⟩
  rw [buildInitialPlacement, hCfg]
  refine (if_neg (by simpa using hOther)).trans ?_
  rw [hNormalizedOther]
  refine (if_neg ?_).trans ?_
  · rwa [← hReordered.perm.length_eq]
  · rw [hBuilt]
    rfl

/-- A full chain of a placement: distinct active replicas, as many as the factor asks for, and no
two of them in one failure domain. -/
structure FullChain (replicationFactor : Int) (nodesByID : Std.ExtTreeMap String Node)
    (chain : Chain) : Prop where
  full : (chain.replicas.length : Int) = replicationFactor
  nodup : (replicaIDs chain.replicas).Nodup
  active : ∀ replica ∈ chain.replicas, replica.state = .active
  apart : Apart nodesByID (replicaIDs chain.replicas)

theorem buildInitialPlacement_full {cfg : Config} (hSome : nodes ≠ []) {state : ClusterState}
    (h : buildInitialPlacement cfg nodes = .ok state) :
    ∀ chain ∈ state.chains, FullChain cfg.replicationFactor state.nodesByID chain := by
  obtain ⟨⟨⟩, hCfg, h⟩ := bind_eq_ok.mp h
  have hFactor := (validateConfig_ok (ok_of_mapError hCfg)).2
  rw [if_neg (by simpa using hSome)] at h
  obtain ⟨normalized, hNormalized, h⟩ := bind_eq_ok.mp h
  obtain ⟨-, ⟨-, hNodup⟩, rfl⟩ := normalizeNodes_iff.mp (ok_of_mapError hNormalized)
  rw [ite_error_eq_ok] at h
  obtain ⟨chains, hChains, h⟩ := bind_eq_ok.mp h.2
  cases h
  obtain ⟨hPlaced, -⟩ := buildSteadyStateChains_ok (ok_of_mapError hChains)
  have hClean := buildSteadyStateChains_clean
    (tableNodes_getElem? ((normalizeNode_ids nodes).symm ▸ hNodup) ∅).1 (ok_of_mapError hChains)
  intro chain hChain
  refine ⟨?_, (hPlaced.drawn chain hChain).nodup, (hClean chain hChain).active,
    (hClean chain hChain).apart⟩
  have hFull := hPlaced.full chain hChain
  omega

/-- The bootstrap placement does not depend on the order of the nodes: it fails for both orders or
builds the same chains, and on a non-empty list every chain it builds is full. -/
theorem buildInitialPlacement_perm (cfg : Config) {nodes other : List Node}
    (hPerm : nodes.Perm other) :
    (buildInitialPlacement cfg nodes).toOption.map (·.chains) =
        (buildInitialPlacement cfg other).toOption.map (·.chains) ∧
      ∀ state, nodes ≠ [] → buildInitialPlacement cfg nodes = .ok state →
        ∀ chain ∈ state.chains, FullChain cfg.replicationFactor state.nodesByID chain := by
  refine ⟨?_, fun state hSome h => buildInitialPlacement_full hSome h⟩
  cases hFirst : buildInitialPlacement cfg nodes with
  | ok state =>
    obtain ⟨reordered, hSecond, hChains⟩ := buildInitialPlacement_chains_of_ok hPerm hFirst
    rw [hSecond]
    exact (congrArg some hChains).symm
  | error err =>
    cases hSecond : buildInitialPlacement cfg other with
    | error _ => rfl
    | ok state =>
      obtain ⟨reordered, hOk, -⟩ := buildInitialPlacement_chains_of_ok hPerm.symm hSecond
      rw [hFirst] at hOk
      cases hOk

/-! ### Three nodes in two racks, given in two orders -/

theorem two_racks_reordered :
    (buildInitialPlacement ⟨2, 2⟩ [inRack "a" "r1", inRack "b" "r1", inRack "c" "r2"]).toOption.map
        (fun state => state.chains.map fun chain => replicaIDs chain.replicas) =
      some [["a", "c"], ["b", "c"]] ∧
    (buildInitialPlacement ⟨2, 2⟩
        [inRack "a" "r1", inRack "b" "r1", inRack "c" "r2"]).toOption.map (·.chains) =
      (buildInitialPlacement ⟨2, 2⟩
        [inRack "c" "r2", inRack "a" "r1", inRack "b" "r1"]).toOption.map (·.chains) := by
  refine ⟨by decide +kernel, ?_⟩
  have hPerm : [inRack "a" "r1", inRack "b" "r1", inRack "c" "r2"].Perm
      [inRack "c" "r2", inRack "a" "r1", inRack "b" "r1"] := by
    apply List.Perm.symm
    exact List.Perm.trans (List.Perm.swap _ _ _) (List.Perm.cons _ (List.Perm.swap _ _ _))
  exact (buildInitialPlacement_perm ⟨2, 2⟩ hPerm).1

end Craq.Coordinator
