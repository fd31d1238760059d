import Craq.Coordinator.Reconcile
import Craq.Lib.Except

/-! # What the steady-state construction guarantees

Every chain it builds takes distinct nodes from the list it was given, one for each position.
The join passes rest on this: distinctness of a finalized chain is distinctness of the desired one.
-/

namespace Craq.Coordinator

open Craq.Lib

theorem mem_replicaIDs {replicas : List Replica} {nodeID : String} :
    nodeID ∈ replicaIDs replicas ↔ ∃ replica ∈ replicas, replica.nodeID = nodeID := by
  simp [replicaIDs]

@[simp] theorem replicaIDs_append (left right : List Replica) :
    replicaIDs (left ++ right) = replicaIDs left ++ replicaIDs right := List.map_append ..

@[simp] theorem replicaIDs_map_mk (ids : List String) (state : ReplicaState) :
    replicaIDs (ids.map (⟨·, state⟩)) = ids := by
  simp [replicaIDs, Function.comp_def]

/-! ## Candidates -/

variable {chain : Chain} {nodesByID : Std.ExtTreeMap String Node} {nodes : List Node}
  {counts : Counts}

theorem isEligible_not_mem {candidate : Node} (h : isEligible candidate chain nodesByID = true) :
    candidate.id ∉ replicaIDs chain.replicas := by
  intro hMem
  obtain ⟨replica, hReplica, hID⟩ := mem_replicaIDs.mp hMem
  have hAll := List.all_eq_true.mp h replica hReplica
  simp [hID] at hAll

def prefer (chain : Chain) (nodesByID : Std.ExtTreeMap String Node) (counts : Counts)
    (best : Option Node) (node : Node) : Option Node :=
  if !isEligible node chain nodesByID then best
  else match best with
    | none => some node
    | some current => if compareNodes node current counts = .lt then some node else best

/-- The loop keeps an eligible node of the list, whatever the tie-breaking does. -/
theorem selectReplicaCandidate_some {candidate : Node}
    (h : selectReplicaCandidate nodes chain nodesByID counts = some candidate) :
    candidate ∈ nodes ∧ isEligible candidate chain nodesByID = true := by
  suffices hFold : ∀ (rest : List Node) (best : Option Node),
      (∀ node, best = some node → node ∈ nodes ∧ isEligible node chain nodesByID = true) →
      (∀ node ∈ rest, node ∈ nodes) →
      ∀ node, rest.foldl (prefer chain nodesByID counts) best = some node →
        node ∈ nodes ∧ isEligible node chain nodesByID = true from
    hFold nodes none (by simp) (fun _ hNode => hNode) candidate h
  intro rest
  induction rest with
  | nil => exact fun best hBest _ node hNode => hBest node hNode
  | cons head rest ih =>
    intro best hBest hRest node hNode
    refine ih _ ?_ (fun n hn => hRest n (List.mem_cons_of_mem _ hn)) node hNode
    intro chosen hChosen
    have hHead := hRest head List.mem_cons_self
    unfold prefer at hChosen
    grind

/-! ## Desired chains -/

structure DrawnFrom (nodes : List Node) (ids : List String) : Prop where
  nodup : ids.Nodup
  member : ∀ id ∈ ids, ∃ node ∈ nodes, node.id = id

theorem DrawnFrom.perm {ids other : List String} (h : DrawnFrom nodes ids) (hPerm : other.Perm ids) :
    DrawnFrom nodes other :=
  ⟨hPerm.nodup_iff.mpr h.nodup, fun id hid => h.member id (hPerm.mem_iff.mp hid)⟩

@[simp] theorem appendReplicaWithState_chain (chain : Chain) (nodeID : String)
    (state : ReplicaState) (counts : Counts) :
    (appendReplicaWithState chain nodeID state counts).1 =
      { chain with replicas := chain.replicas ++ [⟨nodeID, state⟩] } := by
  unfold appendReplicaWithState
  cases chain.replicas.getLast? <;> rfl

theorem fillChain_ok {slot : Nat} {missing position : Nat} {filled : Chain}
    (hChain : DrawnFrom nodes (replicaIDs chain.replicas))
    (h : fillChain nodes nodesByID slot missing position chain counts = .ok filled) :
    DrawnFrom nodes (replicaIDs filled.replicas) ∧ filled.slot = chain.slot ∧
      filled.replicas.length = chain.replicas.length + missing := by
  induction missing generalizing position chain counts with
  | zero =>
    cases h
    exact ⟨hChain, rfl, rfl⟩
  | succ missing ih =>
    rw [fillChain] at h
    split at h
    · cases h
    · rename_i candidate hCandidate
      obtain ⟨hMem, hEligible⟩ := selectReplicaCandidate_some hCandidate
      have hFresh := isEligible_not_mem hEligible
      have hAppend := appendReplicaWithState_chain chain candidate.id .active counts
      generalize appendReplicaWithState chain candidate.id .active counts = appended at h hAppend
      obtain ⟨appendedChain, appendedCounts⟩ := appended
      subst hAppend
      have hNext : DrawnFrom nodes (replicaIDs (chain.replicas ++ [⟨candidate.id, .active⟩])) := by
        constructor
        · rw [replicaIDs_append]
          exact List.nodup_append_comm.mp (List.nodup_cons.mpr ⟨hFresh, hChain.nodup⟩)
        · intro id hid
          rcases List.mem_append.mp (replicaIDs_append _ _ ▸ hid) with hid | hid
          · exact hChain.member id hid
          · exact ⟨candidate, hMem, by simpa [replicaIDs, eq_comm] using hid⟩
      obtain ⟨hDrawn, hSlot, hLength⟩ := ih hNext h
      refine ⟨hDrawn, hSlot, ?_⟩
      rw [hLength]
      simp only [List.length_append, List.length_singleton]
      omega

theorem rebalanceSteadyStateChain_perm (slot : Nat) (chain : Chain) :
    (replicaIDs (rebalanceSteadyStateChain slot chain).replicas).Perm
      (replicaIDs chain.replicas) := by
  unfold rebalanceSteadyStateChain
  split
  · exact List.Perm.refl _
  · rw [replicaIDs_map_mk]
    refine List.perm_append_comm.trans ?_
    rw [List.take_append_drop]
    exact List.perm_insertionSort _ _

@[simp] theorem rebalanceSteadyStateChain_slot (slot : Nat) (chain : Chain) :
    (rebalanceSteadyStateChain slot chain).slot = chain.slot := by
  unfold rebalanceSteadyStateChain
  split <;> rfl

/-- A placement: the chain at index `i` is the one of slot `i`, full and drawn from `nodes`. -/
structure Placed (nodes : List Node) (replicationFactor : Nat) (chains : List Chain) : Prop where
  slot : ∀ (i : Nat) (chain : Chain), chains[i]? = some chain → chain.slot = i
  drawn : ∀ chain ∈ chains, DrawnFrom nodes (replicaIDs chain.replicas)
  full : ∀ chain ∈ chains, chain.replicas.length = replicationFactor

theorem buildChainsFrom_ok {replicationFactor : Nat} {slots : List Nat} {chains built : List Chain}
    (hSlots : slots = List.range' chains.length slots.length)
    (hChains : Placed nodes replicationFactor chains)
    (h : buildChainsFrom replicationFactor nodes nodesByID slots counts chains = .ok built) :
    Placed nodes replicationFactor built ∧ built.length = chains.length + slots.length := by
  induction slots generalizing counts chains with
  | nil =>
    cases h
    exact ⟨hChains, rfl⟩
  | cons slot rest ih =>
    rw [buildChainsFrom] at h
    obtain ⟨tentative, hFill, h⟩ := bind_eq_ok.mp h
    have hNone : DrawnFrom nodes (replicaIDs (⟨slot, []⟩ : Chain).replicas) :=
      ⟨List.nodup_nil, by simp [replicaIDs]⟩
    obtain ⟨hDrawn, hSlot, hLength⟩ := fillChain_ok hNone hFill
    rw [List.length_cons, List.range'_succ] at hSlots
    injection hSlots with hHead hRest
    generalize hNext : (if nodes.length = replicationFactor then
      rebalanceSteadyStateChain slot tentative else tentative) = next at h
    have hPerm : (replicaIDs next.replicas).Perm (replicaIDs tentative.replicas) := by
      rw [← hNext]
      split
      · exact rebalanceSteadyStateChain_perm slot tentative
      · exact List.Perm.refl _
    have hNextSlot : next.slot = slot := by
      rw [← hNext]
      split <;> simp [hSlot]
    have hNextLength : next.replicas.length = replicationFactor := by
      have hEq := hPerm.length_eq
      simp only [replicaIDs, List.length_map] at hEq
      simpa [hLength] using hEq
    have hPlaced : Placed nodes replicationFactor (chains ++ [next]) := by
      refine ⟨?_, ?_, ?_⟩
      · intro i chain hi
        rw [List.getElem?_append] at hi
        split at hi
        · exact hChains.slot i chain hi
        · have hLast : i = chains.length ∧ chain = next := by grind
          rw [hLast.2, hNextSlot, hHead, hLast.1]
      · intro chain hMem
        rcases List.mem_append.mp hMem with hMem | hMem
        · exact hChains.drawn chain hMem
        · exact List.mem_singleton.mp hMem ▸ hDrawn.perm hPerm
      · intro chain hMem
        rcases List.mem_append.mp hMem with hMem | hMem
        · exact hChains.full chain hMem
        · exact List.mem_singleton.mp hMem ▸ hNextLength
    have hRange : rest = List.range' (chains ++ [next]).length rest.length := by
      simpa using hRest
    obtain ⟨hBuilt, hBuiltLength⟩ := ih hRange hPlaced h
    refine ⟨hBuilt, ?_⟩
    rw [hBuiltLength]
    simp
    omega

theorem buildSteadyStateChains_ok {slotCount replicationFactor : Int} {chains : List Chain}
    (h : buildSteadyStateChains slotCount replicationFactor nodes nodesByID = .ok chains) :
    Placed nodes replicationFactor.toNat chains ∧ chains.length = slotCount.toNat := by
  have hEmpty : Placed nodes replicationFactor.toNat [] := ⟨by simp, by simp, by simp⟩
  have hBuilt := buildChainsFrom_ok (by simp [List.range_eq_range']) hEmpty h
  simpa using hBuilt

end Craq.Coordinator
