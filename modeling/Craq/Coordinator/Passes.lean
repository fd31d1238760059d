import Craq.Coordinator.PlacementFacts

/-! # What the passes rely on

The chains are the only part of the state that a reconcile writes.  Here are the lemmas about such a
write, the invariant of the working state, and what the candidate searches and the placement give.
-/

namespace Craq.Coordinator

open Craq.Lib

/-! ## Rewriting one chain -/

abbrev ClusterState.idsAt (state : ClusterState) (i : Nat) : List String :=
  replicaIDs (state.chainAt i).replicas

abbrev ClusterState.activesAt (state : ClusterState) (i : Nat) : List String :=
  activeReplicaIDs (state.chainAt i)

section SetReplicas

variable (state : ClusterState) (slot : Nat) (replicas : List Replica)

@[simp] theorem setReplicas_slotCount :
    (state.setReplicas slot replicas).slotCount = state.slotCount := rfl

@[simp] theorem setReplicas_isDead (nodeID : String) :
    (state.setReplicas slot replicas).isDead nodeID = state.isDead nodeID := rfl

@[simp] theorem setReplicas_length :
    (state.setReplicas slot replicas).chains.length = state.chains.length :=
  List.length_modify ..

theorem setReplicas_chainAt_of_ne {i : Nat} (h : i ≠ slot) :
    (state.setReplicas slot replicas).chainAt i = state.chainAt i := by
  simp [ClusterState.setReplicas, ClusterState.chainAt, Ne.symm h]

theorem setReplicas_chainAt_self (h : slot < state.chains.length) :
    (state.setReplicas slot replicas).chainAt slot = { state.chainAt slot with replicas } := by
  simp [ClusterState.setReplicas, ClusterState.chainAt, h]

theorem setReplicas_of_length_le (h : state.chains.length ≤ slot) :
    state.setReplicas slot replicas = state := by
  rw [ClusterState.setReplicas, List.modify_eq_self h]

theorem setReplicas_self :
    state.setReplicas slot (state.chainAt slot).replicas = state := by
  have hChains : state.chains.modify slot
      (fun chain => { chain with replicas := (state.chainAt slot).replicas }) = state.chains := by
    apply List.ext_getElem?
    intro i
    rw [List.getElem?_modify]
    cases hChain : state.chains[i]? with
    | none => rfl
    | some chain =>
      by_cases hi : slot = i
      · subst hi
        simp [ClusterState.chainAt, hChain]
      · simp [hi]
  rw [ClusterState.setReplicas, hChains]

theorem setReplicas_setReplicas (others : List Replica) :
    (state.setReplicas slot replicas).setReplicas slot others = state.setReplicas slot others := by
  simp [ClusterState.setReplicas, List.modify_modify_eq, Function.comp_def]

/-- What holds between equal lists and between the old and the new replicas of `slot` holds between
the old and the new replicas of every slot.  Outside the table the write is lost. -/
theorem setReplicas_pointwise {R : Nat → List Replica → List Replica → Prop}
    (hRefl : ∀ i replicas, R i replicas replicas)
    (hNew : R slot (state.chainAt slot).replicas replicas) (i : Nat) :
    R i (state.chainAt i).replicas ((state.setReplicas slot replicas).chainAt i).replicas := by
  by_cases hi : i = slot
  · subst hi
    by_cases hBound : i < state.chains.length
    · rwa [setReplicas_chainAt_self state i replicas hBound]
    · have hSame : (state.setReplicas i replicas).chainAt i = state.chainAt i := by
        simp [ClusterState.setReplicas, ClusterState.chainAt, hBound]
      rw [hSame]
      exact hRefl i _
  · rw [setReplicas_chainAt_of_ne state slot replicas hi]
    exact hRefl i _

end SetReplicas

/-! ## The invariant of the working state -/

/-- Everything the planner relies on, dead nodes in chains apart. -/
structure Sound (state : ClusterState) : Prop where
  factor : 0 < state.replicationFactor
  count : (state.chains.length : Int) = state.slotCount
  slot : ∀ (i : Nat) (chain : Chain), state.chains[i]? = some chain → chain.slot = i
  nodup : ∀ i, (state.idsAt i).Nodup
  known : ∀ i, ∀ id ∈ state.idsAt i, id ∈ state.nodesByID
  orderNodup : state.nodeOrder.Nodup
  orderKeys : ∀ id, id ∈ state.nodeOrder ↔ id ∈ state.nodesByID
  health : ∀ id, id ∈ state.nodesByID → id ∈ state.nodeHealthByID
  ids : ∀ (id : String) (node : Node), state.nodesByID[id]? = some node → node.id = id
  named : "" ∉ state.nodesByID
  deadNotReady : ∀ id, state.isDead id = true → id ∉ state.readyNodeIDs
  deadNotDraining : ∀ id, state.isDead id = true → id ∉ state.drainingNodeIDs

def DeadFree (state : ClusterState) : Prop :=
  ∀ i, ∀ id ∈ state.idsAt i, state.isDead id = false

variable {state : ClusterState} {slot : Nat} {nodeID : String}

theorem lt_length_of_replicas_ne_nil (h : (state.chainAt slot).replicas ≠ []) :
    slot < state.chains.length := by
  by_contra hOut
  simp [ClusterState.chainAt, hOut] at h

theorem DeadFree.containsDead (h : DeadFree state) (slot : Nat) :
    chainContainsDeadReplica state (state.chainAt slot) = false := by
  simp only [chainContainsDeadReplica, List.any_eq_false, Bool.not_eq_true]
  intro replica hReplica
  exact h slot _ (mem_replicaIDs.mpr ⟨replica, hReplica, rfl⟩)

theorem Sound.named_of_mem (h : Sound state) {i : Nat} :
    "" ∉ state.idsAt i := fun hMem => h.named (h.known i _ hMem)

theorem Sound.setReplicas (h : Sound state) {replicas : List Replica}
    (hNodup : (replicaIDs replicas).Nodup)
    (hKnown : ∀ id ∈ replicaIDs replicas, id ∈ state.nodesByID) :
    Sound (state.setReplicas slot replicas) where
  factor := h.factor
  count := by simpa using h.count
  slot i chain hi := by
    simp only [ClusterState.setReplicas, List.getElem?_modify, Option.map_eq_map,
      Option.map_eq_some_iff] at hi
    obtain ⟨old, hOld, rfl⟩ := hi
    have hSlot := h.slot i old hOld
    split <;> exact hSlot
  nodup i := setReplicas_pointwise state slot replicas
    (R := fun _ old new => (replicaIDs old).Nodup → (replicaIDs new).Nodup)
    (fun _ _ hOld => hOld) (fun _ => hNodup) i (h.nodup i)
  known i := setReplicas_pointwise state slot replicas
    (R := fun _ old new => (∀ id ∈ replicaIDs old, id ∈ state.nodesByID) →
      ∀ id ∈ replicaIDs new, id ∈ state.nodesByID)
    (fun _ _ hOld => hOld) (fun _ => hKnown) i (h.known i)
  orderNodup := h.orderNodup
  orderKeys := h.orderKeys
  health := h.health
  ids := h.ids
  named := h.named
  deadNotReady := h.deadNotReady
  deadNotDraining := h.deadNotDraining

theorem mem_orderedNodes {included : String → Bool} {node : Node}
    (h : node ∈ orderedNodes state included) (hSound : Sound state) :
    node.id ∈ state.nodesByID ∧ included node.id = true := by
  obtain ⟨nodeID, -, hNode⟩ := List.mem_filterMap.mp h
  split at hNode
  · rename_i hIncluded
    have hID := hSound.ids nodeID node hNode
    exact ⟨hID ▸ Std.ExtTreeMap.mem_iff_isSome_getElem?.mpr (by simp [hNode]), hID ▸ hIncluded⟩
  · cases hNode

theorem orderedNodes_getElem? (hSound : Sound state) {included : String → Bool} {node : Node}
    (h : node ∈ orderedNodes state included) : state.nodesByID[node.id]? = some node := by
  obtain ⟨nodeID, -, hNode⟩ := List.mem_filterMap.mp h
  split at hNode
  · rwa [hSound.ids nodeID node hNode]
  · cases hNode

theorem orderedNodes_nodup (hSound : Sound state) (included : String → Bool) :
    ((orderedNodes state included).map (·.id)).Nodup := by
  rw [orderedNodes, List.map_filterMap]
  apply hSound.orderNodup.filterMap
  -- A node comes from the entry under its own ID only.
  have hSource : ∀ nodeID id, id ∈ ((if included nodeID then state.nodesByID[nodeID]? else none).map
      (·.id)) → id = nodeID := by
    intro nodeID id hid
    obtain ⟨node, hNode, rfl⟩ := Option.mem_map.mp hid
    split at hNode
    · exact hSound.ids nodeID node hNode
    · cases hNode
  intro left right id hLeft hRight
  exact (hSource left id hLeft).symm.trans (hSource right id hRight)

theorem placeable_isAlive (h : state.placeable nodeID = true) : state.isAlive nodeID = true := by
  simp only [ClusterState.placeable, Bool.and_eq_true] at h
  exact h.1.1

theorem placeable_isDraining (h : state.placeable nodeID = true) :
    state.isDraining nodeID = false := by
  simp only [ClusterState.placeable, Bool.and_eq_true, Bool.not_eq_true'] at h
  exact h.2

theorem isDead_of_isAlive (h : state.isAlive nodeID = true) : state.isDead nodeID = false := by
  simp_all [ClusterState.isAlive, ClusterState.isDead]

/-! ## Queries -/

abbrev activeIDs (replicas : List Replica) : List String :=
  replicaIDs (replicas.filter (·.state = .active))

theorem activeIDs_subset (replicas : List Replica) : activeIDs replicas ⊆ replicaIDs replicas :=
  List.map_subset _ (List.filter_subset_self _)

variable {target current : List String} {extra id : String} {chain : Chain}

/-- Once the loop has found a node, it succeeds only by meeting no other one. -/
theorem extraNodeFrom_found {found : String} (hFound : found ≠ "")
    (h : extraNodeFrom target current found = some extra) :
    extra = found ∧ current.filter (· ∉ target) = [] := by
  induction current with
  | nil => simpa [extraNodeFrom, hFound, eq_comm] using h
  | cons nodeID rest ih =>
    rw [extraNodeFrom] at h
    split at h
    · rename_i hIn
      simpa [hIn] using ih h
    · cases h

theorem extraNode_some (hNamed : "" ∉ current) (h : extraNode current target = some extra) :
    current.filter (· ∉ target) = [extra] := by
  unfold extraNode at h
  induction current with
  | nil => simp [extraNodeFrom] at h
  | cons nodeID rest ih =>
    rw [extraNodeFrom] at h
    split at h
    · rename_i hIn
      simpa [hIn] using ih (fun hMem => hNamed (List.mem_cons_of_mem _ hMem)) h
    · rename_i hOut
      have hHead : nodeID ≠ "" := fun hEq => hNamed (hEq ▸ List.mem_cons_self)
      rw [if_neg (by simp)] at h
      obtain ⟨rfl, hRest⟩ := extraNodeFrom_found hHead h
      simpa [hOut] using hRest

theorem oneMemberReplacement_some {added removed : String} (hNamed : "" ∉ target)
    (h : oneMemberReplacement current target = some (added, removed)) :
    added ∈ target ∧ added ∉ current := by
  obtain ⟨found, hAdded, hRest⟩ := Option.bind_eq_some_iff.mp h
  obtain ⟨_, _, hPair⟩ := Option.bind_eq_some_iff.mp hRest
  cases hPair
  have hMem := List.mem_filter.mp (extraNode_some hNamed hAdded ▸ List.mem_singleton_self _)
  exact ⟨hMem.1, by simpa using hMem.2⟩

theorem active_of_settled (h : ¬hasPendingReplicaState chain = true) {replica : Replica}
    (hReplica : replica ∈ chain.replicas) : replica.state = .active := by
  simp only [hasPendingReplicaState, hasJoiningReplica, hasLeavingReplica, Bool.or_eq_true,
    List.any_eq_true, decide_eq_true_eq, not_or, not_exists, not_and] at h
  cases hState : replica.state with
  | active => rfl
  | joining => exact absurd hState (h.1 replica hReplica)
  | leaving => exact absurd hState (h.2 replica hReplica)

theorem activeReplicaIDs_of_settled (h : ¬hasPendingReplicaState chain = true) :
    activeReplicaIDs chain = replicaIDs chain.replicas := by
  rw [activeReplicaIDs, List.filter_eq_self.mpr]
  intro replica hReplica
  simpa using active_of_settled h hReplica

/-- A desired chain for `state`: as many distinct, known, alive nodes as the factor asks for. -/
structure Desired (state : ClusterState) (ids : List String) : Prop where
  nodup : ids.Nodup
  known : ∀ id ∈ ids, id ∈ state.nodesByID
  alive : ∀ id ∈ ids, state.isAlive id = true
  full : (ids.length : Int) = state.replicationFactor

theorem mem_activeReplicaIDsExcludingDraining
    (h : id ∈ activeReplicaIDsExcludingDraining state chain) :
    id ∈ activeIDs chain.replicas ∧ state.isDraining id = false := by
  obtain ⟨replica, hReplica, rfl⟩ := mem_replicaIDs.mp h
  simp only [List.mem_filter, Bool.and_eq_true, Bool.not_eq_true'] at hReplica
  exact ⟨mem_replicaIDs.mpr ⟨replica, List.mem_filter.mpr ⟨hReplica.1, hReplica.2.1⟩, rfl⟩,
    hReplica.2.2⟩

theorem mem_activeReplicaIDsWithDrain (h : id ∈ activeReplicaIDsWithDrain state chain) :
    id ∈ replicaIDs chain.replicas ∧ state.isDraining id = true := by
  obtain ⟨replica, hReplica, rfl⟩ := mem_replicaIDs.mp h
  simp only [List.mem_filter, Bool.and_eq_true] at hReplica
  exact ⟨mem_replicaIDs.mpr ⟨replica, hReplica.1, rfl⟩, hReplica.2.2⟩

theorem activeReplicaIDsWithDrain_eq_nil_iff :
    activeReplicaIDsWithDrain state chain = [] ↔
      ∀ id ∈ activeReplicaIDs chain, state.isDraining id = false := by
  simp only [activeReplicaIDsWithDrain, activeReplicaIDs, replicaIDs, List.map_eq_nil_iff,
    List.filter_eq_nil_iff, Bool.and_eq_true, decide_eq_true_eq, not_and, Bool.not_eq_true,
    List.forall_mem_map, List.mem_filter, and_imp]

theorem steady_of_first (hNamed : "" ∉ replicaIDs chain.replicas)
    (h : firstActiveDrainingReplicaID state chain = "") :
    activeReplicaIDsWithDrain state chain = [] := by
  cases hDraining : activeReplicaIDsWithDrain state chain with
  | nil => rfl
  | cons nodeID rest =>
    rw [firstActiveDrainingReplicaID, hDraining, List.headD_cons] at h
    subst h
    have hMem : "" ∈ activeReplicaIDsWithDrain state chain := hDraining ▸ List.mem_cons_self
    exact absurd (mem_activeReplicaIDsWithDrain hMem).1 hNamed

theorem draining_of_first (h : ¬firstActiveDrainingReplicaID state chain = "") :
    activeReplicaIDsWithDrain state chain ≠ [] := by
  intro hSteady
  rw [firstActiveDrainingReplicaID, hSteady] at h
  exact h rfl

theorem activeIDs_active_append_leaving (kept left : List String) :
    activeIDs (kept.map (⟨·, .active⟩) ++ left.map (⟨·, .leaving⟩)) = kept := by
  simp [activeIDs, List.filter_append, replicaIDs, Function.comp_def, List.filter_map]

theorem nodup_filter_ids (hSound : Sound state) (slot : Nat) (p : Replica → Bool) :
    (replicaIDs ((state.chainAt slot).replicas.filter p)).Nodup :=
  (hSound.nodup slot).sublist (List.filter_sublist.map _)

/-- With one node too many and exactly one of them outside the desired chain, the desired nodes
are all current ones. -/
theorem desired_subset_of_extra {desired : List String} (hCurrent : current.Nodup)
    (hLength : current.length = desired.length + 1)
    (hExtra : current.filter (· ∉ desired) = [extra]) : desired ⊆ current := by
  have hInside : (current.filter (· ∈ desired)).length = desired.length := by
    have hSplit := List.length_eq_length_filter_add (l := current) (fun id => decide (id ∈ desired))
    simp only [← decide_not] at hSplit
    rw [hExtra] at hSplit
    simp only [List.length_singleton] at hSplit
    omega
  have hSub : (current.filter (· ∈ desired)).Subperm desired :=
    (hCurrent.filter _).subperm (by intro id hid; simpa using (List.mem_filter.mp hid).2)
  intro id hid
  have hPerm := hSub.perm_of_length_le hInside.ge
  exact List.filter_subset_self _ (hPerm.mem_iff.mpr hid)

/-! ## States that differ in their chains -/

section Fields

variable {state later : ClusterState} (h : later = { state with chains := later.chains })

include h

theorem tables_isAlive (id : String) : later.isAlive id = state.isAlive id := by rw [h]; rfl

theorem tables_isDead (id : String) : later.isDead id = state.isDead id := by rw [h]; rfl

theorem tables_factor : later.replicationFactor = state.replicationFactor := by rw [h]

theorem tables_slotCount : later.slotCount = state.slotCount := by rw [h]

theorem tables_nodesByID : later.nodesByID = state.nodesByID := by rw [h]

theorem tables_placeable (id : String) : later.placeable id = state.placeable id := by rw [h]; rfl

end Fields

theorem Desired.of_tables {later : ClusterState} {ids : List String}
    (h : later = { state with chains := later.chains }) (hDesired : Desired state ids) :
    Desired later ids where
  nodup := hDesired.nodup
  known id hid := tables_nodesByID h ▸ hDesired.known id hid
  alive id hid := (tables_isAlive h id).trans (hDesired.alive id hid)
  full := hDesired.full.trans (tables_factor h).symm

/-! ## The placement -/

abbrev aimAt (chains : List Chain) (slot : Nat) : List String :=
  replicaIDs (desiredAt chains slot).replicas

def DesiredAll (state : ClusterState) (chains : List Chain) : Prop :=
  ∀ slot < state.slotCount.toNat, Desired state (replicaIDs (desiredAt chains slot).replicas)

variable {chains : List Chain}

theorem buildDesiredPlacement_placed (h : buildDesiredPlacementFromState state = .ok (some chains)) :
    Placed (orderedNodes state state.placeable) state.replicationFactor.toNat chains ∧
      chains.length = state.slotCount.toNat := by
  unfold buildDesiredPlacementFromState at h
  dsimp only at h
  split at h
  · cases h
  obtain ⟨built, hBuilt, hSome⟩ := bind_eq_ok.mp h
  cases hSome
  exact buildSteadyStateChains_ok hBuilt

theorem buildDesiredPlacement_mem (hSound : Sound state)
    (h : buildDesiredPlacementFromState state = .ok (some chains))
    (hid : id ∈ replicaIDs (desiredAt chains slot).replicas) :
    id ∈ state.nodesByID ∧ state.placeable id = true := by
  obtain ⟨hPlaced, -⟩ := buildDesiredPlacement_placed h
  by_cases hBound : slot < chains.length
  · have hMem : desiredAt chains slot ∈ chains := by simp [desiredAt, hBound]
    obtain ⟨node, hNode, rfl⟩ := (hPlaced.drawn _ hMem).member id hid
    exact mem_orderedNodes hNode hSound
  · simp [desiredAt, hBound, replicaIDs] at hid

theorem buildDesiredPlacement_ok (hSound : Sound state)
    (h : buildDesiredPlacementFromState state = .ok (some chains)) : DesiredAll state chains := by
  obtain ⟨hPlaced, hLength⟩ := buildDesiredPlacement_placed h
  intro slot hSlot
  have hMem : desiredAt chains slot ∈ chains := by
    have hBound : slot < chains.length := by omega
    simp [desiredAt, hBound]
  refine ⟨(hPlaced.drawn _ hMem).nodup, fun id hid => (buildDesiredPlacement_mem hSound h hid).1,
    fun id hid => placeable_isAlive (buildDesiredPlacement_mem hSound h hid).2, ?_⟩
  have hFull := hPlaced.full _ hMem
  have hFactor := hSound.factor
  simp only [replicaIDs, List.length_map]
  omega

theorem buildDesired_tables {later : ClusterState}
    (h : later = { state with chains := later.chains }) :
    buildDesiredPlacementFromState later = buildDesiredPlacementFromState state := by
  rw [h]
  rfl

theorem mem_appendPrioritySlots (hSound : Sound state) (h : slot ∈ appendPrioritySlots state) :
    slot < state.slotCount.toNat := by
  unfold appendPrioritySlots at h
  rw [List.mem_insertionSort] at h
  obtain ⟨chain, hChain, rfl⟩ := List.mem_map.mp h
  obtain ⟨i, hi⟩ := List.getElem?_of_mem hChain
  have hBound : i < state.chains.length := (List.getElem?_eq_some_iff.mp hi).1
  rw [hSound.slot i chain hi]
  have hCount := hSound.count
  omega

end Craq.Coordinator
