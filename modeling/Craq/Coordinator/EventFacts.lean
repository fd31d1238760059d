import Craq.Coordinator.ReconcileFacts

/-! # What validation and one event do to the invariant

Validation fills in health entries and repairs slot numbers, so it is invisible to the invariant.
Membership events leave every chain alone; a progress event changes one chain.
-/

namespace Craq.Coordinator

open Craq.Lib

variable {index : Nat}

theorem countP_modify_of_eq {α : Type} {p : α → Bool} {f : α → α} {items : List α} {item : α}
    (hIndex : items[index]? = some item) (h : p (f item) = p item) :
    (items.modify index f).countP p = items.countP p := by
  induction items generalizing index with
  | nil => cases hIndex
  | cons first rest ih =>
    cases index with
    | zero =>
      injection hIndex with hIndex
      subst hIndex
      simp [List.countP_cons, h]
    | succ index =>
      rw [List.modify_succ_cons, List.countP_cons, List.countP_cons, ih (by simpa using hIndex)]

/-! ## Validation -/

/-- Missing health entries may appear, but no node becomes or stops being dead. -/
structure HealthFilled (health filled : Std.ExtTreeMap String NodeHealth) : Prop where
  kept : ∀ id, id ∈ health → id ∈ filled
  dead : ∀ id : String, filled[id]? = some NodeHealth.dead ↔ health[id]? = some NodeHealth.dead

theorem HealthFilled.refl (health : Std.ExtTreeMap String NodeHealth) :
    HealthFilled health health := ⟨fun _ h => h, fun _ => Iff.rfl⟩

variable {health : Std.ExtTreeMap String NodeHealth} {state : ClusterState}

theorem HealthFilled.insertIfNew {filled : Std.ExtTreeMap String NodeHealth}
    (h : HealthFilled health filled) (id : String) :
    HealthFilled health (filled.insertIfNew id .alive) where
  kept other hOther := Std.ExtTreeMap.mem_insertIfNew.mpr (.inr (h.kept other hOther))
  dead other := by
    rw [← h.dead other, Std.ExtTreeMap.getElem?_insertIfNew]
    split
    · rename_i hNew
      have hNone : filled[other]? = none := by
        rw [← Std.LawfulEqCmp.compare_eq_iff_eq.mp hNew.1]
        exact Std.ExtTreeMap.getElem?_eq_none hNew.2
      simp [hNone]
    · rfl

theorem checkNodeOrder_ok {nodesByID : Std.ExtTreeMap String Node} {order seen : List String}
    {start filled : Std.ExtTreeMap String NodeHealth} (hStart : HealthFilled start health)
    (h : checkNodeOrder nodesByID order seen health = .ok filled) : HealthFilled start filled := by
  induction order generalizing seen health with
  | nil =>
    cases h
    exact hStart
  | cons id rest ih =>
    rw [checkNodeOrder, ite_error_eq_ok, ite_error_eq_ok] at h
    exact ih (hStart.insertIfNew id) h.2.2

theorem fillHealth (ids : List String) {start : Std.ExtTreeMap String NodeHealth}
    (hStart : HealthFilled start health) :
    HealthFilled start (ids.foldl (fun health id => health.insertIfNew id .alive) health) := by
  induction ids generalizing health with
  | nil => exact hStart
  | cons id rest ih => exact ih (hStart.insertIfNew id)

/-- A state that differs from `state` only where the invariant does not look. -/
structure SameCluster (state copy : ClusterState) : Prop where
  replicas : ∀ i, (copy.chainAt i).replicas = (state.chainAt i).replicas
  isDead : ∀ id, copy.isDead id = state.isDead id
  factor : copy.replicationFactor = state.replicationFactor

theorem cloneAndValidateState_ok {copy : ClusterState} (hSound : Sound state)
    (h : cloneAndValidateState state = .ok copy) : Sound copy ∧ SameCluster state copy := by
  unfold cloneAndValidateState at h
  obtain ⟨_, -, h⟩ := bind_eq_ok.mp h
  rw [ite_error_eq_ok] at h
  obtain ⟨ordered, hOrdered, h⟩ := bind_eq_ok.mp h.2
  obtain ⟨_, -, h⟩ := bind_eq_ok.mp h
  cases h
  have hFilled := fillHealth state.nodesByID.keys
    (checkNodeOrder_ok (.refl state.nodeHealthByID) hOrdered)
  have hReplicas : ∀ i, ((renumberChains state.chains)[i]?.getD ⟨i, []⟩).replicas =
      (state.chainAt i).replicas := by
    intro i
    simp only [renumberChains, List.getElem?_mapIdx, ClusterState.chainAt]
    cases state.chains[i]? <;> rfl
  have hDead : ∀ id : String, (((state.nodesByID.keys.foldl
      (fun health id => health.insertIfNew id .alive) ordered)[id]? = some NodeHealth.dead : Bool)) =
      state.isDead id := by
    intro id
    simp only [ClusterState.isDead, hFilled.dead]
  have hOrder : (if state.nodeOrder.isEmpty then state.nodesByID.keys else state.nodeOrder) =
      state.nodeOrder := by
    split
    · rename_i hEmpty
      have hNil : state.nodeOrder = [] := by simpa using hEmpty
      rw [hNil, List.eq_nil_iff_forall_not_mem]
      intro id hid
      have hMem := (hSound.orderKeys id).mpr (Std.ExtTreeMap.mem_keys.mp hid)
      rw [hNil] at hMem
      cases hMem
    · rfl
  rw [hOrder]
  refine ⟨⟨hSound.factor, ?_, ?_, ?_, ?_, hSound.orderNodup, hSound.orderKeys, ?_, hSound.ids,
    hSound.named, ?_, ?_⟩, hReplicas, hDead, rfl⟩
  · simpa [renumberChains] using hSound.count
  · intro i chain hi
    simp only [renumberChains, List.getElem?_mapIdx, Option.map_eq_some_iff] at hi
    obtain ⟨_, _, rfl⟩ := hi
    rfl
  · intro i
    change (replicaIDs ((renumberChains state.chains)[i]?.getD ⟨i, []⟩).replicas).Nodup
    rw [hReplicas]
    exact hSound.nodup i
  · intro i id hid
    change id ∈ replicaIDs ((renumberChains state.chains)[i]?.getD ⟨i, []⟩).replicas at hid
    rw [hReplicas] at hid
    exact hSound.known i id hid
  · exact fun id hid => hFilled.kept id (hSound.health id hid)
  · intro id hid hMem
    refine hSound.deadNotReady id ((hDead id).symm.trans hid) ?_
    exact Std.ExtTreeMap.mem_of_mem_filter hMem
  · intro id hid hMem
    refine hSound.deadNotDraining id ((hDead id).symm.trans hid) ?_
    exact Std.ExtTreeMap.mem_of_mem_filter hMem

/-! ## Normalized nodes -/

/-- The three results of `normalizeNodes` describe the same distinct, named nodes. -/
structure Normal (normalized : NormalizedNodes) : Prop where
  order : normalized.nodeOrder = normalized.nodes.map (·.id)
  nodup : normalized.nodeOrder.Nodup
  keys : ∀ id, id ∈ normalized.nodesByID ↔ id ∈ normalized.nodeOrder
  ids : ∀ (id : String) (node : Node), normalized.nodesByID[id]? = some node → node.id = id
  named : "" ∉ normalized.nodesByID

theorem normalizeNodesFrom_ok {acc normalized : NormalizedNodes} {nodes : List Node}
    (hAcc : Normal acc) (h : normalizeNodesFrom acc nodes = .ok normalized) :
    Normal normalized ∧ normalized.nodeOrder = acc.nodeOrder ++ nodes.map (·.id) := by
  induction nodes generalizing acc with
  | nil =>
    cases h
    exact ⟨hAcc, by simp⟩
  | cons node rest ih =>
    rw [normalizeNodesFrom, ite_error_eq_ok, ite_error_eq_ok] at h
    obtain ⟨hNamed, hFresh, h⟩ := h
    obtain ⟨_, -, h⟩ := bind_eq_ok.mp h
    have hFreshOrder : node.id ∉ acc.nodeOrder := fun hMem => hFresh ((hAcc.keys _).mpr hMem)
    have hNext : Normal
        { nodes := acc.nodes ++ [normalizeNode node]
          nodesByID := acc.nodesByID.insert node.id (normalizeNode node)
          nodeOrder := acc.nodeOrder ++ [node.id] } := by
      refine ⟨by simp [hAcc.order, normalizeNode], ?_, ?_, ?_, ?_⟩
      · exact List.nodup_append_comm.mp (List.nodup_cons.mpr ⟨hFreshOrder, hAcc.nodup⟩)
      · intro id
        simp only [Std.ExtTreeMap.mem_insert, Std.LawfulEqCmp.compare_eq_iff_eq, hAcc.keys,
          List.mem_append, List.mem_singleton]
        grind
      · intro id other hOther
        rw [Std.ExtTreeMap.getElem?_insert] at hOther
        split at hOther
        · rename_i hEq
          cases hOther
          exact Std.LawfulEqCmp.compare_eq_iff_eq.mp hEq
        · exact hAcc.ids id other hOther
      · simp [hNamed, hAcc.named]
    obtain ⟨hNormal, hOrder⟩ := ih hNext h
    exact ⟨hNormal, by simpa using hOrder⟩

theorem normalizeNodes_ok {nodes : List Node} {normalized : NormalizedNodes}
    (h : normalizeNodes nodes = .ok normalized) :
    Normal normalized ∧ normalized.nodeOrder = nodes.map (·.id) := by
  rw [normalizeNodes, ite_error_eq_ok] at h
  refine normalizeNodesFrom_ok ⟨rfl, List.nodup_nil, ?_, ?_, ?_⟩ h.2 <;> simp

/-! ## Membership events -/

theorem Sound.register (hSound : Sound state) {node : Node} {ready : Bool} (hNamed : node.id ≠ "")
    (hFresh : node.id ∉ state.nodesByID) :
    Sound { state with
      nodesByID := state.nodesByID.insert node.id node
      nodeHealthByID := state.nodeHealthByID.insert node.id .alive
      readyNodeIDs := if ready then state.readyNodeIDs.insert node.id true
        else state.readyNodeIDs.erase node.id
      nodeOrder := state.nodeOrder ++ [node.id]
      drainingNodeIDs := state.drainingNodeIDs.erase node.id } where
  factor := hSound.factor
  count := hSound.count
  slot := hSound.slot
  nodup := hSound.nodup
  known i id hid := by simp [hSound.known i id hid]
  orderNodup := List.nodup_append_comm.mp (List.nodup_cons.mpr
    ⟨fun hMem => hFresh ((hSound.orderKeys _).mp hMem), hSound.orderNodup⟩)
  orderKeys id := by
    simp only [Std.ExtTreeMap.mem_insert, Std.LawfulEqCmp.compare_eq_iff_eq, hSound.orderKeys,
      List.mem_append, List.mem_singleton]
    grind
  health id hid := by
    rw [Std.ExtTreeMap.mem_insert] at hid ⊢
    exact hid.imp_right (hSound.health id)
  ids id other hOther := by
    rw [Std.ExtTreeMap.getElem?_insert] at hOther
    split at hOther
    · rename_i hEq
      cases hOther
      exact Std.LawfulEqCmp.compare_eq_iff_eq.mp hEq
    · exact hSound.ids id other hOther
  named := by simp [hNamed, hSound.named]
  deadNotReady id hid := by
    by_cases hEq : id = node.id
    · simp [ClusterState.isDead, hEq] at hid
    · have hOld := hSound.deadNotReady id
        (by simpa [ClusterState.isDead, Std.ExtTreeMap.getElem?_insert, Ne.symm hEq] using hid)
      split <;> simp [hOld, Ne.symm hEq]
  deadNotDraining id hid := by
    by_cases hEq : id = node.id
    · simp [ClusterState.isDead, hEq] at hid
    · have hOld := hSound.deadNotDraining id
        (by simpa [ClusterState.isDead, Std.ExtTreeMap.getElem?_insert, Ne.symm hEq] using hid)
      simp [hOld]

variable {nodeID : String} {updated : ClusterState}

theorem Sound.markReady (hSound : Sound state) (hAlive : state.isDead nodeID = false) :
    Sound { state with readyNodeIDs := state.readyNodeIDs.insert nodeID true } where
  __ := hSound
  deadNotReady id hDead hMem := by
    rw [Std.ExtTreeMap.mem_insert, Std.LawfulEqCmp.compare_eq_iff_eq] at hMem
    rcases hMem with rfl | hMem
    · exact absurd (hAlive.symm.trans hDead) (by decide)
    · exact hSound.deadNotReady id hDead hMem

theorem Sound.markDraining (hSound : Sound state) (hAlive : state.isDead nodeID = false) :
    Sound { state with drainingNodeIDs := state.drainingNodeIDs.insert nodeID true } where
  __ := hSound
  deadNotDraining id hDead hMem := by
    rw [Std.ExtTreeMap.mem_insert, Std.LawfulEqCmp.compare_eq_iff_eq] at hMem
    rcases hMem with rfl | hMem
    · exact absurd (hAlive.symm.trans hDead) (by decide)
    · exact hSound.deadNotDraining id hDead hMem

theorem Sound.markDead (hSound : Sound state) (nodeID : String) :
    Sound { state with
      nodeHealthByID := state.nodeHealthByID.insert nodeID .dead
      readyNodeIDs := state.readyNodeIDs.erase nodeID
      drainingNodeIDs := state.drainingNodeIDs.erase nodeID } where
  __ := hSound
  health id hid := by simp [hSound.health id hid]
  deadNotReady id hDead := by
    by_cases hEq : id = nodeID
    · simp [hEq]
    · have hOld := hSound.deadNotReady id
        (by simpa [ClusterState.isDead, Std.ExtTreeMap.getElem?_insert, Ne.symm hEq] using hDead)
      simp [hOld]
  deadNotDraining id hDead := by
    by_cases hEq : id = nodeID
    · simp [hEq]
    · have hOld := hSound.deadNotDraining id
        (by simpa [ClusterState.isDead, Std.ExtTreeMap.getElem?_insert, Ne.symm hEq] using hDead)
      simp [hOld]

theorem addNode_ok {node : Node} {ready : Bool} (hSound : Sound state)
    (h : addNode state node ready = .ok updated) :
    Sound updated ∧ updated.chains = state.chains ∧
      updated.replicationFactor = state.replicationFactor ∧
      ∀ id ∈ state.nodesByID, updated.isDead id = state.isDead id := by
  obtain ⟨normalized, hNormalized, h⟩ := bind_eq_ok.mp h
  obtain ⟨hNormal, hOrder⟩ := normalizeNodes_ok hNormalized
  obtain ⟨normalNode, hNodes, hID⟩ :=
    List.map_eq_singleton_iff.mp (hNormal.order.symm.trans hOrder)
  have hMember : node.id ∈ normalized.nodesByID := (hNormal.keys _).mpr (by simp [hOrder])
  obtain ⟨stored, hStored⟩ :=
    Option.isSome_iff_exists.mp (Std.ExtTreeMap.mem_iff_isSome_getElem?.mp hMember)
  have hStoredID := hNormal.ids _ _ hStored
  have hNamed : node.id ≠ "" := fun hEq => hNormal.named (hEq ▸ hMember)
  simp only [hOrder, hNodes, List.map_cons, List.map_nil, List.headD_cons, hID, hStored,
    Option.getD_some] at h
  split at h
  · rw [ite_error_eq_ok, ite_error_eq_ok] at h
    obtain ⟨hAlive, -, h⟩ := h
    split at h
    · cases h
      exact ⟨hSound.markReady (by simpa using hAlive), rfl, rfl, fun _ _ => rfl⟩
    · cases h
      exact ⟨hSound, rfl, rfl, fun _ _ => rfl⟩
  · rename_i hNew
    cases h
    have hFresh : node.id ∉ state.nodesByID := by
      rw [Std.ExtTreeMap.mem_iff_isSome_getElem?, hNew]
      simp
    rw [← hStoredID] at hNamed hFresh ⊢
    refine ⟨hSound.register hNamed hFresh, rfl, rfl, ?_⟩
    intro id hid
    have hNe : stored.id ≠ id := fun hEq => hFresh (hEq ▸ hid)
    simp [ClusterState.isDead, Std.ExtTreeMap.getElem?_insert, hNe]

/-! ## Progress events -/

theorem replicaIDs_modify (replicas : List Replica) (index : Nat) (state : ReplicaState) :
    replicaIDs (replicas.modify index fun replica => { replica with state }) =
      replicaIDs replicas := by
  apply List.ext_getElem?
  intro i
  simp only [replicaIDs, List.getElem?_map, List.getElem?_modify]
  cases replicas[i]? with
  | none => rfl
  | some replica => by_cases hi : index = i <;> simp [hi]

theorem findReplicaIndex_some {chain : Chain} (h : findReplicaIndex chain nodeID = some index) :
    ∃ replica, chain.replicas[index]? = some replica ∧ replica.nodeID = nodeID := by
  obtain ⟨hBound, hID, -⟩ := List.findIdx?_eq_some_iff_getElem.mp h
  exact ⟨chain.replicas[index], List.getElem?_eq_getElem hBound, by simpa using hID⟩

theorem activeIDs_modify_subset (replicas : List Replica) (index : Nat) :
    activeIDs replicas ⊆
      activeIDs (replicas.modify index fun replica => { replica with state := .active }) := by
  intro id hid
  obtain ⟨replica, hReplica, rfl⟩ := mem_replicaIDs.mp hid
  obtain ⟨hMem, hActive⟩ := List.mem_filter.mp hReplica
  obtain ⟨i, hi⟩ := List.getElem?_of_mem hMem
  have hSame : (replicas.modify index fun replica => { replica with state := .active })[i]? =
      some replica := by
    rw [List.getElem?_modify, hi]
    by_cases hIndex : index = i
    · have hState : replica.state = .active := by simpa using hActive
      simp [hIndex, ← hState]
    · simp [hIndex]
  exact mem_replicaIDs.mpr
    ⟨replica, List.mem_filter.mpr ⟨List.mem_of_getElem? hSame, hActive⟩, rfl⟩

theorem activeIDs_modify_mem {replicas : List Replica} {joined : Replica}
    (hIndex : replicas[index]? = some joined) {id : String}
    (h : id ∈ activeIDs
      (replicas.modify index fun replica => { replica with state := .active })) :
    id ∈ activeIDs replicas ∨ id = joined.nodeID := by
  obtain ⟨replica, hReplica, rfl⟩ := mem_replicaIDs.mp h
  obtain ⟨hMem, hActive⟩ := List.mem_filter.mp hReplica
  obtain ⟨i, hi⟩ := List.getElem?_of_mem hMem
  rw [List.getElem?_modify] at hi
  by_cases hEq : index = i
  · subst hEq
    rw [hIndex] at hi
    simp only [if_true, Option.map_eq_map, Option.map_some, Option.some.injEq] at hi
    exact .inr (by rw [← hi])
  · simp only [hEq, if_false] at hi
    refine .inl (mem_replicaIDs.mpr ⟨replica, List.mem_filter.mpr ⟨?_, hActive⟩, rfl⟩)
    exact List.mem_of_getElem? (by simpa using hi)

theorem activeIDs_eraseIdx {replicas : List Replica} {removed : Replica}
    (hIndex : replicas[index]? = some removed) (hState : removed.state ≠ .active) :
    activeIDs (replicas.eraseIdx index) = activeIDs replicas := by
  obtain ⟨hBound, rfl⟩ := List.getElem?_eq_some_iff.mp hIndex
  have hSplit : replicas.filter (·.state = .active) =
      (replicas.take index ++ replicas[index] :: replicas.drop (index + 1)).filter
        (·.state = .active) := by
    rw [← List.drop_eq_getElem_cons hBound, List.take_append_drop]
  rw [activeIDs, activeIDs, hSplit, List.eraseIdx_eq_take_drop_succ, List.filter_append,
    List.filter_append, List.filter_cons_of_neg (by simpa using hState)]

/-- What a progress event does: it keeps the invariant, adds no node to a chain, and activates at
most the replica it names. -/
structure Progressed (state : ClusterState) (event : Event) (updated : ClusterState) : Prop where
  sound : Sound updated
  factor : updated.replicationFactor = state.replicationFactor
  isDead : ∀ id, updated.isDead id = state.isDead id
  ids_subset : ∀ i, updated.idsAt i ⊆ state.idsAt i
  active_kept : DeadFree state → ∀ i, state.activesAt i ⊆ updated.activesAt i
  active_new : ∀ i, ∀ id ∈ updated.activesAt i, id ∈ state.activesAt i ∨
    (event.kind = .replicaBecameActive ∧ event.slot = i ∧ event.nodeID = id)

variable {event : Event}

theorem activateReplica_progressed (hSound : Sound state) (hSlot : 0 ≤ event.slot)
    (hKind : event.kind = .replicaBecameActive) {joined : Replica}
    (hIndex : (state.chainAt event.slot.toNat).replicas[index]? = some joined)
    (hID : joined.nodeID = event.nodeID) :
    Progressed state event (activateReplica state event.slot.toNat index) := by
  have hIDs := replicaIDs_modify (state.chainAt event.slot.toNat).replicas index .active
  refine ⟨hSound.setReplicas (hIDs ▸ hSound.nodup _) (hIDs ▸ hSound.known _), rfl, fun _ => rfl,
    ?_, ?_, ?_⟩
  · exact setReplicas_pointwise state _ _
      (R := fun _ old new => replicaIDs new ⊆ replicaIDs old) (fun _ _ => List.Subset.refl _)
      (hIDs ▸ List.Subset.refl _)
  · exact fun _ => setReplicas_pointwise state _ _
      (R := fun _ old new => activeIDs old ⊆ activeIDs new) (fun _ _ => List.Subset.refl _)
      (activeIDs_modify_subset _ index)
  · refine setReplicas_pointwise state _ _
      (R := fun i old new => ∀ id ∈ activeIDs new, id ∈ activeIDs old ∨
        (event.kind = .replicaBecameActive ∧ event.slot = i ∧ event.nodeID = id))
      (fun _ _ _ hid => .inl hid) fun id hid => ?_
    rcases activeIDs_modify_mem hIndex hid with hOld | hNew
    · exact .inl hOld
    · exact .inr ⟨hKind, (Int.toNat_of_nonneg hSlot).symm, (hNew.trans hID).symm⟩

theorem removeReplica_progressed (hSound : Sound state) {slot : Nat} {removed : Replica}
    (hIndex : (state.chainAt slot).replicas[index]? = some removed)
    (hState : DeadFree state → removed.state ≠ .active) :
    Progressed state event (removeReplica state slot index event.nodeID) := by
  have hSublist := (state.chainAt slot).replicas.eraseIdx_sublist index
  have hIDs : (replicaIDs ((state.chainAt slot).replicas.eraseIdx index)).Sublist
      (state.idsAt slot) := hSublist.map _
  have hRemoved : Progressed state event
      (state.setReplicas slot ((state.chainAt slot).replicas.eraseIdx index)) := by
    refine ⟨hSound.setReplicas (hIDs.nodup (hSound.nodup slot))
      fun id hid => hSound.known slot id (hIDs.subset hid), rfl, fun _ => rfl, ?_, ?_, ?_⟩
    · exact setReplicas_pointwise state slot _
        (R := fun _ old new => replicaIDs new ⊆ replicaIDs old) (fun _ _ => List.Subset.refl _)
        hIDs.subset
    · exact fun hFree => setReplicas_pointwise state slot _
        (R := fun _ old new => activeIDs old ⊆ activeIDs new) (fun _ _ => List.Subset.refl _)
        (activeIDs_eraseIdx hIndex (hState hFree) ▸ List.Subset.refl _)
    · exact setReplicas_pointwise state slot _
        (R := fun i old new => ∀ id ∈ activeIDs new, id ∈ activeIDs old ∨
          (event.kind = .replicaBecameActive ∧ event.slot = i ∧ event.nodeID = id))
        (fun _ _ _ hid => .inl hid) (fun id hid => .inl (((hSublist.filter _).map _).subset hid))
  unfold removeReplica
  dsimp only
  split
  · exact { hRemoved with
      sound := { hRemoved.sound with
        deadNotDraining := fun id hDead hMem =>
          hRemoved.sound.deadNotDraining id hDead (Std.ExtTreeMap.mem_of_mem_erase hMem) } }
  · exact hRemoved

/-- A successful report is the activation of a joining replica or the removal of one that is
leaving or dead. -/
theorem applyProgressEvent_cases (h : applyProgressEvent state event = .ok updated) :
    0 ≤ event.slot ∧ ∃ index replica,
      (state.chainAt event.slot.toNat).replicas[index]? = some replica ∧
      replica.nodeID = event.nodeID ∧
      ((event.kind = .replicaBecameActive ∧ replica.state = .joining ∧
          updated = activateReplica state event.slot.toNat index) ∨
        (event.kind = .replicaRemoved ∧
          (replica.state = .leaving ∨ state.isDead event.nodeID = true) ∧
          updated = removeReplica state event.slot.toNat index event.nodeID)) := by
  rw [applyProgressEvent, ite_error_eq_ok, ite_error_eq_ok] at h
  obtain ⟨hSlot, -, h⟩ := h
  dsimp only at h
  split at h
  · cases h
  rename_i index hFound
  obtain ⟨replica, hIndex, hID⟩ := findReplicaIndex_some hFound
  simp only [hIndex, Option.map_some, Option.getD_some] at h
  refine ⟨by omega, index, replica, hIndex, hID, ?_⟩
  split at h
  · rename_i hKind
    rw [ite_error_eq_ok] at h
    cases h.2
    exact .inl ⟨hKind, not_not.mp h.1, rfl⟩
  · rename_i hKind
    rw [ite_error_eq_ok] at h
    cases h.2
    refine .inr ⟨hKind, ?_, rfl⟩
    by_cases hLeaving : replica.state = .leaving
    · exact .inl hLeaving
    · exact .inr (not_not.mp fun hAlive => h.1 ⟨hLeaving, hAlive⟩)
  · cases h

theorem applyProgressEvent_ok (hSound : Sound state)
    (h : applyProgressEvent state event = .ok updated) : Progressed state event updated := by
  obtain ⟨hSlot, index, replica, hIndex, hID, hCase⟩ := applyProgressEvent_cases h
  rcases hCase with ⟨hKind, -, rfl⟩ | ⟨-, hRemovable, rfl⟩
  · exact activateReplica_progressed hSound hSlot hKind hIndex hID
  · refine removeReplica_progressed hSound hIndex fun hFree hActive => ?_
    have hMem := mem_replicaIDs.mpr ⟨replica, List.mem_of_getElem? hIndex, hID⟩
    rcases hRemovable with hLeaving | hDead
    · rw [hActive] at hLeaving
      cases hLeaving
    · rw [hFree _ _ hMem] at hDead
      cases hDead

end Craq.Coordinator
