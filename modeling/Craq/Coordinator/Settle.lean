import Craq.Coordinator.Length
import Craq.Coordinator.Changed
import Craq.Lib.Descent

/-! # Reconfiguration settles

A round reconciles once and reports every step of the plan as carried out.  The node tables stay as
they are, so every round aims at the same placement, and each slot that a round changes comes nearer
to it or nearer to the end of its drain.
-/

namespace Craq.Coordinator

open Craq.Lib

/-! ## Rounds -/

def StepKind.report : StepKind → EventKind
  | .appendTail => .replicaBecameActive
  | .markLeaving => .replicaRemoved

def SlotPlan.reports (slotPlan : SlotPlan) : List Event :=
  slotPlan.steps.map fun step => ⟨step.kind.report, zeroNode, step.nodeID, slotPlan.slot⟩

def ReconfigurationPlan.reports (plan : ReconfigurationPlan) : List Event :=
  plan.changedSlots.flatMap SlotPlan.reports

/-- A plan without events, and all its steps carried out. -/
def planRound (policy : ReconfigurationPolicy) (state : ClusterState) :
    Except Error ClusterState := do
  let plan ← planReconfiguration state [] policy
  plan.reports.foldlM applyProgress plan.updatedState

def AtRest (policy : ReconfigurationPolicy) (state : ClusterState) : Prop :=
  ∀ plan, planReconfiguration state [] policy = .ok plan → plan.changedSlots = []

/-! ## The distance of a chain -/

/-- How far a chain is from its place in the placement: while it drains, every node that could still
be appended counts; then a chain with one replica too many is one step away, and a shorter one has
to grow first. -/
def distance (state : ClusterState) (aim : List String) (chain : Chain) : Nat :=
  if activeReplicaIDsWithDrain state chain ≠ [] then
    state.replicationFactor.toNat + 3 +
      (state.nodeOrder.filter (· ∉ replicaIDs chain.replicas)).length
  else if chain.replicas = aim.map (⟨·, .active⟩) then 0
  else if chain.replicas.length = state.replicationFactor.toNat + 1 then 1
  else state.replicationFactor.toNat + 2 - chain.replicas.length

variable {state : ClusterState} {aim : List String} {chain : Chain}

theorem distance_of_draining (h : activeReplicaIDsWithDrain state chain ≠ []) :
    distance state aim chain = state.replicationFactor.toNat + 3 +
      (state.nodeOrder.filter (· ∉ replicaIDs chain.replicas)).length :=
  if_pos h

section

variable (h : activeReplicaIDsWithDrain state chain = [])

include h

theorem distance_le_of_steady : distance state aim chain ≤ state.replicationFactor.toNat + 2 := by
  rw [distance, if_neg (not_not.mpr h)]
  split
  · exact Nat.zero_le _
  split
  · exact Nat.le_add_left 1 _
  · exact Nat.sub_le _ _

theorem distance_of_aim (hAim : chain.replicas = aim.map (⟨·, .active⟩)) :
    distance state aim chain = 0 := by
  rw [distance, if_neg (not_not.mpr h), if_pos hAim]

theorem distance_of_spare (hAim : chain.replicas ≠ aim.map (⟨·, .active⟩))
    (hLength : chain.replicas.length = state.replicationFactor.toNat + 1) :
    distance state aim chain = 1 := by
  rw [distance, if_neg (not_not.mpr h), if_neg hAim, if_pos hLength]

theorem distance_of_short (hAim : chain.replicas ≠ aim.map (⟨·, .active⟩))
    (hLength : chain.replicas.length ≤ state.replicationFactor.toNat) :
    distance state aim chain = state.replicationFactor.toNat + 2 - chain.replicas.length := by
  rw [distance, if_neg (not_not.mpr h), if_neg hAim, if_neg (by omega)]

end

/-! ## Turns -/

/-- The chain that a placement gives a slot: as many placeable nodes as the factor asks for. -/
structure Aimed (state : ClusterState) (aim : List String) : Prop where
  known : ∀ id ∈ aim, id ∈ state.nodesByID
  placeable : ∀ id ∈ aim, state.placeable id = true
  full : (aim.length : Int) = state.replicationFactor

/-- What a round does to a chain without dead replicas, before the reports. -/
inductive Turn (state : ClusterState) (aim : List String) (slot : Nat) (chain : Chain) :
    List Replica → List ReconfigurationStep → Prop where
  | drained (joinless : hasJoiningReplica chain = false)
      (draining : activeReplicaIDsWithDrain state chain ≠ []) :
      Turn state aim slot chain
        ((activeReplicaIDsExcludingDraining state chain).map (⟨·, .active⟩) ++
          (activeReplicaIDsWithDrain state chain).map (⟨·, .leaving⟩))
        ((activeReplicaIDsWithDrain state chain).map (⟨.markLeaving, slot, ·, ""⟩))
  | joined {extra : String} (settled : hasPendingReplicaState chain = false)
      (steady : activeReplicaIDsWithDrain state chain = []) (aimed : Aimed state aim)
      (spare : (chain.replicas.length : Int) = state.replicationFactor + 1) :
      Turn state aim slot chain (aim.map (⟨·, .active⟩) ++ [extra].map (⟨·, .leaving⟩))
        ([extra].map (⟨.markLeaving, slot, ·, ""⟩))
  | filled {nodeID replaced : String} (settled : hasPendingReplicaState chain = false)
      (steady : activeReplicaIDsWithDrain state chain = []) (aimed : Aimed state aim)
      (short : (chain.replicas.length : Int) < state.replicationFactor) (wanted : nodeID ∈ aim) :
      Turn state aim slot chain (chain.replicas ++ [⟨nodeID, .joining⟩])
        [⟨.appendTail, slot, nodeID, replaced⟩]
  | replaced {nodeID replaced : String} (settled : hasPendingReplicaState chain = false)
      (draining : activeReplicaIDsWithDrain state chain ≠ [])
      (fresh : nodeID ∉ replicaIDs chain.replicas) (known : nodeID ∈ state.nodesByID) :
      Turn state aim slot chain (chain.replicas ++ [⟨nodeID, .joining⟩])
        [⟨.appendTail, slot, nodeID, replaced⟩]
  | exchanged {nodeID replaced : String} (settled : hasPendingReplicaState chain = false)
      (steady : activeReplicaIDsWithDrain state chain = []) (aimed : Aimed state aim)
      (full : (chain.replicas.length : Int) = state.replicationFactor)
      (fresh : nodeID ∉ replicaIDs chain.replicas) (wanted : nodeID ∈ aim) :
      Turn state aim slot chain (chain.replicas ++ [⟨nodeID, .joining⟩])
        [⟨.appendTail, slot, nodeID, replaced⟩]

def settled (replicas : List Replica) : List Replica :=
  (replicas.filter (·.state ≠ .leaving)).map fun replica => ⟨replica.nodeID, .active⟩

theorem settled_retired (kept left : List String) :
    settled (kept.map (⟨·, .active⟩) ++ left.map (⟨·, .leaving⟩)) = kept.map (⟨·, .active⟩) := by
  have hKept : settled (kept.map (⟨·, .active⟩)) = kept.map (⟨·, .active⟩) := by
    induction kept with
    | nil => rfl
    | cons nodeID kept ih => exact congrArg (⟨nodeID, .active⟩ :: ·) ih
  have hLeft : (left.map (⟨·, .leaving⟩ : String → Replica)).filter (·.state ≠ .leaving) = [] := by
    simp
  rw [settled, List.filter_append, hLeft, List.append_nil]
  exact hKept

theorem settled_appended (h : hasPendingReplicaState chain = false) (nodeID : String) :
    settled (chain.replicas ++ [⟨nodeID, .joining⟩]) = chain.replicas ++ [⟨nodeID, .active⟩] := by
  have hActive : ∀ replica ∈ chain.replicas, replica.state = .active :=
    fun replica => active_of_settled (by simp [h])
  have hStay : chain.replicas.filter (·.state ≠ .leaving) = chain.replicas :=
    List.filter_eq_self.mpr fun replica hMem => by simp [hActive replica hMem]
  have hChain : chain.replicas.map (fun replica => (⟨replica.nodeID, .active⟩ : Replica)) =
      chain.replicas.map id := by
    refine List.map_congr_left fun replica hMem => ?_
    rw [← hActive replica hMem]
    rfl
  rw [settled, List.filter_append, hStay, List.map_append, hChain, List.map_id]
  rfl

section Falls

variable {state : ClusterState} {aim : List String} {chain : Chain}

theorem activeReplicaIDs_map_active (ids : List String) :
    activeReplicaIDs { chain with replicas := ids.map (⟨·, .active⟩) } = ids := by
  have h := activeIDs_active_append_leaving ids []
  rwa [List.map_nil, List.append_nil] at h

theorem activeReplicaIDs_append_active (nodeID : String) :
    activeReplicaIDs { chain with replicas := chain.replicas ++ [⟨nodeID, .active⟩] } =
      activeReplicaIDs chain ++ [nodeID] := by
  simp [activeReplicaIDs, replicaIDs, List.filter_append]

theorem Aimed.steady_append (h : Aimed state aim)
    (hSteady : activeReplicaIDsWithDrain state chain = []) {nodeID : String}
    (hWanted : nodeID ∈ aim) :
    activeReplicaIDsWithDrain state
      { chain with replicas := chain.replicas ++ [⟨nodeID, .active⟩] } = [] := by
  rw [activeReplicaIDsWithDrain_eq_nil_iff] at hSteady ⊢
  rw [activeReplicaIDs_append_active]
  intro id hid
  rcases List.mem_append.mp hid with hOld | hNew
  · exact hSteady id hOld
  · cases List.mem_singleton.mp hNew
    exact placeable_isDraining (h.placeable nodeID hWanted)

theorem Aimed.ne_of_length (h : Aimed state aim) {replicas : List Replica}
    (hLength : (replicas.length : Int) ≠ state.replicationFactor) :
    replicas ≠ aim.map (⟨·, .active⟩) := by
  rintro rfl
  rw [List.length_map] at hLength
  exact hLength h.full

/-- The node that has been appended no longer counts. -/
theorem length_filter_append_lt {order held : List String} {nodeID : String}
    (hFresh : nodeID ∉ held) (hMem : nodeID ∈ order) :
    (order.filter (· ∉ held ++ [nodeID])).length < (order.filter (· ∉ held)).length := by
  have hSplit : order.filter (· ∉ held ++ [nodeID]) =
      (order.filter (· ∉ held)).filter (· ≠ nodeID) := by
    rw [List.filter_filter]
    refine List.filter_congr fun id _ => ?_
    simp [and_comm]
  rw [hSplit]
  refine List.length_filter_lt_length_iff_exists.mpr ⟨nodeID, ?_, by simp⟩
  exact List.mem_filter.mpr ⟨hMem, by simpa using hFresh⟩

/-- Once its reports have come in, a turn has brought the chain nearer. -/
theorem Turn.falls (hSound : Sound state) {slot : Nat} {after : List Replica}
    {steps : List ReconfigurationStep} (h : Turn state aim slot chain after steps) :
    distance state aim { chain with replicas := settled after } < distance state aim chain := by
  have hFactor := hSound.factor
  cases h with
  | drained joinless draining =>
    rw [settled_retired, distance_of_draining draining]
    have hSteady : activeReplicaIDsWithDrain state { chain with
        replicas := (activeReplicaIDsExcludingDraining state chain).map (⟨·, .active⟩) } = [] := by
      rw [activeReplicaIDsWithDrain_eq_nil_iff, activeReplicaIDs_map_active]
      exact fun id hid => (mem_activeReplicaIDsExcludingDraining hid).2
    have hNear := @distance_le_of_steady state aim _ hSteady
    omega
  | joined settled steady aimed spare =>
    rw [settled_retired]
    have hSteady : activeReplicaIDsWithDrain state
        { chain with replicas := aim.map (⟨·, .active⟩) } = [] := by
      rw [activeReplicaIDsWithDrain_eq_nil_iff, activeReplicaIDs_map_active]
      exact fun id hid => placeable_isDraining (aimed.placeable id hid)
    rw [distance_of_aim hSteady rfl,
      distance_of_spare steady (aimed.ne_of_length (by omega)) (by omega)]
    exact Nat.one_pos
  | @filled nodeID replaced settled steady aimed short wanted =>
    rw [settled_appended settled, distance_of_short steady (aimed.ne_of_length (by omega)) (by omega)]
    have hSteady := aimed.steady_append steady wanted
    by_cases hAim : chain.replicas ++ [⟨nodeID, .active⟩] = aim.map (⟨·, .active⟩)
    · rw [distance_of_aim hSteady hAim]
      omega
    · rw [distance_of_short hSteady hAim (by simp only [List.length_append, List.length_singleton]; omega)]
      simp only [List.length_append, List.length_singleton]
      omega
  | @replaced nodeID replaced settled draining fresh known =>
    have hDraining : activeReplicaIDsWithDrain state
        { chain with replicas := chain.replicas ++ [⟨nodeID, .active⟩] } ≠ [] := by
      rw [ne_eq, activeReplicaIDsWithDrain_eq_nil_iff] at draining ⊢
      rw [activeReplicaIDs_append_active]
      exact fun hAll => draining fun id hid => hAll id (List.mem_append_left _ hid)
    rw [settled_appended settled, distance_of_draining draining, distance_of_draining hDraining,
      replicaIDs_append]
    exact Nat.add_lt_add_left
      (length_filter_append_lt fresh ((hSound.orderKeys nodeID).mpr known)) _
  | @exchanged nodeID replaced settled steady aimed full fresh wanted =>
    have hOther : chain.replicas ≠ aim.map (⟨·, .active⟩) := by
      intro hAim
      rw [hAim, replicaIDs_map_mk] at fresh
      exact fresh wanted
    have hLength : (chain.replicas ++ [(⟨nodeID, .active⟩ : Replica)]).length =
        state.replicationFactor.toNat + 1 := by
      rw [List.length_append, List.length_singleton]
      omega
    have hLonger : ((chain.replicas ++ [(⟨nodeID, .active⟩ : Replica)]).length : Int) ≠
        state.replicationFactor := by omega
    rw [settled_appended settled, distance_of_short steady hOther (by omega),
      distance_of_spare (aimed.steady_append steady wanted) (aimed.ne_of_length hLonger) hLength]
    omega

end Falls

/-! ## Reports -/

section Reports

variable {state : ClusterState} (hReachable : Reachable state)

include hReachable

variable {slot : Nat} {before behind : List Replica} {nodeID : String}

theorem findReplicaIndex_middle {replica : Replica}
    (hChain : (state.chainAt slot).replicas = before ++ replica :: behind) :
    findReplicaIndex (state.chainAt slot) replica.nodeID = some before.length := by
  have hNodup := hReachable.sound.1.nodup slot
  rw [ClusterState.idsAt, hChain] at hNodup
  cases hFound : findReplicaIndex (state.chainAt slot) replica.nodeID with
  | none =>
    rw [findReplicaIndex, hChain, List.findIdx?_eq_none_iff] at hFound
    have hOther := hFound replica (List.mem_append_right _ List.mem_cons_self)
    rw [decide_eq_false_iff_not] at hOther
    exact absurd rfl hOther
  | some index =>
    obtain ⟨found, hIndex, hID⟩ := findReplicaIndex_some hFound
    rw [hChain] at hIndex
    rw [index_of_nodup hNodup hIndex hID]

theorem applyProgressEvent_middle (hSlot : slot < state.chains.length) {replicaState : ReplicaState}
    (hChain : (state.chainAt slot).replicas = before ++ ⟨nodeID, replicaState⟩ :: behind) :
    (replicaState = .joining →
      applyProgressEvent state ⟨.replicaBecameActive, zeroNode, nodeID, slot⟩ =
        .ok (activateReplica state slot before.length)) ∧
    (replicaState = .leaving →
      applyProgressEvent state ⟨.replicaRemoved, zeroNode, nodeID, slot⟩ =
        .ok (removeReplica state slot before.length nodeID)) := by
  have hSound := hReachable.sound.1
  have hCount := hSound.count
  have hInside : ¬((slot : Int) < 0 ∨ state.slotCount ≤ slot) := by omega
  have hNamed : nodeID ≠ "" := by
    rintro rfl
    apply @Sound.named_of_mem state hSound slot
    rw [ClusterState.idsAt, hChain, replicaIDs_append]
    exact List.mem_append_right _ List.mem_cons_self
  have hFound := findReplicaIndex_middle hReachable hChain
  have hState : ((state.chainAt slot).replicas[before.length]?.map (·.state)).getD .active =
      replicaState := by
    rw [hChain, List.getElem?_append_right le_rfl, Nat.sub_self]
    rfl
  constructor
  · rintro rfl
    simp only [applyProgressEvent, if_neg hInside, if_neg hNamed, Int.toNat_natCast, hFound, hState]
    rfl
  · rintro rfl
    simp only [applyProgressEvent, if_neg hInside, if_neg hNamed, Int.toNat_natCast, hFound, hState]
    simp

theorem applyProgress_of_event {event : Event} {updated : ClusterState}
    (hKind : event.kind = .replicaBecameActive ∨ event.kind = .replicaRemoved)
    (h : applyProgressEvent state event = .ok updated) :
    applyProgress state event = .ok updated := by
  have hProgress : ¬(event.kind ≠ .replicaBecameActive ∧ event.kind ≠ .replicaRemoved) := by
    rintro ⟨hActive, hRemoved⟩
    exact hKind.elim hActive hRemoved
  rw [applyProgress, hReachable.copy]
  simp only [Except.mapError, bind, Except.bind, if_neg hProgress, h]

variable (hSlot : slot < state.chains.length)

include hSlot

theorem applyProgress_activated
    (hChain : (state.chainAt slot).replicas = before ++ ⟨nodeID, .joining⟩ :: behind) :
    applyProgress state ⟨.replicaBecameActive, zeroNode, nodeID, slot⟩ =
      .ok (state.setReplicas slot (before ++ ⟨nodeID, .active⟩ :: behind)) := by
  apply applyProgress_of_event hReachable (.inl rfl)
  rw [(applyProgressEvent_middle hReachable hSlot hChain).1 rfl, activateReplica, hChain,
    modify_middle]

/-- The drain marks of a reachable state are set or absent, so a removal clears none. -/
theorem applyProgress_removed
    (hChain : (state.chainAt slot).replicas = before ++ ⟨nodeID, .leaving⟩ :: behind) :
    applyProgress state ⟨.replicaRemoved, zeroNode, nodeID, slot⟩ =
      .ok (state.setReplicas slot (before ++ behind)) := by
  apply applyProgress_of_event hReachable (.inr rfl)
  have hErase : (before ++ ⟨nodeID, .leaving⟩ :: behind).eraseIdx before.length =
      before ++ behind := by
    rw [List.eraseIdx_append_of_length_le le_rfl, Nat.sub_self]
    rfl
  rw [(applyProgressEvent_middle hReachable hSlot hChain).2 rfl, removeReplica, hChain, hErase]
  split
  · rename_i hUnmarked
    simp only [Bool.and_eq_true, Bool.not_eq_true'] at hUnmarked
    have hAbsent : nodeID ∉ state.drainingNodeIDs := by
      intro hMem
      obtain ⟨mark, hMark⟩ := Option.isSome_iff_exists.mp
        (Std.ExtTreeMap.isSome_getElem?_iff_mem.mpr hMem)
      have hSet := hReachable.tidy.draining nodeID mark hMark
      rw [ClusterState.isDraining, hMark, hSet] at hUnmarked
      exact Bool.noConfusion hUnmarked.1.1
    have hSame : state.drainingNodeIDs.erase nodeID = state.drainingNodeIDs := by
      apply Std.ExtTreeMap.ext_getElem?
      intro id
      rw [getElem?_erase_ite]
      split
      · rename_i hID
        subst hID
        exact (Std.ExtTreeMap.getElem?_eq_none hAbsent).symm
      · rfl
    exact congrArg (fun marks => Except.ok { state.setReplicas slot (before ++ behind) with
      drainingNodeIDs := marks }) hSame
  · rfl

theorem removals_settle {kept : List Replica} {left : List String}
    (hChain : (state.chainAt slot).replicas = kept ++ left.map (⟨·, .leaving⟩)) :
    (left.map fun nodeID => (⟨.replicaRemoved, zeroNode, nodeID, slot⟩ : Event)).foldlM
      applyProgress state = .ok (state.setReplicas slot kept) := by
  induction left generalizing state with
  | nil =>
    rw [List.map_nil, List.append_nil] at hChain
    rw [← hChain, setReplicas_self]
    rfl
  | cons nodeID left ih =>
    have hRemoved := applyProgress_removed hReachable hSlot hChain
    have hNext := hReachable.progress hRemoved
    have hRest := ih hNext (by rwa [setReplicas_length])
      (by rw [setReplicas_chainAt_self _ _ _ hSlot])
    rw [setReplicas_setReplicas] at hRest
    rw [List.map_cons, List.foldlM_cons, hRemoved]
    exact hRest

theorem Turn.reports {start : ClusterState} {steps : List ReconfigurationStep}
    (h : Turn start aim slot chain (state.chainAt slot).replicas steps) :
    (steps.map fun step => (⟨step.kind.report, zeroNode, step.nodeID, slot⟩ : Event)).foldlM
      applyProgress state =
        .ok (state.setReplicas slot (settled (state.chainAt slot).replicas)) := by
  have hAppended {nodeID replaced : String} (hSettled : hasPendingReplicaState chain = false)
      (hChain : (state.chainAt slot).replicas = chain.replicas ++ [⟨nodeID, .joining⟩]) :
      ([⟨.appendTail, slot, nodeID, replaced⟩].map fun step : ReconfigurationStep =>
        (⟨step.kind.report, zeroNode, step.nodeID, slot⟩ : Event)).foldlM applyProgress state =
          .ok (state.setReplicas slot (settled (state.chainAt slot).replicas)) := by
    rw [hChain, settled_appended hSettled, List.map_singleton, List.foldlM_cons, StepKind.report,
      applyProgress_activated hReachable hSlot hChain]
    rfl
  have hRetired {kept left : List String}
      (hChain : (state.chainAt slot).replicas =
        kept.map (⟨·, .active⟩) ++ left.map (⟨·, .leaving⟩)) :
      ((left.map (⟨.markLeaving, slot, ·, ""⟩)).map fun step : ReconfigurationStep =>
        (⟨step.kind.report, zeroNode, step.nodeID, slot⟩ : Event)).foldlM applyProgress state =
          .ok (state.setReplicas slot (settled (state.chainAt slot).replicas)) := by
    rw [hChain, settled_retired, List.map_map]
    exact removals_settle hReachable hSlot hChain
  generalize hAfter : (state.chainAt slot).replicas = after at h
  rw [← hAfter]
  cases h with
  | drained joinless draining | joined settled steady aimed spare => exact hRetired hAfter
  | filled settled steady aimed short wanted | replaced settled draining fresh known
  | exchanged settled steady aimed full fresh wanted => exact hAppended settled hAfter

end Reports

/-! ## What a round has done -/

/-- The plans of a reconcile turn distinct chains, each once. -/
structure Turned (aims : List Chain) (start state : ClusterState) (plans : List SlotPlan) : Prop where
  tables : state = { start with chains := state.chains }
  length : state.chains.length = start.chains.length
  slots : (plans.map (·.slot)).Nodup
  inside : ∀ slotPlan ∈ plans, slotPlan.slot < start.chains.length
  turn : ∀ slotPlan ∈ plans, Turn start (aimAt aims slotPlan.slot) slotPlan.slot
    (start.chainAt slotPlan.slot) (state.chainAt slotPlan.slot).replicas slotPlan.steps
  rest : ∀ i, i ∉ plans.map (·.slot) → state.chainAt i = start.chainAt i

theorem Turned.refl (aims : List Chain) (start : ClusterState) : Turned aims start start [] where
  tables := rfl
  length := rfl
  slots := List.nodup_nil
  inside := nofun
  turn := nofun
  rest := fun _ _ => rfl

section Open

variable {state : ClusterState} {aim : List String} {slot : Nat} {chain : Chain}
  {after : List Replica} {steps : List ReconfigurationStep}

theorem Turn.open (h : Turn state aim slot chain after steps) :
    hasPendingReplicaState chain = false ∨
      (hasJoiningReplica chain = false ∧ activeReplicaIDsWithDrain state chain ≠ []) := by
  cases h with
  | drained joinless draining => exact .inr ⟨joinless, draining⟩
  | joined settled | filled settled | replaced settled | exchanged settled => exact .inl settled

theorem Turn.closed (h : Turn state aim slot chain after steps) (other : Chain)
    (hOther : other.replicas = after) :
    hasPendingReplicaState other = true ∧
      (hasJoiningReplica other = true ∨ activeReplicaIDsWithDrain state other = []) := by
  have hAppended {nodeID : String} (hAfter : other.replicas = chain.replicas ++ [⟨nodeID, .joining⟩]) :
      hasPendingReplicaState other = true ∧
        (hasJoiningReplica other = true ∨ activeReplicaIDsWithDrain state other = []) := by
    have hJoining : hasJoiningReplica other = true := by simp [hasJoiningReplica, hAfter]
    exact ⟨by rw [hasPendingReplicaState, hJoining]; rfl, .inl hJoining⟩
  have hRetired {kept left : List String} (hLeft : left ≠ [])
      (hSteady : ∀ id ∈ kept, state.isDraining id = false)
      (hAfter : other.replicas = kept.map (⟨·, .active⟩) ++ left.map (⟨·, .leaving⟩)) :
      hasPendingReplicaState other = true ∧
        (hasJoiningReplica other = true ∨ activeReplicaIDsWithDrain state other = []) := by
    obtain ⟨nodeID, hNode⟩ := List.exists_mem_of_ne_nil left hLeft
    constructor
    · simp only [hasPendingReplicaState, hasLeavingReplica, Bool.or_eq_true, List.any_eq_true,
        decide_eq_true_eq, hAfter]
      exact .inr ⟨⟨nodeID, .leaving⟩, by simp [hNode], rfl⟩
    · right
      rw [activeReplicaIDsWithDrain_eq_nil_iff]
      have hActives : activeReplicaIDs other = kept := by
        rw [activeReplicaIDs, hAfter]
        exact activeIDs_active_append_leaving kept left
      rwa [hActives]
  cases h with
  | drained joinless draining =>
    exact hRetired draining (fun id hid => (mem_activeReplicaIDsExcludingDraining hid).2) hOther
  | @joined extra settled steady aimed spare =>
    exact hRetired (List.cons_ne_nil extra [])
      (fun id hid => placeable_isDraining (aimed.placeable id hid)) hOther
  | filled | replaced | exchanged => exact hAppended hOther

end Open

section Visits

variable {aims : List Chain} {start state : ClusterState} {plans : List SlotPlan} {slot : Nat}

theorem Turned.fresh (h : Turned aims start state plans) {after : List Replica}
    {steps : List ReconfigurationStep}
    (hTurn : Turn start aim slot (state.chainAt slot) after steps) : slot ∉ plans.map (·.slot) := by
  intro hMem
  obtain ⟨slotPlan, hPlan, rfl⟩ := List.mem_map.mp hMem
  obtain ⟨hPending, hRest⟩ := (h.turn slotPlan hPlan).closed (state.chainAt slotPlan.slot) rfl
  rcases hTurn.open with hSettled | ⟨hJoinless, hDraining⟩
  · exact absurd (hPending.symm.trans hSettled) nofun
  · rcases hRest with hJoining | hSteady
    · exact absurd (hJoining.symm.trans hJoinless) nofun
    · exact hDraining hSteady

theorem Turned.turn_next (h : Turned aims start state plans) (hSlot : slot < state.chains.length)
    {after : List Replica} {steps : List ReconfigurationStep} {before final : Chain}
    (hTurn : Turn start (aimAt aims slot) slot (state.chainAt slot) after steps) :
    Turned aims start (state.setReplicas slot after) (plans ++ [⟨slot, before, final, steps⟩]) := by
  have hFresh := h.fresh hTurn
  rw [h.rest slot hFresh] at hTurn
  have hOthers : ∀ i, i ≠ slot → (state.setReplicas slot after).chainAt i = state.chainAt i :=
    fun i hi => setReplicas_chainAt_of_ne _ _ _ hi
  refine ⟨?_, ?_, ?_, ?_, ?_, ?_⟩
  · rw [ClusterState.setReplicas, h.tables]
  · rw [setReplicas_length, h.length]
  · rw [List.map_append, List.map_singleton]
    exact List.nodup_append_comm.mp (List.nodup_cons.mpr ⟨hFresh, h.slots⟩)
  · exact List.forall_mem_append.mpr ⟨h.inside, by simpa using h.length ▸ hSlot⟩
  · refine List.forall_mem_append.mpr ⟨fun slotPlan hOld => ?_, ?_⟩
    · have hNe : slotPlan.slot ≠ slot := by
        rintro rfl
        exact hFresh (List.mem_map_of_mem hOld)
      rw [hOthers _ hNe]
      exact h.turn slotPlan hOld
    · rw [List.forall_mem_singleton, setReplicas_chainAt_self _ _ _ hSlot]
      exact hTurn
  · intro i hi
    rw [List.map_append, List.map_singleton, List.mem_append, List.mem_singleton, not_or] at hi
    rw [hOthers i hi.2, h.rest i hi.1]

end Visits

/-! ## A reconcile turns chains -/

def ClusterState.aims (state : ClusterState) : List Chain :=
  match buildDesiredPlacementFromState state with
  | .ok (some chains) => chains
  | _ => []

section Reconcile

variable {start state later : ClusterState} {plans more : List SlotPlan}

theorem aims_of_desired {desired : Option (List Chain)}
    (h : buildDesiredPlacementFromState start = .ok desired) : start.aims = desired.getD [] := by
  rw [ClusterState.aims, h]
  cases desired with
  | none | some chains => rfl

theorem aimed_of_desired (hSound : Sound start) {chains : List Chain}
    (h : buildDesiredPlacementFromState start = .ok (some chains)) {slot : Nat}
    (hSlot : slot < start.slotCount.toNat) : Aimed start (aimAt chains slot) where
  known _ hid := (buildDesiredPlacement_mem hSound h hid).1
  placeable _ hid := (buildDesiredPlacement_mem hSound h hid).2
  full := (buildDesiredPlacement_ok hSound h slot hSlot).full

theorem Edit.turn {policy : ReconfigurationPolicy} {slot : Nat} {pass : Pass} {after : List Replica}
    {steps : List ReconfigurationStep} (hSound : Sound start)
    (hPath : Path policy start state plans) (hFree : DeadFree state)
    (hSlot : slot < start.slotCount.toNat) (hSetting : Setting policy start slot pass aim)
    (h : Edit state slot aim pass after steps) :
    Turn start (aimAt start.aims slot) slot (state.chainAt slot) after steps := by
  have hState := hPath.sound hSound
  have hDrains : activeReplicaIDsWithDrain state = activeReplicaIDsWithDrain start := by
    rw [hPath.tables]
    rfl
  have hFactor := tables_factor hPath.tables
  have hSteady := @steady_of_first state (state.chainAt slot) hState.named_of_mem
  have hLength (hSettled : hasPendingReplicaState (state.chainAt slot) = false) :
      (state.activesAt slot).length = (state.chainAt slot).replicas.length := by
    rw [ClusterState.activesAt, activeReplicaIDs_of_settled (by simp [hSettled]), replicaIDs,
      List.length_map]
  have hFresh {nodeID : String} (hJoins : Joins state (state.chainAt slot).replicas [nodeID]) :
      nodeID ∉ replicaIDs (state.chainAt slot).replicas := fun hMem =>
    (List.nodup_append.mp (hJoins.nodup (hState.nodup slot))).2.2 _ hMem _ List.mem_cons_self rfl
  cases h with
  | repaired dead =>
    rw [hFree.containsDead slot] at dead
    cases dead
  | drained joinless draining full =>
    have hOthers : activeReplicaIDsExcludingDraining state = activeReplicaIDsExcludingDraining start := by
      rw [hPath.tables]
      rfl
    rw [hOthers, hDrains]
    exact .drained joinless (hDrains ▸ draining)
  | joined settled steady spare found =>
    cases hSetting with
    | join aims =>
      rw [hLength settled, hFactor] at spare
      rw [aims_of_desired aims]
      exact .joined settled (hDrains ▸ hSteady steady) (aimed_of_desired hSound aims hSlot) spare
  | filled settled short begins wanted fresh =>
    cases hSetting with
    | fill aims =>
      have hAimed := aimed_of_desired hSound aims hSlot
      rw [hFactor] at short
      rw [aims_of_desired aims]
      refine .filled settled ?_ hAimed short wanted
      rw [activeReplicaIDsWithDrain_eq_nil_iff]
      exact fun id hid =>
        placeable_isDraining (hAimed.placeable id (begins.subset (activeIDs_subset _ hid)))
  | replaced settled draining selected =>
    obtain ⟨hJoins, -⟩ := selected_joins hState rfl selected
    exact .replaced settled (hDrains ▸ draining_of_first draining) (hFresh hJoins)
      (tables_nodesByID hPath.tables ▸ hJoins.known _ List.mem_cons_self)
  | exchanged settled steady full replacement =>
    cases hSetting with
    | exchange free optional aims =>
      have hAimed := aimed_of_desired hSound aims hSlot
      have hJoins := exchanged_joins hSound hPath aims settled replacement
      rw [hLength settled, hFactor] at full
      rw [aims_of_desired aims]
      exact .exchanged settled (hDrains ▸ hSteady steady) hAimed full (hFresh hJoins)
        (oneMemberReplacement_some (fun hMem => hSound.named (hAimed.known _ hMem)) replacement).1

theorem Trace.turned {policy : ReconfigurationPolicy} (hSound : Sound start) (hFree : DeadFree start)
    (h : Trace policy start later plans) : Turned start.aims start later plans := by
  induction h with
  | rest => exact Turned.refl start.aims start
  | edit trace inside alive setting edit ih =>
    have hPath := trace.path hSound
    have hCount := hSound.count
    have hLength := hPath.length
    exact ih.turn_next inside
      (edit.turn hSound hPath (hPath.deadFree hFree) (by omega) setting)

end Reconcile

/-! ## Rounds bring the chains nearer -/

theorem Reachable.reports {final : ClusterState} (h : Reachable state) {events : List Event}
    (hRun : events.foldlM applyProgress state = .ok final) : Reachable final := by
  induction events generalizing state with
  | nil =>
    cases hRun
    exact h
  | cons event events ih =>
    rw [List.foldlM_cons] at hRun
    obtain ⟨next, hNext, hRest⟩ := bind_eq_ok.mp hRun
    exact ih (h.progress hNext) hRest

/-- The chains of the slots settle, the others and the tables stay. -/
structure SettledAt (slots : List Nat) (state final : ClusterState) : Prop where
  tables : final = { state with chains := final.chains }
  rest : ∀ i, i ∉ slots → final.chainAt i = state.chainAt i
  own : ∀ i ∈ slots, final.chainAt i =
    { state.chainAt i with replicas := settled (state.chainAt i).replicas }

theorem SettledAt.cons {final : ClusterState} {slot : Nat} {slots : List Nat}
    (hInside : slot < state.chains.length) (hFresh : slot ∉ slots)
    (h : SettledAt slots (state.setReplicas slot (settled (state.chainAt slot).replicas)) final) :
    SettledAt (slot :: slots) state final := by
  refine ⟨h.tables, ?_, ?_⟩
  · intro i hi
    rw [List.mem_cons, not_or] at hi
    rw [h.rest i hi.2, setReplicas_chainAt_of_ne _ _ _ hi.1]
  · intro i hi
    rcases List.mem_cons.mp hi with rfl | hLater
    · rw [h.rest i hFresh, setReplicas_chainAt_self _ _ _ hInside]
    · have hNe : i ≠ slot := by
        rintro rfl
        exact hFresh hLater
      rw [h.own i hLater, setReplicas_chainAt_of_ne _ _ _ hNe]

theorem reports_settle {start : ClusterState} {plans : List SlotPlan} (hReachable : Reachable state)
    (hSlots : (plans.map (·.slot)).Nodup)
    (hPlans : ∀ slotPlan ∈ plans, slotPlan.slot < state.chains.length ∧
      ∃ aim chain, Turn start aim slotPlan.slot chain (state.chainAt slotPlan.slot).replicas
        slotPlan.steps) :
    ∃ final, (plans.flatMap SlotPlan.reports).foldlM applyProgress state = .ok final ∧
      SettledAt (plans.map (·.slot)) state final := by
  induction plans generalizing state with
  | nil => exact ⟨state, rfl, rfl, fun _ _ => rfl, nofun⟩
  | cons slotPlan plans ih =>
    obtain ⟨hInside, aim, chain, hTurn⟩ := hPlans slotPlan List.mem_cons_self
    have hFirst := hTurn.reports hReachable hInside
    obtain ⟨hFresh, hSlots⟩ := List.nodup_cons.mp hSlots
    obtain ⟨final, hFinal, hSettled⟩ := ih (hReachable.reports hFirst) hSlots (by
      intro other hOther
      have hNe : other.slot ≠ slotPlan.slot := fun hSlot =>
        hFresh (List.mem_map.mpr ⟨other, hOther, hSlot⟩)
      rw [setReplicas_length, setReplicas_chainAt_of_ne _ _ _ hNe]
      exact hPlans other (List.mem_cons_of_mem _ hOther))
    refine ⟨final, ?_, hSettled.cons hInside hFresh⟩
    rw [List.flatMap_cons, List.foldlM_append, SlotPlan.reports, hFirst]
    exact hFinal

def work (state : ClusterState) : Nat :=
  ∑ i ∈ Finset.range state.slotCount.toNat, distance state (aimAt state.aims i) (state.chainAt i)

theorem distance_of_tables {other : ClusterState}
    (h : other = { state with chains := other.chains }) (aim : List String) (chain : Chain) :
    distance other aim chain = distance state aim chain := by
  rw [h]
  rfl

theorem planRound_falls (hReachable : Reachable state) {policy : ReconfigurationPolicy}
    (hRest : ¬AtRest policy state) :
    ∃ next, planRound policy state = .ok next ∧ Reachable next ∧ work next < work state := by
  simp only [AtRest, not_forall] at hRest
  obtain ⟨plan, hPlan, hChanged⟩ := hRest
  obtain ⟨hSound, hFree⟩ := hReachable.sound
  obtain ⟨-, hAll⟩ := hReachable.planReconfiguration_ok hPlan
  have hReconcile : reconcileState state policy = .ok (plan.updatedState, plan.changedSlots) :=
    ok_of_mapError hAll
  have hTurned := (reconcileState_trace hSound hReconcile).1.turned hSound hFree
  have hUpdated := hReachable.plan hPlan
  obtain ⟨next, hReports, hSettled⟩ := reports_settle hUpdated hTurned.slots
    (fun slotPlan hMem => ⟨hTurned.length ▸ hTurned.inside slotPlan hMem, _, _,
      hTurned.turn slotPlan hMem⟩)
  refine ⟨next, ?_, hUpdated.reports hReports, ?_⟩
  · rw [planRound, hPlan]
    exact hReports
  have hTables : next = { state with chains := next.chains } := by
    rw [hSettled.tables, hTurned.tables]
  have hAims : next.aims = state.aims := by
    rw [ClusterState.aims, buildDesired_tables hTables, ClusterState.aims]
  have hOwn : ∀ slotPlan ∈ plan.changedSlots,
      distance state (aimAt state.aims slotPlan.slot) (next.chainAt slotPlan.slot) <
        distance state (aimAt state.aims slotPlan.slot) (state.chainAt slotPlan.slot) := by
    intro slotPlan hMem
    rw [hSettled.own _ (List.mem_map_of_mem hMem)]
    exact (hTurned.turn slotPlan hMem).falls hSound
  have hOthers : ∀ i, i ∉ plan.changedSlots.map (·.slot) → next.chainAt i = state.chainAt i :=
    fun i hi => (hSettled.rest i hi).trans (hTurned.rest i hi)
  have hWork : work next = ∑ i ∈ Finset.range state.slotCount.toNat,
      distance state (aimAt state.aims i) (next.chainAt i) := by
    rw [work, hAims, tables_slotCount hTables]
    exact Finset.sum_congr rfl fun i _ => distance_of_tables hTables _ _
  rw [hWork, work]
  apply Finset.sum_lt_sum
  · intro i _
    by_cases hi : i ∈ plan.changedSlots.map (·.slot)
    · obtain ⟨slotPlan, hMem, rfl⟩ := List.mem_map.mp hi
      exact (hOwn slotPlan hMem).le
    · rw [hOthers i hi]
  · obtain ⟨slotPlan, hMem⟩ := List.exists_mem_of_ne_nil _ hChanged
    have hInside := hTurned.inside slotPlan hMem
    have hCount := hSound.count
    exact ⟨slotPlan.slot, Finset.mem_range.mpr (by omega), hOwn slotPlan hMem⟩

theorem planRound_rests {next : ClusterState} (hReachable : Reachable state)
    {policy : ReconfigurationPolicy} (hRest : AtRest policy state)
    (hRound : planRound policy state = .ok next) : next = state := by
  obtain ⟨plan, hPlan, hReports⟩ := bind_eq_ok.mp hRound
  have hNone := hRest plan hPlan
  obtain ⟨-, hAll⟩ := hReachable.planReconfiguration_ok hPlan
  have hReconcile : reconcileState state policy = .ok (plan.updatedState, plan.changedSlots) :=
    ok_of_mapError hAll
  rw [ReconfigurationPlan.reports, hNone] at hReports
  cases hReports
  rw [hNone] at hReconcile
  exact (reconcileState_path hReachable.sound.1 hReconcile).eq_of_nil

theorem planRound_descends (policy : ReconfigurationPolicy) :
    Descends (planRound policy) Reachable (AtRest policy) work where
  falls _ hReachable hRest := planRound_falls hReachable hRest
  rests _ _ hReachable hRest hRound := planRound_rests hReachable hRest hRound

def roundBound (state : ClusterState) : Nat :=
  state.slotCount.toNat * (state.replicationFactor.toNat + 3 + state.nodeOrder.length)

theorem distance_le (state : ClusterState) (aim : List String) (chain : Chain) :
    distance state aim chain ≤ state.replicationFactor.toNat + 3 + state.nodeOrder.length := by
  by_cases hSteady : activeReplicaIDsWithDrain state chain = []
  · have hNear := @distance_le_of_steady state aim chain hSteady
    omega
  · rw [distance_of_draining hSteady]
    exact Nat.add_le_add_left (List.length_filter_le _ _) _

theorem work_le (state : ClusterState) : work state ≤ roundBound state := by
  calc work state
      ≤ ∑ _i ∈ Finset.range state.slotCount.toNat,
          (state.replicationFactor.toNat + 3 + state.nodeOrder.length) :=
        Finset.sum_le_sum fun _ _ => distance_le state _ _
    _ = roundBound state := by rw [Finset.sum_const, Finset.card_range, smul_eq_mul, roundBound]

/-- From every reachable state finitely many rounds lead to one in which the planner fails or changes
no slot, and no state on the way there comes back. -/
theorem reconfiguration_settles {state : ClusterState} (hReachable : Reachable state)
    (policy : ReconfigurationPolicy) :
    (∃ count ≤ roundBound state, ∃ final, rounds (planRound policy) count state = .ok final ∧
      AtRest policy final) ∧
    ∀ earlier later between, rounds (planRound policy) earlier state = .ok later →
      ¬AtRest policy later → 0 < between → rounds (planRound policy) between later ≠ .ok later := by
  have hDescends := planRound_descends policy
  constructor
  · obtain ⟨count, hCount, final, hRounds, hRest⟩ := hDescends.exists_rest hReachable
    exact ⟨count, hCount.trans (work_le state), final, hRounds, hRest⟩
  · intro earlier later between hRounds hRest hBetween
    exact hDescends.not_back (hDescends.rounds_kept hReachable hRounds).1 hRest hBetween

def replacedB : PlannerStep := .progress ⟨.replicaBecameActive, zeroNode, "b", 0⟩

def soloReplaced : ClusterState := (replacedB.run soloDraining).toOption.getD soloDraining

theorem replacedB_run : replacedB.run soloDraining = .ok soloReplaced :=
  eq_ok_getD _ (by decide +kernel)

/-- One round removes the draining node; then there is nothing left to do. -/
theorem drained_slot_settles :
    ¬AtRest ⟨1⟩ soloReplaced ∧
    (∃ count ≤ roundBound soloReplaced, ∃ final,
      rounds (planRound ⟨1⟩) count soloReplaced = .ok final ∧ AtRest ⟨1⟩ final) ∧
    ∀ earlier later between, rounds (planRound ⟨1⟩) earlier soloReplaced = .ok later →
      ¬AtRest ⟨1⟩ later → 0 < between → rounds (planRound ⟨1⟩) between later ≠ .ok later := by
  refine ⟨?_, reconfiguration_settles (soloDraining_reachable.step replacedB_run) ⟨1⟩⟩
  have hPlan : ((planReconfiguration soloReplaced [] ⟨1⟩).map (·.changedSlots.isEmpty)) =
      .ok false := by
    decide +kernel
  obtain ⟨plan, hPlan, hSome⟩ := map_eq_ok.mp hPlan
  intro hRest
  rw [hRest plan hPlan] at hSome
  cases hSome

end Craq.Coordinator
