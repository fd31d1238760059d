import Craq.Coordinator.Runs

/-! # How long a chain gets

A drain replacement is appended before the draining replica leaves, so a chain holds one replica
more than the factor while the hand-over lasts.  That bound survives as long as no second member
of a chain begins to drain before the first has become leaving: the finalization waits until the
members that do not drain are as many as the factor, and until then every reconcile appends.
-/

namespace Craq.Coordinator

open Craq.Lib

/-- The replica still waits for the drain of its node to be finished. -/
def drains (state : ClusterState) (replica : Replica) : Bool :=
  replica.state ≠ .leaving && state.isDraining replica.nodeID

structure Bounded (state : ClusterState) (replicas : List Replica) : Prop where
  length : (replicas.length : Int) ≤ state.replicationFactor + 1
  drain : replicas.countP (drains state) ≤ 1

def AllBounded (state : ClusterState) : Prop := ∀ i, Bounded state (state.chainAt i).replicas

variable {state : ClusterState} {replicas : List Replica}

theorem Bounded.congr {other : ClusterState} (h : Bounded state replicas)
    (hFactor : other.replicationFactor = state.replicationFactor)
    (hDraining : ∀ id, other.isDraining id = state.isDraining id) : Bounded other replicas := by
  have hDrains : drains other = drains state := by
    funext replica
    simp only [drains, hDraining]
  exact ⟨hFactor ▸ h.length, hDrains ▸ h.drain⟩

theorem Bounded.sublist {kept : List Replica} (h : Bounded state replicas)
    (hKept : kept.Sublist replicas) : Bounded state kept := by
  have hLength := hKept.length_le
  have hLimit := h.length
  exact ⟨by omega, hKept.countP_le.trans h.drain⟩

theorem Bounded.append (h : Bounded state replicas) {added : List String}
    (hPlaceable : ∀ id ∈ added, state.placeable id = true)
    (hRoom : ((replicas ++ joiners added).length : Int) ≤ state.replicationFactor + 1) :
    Bounded state (replicas ++ joiners added) := by
  refine ⟨hRoom, ?_⟩
  have hNone : (joiners added).countP (drains state) = 0 := by
    rw [List.countP_eq_zero]
    intro replica hReplica
    obtain ⟨id, hid, rfl⟩ := List.mem_map.mp hReplica
    simp [drains, placeable_isDraining (hPlaceable id hid)]
  rw [List.countP_append, hNone]
  exact h.drain

theorem drain_count_of_settled {kept : List String} (left : List String)
    (h : ∀ id ∈ kept, state.isDraining id = false) :
    (kept.map (⟨·, .active⟩) ++ left.map (⟨·, .leaving⟩) : List Replica).countP (drains state) =
      0 := by
  rw [List.countP_eq_zero]
  intro replica hReplica
  rcases List.mem_append.mp hReplica with hMem | hMem
  · obtain ⟨id, hid, rfl⟩ := List.mem_map.mp hMem
    simp [drains, h id hid]
  · obtain ⟨id, hid, rfl⟩ := List.mem_map.mp hMem
    simp [drains]

theorem AllBounded.setReplicas (h : AllBounded state) (slot : Nat) (hNew : Bounded state replicas) :
    AllBounded (state.setReplicas slot replicas) := fun i =>
  setReplicas_pointwise state slot replicas
    (R := fun _ old new => Bounded state old → Bounded (state.setReplicas slot replicas) new)
    (fun _ _ hOld => hOld.congr rfl fun _ => rfl) (fun _ => hNew.congr rfl fun _ => rfl) i (h i)

/-! ## The passes -/

theorem activeReplicaIDsWithDrain_length {chain : Chain} (h : Bounded state chain.replicas) :
    (activeReplicaIDsWithDrain state chain).length ≤ 1 := by
  refine le_trans ?_ h.drain
  simp only [activeReplicaIDsWithDrain, replicaIDs, List.length_map, ← List.countP_eq_length_filter]
  apply List.countP_mono_left
  intro replica _ hDrain
  simp only [Bool.and_eq_true, decide_eq_true_eq] at hDrain
  simp [drains, hDrain]

/-- A drain that could be finished is finished before any replacement is appended. -/
theorem finalizeDrainReplacement_eq_none {slot : Nat} :
    (finalizeDrainReplacement state slot).2 = none ↔
      (hasJoiningReplica (state.chainAt slot) = true ∨
        activeReplicaIDsWithDrain state (state.chainAt slot) = [] ∨
        ((activeReplicaIDsExcludingDraining state (state.chainAt slot)).length : Int) ≠
          state.replicationFactor) := by
  unfold finalizeDrainReplacement
  dsimp only
  split
  · simp_all
  split
  · simp_all
  split
  · simp_all
  · simp_all [changeChain]

theorem length_of_settled (state : ClusterState) {chain : Chain}
    (h : ¬hasPendingReplicaState chain = true) :
    chain.replicas.length = (activeReplicaIDsExcludingDraining state chain).length +
      (activeReplicaIDsWithDrain state chain).length := by
  have hSplit := (draining_perm state chain).length_eq
  rw [List.length_append, activeReplicaIDs_of_settled h, replicaIDs, List.length_map] at hSplit
  exact hSplit.symm

theorem Edit.bounded {policy : ReconfigurationPolicy} {start : ClusterState} {plans : List SlotPlan}
    {slot : Nat} {pass : Pass} {aim : List String} {after : List Replica}
    {steps : List ReconfigurationStep} (hSound : Sound start)
    (hPath : Path policy start state plans) (hSlot : slot < state.chains.length)
    (hSetting : Setting policy start slot pass aim)
    (hOld : Bounded state (state.chainAt slot).replicas) (h : Edit state slot aim pass after steps) :
    Bounded state after := by
  have hState := hPath.sound hSound
  have hPlaceable {chains : List Chain} {id : String}
      (hAims : buildDesiredPlacementFromState start = .ok (some chains))
      (hid : id ∈ aimAt chains slot) : state.placeable id = true :=
    (buildDesiredPlacement_mem hState ((buildDesired_tables hPath.tables).trans hAims) hid).2
  cases h with
  | @repaired added dead anchored joins apart room =>
    have hKept : Bounded state (state.survivors slot) := hOld.sublist List.filter_sublist
    refine hKept.append joins.placeable ?_
    have hLimit := hKept.length
    simp only [List.length_append, joiners, List.length_map]
    omega
  | drained joinless draining full =>
    have hFew := activeReplicaIDsWithDrain_length hOld
    refine ⟨?_, (drain_count_of_settled _ fun id hid =>
      (mem_activeReplicaIDsExcludingDraining hid).2).le.trans zero_le_one⟩
    simp only [List.length_append, List.length_map]
    omega
  | @joined extra settled steady spare found =>
    cases hSetting with
    | join aims =>
      have hFull := (joined_perm hSound hPath hSlot aims spare found).2
      refine ⟨?_, (drain_count_of_settled [extra] fun id hid =>
        placeable_isDraining (hPlaceable aims hid)).le.trans zero_le_one⟩
      simp only [List.length_append, List.length_map, List.length_singleton]
      omega
  | @filled nodeID replaced settled short begins wanted fresh =>
    cases hSetting with
    | fill aims =>
      refine @Bounded.append _ _ hOld [nodeID] (by simpa using hPlaceable aims wanted) ?_
      simp only [List.length_append, joiners, List.length_map, List.length_singleton]
      omega
  | @replaced candidate replaced settled draining selected =>
    cases hSetting with
    | replace free idle =>
      refine @Bounded.append _ _ hOld [candidate.id] (selected_joins hState rfl selected).1.placeable ?_
      -- A chain that already holds one replica too many would have had its drain finished instead.
      have hIdle := finalizeDrainReplacement_eq_none.mp (idle slot)
      have hLists : activeReplicaIDsWithDrain start = activeReplicaIDsWithDrain state ∧
          activeReplicaIDsExcludingDraining start = activeReplicaIDsExcludingDraining state := by
        constructor <;> (rw [hPath.tables]; rfl)
      rw [← hPath.untouched free slot settled, ← tables_factor hPath.tables, hLists.1, hLists.2]
        at hIdle
      have hSplit := @length_of_settled state (state.chainAt slot) (by simp [settled])
      have hDrain := activeReplicaIDsWithDrain_length hOld
      have hDraining := draining_of_first draining
      have hPos := List.length_pos_iff.mpr hDraining
      have hLimit := hOld.length
      simp only [List.length_append, joiners, List.length_map, List.length_singleton]
      rcases hIdle with hJoining | hNone | hOther
      · rw [hasPendingReplicaState, hJoining] at settled
        cases settled
      · exact absurd hNone hDraining
      · omega
  | @exchanged added removed settled steady full replacement =>
    cases hSetting with
    | exchange free optional aims =>
      refine @Bounded.append _ _ hOld [added]
        (exchanged_joins hSound hPath aims settled replacement).placeable ?_
      rw [ClusterState.activesAt, activeReplicaIDs_of_settled (by simp [settled]), replicaIDs,
        List.length_map] at full
      simp only [List.length_append, joiners, List.length_map, List.length_singleton]
      omega

theorem AllBounded.trace {policy : ReconfigurationPolicy} {start later : ClusterState}
    {plans : List SlotPlan} (hSound : Sound start) (h : AllBounded start)
    (hTrace : Trace policy start later plans) : AllBounded later := by
  induction hTrace with
  | rest => exact h
  | @edit state plans slot pass aim after steps trace inside alive setting edit ih =>
    exact ih.setReplicas slot (edit.bounded hSound (trace.path hSound) inside setting (ih slot))

/-! ## One event -/

/-- Among the members of a chain that are not leaving, the node that begins to drain is the only
one. -/
def DrainsAlone (state : ClusterState) (event : Event) : Prop :=
  event.kind = .beginDrainNode → ∀ chain ∈ state.chains, ∀ own ∈ chain.replicas,
    own.nodeID = event.nodeID → own.state ≠ .leaving →
    ∀ other ∈ chain.replicas, other.nodeID ≠ event.nodeID → drains state other = false

theorem Bounded.mono {other : ClusterState} (h : Bounded state replicas)
    (hFactor : other.replicationFactor = state.replicationFactor)
    (hDraining : ∀ id, other.isDraining id = true → state.isDraining id = true) :
    Bounded other replicas := by
  refine ⟨hFactor ▸ h.length, le_trans (List.countP_mono_left ?_) h.drain⟩
  intro replica _ hDrains
  simp only [drains, Bool.and_eq_true] at hDrains ⊢
  exact ⟨hDrains.1, hDraining _ hDrains.2⟩

theorem isDraining_of_erase {nodeID id : String}
    (h : (state.drainingNodeIDs.erase nodeID)[id]?.getD false = true) :
    state.isDraining id = true := by
  rw [getElem?_erase_ite] at h
  split at h
  · cases h
  · exact h

variable {updated : ClusterState} {event : Event}

theorem AllBounded.addNode (h : AllBounded state) {node : Node} {ready : Bool}
    (hRun : addNode state node ready = .ok updated) : AllBounded updated := by
  obtain ⟨normalized, -, hRun⟩ := bind_eq_ok.mp hRun
  dsimp only at hRun
  split at hRun
  · rw [ite_error_eq_ok, ite_error_eq_ok] at hRun
    obtain ⟨-, -, hRun⟩ := hRun
    split at hRun
    · cases hRun
      exact fun i => (h i).mono rfl fun _ hDraining => hDraining
    · cases hRun
      exact h
  · cases hRun
    exact fun i => (h i).mono rfl fun _ hDraining => isDraining_of_erase hDraining

theorem AllBounded.beginDrain (hSound : Sound state) (h : AllBounded state)
    (hKind : event.kind = .beginDrainNode) (hAlone : DrainsAlone state event) :
    AllBounded
      { state with drainingNodeIDs := state.drainingNodeIDs.insert event.nodeID true } := by
  intro i
  refine ⟨(h i).length, ?_⟩
  have hMarked : ∀ replica : Replica, drains
      { state with drainingNodeIDs := state.drainingNodeIDs.insert event.nodeID true } replica =
        true → drains state replica = true ∨
          (replica.nodeID = event.nodeID ∧ replica.state ≠ .leaving) := by
    intro replica hDrains
    simp only [drains, ClusterState.isDraining, getElem?_insert_ite, Bool.and_eq_true,
      decide_eq_true_eq] at hDrains ⊢
    by_cases hID : event.nodeID = replica.nodeID
    · exact .inr ⟨hID.symm, hDrains.1⟩
    · rw [if_neg hID] at hDrains
      exact .inl hDrains
  by_cases hOwn : ∃ own ∈ (state.chainAt i).replicas, own.nodeID = event.nodeID ∧
      own.state ≠ .leaving
  · obtain ⟨own, hMem, hID, hState⟩ := hOwn
    have hInside := lt_length_of_replicas_ne_nil (List.ne_nil_of_mem hMem)
    have hChain : state.chainAt i ∈ state.chains := by
      simp [ClusterState.chainAt, hInside]
    have hOthers := hAlone hKind _ hChain own hMem hID hState
    have hOnly := List.nodup_iff_count_le_one.mp (hSound.nodup i) event.nodeID
    rw [ClusterState.idsAt, replicaIDs, List.count_eq_countP, List.countP_map] at hOnly
    refine le_trans (List.countP_mono_left ?_) hOnly
    intro replica hReplica hDrains
    rcases hMarked replica hDrains with hOld | ⟨hSame, -⟩
    · by_contra hNe
      rw [hOthers replica hReplica (by simpa using hNe)] at hOld
      cases hOld
    · simpa using hSame
  · refine le_trans (List.countP_mono_left ?_) (h i).drain
    intro replica hReplica hDrains
    rcases hMarked replica hDrains with hOld | hNew
    · exact hOld
    · exact absurd ⟨replica, hReplica, hNew⟩ hOwn

/-- A joining replica counts as one to drain before and after its activation. -/
theorem Bounded.activate (h : Bounded state replicas) {index : Nat} {joined : Replica}
    (hIndex : replicas[index]? = some joined) (hState : joined.state = .joining) :
    Bounded state (replicas.modify index fun replica => { replica with state := .active }) := by
  refine ⟨by simpa using h.length, ?_⟩
  rw [countP_modify_of_eq hIndex (by simp [drains, hState])]
  exact h.drain

theorem AllBounded.applyProgressEvent (h : AllBounded state)
    (hRun : applyProgressEvent state event = .ok updated) : AllBounded updated := by
  obtain ⟨-, index, replica, hIndex, -, hCase⟩ := applyProgressEvent_cases hRun
  rcases hCase with ⟨-, hState, rfl⟩ | ⟨-, -, rfl⟩
  · exact h.setReplicas _ ((h _).activate hIndex hState)
  · have hRemoved := h.setReplicas event.slot.toNat
      ((h event.slot.toNat).sublist (List.eraseIdx_sublist _ index))
    unfold removeReplica
    dsimp only
    split
    · exact fun i => (hRemoved i).mono rfl fun _ hDraining => isDraining_of_erase hDraining
    · exact hRemoved

theorem AllBounded.applyEvent (hSound : Sound state) (h : AllBounded state)
    (hAlone : DrainsAlone state event) (hRun : applyEvent state event = .ok updated) :
    AllBounded updated := by
  unfold Coordinator.applyEvent at hRun
  split at hRun
  · exact h.addNode hRun
  · exact h.addNode hRun
  · rename_i hKind
    rw [beginDrainNode, ite_error_eq_ok, ite_error_eq_ok, ite_error_eq_ok] at hRun
    obtain ⟨-, -, -, hRun⟩ := hRun
    cases hRun
    exact h.beginDrain hSound hKind hAlone
  · rw [markNodeDead, ite_error_eq_ok, ite_error_eq_ok] at hRun
    obtain ⟨-, -, hRun⟩ := hRun
    cases hRun
    exact fun i => (h i).mono rfl fun _ hDraining => isDraining_of_erase hDraining
  · exact h.applyProgressEvent hRun
  · exact h.applyProgressEvent hRun
  · cases hRun

/-! ## Whole runs -/

theorem buildInitialPlacement_bounded {cfg : Config} {nodes : List Node}
    (h : buildInitialPlacement cfg nodes = .ok state) : AllBounded state := by
  obtain ⟨_, hCfg, h⟩ := bind_eq_ok.mp h
  have hFactor := (validateConfig_ok (ok_of_mapError hCfg)).2
  split at h
  · cases h
    intro i
    by_cases hi : i < cfg.slotCount.toNat <;>
      exact ⟨by simp [ClusterState.chainAt, emptyPlacement, emptyChains, hi]; omega,
        by simp [ClusterState.chainAt, emptyPlacement, emptyChains, hi]⟩
  obtain ⟨normalized, -, h⟩ := bind_eq_ok.mp h
  rw [ite_error_eq_ok] at h
  obtain ⟨chains, hChains, h⟩ := bind_eq_ok.mp h.2
  cases h
  obtain ⟨hPlaced, -⟩ := buildSteadyStateChains_ok (ok_of_mapError hChains)
  intro i
  refine ⟨?_, ?_⟩
  · by_cases hi : i < chains.length
    · have hFull := hPlaced.full chains[i] (List.getElem_mem hi)
      simp only [ClusterState.chainAt, steadyPlacement, hi, List.getElem?_eq_getElem,
        Option.getD_some]
      omega
    · simp only [ClusterState.chainAt, steadyPlacement, List.getElem?_eq_none (not_lt.mp hi),
        Option.getD_none, List.length_nil]
      omega
  · rw [List.countP_eq_zero.mpr]
    · exact zero_le_one
    · intro replica _
      simp [drains, ClusterState.isDraining, steadyPlacement]

/-- As long as no node begins to drain while another member of one of its chains still waits to be
drained, no chain holds more than one replica above the factor. -/
theorem chain_length_bound {state : ClusterState}
    (h : ReachableWhile DrainsAlone (fun _ _ => True) state) :
    ∀ chain ∈ state.chains, (chain.replicas.length : Int) ≤ state.replicationFactor + 1 := by
  have hAll : AllBounded state := by
    refine h.invariant ?_ ?_ ?_
    · intro state event updated hSound hState hAlone hRun
      exact hState.applyEvent hSound hAlone hRun
    · intro policy start later plans hSound hStart _ hTrace
      exact hStart.trace hSound hTrace
    · intro cfg nodes state hBuild
      exact buildInitialPlacement_bounded hBuild
  intro chain hChain
  obtain ⟨i, rfl⟩ := exists_chainAt hChain
  exact (hAll i).length

/-! ### Two drains in one chain

Node `a` holds the only replica of the slot and hands it over to `b`; before `b` has become active,
`b` is drained as well. -/

def trio : List Node := [⟨"a", "", ∅⟩, ⟨"b", "", ∅⟩, ⟨"c", "", ∅⟩]

def drainB : PlannerStep := .planEvent ⟨.beginDrainNode, zeroNode, "b", 0⟩ ⟨0⟩

/-- While `a` hands over to `b`, the slot has two replicas, one more than the factor. -/
theorem soloDraining_bounded :
    soloDraining.idsAt 0 = ["a", "b"] ∧
      ((soloDraining.chainAt 0).replicas.length : Int) ≤ soloDraining.replicationFactor + 1 := by
  have hPass : PlanPasses DrainsAlone (fun _ _ => True) ⟨0⟩
      [⟨.beginDrainNode, zeroNode, "a", 0⟩] soloPlacement := by
    refine ⟨?_, fun _ _ => ⟨trivial, fun _ _ _ => trivial⟩⟩
    unfold DrainsAlone
    decide +kernel
  have hStart : ReachableWhile DrainsAlone (fun _ _ => True) soloPlacement := by
    have hBuild : buildInitialPlacement ⟨1, 1⟩ [⟨"a", "", ∅⟩, ⟨"b", "", ∅⟩] = .ok soloPlacement := by
      decide +kernel
    exact .initial hBuild
  have hPlan := eq_ok_getD
    (x := planReconfiguration soloPlacement [⟨.beginDrainNode, zeroNode, "a", 0⟩] ⟨0⟩)
    ⟨soloPlacement, [], []⟩ (by decide +kernel)
  have hSame : ((planReconfiguration soloPlacement [⟨.beginDrainNode, zeroNode, "a", 0⟩]
      ⟨0⟩).toOption.getD ⟨soloPlacement, [], []⟩).updatedState = soloDraining := by
    decide +kernel
  have hChain : soloDraining.chainAt 0 ∈ soloDraining.chains := by decide +kernel
  exact ⟨by decide +kernel, chain_length_bound (hSame ▸ .plan hStart hPass hPlan) _ hChain⟩

theorem second_drain_overflows :
    ¬∀ (cfg : Config) (nodes : List Node) (start later : ClusterState) (steps : List PlannerStep),
      nodes ≠ [] → buildInitialPlacement cfg nodes = .ok start →
      steps.foldlM PlannerStep.run start = .ok later →
      ∀ chain ∈ later.chains, (chain.replicas.length : Int) ≤ later.replicationFactor + 1 := by
  intro hAll
  have hStart := eq_ok_getD (x := buildInitialPlacement ⟨1, 1⟩ trio) soloPlacement
    (by decide +kernel)
  have hRun := eq_ok_getD (x := [drainA, drainB, activeB].foldlM PlannerStep.run
    ((buildInitialPlacement ⟨1, 1⟩ trio).toOption.getD soloPlacement)) soloPlacement
    (by decide +kernel)
  have hBound := hAll _ _ _ _ _ (List.cons_ne_nil _ _) hStart hRun
  exact absurd hBound (by decide +kernel)

end Craq.Coordinator
