import Craq.Coordserver.Fresh

/-! # Published routes

The route of a slot is built from its chain, or from the chain captured when a peer refresh was
queued.  A captured chain is the list of active replicas from just before an activation, so it stays
a part of the current one as long as nothing takes one of these replicas out of service.
-/

namespace Craq.Coordserver

open Lib
open Coordinator (Chain Replica activeReplicaIDs replicaIDs)
open Craq.Runtime (AppliedCommand Command Ledger PendingWork State View cloneState)
open Storage (ReplicaRole)

/-! ## Routes -/

structure ReadReplicaRoute where
  nodeID : String
  endpoint : String
  role : ReplicaRole
deriving DecidableEq, Repr

structure SlotRoute where
  slot : Nat
  chainVersion : Nat
  headNodeID : String := ""
  headEndpoint : String := ""
  tailNodeID : String := ""
  tailEndpoint : String := ""
  readReplicas : List ReadReplicaRoute := []
  writable : Bool := false
  readable : Bool := false
deriving DecidableEq, Repr

structure RoutingSnapshot where
  version : Nat
  slotCount : Int
  slots : List SlotRoute
deriving DecidableEq, Repr

def replicaUnavailable (unavailable : Std.ExtTreeMap String (Std.ExtTreeMap Nat Bool))
    (nodeID : String) (slot : Nat) : Bool :=
  (unavailable[nodeID]?.getD ∅)[slot]?.getD false

def chainHasUnavailableReplica (chain : Chain)
    (unavailable : Std.ExtTreeMap String (Std.ExtTreeMap Nat Bool)) : Bool :=
  chain.replicas.any fun replica =>
    replica.state = .active && replicaUnavailable unavailable replica.nodeID chain.slot

def SlotRoute.addReadReplica (nodesByID : Std.ExtTreeMap String Coordinator.Node)
    (route : SlotRoute) (replica : Replica) : SlotRoute :=
  let endpoint := Runtime.rpcAddressOf nodesByID replica.nodeID
  let readReplicas (role : ReplicaRole) := route.readReplicas ++ [⟨replica.nodeID, endpoint, role⟩]
  let extended := { route with tailNodeID := replica.nodeID, tailEndpoint := endpoint }
  if route.headNodeID = "" then
    { extended with
      headNodeID := replica.nodeID, headEndpoint := endpoint, readReplicas := readReplicas .head }
  else { extended with readReplicas := readReplicas .middle }

def withEndRole (replicas : List ReadReplicaRoute) : List ReadReplicaRoute :=
  if replicas.length = 1 then replicas.modify 0 ({ · with role := .single })
  else replicas.modify (replicas.length - 1) ({ · with role := .tail })

def buildSlotRoute (chain : Chain) (nodesByID : Std.ExtTreeMap String Coordinator.Node)
    (chainVersion : Nat) (unavailable : Std.ExtTreeMap String (Std.ExtTreeMap Nat Bool)) :
    SlotRoute :=
  let bare : SlotRoute := { slot := chain.slot, chainVersion }
  if chainHasUnavailableReplica chain unavailable then bare
  else
    let serving := chain.replicas.filter fun replica =>
      replica.state = .active && !replicaUnavailable unavailable replica.nodeID chain.slot
    let route := serving.foldl (SlotRoute.addReadReplica nodesByID) bare
    { route with
      readReplicas := withEndRole route.readReplicas
      writable := route.headNodeID ≠ ""
      readable := !route.readReplicas.isEmpty }

def chainHasReplicaState (chain : Chain) (want : Coordinator.ReplicaState) : Bool :=
  chain.replicas.any (·.state = want)

def reduceSlotRoute (view : View)
    (unavailable : Std.ExtTreeMap String (Std.ExtTreeMap Nat Bool))
    (refresh : Option ActivePeerRefreshState) (chain : Chain) : SlotRoute :=
  let fallback := refresh.filter (·.useFallbackRoute)
  let route := buildSlotRoute (fallback.elim chain (·.fallbackServingChain)) view.cluster.nodesByID
    (view.slotVersions[chain.slot]?.getD 0) unavailable
  if refresh.isNone then
    if chainHasReplicaState chain .joining then { route with writable := false } else route
  else if fallback.isNone then { route with writable := false, readable := false }
  else route

def reduceRoutingSnapshot (view : View)
    (unavailable : Std.ExtTreeMap String (Std.ExtTreeMap Nat Bool))
    (queuedPeerRefresh : Std.ExtTreeMap Nat ActivePeerRefreshState) : RoutingSnapshot where
  version := view.version
  slotCount := view.cluster.slotCount
  slots := view.cluster.chains.map fun chain =>
    reduceSlotRoute view unavailable queuedPeerRefresh[chain.slot]? chain

def isZeroHAActivePeerRefreshState (refresh : ActivePeerRefreshState) : Bool :=
  !refresh.useFallbackRoute && !refresh.allowWhilePending &&
    refresh.fallbackServingChain.replicas.isEmpty && refresh.assignmentChain.replicas.isEmpty &&
    refresh.remainingNodeIDs.isEmpty

def haOutboxHasActivePeerRefreshForSlot (entries : List OutboxEntry) (slot : Nat) : Bool :=
  entries.any fun entry => entry.kind = .updateChainPeers &&
    (activePeerRefreshOutboxID slot "").toList.isPrefixOf entry.id.toList

/-- The refreshes `syncFromHASnapshot` takes over: an empty one only while it has a command. -/
def queuedPeerRefresh (snapshot : HASnapshot) : Std.ExtTreeMap Nat ActivePeerRefreshState :=
  snapshot.activePeerRefresh.filter fun slot refresh =>
    !(isZeroHAActivePeerRefreshState refresh &&
      !haOutboxHasActivePeerRefreshForSlot snapshot.outbox slot)

/-- The routes a coordinator publishes once it has loaded the snapshot. -/
def HASnapshot.routes (snapshot : HASnapshot) : RoutingSnapshot :=
  reduceRoutingSnapshot snapshot.state.toView snapshot.unavailableReplicas
    (queuedPeerRefresh snapshot)

/-! ## What a route lists -/

def SlotRoute.readers (route : SlotRoute) : List String := route.readReplicas.map (·.nodeID)

theorem addReadReplica_readers (nodesByID : Std.ExtTreeMap String Coordinator.Node)
    (route : SlotRoute) (replica : Replica) :
    (route.addReadReplica nodesByID replica).readers = route.readers ++ [replica.nodeID] := by
  simp only [SlotRoute.addReadReplica, SlotRoute.readers]
  split <;> simp

variable {route : SlotRoute} {chain : Chain}
  {unavailable : Std.ExtTreeMap String (Std.ExtTreeMap Nat Bool)}

theorem foldl_addReadReplica (nodesByID : Std.ExtTreeMap String Coordinator.Node)
    {serving : List Replica} (hNamed : "" ∉ replicaIDs serving)
    (hHead : route.headNodeID = route.readers.headD "")
    (hTail : route.tailNodeID = route.readers.getLastD "") (hRoute : "" ∉ route.readers) :
    let built := serving.foldl (SlotRoute.addReadReplica nodesByID) route
    built.readers = route.readers ++ replicaIDs serving ∧
      built.headNodeID = built.readers.headD "" ∧ built.tailNodeID = built.readers.getLastD "" := by
  induction serving generalizing route with
  | nil => simp [replicaIDs, hHead, hTail]
  | cons replica rest ih =>
    simp only [replicaIDs, List.map_cons, List.mem_cons, not_or] at hNamed
    have hReaders := addReadReplica_readers nodesByID route replica
    have hNext := @ih (route.addReadReplica nodesByID replica) hNamed.2 ?_ ?_ ?_
    · rw [hReaders, List.append_assoc] at hNext
      exact hNext
    · rw [hReaders]
      cases hOld : route.readers with
      | nil =>
        rw [hOld] at hHead
        simp [SlotRoute.addReadReplica, show route.headNodeID = "" from hHead]
      | cons first others =>
        rw [hOld] at hHead hRoute
        have hSet : route.headNodeID ≠ "" := by
          rw [hHead]
          exact fun hEmpty => hRoute (List.mem_cons.mpr (.inl hEmpty.symm))
        simp only [SlotRoute.addReadReplica, hSet, if_false]
        exact hHead
    · rw [hReaders]
      simp only [SlotRoute.addReadReplica]
      split <;> simp
    · rw [hReaders]
      simp [hRoute, hNamed.1]

theorem withEndRole_nodeIDs (replicas : List ReadReplicaRoute) :
    (withEndRole replicas).map (·.nodeID) = replicas.map (·.nodeID) := by
  have hModify : ∀ (index : Nat) (role : ReplicaRole),
      (replicas.modify index ({ · with role })).map (·.nodeID) = replicas.map (·.nodeID) := by
    intro index role
    apply List.ext_getElem?
    intro i
    simp only [List.getElem?_map, List.getElem?_modify]
    cases replicas[i]? with
    | none => rfl
    | some replica => by_cases hi : index = i <;> simp [hi]
  rw [withEndRole]
  split
  · exact hModify 0 .single
  · exact hModify _ .tail

theorem buildSlotRoute_open {nodesByID : Std.ExtTreeMap String Coordinator.Node}
    {chainVersion : Nat} (hRoute : route = buildSlotRoute chain nodesByID chainVersion unavailable)
    (hNamed : "" ∉ activeReplicaIDs chain) (hOpen : route.readable = true ∨ route.writable = true) :
    route.readers = activeReplicaIDs chain ∧
      (activeReplicaIDs chain).head? = some route.headNodeID ∧
      (activeReplicaIDs chain).getLast? = some route.tailNodeID := by
  rw [buildSlotRoute] at hRoute
  split at hRoute
  · subst hRoute
    simp at hOpen
  rename_i hAvailable
  have hServing : (chain.replicas.filter fun replica =>
      replica.state = .active && !replicaUnavailable unavailable replica.nodeID chain.slot) =
      chain.replicas.filter (·.state = .active) := by
    simp only [chainHasUnavailableReplica, Bool.not_eq_true, List.any_eq_false,
      Bool.and_eq_true, decide_eq_true_eq, not_and] at hAvailable
    apply List.filter_congr
    intro replica hReplica
    by_cases hActive : replica.state = .active
    · simp [hActive, hAvailable replica hReplica hActive]
    · simp [hActive]
  dsimp only at hRoute
  rw [hServing] at hRoute
  obtain ⟨hReaders, hHead, hTail⟩ := @foldl_addReadReplica { slot := chain.slot, chainVersion }
    nodesByID (chain.replicas.filter (·.state = .active)) hNamed rfl rfl
    (by simp [SlotRoute.readers])
  generalize (chain.replicas.filter (·.state = .active)).foldl
    (SlotRoute.addReadReplica nodesByID) { slot := chain.slot, chainVersion } = built
    at hRoute hReaders hHead hTail
  rw [show SlotRoute.readers { slot := chain.slot, chainVersion } = [] from rfl,
    List.nil_append] at hReaders
  change built.readers = activeReplicaIDs chain at hReaders
  subst hRoute
  rw [hReaders] at hHead hTail
  have hSome : activeReplicaIDs chain ≠ [] := by
    intro hNone
    rw [hNone] at hHead hReaders
    have hEmpty : built.readReplicas = [] := List.map_eq_nil_iff.mp hReaders
    simp [hEmpty, hHead] at hOpen
  refine ⟨(withEndRole_nodeIDs _).trans hReaders, ?_, ?_⟩
  · obtain ⟨first, rest, hList⟩ := List.exists_cons_of_ne_nil hSome
    rw [hList] at hHead ⊢
    simp [hHead]
  · rw [List.getLast?_eq_some_getLast hSome, hTail, List.getLastD_eq_getLast?,
      List.getLast?_eq_some_getLast hSome]
    rfl

/-! ## Captured chains -/

/-- What a route may show of a chain: active replicas of it, in its order, from its head on. -/
structure SlotRoute.Shows (route : SlotRoute) (chain : Chain) : Prop where
  readers : route.readers.Sublist (activeReplicaIDs chain)
  head : (activeReplicaIDs chain).head? = some route.headNodeID
  tail : route.tailNodeID ∈ activeReplicaIDs chain

/-- Every captured chain is an initial part of the active replicas of its slot. -/
def HASnapshot.CapturesActive (snapshot : HASnapshot) : Prop :=
  ∀ (slot : Nat) (refresh : ActivePeerRefreshState),
    snapshot.activePeerRefresh[slot]? = some refresh → refresh.useFallbackRoute = true →
      activeReplicaIDs refresh.fallbackServingChain <+: snapshot.state.cluster.activesAt slot

theorem activeReplicaIDs_activeServingChain (chain : Chain) :
    activeReplicaIDs (Runtime.activeServingChain chain) = activeReplicaIDs chain := by
  simp [activeReplicaIDs, Runtime.activeServingChain]

theorem buildSlotRoute_shows {shown : Chain} {nodesByID : Std.ExtTreeMap String Coordinator.Node}
    {chainVersion : Nat} (hRoute : route = buildSlotRoute shown nodesByID chainVersion unavailable)
    (hShown : activeReplicaIDs shown <+: activeReplicaIDs chain)
    (hNamed : "" ∉ activeReplicaIDs chain) (hOpen : route.readable = true ∨ route.writable = true) :
    route.Shows chain := by
  obtain ⟨hReaders, hHead, hTail⟩ :=
    buildSlotRoute_open hRoute (fun hMem => hNamed (hShown.subset hMem)) hOpen
  refine ⟨hReaders ▸ hShown.sublist, ?_, hShown.subset (List.mem_of_getLast? hTail)⟩
  obtain ⟨rest, hRest⟩ := hShown
  rw [← hRest, List.head?_append, hHead]
  rfl

theorem reduceSlotRoute_shows {view : View} {refresh : Option ActivePeerRefreshState}
    (hRoute : route = reduceSlotRoute view unavailable refresh chain)
    (hFallback : ∀ queued, refresh = some queued → queued.useFallbackRoute = true →
      activeReplicaIDs queued.fallbackServingChain <+: activeReplicaIDs chain)
    (hNamed : "" ∉ activeReplicaIDs chain) (hOpen : route.readable = true ∨ route.writable = true) :
    route.Shows chain := by
  cases refresh with
  | none =>
    simp only [reduceSlotRoute, Option.filter_none, Option.elim_none, Option.isNone_none,
      if_true] at hRoute
    split at hRoute
    · -- Closing the route for writes changes nothing that it lists.
      have hShows : ∀ built, built = buildSlotRoute chain view.cluster.nodesByID
          (view.slotVersions[chain.slot]?.getD 0) unavailable → built.readable = true →
          built.Shows chain := fun built hBuilt hRead =>
        buildSlotRoute_shows hBuilt (List.prefix_refl _) hNamed (.inl hRead)
      subst hRoute
      obtain ⟨hReaders, hHead, hTail⟩ := hShows _ rfl (by simpa using hOpen)
      exact ⟨hReaders, hHead, hTail⟩
    · exact buildSlotRoute_shows hRoute (List.prefix_refl _) hNamed hOpen
  | some queued =>
    by_cases hUse : queued.useFallbackRoute = true
    · simp only [reduceSlotRoute, Option.filter_some, hUse, if_true, Option.elim_some,
        Option.isNone_some, Bool.false_eq_true, if_false] at hRoute
      exact buildSlotRoute_shows hRoute (hFallback queued rfl hUse) hNamed hOpen
    · simp only [reduceSlotRoute, Option.filter_some, hUse, if_false, Option.elim_none,
        Option.isNone_some, Option.isNone_none, Bool.false_eq_true, if_true] at hRoute
      subst hRoute
      simp at hOpen

variable {slot : Nat}

theorem HASnapshot.CapturesActive.shows {snapshot : HASnapshot} (h : snapshot.CapturesActive)
    (hRegular : snapshot.state.Regular) (hRoute : snapshot.routes.slots[slot]? = some route)
    (hChain : snapshot.state.cluster.chains[slot]? = some chain)
    (hOpen : route.readable = true ∨ route.writable = true) : route.Shows chain := by
  rcases hRegular.placed with ⟨hSound, -⟩ | ⟨-, hNone⟩
  · have hSlot := hSound.slot slot chain hChain
    have hAt : snapshot.state.cluster.chainAt slot = chain := by
      simp [Coordinator.ClusterState.chainAt, hChain]
    have hNamed : "" ∉ activeReplicaIDs chain := by
      have hIDs := hSound.named_of_mem (i := slot)
      rw [Coordinator.ClusterState.idsAt, hAt] at hIDs
      exact fun hMem => hIDs (Coordinator.activeIDs_subset _ hMem)
    simp only [routes, reduceRoutingSnapshot, List.getElem?_map, hChain, Option.map_some,
      Option.some.injEq] at hRoute
    refine reduceSlotRoute_shows hRoute.symm ?_ hNamed hOpen
    intro queued hQueued hUse
    rw [hSlot, queuedPeerRefresh, Std.ExtTreeMap.getElem?_filter'] at hQueued
    have hShown := h slot queued (Option.filter_eq_some_iff.mp hQueued).1 hUse
    rwa [Coordinator.ClusterState.activesAt, hAt] at hShown
  · rw [hNone] at hChain
    cases hChain

/-! ## What a step does to captured chains -/

/-- A reconcile runs only while no slot with a captured chain has an active replica to spare. -/
def Operation.SparesRoutes (base : HASnapshot) : Operation → Prop
  | .reconcile _ => ∀ (slot : Nat) (refresh : ActivePeerRefreshState),
      base.activePeerRefresh[slot]? = some refresh → refresh.useFallbackRoute = true →
        ((base.state.cluster.activesAt slot).length : Int) ≤ base.state.cluster.replicationFactor
  | _ => True

variable {cfg : ServerConfig} {observed base next : HASnapshot}

/-- Captured chains survive where they were captured before and no active replica is lost. -/
theorem HASnapshot.CapturesActive.of_kept (h : base.CapturesActive)
    (hKept : ∀ (slot : Nat) (refresh : ActivePeerRefreshState),
      next.activePeerRefresh[slot]? = some refresh → refresh.useFallbackRoute = true →
        ∃ old, base.activePeerRefresh[slot]? = some old ∧ old.useFallbackRoute = true ∧
          old.fallbackServingChain = refresh.fallbackServingChain ∧
          base.state.cluster.activesAt slot <+: next.state.cluster.activesAt slot) :
    next.CapturesActive := by
  intro slot refresh hRefresh hUse
  obtain ⟨old, hOld, hOldUse, hChain, hActives⟩ := hKept slot refresh hRefresh hUse
  rw [← hChain]
  exact (h slot old hOld hOldUse).trans hActives

theorem HASnapshot.CapturesActive.of_same (h : base.CapturesActive)
    (hRefresh : next.activePeerRefresh = base.activePeerRefresh)
    (hChains : next.state.cluster.chains = base.state.cluster.chains) : next.CapturesActive := by
  refine h.of_kept fun slot refresh hFound hUse => ⟨refresh, hRefresh ▸ hFound, hUse, rfl, ?_⟩
  rw [Coordinator.ClusterState.activesAt, Coordinator.ClusterState.activesAt,
    Coordinator.chainAt_congr hChains]

variable {refresh : ActivePeerRefreshState} {current : SlotProgressView} {nodeID commandID : String}
  {attempt : Nat} {reduction : ReplicaProgressReduction}

theorem nextHAActivePeerRefreshFromPlan_fallback {plan : Coordinator.ReconfigurationPlan}
    {current : Std.ExtTreeMap Nat ActivePeerRefreshState}
    (h : (nextHAActivePeerRefreshFromPlan current (some plan))[slot]? = some refresh)
    (hUse : refresh.useFallbackRoute = true) :
    slot ∉ plan.changedSlots.map (·.slot) ∧ current[slot]? = some refresh := by
  simp only [nextHAActivePeerRefreshFromPlan, Option.elim_some] at h
  generalize plan.changedSlots = plans at h
  induction plans generalizing current with
  | nil => exact ⟨List.not_mem_nil, h⟩
  | cons slotPlan rest ih =>
    rw [List.foldl_cons] at h
    obtain ⟨hRest, hFound⟩ := ih h
    rw [getElem?_insert_ite] at hFound
    split at hFound
    · -- The refresh that a plan queues carries no captured chain.
      rw [Option.some.injEq] at hFound
      rw [← hFound] at hUse
      split at hUse <;> cases hUse
    · rename_i hSlot
      refine ⟨?_, hFound⟩
      rw [List.map_cons, List.mem_cons, not_or]
      exact ⟨Ne.symm hSlot, hRest⟩

theorem reduceReplicaReadyProgress_fallback
    (h : reduceReplicaReadyProgress current nodeID commandID attempt = .ok reduction)
    (hUse : reduction.peerRefreshState.useFallbackRoute = true) :
    reduction.peerRefreshState.fallbackServingChain = Runtime.activeServingChain current.chain := by
  obtain ⟨proceeds, -, h⟩ := bind_eq_ok.mp h
  cases proceeds with
  | false =>
    cases h
    cases hUse
  | true =>
    cases h
    dsimp only at hUse ⊢
    cases hFallback : readyProgressFallbackServingChainForChain current.chain
        current.replicationFactor with
    | none => simp [hFallback] at hUse
    | some fallback =>
      rw [readyProgressFallbackServingChainForChain] at hFallback
      split at hFallback
      · cases hFallback
      split at hFallback
      · cases hFallback
      · cases hFallback
        rfl

theorem readyRefreshState_fallback
    (hOwn : reduction.peerRefreshState.useFallbackRoute = true →
      reduction.peerRefreshState.fallbackServingChain = Runtime.activeServingChain current.chain)
    (h : readyRefreshState current reduction = some refresh)
    (hUse : refresh.useFallbackRoute = true) :
    refresh.fallbackServingChain = Runtime.activeServingChain current.chain := by
  rw [readyRefreshState] at h
  split at h
  · cases h
  split at h
  · cases h
    rfl
  · cases h
    exact hOwn hUse

theorem reduceReplicaReadyProgress_pending
    (h : reduceReplicaReadyProgress current nodeID commandID attempt = .ok reduction)
    (hProceeds : reduction.duplicateCompleted = false) :
    ∃ pending, current.pending = some pending ∧ pending.kind = .ready ∧
      pending.nodeID = nodeID := by
  obtain ⟨proceeds, hAdmit, h⟩ := bind_eq_ok.mp h
  split at h
  · rename_i hTrue
    subst hTrue
    rw [ProgressCheck.accept] at hAdmit
    split at hAdmit
    · split at hAdmit <;> cases hAdmit
    · rename_i pending hPending
      obtain ⟨hFound, hMatches⟩ := Option.filter_eq_some_iff.mp hPending
      have hMatches : pending.kind = readyCheck.pendingKind ∧ pending.nodeID = nodeID :=
        of_decide_eq_true hMatches
      exact ⟨pending, hFound, hMatches.1, hMatches.2⟩
  · cases h
    cases hProceeds

theorem slotProgressViewFromState_congr {state other : State}
    (h : other.toView.AgreesExceptLiveness state.toView) (slot : Nat) :
    slotProgressViewFromState other slot = slotProgressViewFromState state slot := by
  rw [slotProgressViewFromState, slotProgressViewFromState, slotVersionOf, slotVersionOf, ← h]

section Submitted

variable (hLedger : Ledger base.state) (hRegular : base.state.Regular)
  (hCaptures : base.CapturesActive) {evaluated : Runtime.EvaluatedCommand} {cmd : Command}
  (hNone : base.state.appliedCommands[cmd.id]? = none)
  (hEvaluated : Runtime.evaluateCommand base.state cmd = .ok evaluated)
  (hState : next.state = cloneState evaluated.nextState)

include hLedger hNone hEvaluated hState

theorem fresh_executed :
    Runtime.cloneClusterState base.state.cluster = base.state.cluster ∧
      ∃ cluster plan, Runtime.Executed base.state cmd cluster plan ∧
        evaluated.plan = plan.map Runtime.clonePlan ∧
        ∀ slot, next.state.cluster.chainAt slot = cluster.chainAt slot := by
  obtain ⟨-, cluster, plan, hExecuted, hPlan, hNext⟩ :=
    Runtime.evaluateCommand_fresh hLedger.normal hNone hEvaluated
  refine ⟨congrArg (fun s : State => s.cluster) hLedger.normal, cluster, plan, hExecuted, hPlan, ?_⟩
  intro slot
  rw [hState, hNext, hLedger.next_normal]
  exact Runtime.nextView_chainAt ..

include hCaptures

theorem captures_kept (hKind : cmd.kind = .liveness ∨ cmd.kind = .acknowledgeOutbox)
    (hRefresh : next.activePeerRefresh = base.activePeerRefresh) : next.CapturesActive := by
  obtain ⟨hCluster, cluster, plan, hExecuted, -, hAt⟩ :=
    fresh_executed hLedger hNone hEvaluated hState
  cases hExecuted with
  | placed kind | progressed kind | planned kind => simp [kind] at hKind
  | kept _ =>
    refine hCaptures.of_kept fun slot refresh hFound hUse =>
      ⟨refresh, hRefresh ▸ hFound, hUse, rfl, ?_⟩
    rw [Coordinator.ClusterState.activesAt, Coordinator.ClusterState.activesAt, hAt, hCluster]

include hRegular

theorem captures_membership {reconfigure : Runtime.ReconfigureCommand}
    (hKind : cmd.kind = .reconfigure) (hPayload : cmd.reconfigure = some reconfigure)
    (hEvents : ∀ event ∈ reconfigure.events, event.kind.IsMembership)
    (hRefresh : next.activePeerRefresh =
      nextHAActivePeerRefreshFromPlan base.activePeerRefresh evaluated.plan) :
    next.CapturesActive := by
  obtain ⟨hCluster, cluster, plan, hExecuted, hPlan, hAt⟩ :=
    fresh_executed hLedger hNone hEvaluated hState
  cases hExecuted with
  | placed kind | progressed kind | kept kind => simp [hKind] at kind
  | planned _ payload initialized plans =>
    rw [hPayload, Option.some.injEq] at payload
    subst payload
    rw [hCluster] at plans
    have hExplains := Coordinator.planReconfiguration_explains
      (hRegular.placed.sound initialized).1 hEvents plans
    rw [hPlan] at hRefresh
    refine hCaptures.of_kept fun slot refresh hFound hUse => ?_
    rw [hRefresh] at hFound
    obtain ⟨hSlot, hOld⟩ := nextHAActivePeerRefreshFromPlan_fallback hFound hUse
    refine ⟨refresh, hOld, hUse, rfl, ?_⟩
    have hSame : next.state.cluster.chainAt slot = base.state.cluster.chainAt slot :=
      (hAt slot).trans (hExplains.chainAt_of_not_mem hSlot)
    rw [Coordinator.ClusterState.activesAt, Coordinator.ClusterState.activesAt, hSame]

theorem captures_progress {progress : Runtime.ProgressCommand} (hKind : cmd.kind = .progress)
    (hPayload : cmd.progress = some progress)
    (hSlot : ∀ (cluster : Coordinator.ClusterState) (refresh : ActivePeerRefreshState),
      Coordinator.Sound base.state.cluster →
      Coordinator.applyProgress base.state.cluster progress.event = .ok cluster →
      next.activePeerRefresh[progress.event.slot.toNat]? = some refresh →
      refresh.useFallbackRoute = true →
        activeReplicaIDs refresh.fallbackServingChain <+:
          cluster.activesAt progress.event.slot.toNat)
    (hOthers : ∀ slot, slot ≠ progress.event.slot.toNat →
      next.activePeerRefresh[slot]? = base.activePeerRefresh[slot]?) :
    next.CapturesActive := by
  obtain ⟨hCluster, cluster, plan, hExecuted, -, hAt⟩ :=
    fresh_executed hLedger hNone hEvaluated hState
  cases hExecuted with
  | placed kind | planned kind | kept kind => simp [hKind] at kind
  | @progressed _ updated _ payload initialized applied =>
    rw [hPayload, Option.some.injEq] at payload
    subst payload
    rw [hCluster] at applied
    have hSound := (hRegular.placed.sound initialized).1
    intro slot refresh hFound hUse
    have hSame : next.state.cluster.activesAt slot = updated.activesAt slot := by
      rw [Coordinator.ClusterState.activesAt, hAt]
      rfl
    rw [hSame]
    by_cases hEq : slot = progress.event.slot.toNat
    · rw [hEq] at hFound ⊢
      exact hSlot updated refresh hSound applied hFound hUse
    · rw [hOthers slot hEq] at hFound
      rw [Coordinator.ClusterState.activesAt,
        Coordinator.applyProgress_chainAt_of_ne hSound applied hEq]
      exact hCaptures slot refresh hFound hUse

theorem captures_reconcile {reconfigure : Runtime.ReconfigureCommand}
    (hKind : cmd.kind = .reconfigure) (hPayload : cmd.reconfigure = some reconfigure)
    (hEvents : reconfigure.events = [])
    (hSpares : ∀ (slot : Nat) (refresh : ActivePeerRefreshState),
      base.activePeerRefresh[slot]? = some refresh → refresh.useFallbackRoute = true →
        ((base.state.cluster.activesAt slot).length : Int) ≤ base.state.cluster.replicationFactor)
    (hRefresh : next.activePeerRefresh = base.activePeerRefresh) : next.CapturesActive := by
  obtain ⟨hCluster, cluster, plan, hExecuted, -, hAt⟩ :=
    fresh_executed hLedger hNone hEvaluated hState
  cases hExecuted with
  | placed kind | progressed kind | kept kind => simp [hKind] at kind
  | @planned _ planned _ payload initialized plans =>
    rw [hPayload, Option.some.injEq] at payload
    subst payload
    rw [hCluster, hEvents] at plans
    obtain ⟨hSound, hFree⟩ := hRegular.placed.sound initialized
    have hShort := Coordinator.planReconfiguration_keepsShort hSound hFree plans
    intro slot refresh hFound hUse
    rw [hRefresh] at hFound
    have hSame : next.state.cluster.activesAt slot = planned.updatedState.activesAt slot := by
      rw [Coordinator.ClusterState.activesAt, hAt]
      rfl
    rw [hSame, hShort.actives slot (hSpares slot refresh hFound hUse)]
    exact hCaptures slot refresh hFound hUse

end Submitted

/-! ## Every run -/

theorem acknowledgeRefresh_fallback {snapshot : HASnapshot} {entry : OutboxEntry}
    {queued : ActivePeerRefreshState}
    (hQueued : snapshot.activePeerRefresh[entry.slot]? = some queued)
    (h : (acknowledgeRefresh snapshot entry queued)[slot]? = some refresh) :
    ∃ old, snapshot.activePeerRefresh[slot]? = some old ∧
      old.useFallbackRoute = refresh.useFallbackRoute ∧
      old.fallbackServingChain = refresh.fallbackServingChain := by
  rw [acknowledgeRefresh] at h
  cases hActive : refreshStateWithDefaultRemainingNodes snapshot.state entry.slot queued with
  | none =>
    rw [hActive] at h
    exact ⟨refresh, h, rfl, rfl⟩
  | some active =>
    have hFields : queued.useFallbackRoute = active.useFallbackRoute ∧
        queued.fallbackServingChain = active.fallbackServingChain := by
      rw [refreshStateWithDefaultRemainingNodes] at hActive
      split at hActive
      · cases hActive
        exact ⟨rfl, rfl⟩
      · obtain ⟨chain, -, rfl⟩ := Option.map_eq_some_iff.mp hActive
        exact ⟨rfl, rfl⟩
    simp only [hActive] at h
    split at h
    · exact ⟨refresh, h, rfl, rfl⟩
    split at h
    · rw [getElem?_erase_ite] at h
      split at h
      · cases h
      · exact ⟨refresh, h, rfl, rfl⟩
    · rw [getElem?_insert_ite] at h
      split at h
      · rename_i hSlot
        cases h
        exact ⟨queued, hSlot ▸ hQueued, hFields.1, hFields.2⟩
      · exact ⟨refresh, h, rfl, rfl⟩

theorem slotProgressView_actives (state : State) (slot : Nat) :
    activeReplicaIDs (slotProgressViewFromState state slot).chain =
      state.cluster.activesAt slot := by
  simp only [slotProgressViewFromState, Coordinator.ClusterState.activesAt,
    Coordinator.ClusterState.chainAt]
  cases state.cluster.chains[slot]? <;> rfl

theorem captures_ready (hLedger : Ledger base.state) (hRegular : base.state.Regular)
    (hCaptures : base.CapturesActive)
    (hObserved : observed.state.version = base.state.version →
      observed.state.toView.AgreesExceptLiveness base.state.toView)
    (hReduced : reduceReplicaReadyProgress (slotProgressViewFromState observed.state slot) nodeID
      commandID attempt = .ok reduction) (hProceeds : reduction.duplicateCompleted = false)
    (hNone : base.state.appliedCommands[reduction.progressCommandID]? = none)
    {evaluated : Runtime.EvaluatedCommand}
    (hEvaluated : Runtime.evaluateCommand base.state (progressCommand observed
      reduction.progressCommandID .replicaBecameActive nodeID slot) = .ok evaluated)
    (hState : next.state = cloneState evaluated.nextState)
    (hRefresh : next.activePeerRefresh = (Mutation.ready slot (readyRefreshState
      (slotProgressViewFromState observed.state slot) reduction)).activePeerRefresh base evaluated) :
    next.CapturesActive := by
  obtain ⟨hVersion, -⟩ := Runtime.evaluateCommand_fresh hLedger.normal hNone hEvaluated
  rw [slotProgressViewFromState_congr (hObserved hVersion)] at hReduced hRefresh
  obtain ⟨pending, hPending, hKind, rfl⟩ := reduceReplicaReadyProgress_pending hReduced hProceeds
  have hAwaits := hRegular.awaits slot pending hPending hKind
  refine captures_progress hLedger hRegular hCaptures hNone hEvaluated hState rfl rfl ?_ ?_
  · intro cluster refresh hSound hApplied hFound hUse
    have hActives := Coordinator.applyProgress_activates hSound hApplied rfl hAwaits
    rw [hActives]
    refine List.IsPrefix.trans ?_ (List.prefix_append _ _)
    rw [hRefresh, Mutation.activePeerRefresh] at hFound
    cases hQueued : readyRefreshState (slotProgressViewFromState base.state slot) reduction with
    | none =>
      rw [hQueued] at hFound
      exact hCaptures slot refresh hFound hUse
    | some queued =>
      rw [hQueued, Option.elim_some] at hFound
      have hSame : queued = refresh := by simpa using hFound
      subst hSame
      rw [readyRefreshState_fallback (reduceReplicaReadyProgress_fallback hReduced) hQueued hUse,
        activeReplicaIDs_activeServingChain, slotProgressView_actives]
      exact List.prefix_refl _
  · intro other hOther
    rw [hRefresh, Mutation.activePeerRefresh]
    cases readyRefreshState (slotProgressViewFromState base.state slot) reduction with
    | none => rfl
    | some queued =>
      rw [Option.elim_some, getElem?_insert_ite, if_neg]
      exact fun hEq => hOther hEq.symm

theorem Effect.captures {op : Operation} {saved : HASnapshot}
    (h : Effect cfg observed base op next) (hLedger : Ledger base.state)
    (hRegular : base.state.Regular) (hProper : op.Proper cfg observed base)
    (hSpares : op.SparesRoutes base)
    (hObserved : observed.state.version = base.state.version →
      observed.state.toView.AgreesExceptLiveness base.state.toView)
    (hCaptures : base.CapturesActive) (hState : saved.state = cloneState next.state)
    (hQueue : saved.activePeerRefresh = next.activePeerRefresh) : saved.CapturesActive := by
  obtain ⟨hOperation, hFresh, hAck⟩ := hProper
  cases h with
  | submitted submits evaluates state refresh =>
    have hNone := hFresh _ _ submits
    have hOrderly := submits.orderly hOperation
    rw [state] at hState
    rw [refresh] at hQueue
    cases submits with
    | bootstrap =>
      intro slot queued hFound
      rw [hQueue] at hFound
      simp [Mutation.activePeerRefresh] at hFound
    | membership kind payload events =>
      exact captures_membership hLedger hRegular hCaptures hNone evaluates hState kind payload
        (hOrderly kind _ payload) hQueue
    | ready reduced proceeds =>
      exact captures_ready hLedger hRegular hCaptures hObserved reduced proceeds hNone evaluates
        hState hQueue
    | @removed nodeID slot commandID attempt reduction reduced proceeds =>
      refine captures_progress hLedger hRegular hCaptures hNone evaluates hState rfl rfl ?_ ?_
      · intro cluster queued hSound hApplied hFound hUse
        have hSame : {} = queued := by
          simpa [hQueue, Mutation.activePeerRefresh] using hFound
        subst hSame
        cases hUse
      · intro other hOther
        rw [hQueue, Mutation.activePeerRefresh, getElem?_insert_ite, if_neg]
        exact fun hEq => hOther hEq.symm
    | register reg policy attempt =>
      exact captures_membership hLedger hRegular hCaptures hNone evaluates hState rfl rfl
        (hOrderly rfl _ rfl) hQueue
    | reconcile policy =>
      exact captures_reconcile hLedger hRegular hCaptures hNone evaluates hState rfl rfl rfl hSpares
        hQueue
    | liveness nodeID target evaluatedAtUnixNano deadActionFired =>
      exact captures_kept hLedger hCaptures hNone evaluates hState (.inl rfl) hQueue
  | heartbeat _ state refresh =>
    refine hCaptures.of_same (hQueue.trans refresh) ?_
    rw [hState, state]
    rfl
  | delivered evaluates state refresh =>
    rw [state] at hState
    exact captures_kept hLedger hCaptures (hAck _ rfl) evaluates hState (.inr rfl)
      (hQueue.trans refresh)
  | refreshed found state refresh =>
    refine hCaptures.of_kept fun slot queued hFound hUse => ?_
    rw [hQueue, refresh] at hFound
    obtain ⟨old, hOld, hOldUse, hChain⟩ := acknowledgeRefresh_fallback found hFound
    refine ⟨old, hOld, hOldUse.trans hUse, hChain, ?_⟩
    rw [hState, state]
    exact List.prefix_refl _
  | quiet state refresh =>
    refine hCaptures.of_same (hQueue.trans refresh) ?_
    rw [hState, state]
    rfl

/-- The condition of a step: fresh commands, and no reconcile over a captured chain of a slot that
has active replicas to spare. -/
def Operation.KeepsRoutes (cfg : ServerConfig) (observed base : HASnapshot) (op : Operation) :
    Prop :=
  op.Proper cfg observed base ∧ op.SparesRoutes base

theorem HistoryUnder.captures {current : HASnapshot} {older : List HASnapshot}
    (h : HistoryUnder (Operation.KeepsRoutes cfg) cfg current older) : current.CapturesActive := by
  induction h with
  | empty =>
    intro slot refresh hFound
    simp [zeroHASnapshot] at hFound
  | @save current observed base next older history op epoch loaded meets run accepted ih =>
    obtain rfl := history.accepted_eq loaded.2 accepted
    have hLedger := history.ledger
    obtain ⟨hVersioned, hRegular⟩ := history.versioned fun _ _ _ hMeets => hMeets.1
    rw [cloneHASnapshot_eq hLedger,
      cloneHASnapshot_eq (history.ledger_of_mem observed loaded.1)] at run
    refine (Operation.run_effect run).captures hLedger hRegular meets.1 meets.2 ?_ ih rfl rfl
    intro hVersion
    rcases List.mem_cons.mp loaded.1 with rfl | hOld
    · rfl
    · exact hVersioned.agrees observed hOld hVersion

/-- In every history whose steps meet the condition, each open route lists active replicas of the
slot's chain in chain order and starts at the first of them. -/
theorem open_routes_show_active {current : HASnapshot} {older : List HASnapshot}
    (h : HistoryUnder (Operation.KeepsRoutes cfg) cfg current older) {slot : Nat}
    {route : SlotRoute} {chain : Chain} (hRoute : current.routes.slots[slot]? = some route)
    (hChain : current.state.cluster.chains[slot]? = some chain)
    (hOpen : route.readable = true ∨ route.writable = true) : route.Shows chain :=
  h.captures.shows (h.versioned fun _ _ _ hMeets => hMeets.1).2 hRoute hChain hOpen

/-! ## Draining the only replica of a slot -/

def bootstrapAB : Command :=
  { id := "bootstrap", expectedVersion := 0, kind := .bootstrap,
    bootstrap := some { config := ⟨1, 1⟩, nodes := [plainNode "a", plainNode "b"], policy := ⟨0⟩ } }

def drainA : Command :=
  { id := "drain-a", expectedVersion := 1, kind := .reconfigure,
    reconfigure := some { policy := ⟨0⟩, events := [⟨.beginDrainNode, Runtime.zeroNode, "a", 0⟩] } }

def placedAB : HASnapshot := commitAlone zeroHASnapshot (.bootstrap bootstrapAB)

def drainingA : HASnapshot := commitAlone placedAB (.membership drainA .beginDrainNode)

def activatedB : HASnapshot := commitAlone drainingA (.replicaReady "b" 0 "ready-b" 0)

def leavingA : HASnapshot := commitAlone activatedB (.reconcile ⟨0⟩)

theorem reduceReplicaReadyProgress_commandID
    (h : reduceReplicaReadyProgress current nodeID commandID attempt = .ok reduction)
    (hProceeds : reduction.duplicateCompleted = false) (hNamed : commandID ≠ "") :
    reduction.progressCommandID = commandID := by
  obtain ⟨proceeds, -, h⟩ := bind_eq_ok.mp h
  cases proceeds with
  | false =>
    cases h
    cases hProceeds
  | true =>
    cases h
    exact if_pos hNamed

theorem activatedB_history :
    HistoryUnder (Operation.KeepsRoutes quietConfig) quietConfig activatedB
      [drainingA, placedAB, zeroHASnapshot] := by
  refine HistoryUnder.commitAlone (HistoryUnder.commitAlone
    (HistoryUnder.commitAlone .empty ⟨⟨rfl, ?_, ?_⟩, trivial⟩ ?_) ⟨⟨?_, ?_, ?_⟩, trivial⟩ ?_)
    ⟨⟨trivial, ?_, ?_⟩, trivial⟩ ?_
  · rintro cmd mutation ⟨⟩
    decide +kernel
  · rintro entry ⟨⟩
  · decide +kernel
  · exact .inr (.inr (.inl rfl))
  · rintro cmd mutation ⟨⟩
    decide +kernel
  · rintro entry ⟨⟩
  · decide +kernel
  · rintro cmd mutation (_ | _ | ⟨hReduced, hProceeds⟩)
    rw [progressCommand, reduceReplicaReadyProgress_commandID hReduced hProceeds (by decide)]
    decide +kernel
  · rintro entry ⟨⟩
  · decide +kernel

/-- After the report the route lists `a` alone, the first of the two active replicas. -/
theorem activatedB_routes_show :
    ∃ route chain, activatedB.routes.slots[0]? = some route ∧
      activatedB.state.cluster.chains[0]? = some chain ∧ route.readable = true ∧
      route.readers = ["a"] ∧ activeReplicaIDs chain = ["a", "b"] ∧ route.Shows chain := by
  have hRoute : activatedB.routes.slots[0]?.map (fun route => (route.readable, route.readers)) =
      some (true, ["a"]) := by decide +kernel
  have hChain : activatedB.state.cluster.chains[0]?.map activeReplicaIDs = some ["a", "b"] := by
    decide +kernel
  obtain ⟨route, hFound, hShown⟩ := Option.map_eq_some_iff.mp hRoute
  obtain ⟨chain, hHeld, hActives⟩ := Option.map_eq_some_iff.mp hChain
  rw [Prod.mk.injEq] at hShown
  exact ⟨route, chain, hFound, hHeld, hShown.1, hShown.2, hActives,
    open_routes_show_active activatedB_history hFound hHeld (.inl hShown.1)⟩

/-- The reconcile that follows the report marks `a` leaving and keeps the refresh: the route is
still open and names only `a`. -/
theorem leaving_head_stays_routed :
    History quietConfig leavingA [activatedB, drainingA, placedAB, zeroHASnapshot] ∧
      ∃ route chain, leavingA.routes.slots[0]? = some route ∧
        leavingA.state.cluster.chains[0]? = some chain ∧
        chain.replicas = [⟨"b", .active⟩, ⟨"a", .leaving⟩] ∧
        route.readable = true ∧ route.writable = true ∧ route.readers = ["a"] ∧
        route.headNodeID = "a" ∧ route.tailNodeID = "a" ∧ ¬route.Shows chain := by
  refine ⟨activatedB_history.history.commitAlone trivial (by decide +kernel), ?_⟩
  have hRoute : leavingA.routes.slots[0]?.map (fun route =>
      (route.readable, route.writable, route.readers, route.headNodeID, route.tailNodeID)) =
      some (true, true, ["a"], "a", "a") := by decide +kernel
  have hChain : leavingA.state.cluster.chains[0]?.map (·.replicas) =
      some [⟨"b", .active⟩, ⟨"a", .leaving⟩] := by decide +kernel
  obtain ⟨route, hFound, hShown⟩ := Option.map_eq_some_iff.mp hRoute
  obtain ⟨chain, hHeld, hReplicas⟩ := Option.map_eq_some_iff.mp hChain
  simp only [Prod.mk.injEq] at hShown
  obtain ⟨hRead, hWrite, hReaders, hHead, hTail⟩ := hShown
  refine ⟨route, chain, hFound, hHeld, hReplicas, hRead, hWrite, hReaders, hHead, hTail, ?_⟩
  intro hShows
  have hGone := hShows.tail
  rw [hTail, activeReplicaIDs, hReplicas] at hGone
  exact absurd hGone (by decide)

end Craq.Coordserver
