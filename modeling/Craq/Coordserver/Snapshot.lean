import Craq.Runtime.Evaluate

/-! # The coordinator server's shared snapshot

A coordinator with high availability keeps nothing of its own: it loads one snapshot, computes the
next one and saves it under a version check.  Besides the runtime state the snapshot holds the
outbox that a leader still has to deliver, which is derived again from the rest at each change.
-/

namespace Craq.Coordserver

open Coordinator (Chain ClusterState Node ReconfigurationPlan SlotPlan StepKind quoted)
open Craq.Runtime (Command CompletedProgressRecord NodeLivenessRecord PendingWork State)
open Storage (NodeRecoveryReport NodeStatus RecoveredReplica ReplicaAssignment ReplicaRole)

inductive Sentinel where
  | unknownNode
  | notLeader
  | unexpectedProgress
  | stateMismatch
  | invalidServerCommand
  | recoveryFailed
  | snapshotConflict
deriving DecidableEq, Repr

inductive Error where
  | bare (kind : Sentinel)
  | sentinel (kind : Sentinel) (detail : String)
  | runtime (inner : Runtime.Error)
deriving DecidableEq, Repr

inductive OutboxCommandKind where
  | addReplicaAsTail
  | updateChainPeers
  | markReplicaLeaving
  | resumeRecovered
  | recoverReplica
  | dropRecovered
deriving DecidableEq, Repr

def OutboxCommandKind.text : OutboxCommandKind → String
  | .addReplicaAsTail => "add_replica_as_tail"
  | .updateChainPeers => "update_chain_peers"
  | .markReplicaLeaving => "mark_replica_leaving"
  | .resumeRecovered => "resume_recovered_replica"
  | .recoverReplica => "recover_replica"
  | .dropRecovered => "drop_recovered_replica"

structure OutboxEntry where
  id : String
  epoch : Nat
  nodeID : String
  slot : Nat
  slotVersion : Nat := 0
  commandID : String
  kind : OutboxCommandKind
  assignment : Option ReplicaAssignment := none
  sourceNodeID : String := ""
deriving DecidableEq, Repr

structure ActivePeerRefreshState where
  fallbackServingChain : Chain := ⟨0, []⟩
  assignmentChain : Chain := ⟨0, []⟩
  useFallbackRoute : Bool := false
  allowWhilePending : Bool := false
  remainingNodeIDs : Std.ExtTreeMap String Bool := ∅

structure HASnapshot where
  snapshotVersion : Nat
  state : State
  pendingEpochBySlot : Std.ExtTreeMap Nat Nat
  heartbeats : Std.ExtTreeMap String NodeStatus
  activePeerRefresh : Std.ExtTreeMap Nat ActivePeerRefreshState
  startupBudgetActive : Bool
  unavailableReplicas : Std.ExtTreeMap String (Std.ExtTreeMap Nat Bool)
  lastRecoveryReports : Std.ExtTreeMap String NodeRecoveryReport
  outbox : List OutboxEntry

def zeroHASnapshot : HASnapshot :=
  { snapshotVersion := 0, state := Runtime.zeroState, pendingEpochBySlot := ∅, heartbeats := ∅,
    activePeerRefresh := ∅, startupBudgetActive := false, unavailableReplicas := ∅,
    lastRecoveryReports := ∅, outbox := [] }

/-- The clone made at every load, save and mutation; only the runtime state's clone is not a copy. -/
def cloneHASnapshot (snapshot : HASnapshot) : HASnapshot :=
  { snapshot with state := Runtime.cloneState snapshot.state }

/-! ## Chains and assignments -/

/-- The last active replica of a chain, or its last replica when none is active. -/
def tailNodeID (chain : Chain) : String :=
  let active := (Coordinator.activeReplicaIDs chain).getLast?.getD ""
  if active = "" then (chain.replicas.getLast?.map (·.nodeID)).getD "" else active

def assignmentForNode (chain : Chain) (nodesByID : Std.ExtTreeMap String Node) (nodeID : String)
    (chainVersion : Nat) : Except Error ReplicaAssignment :=
  match chain.replicas.findIdx? (·.nodeID = nodeID) with
  | none => .error (.sentinel .stateMismatch
      s!"node {quoted nodeID} not found in chain {chain.slot}")
  | some position =>
    let role : Storage.ReplicaRole :=
      if chain.replicas.length = 1 then .single
      else if position = 0 then .head
      else if position + 1 = chain.replicas.length then .tail
      else .middle
    let neighbour (index : Nat) := (chain.replicas[index]?.map (·.nodeID)).getD ""
    let predecessor : Storage.ChainPeers :=
      if 0 < position then
        { predecessorNodeID := neighbour (position - 1),
          predecessorTarget := Runtime.rpcAddressOf nodesByID (neighbour (position - 1)) }
      else {}
    let neighbours : Storage.ChainPeers :=
      if position + 1 < chain.replicas.length then
        { predecessor with
          successorNodeID := neighbour (position + 1),
          successorTarget := Runtime.rpcAddressOf nodesByID (neighbour (position + 1)) }
      else predecessor
    let tail := tailNodeID chain
    let peers : Storage.ChainPeers :=
      if tail = "" then neighbours
      else { neighbours with
        tailNodeID := tail, tailTarget := Runtime.rpcAddressOf nodesByID tail }
    .ok { slot := chain.slot, chainVersion, role, peers }

def slotVersionOf (state : State) (slot : Nat) : Nat := state.slotVersions[slot]?.getD 0

def currentAssignmentForNode (state : State) (nodeID : String) (slot : Nat) :
    Option ReplicaAssignment :=
  state.cluster.chains[slot]?.bind fun chain =>
    (assignmentForNode chain state.cluster.nodesByID nodeID (slotVersionOf state slot)).toOption

def clusterFullySettledForStartup (cluster : ClusterState) : Bool :=
  cluster.slotCount ≠ 0 && 0 < cluster.replicationFactor &&
    cluster.chains.length = cluster.slotCount &&
    cluster.chains.all fun chain =>
      chain.replicas.length = cluster.replicationFactor && chain.replicas.all (·.state = .active)

/-! ## Commands for peer refreshes -/

def commandIDForOutbox (kind : OutboxCommandKind) (nodeID : String) (slot epoch : Nat) : String :=
  s!"{kind.text}-{nodeID}-{slot}-e{epoch}"

def activePeerRefreshOutboxID (slot : Nat) (nodeID : String) : String :=
  s!"ha-peer-refresh-slot{slot}-{nodeID}"

def shouldDispatchActivePeerRefreshForState (state : State) (slot : Nat)
    (refresh : ActivePeerRefreshState) : Bool :=
  refresh.allowWhilePending || (!state.pendingBySlot.contains slot && state.outbox.all (·.slot ≠ slot))

def chainForActivePeerRefresh (state : State) (slot : Nat) (refresh : ActivePeerRefreshState) :
    Option Chain :=
  state.cluster.chains[slot]?.map fun chain =>
    if refresh.assignmentChain.replicas ≠ [] ∧ refresh.assignmentChain.slot = slot then
      refresh.assignmentChain
    else Runtime.activeServingChain chain

def refreshStateWithDefaultRemainingNodes (state : State) (slot : Nat)
    (refresh : ActivePeerRefreshState) : Option ActivePeerRefreshState :=
  if !refresh.remainingNodeIDs.isEmpty then some refresh
  else (chainForActivePeerRefresh state slot refresh).map fun chain =>
    { refresh with
      remainingNodeIDs := (Coordinator.activeReplicaIDs chain).foldl (·.insert · true) ∅ }

def activePeerRefreshEntry (state : State) (epoch slot : Nat) (chain : Chain) (nodeID : String) :
    Option OutboxEntry :=
  (assignmentForNode chain state.cluster.nodesByID nodeID
      (slotVersionOf state slot)).toOption.map fun assignment =>
    { id := activePeerRefreshOutboxID slot nodeID, epoch, nodeID, slot,
      slotVersion := assignment.chainVersion,
      commandID := commandIDForOutbox .updateChainPeers nodeID slot epoch,
      kind := .updateChainPeers, assignment := some assignment }

/-- The peer updates one persisted refresh still asks for, in the order of the node IDs. -/
def activePeerRefreshEntriesOf (state : State) (epoch slot : Nat)
    (refresh : ActivePeerRefreshState) : List OutboxEntry :=
  if shouldDispatchActivePeerRefreshForState state slot refresh then
    match refreshStateWithDefaultRemainingNodes state slot refresh with
    | none => []
    | some initialized =>
      match chainForActivePeerRefresh state slot initialized with
      | none => []
      | some chain =>
        ((initialized.remainingNodeIDs.filter fun _ remaining => remaining).keys).filterMap
          (activePeerRefreshEntry state epoch slot chain)
  else []

def activePeerRefreshOutboxEntries (state : State)
    (persisted : Std.ExtTreeMap Nat ActivePeerRefreshState) (epoch : Nat) : List OutboxEntry :=
  persisted.toList.flatMap fun (slot, refresh) => activePeerRefreshEntriesOf state epoch slot refresh

/-! ## The outbox -/

def isRecoveryOutboxKind : OutboxCommandKind → Bool
  | .resumeRecovered | .recoverReplica | .dropRecovered => true
  | _ => false

def haOutboxKindFromRuntime : Runtime.OutboxCommandKind → OutboxCommandKind
  | .addReplicaAsTail => .addReplicaAsTail
  | .updateChainPeers => .updateChainPeers
  | .markReplicaLeaving => .markReplicaLeaving

def runtimeHAOutboxEntry (epoch : Nat) (entry : Runtime.OutboxEntry) : OutboxEntry :=
  { id := entry.id, epoch, nodeID := entry.nodeID, slot := entry.slot,
    slotVersion := entry.assignment.chainVersion, commandID := entry.commandID,
    kind := haOutboxKindFromRuntime entry.kind, assignment := some entry.assignment }

def OutboxEntry.le (a b : OutboxEntry) : Prop :=
  a.slot < b.slot ∨ a.slot = b.slot ∧ (a.kind.text < b.kind.text ∨ a.kind.text = b.kind.text ∧
    (a.nodeID < b.nodeID ∨ a.nodeID = b.nodeID ∧ a.id ≤ b.id))

instance : DecidableRel OutboxEntry.le := fun _ _ =>
  inferInstanceAs (Decidable (_ ∨ _ ∧ (_ ∨ _ ∧ (_ ∨ _ ∧ _))))

/-- `sortHAOutbox`; entries that agree in all four keys keep their order here. -/
def sortHAOutbox (entries : List OutboxEntry) : List OutboxEntry :=
  entries.insertionSort OutboxEntry.le

def rebuildHAOutbox (snapshot : HASnapshot) (epoch : Nat) : List OutboxEntry :=
  sortHAOutbox (snapshot.outbox.filter (fun entry => isRecoveryOutboxKind entry.kind) ++
    snapshot.state.outbox.map (runtimeHAOutboxEntry epoch) ++
    activePeerRefreshOutboxEntries snapshot.state snapshot.activePeerRefresh epoch)

def pendingEpochFromHAOutbox (slot : Nat) (pending : PendingWork) (outbox : List OutboxEntry) :
    Option Nat :=
  let wanted : OutboxCommandKind :=
    match pending.kind with
    | .ready => .addReplicaAsTail
    | .removed => .markReplicaLeaving
  (outbox.find? fun entry =>
    entry.slot = slot ∧ entry.nodeID = pending.nodeID ∧ entry.kind = wanted).map (·.epoch)

def nextHAPendingEpochs (current : Std.ExtTreeMap Nat Nat)
    (currentPending nextPending : Std.ExtTreeMap Nat PendingWork) (outbox : List OutboxEntry) :
    Std.ExtTreeMap Nat Nat :=
  nextPending.filterMap fun slot pending =>
    let kept := if currentPending[slot]? = some pending then current[slot]? else none
    (kept.or (pendingEpochFromHAOutbox slot pending outbox)).or current[slot]?

/-- The outbox and the pending epochs derived from the rest of `next`. -/
def refreshDerived (current next : HASnapshot) (epoch : Nat) : HASnapshot :=
  let outbox := rebuildHAOutbox next epoch
  { next with
    outbox
    pendingEpochBySlot := nextHAPendingEpochs current.pendingEpochBySlot
      current.state.pendingBySlot next.state.pendingBySlot outbox }

/-! ## The other fields of the next snapshot -/

def isZeroNodeStatus (status : NodeStatus) : Bool := status = {}

def nextHAHeartbeats (current : Std.ExtTreeMap String NodeStatus) (cmd : Command)
    (liveness : Std.ExtTreeMap String NodeLivenessRecord) : Std.ExtTreeMap String NodeStatus :=
  let reported :=
    match cmd.nodeReady, cmd.heartbeat with
    | some ready, _ => current.insert ready.status.nodeID ready.status
    | none, some beat => current.insert beat.status.nodeID beat.status
    | none, none => current
  liveness.toList.foldl (fun next (nodeID, record) =>
    if isZeroNodeStatus record.lastStatus ∨ nodeID ∈ next then next
    else next.insert nodeID record.lastStatus) reported

def nextHAStartupBudgetActive (snapshot : HASnapshot) (defaultActive : Bool) (state : State) : Bool :=
  if clusterFullySettledForStartup state.cluster then false
  else if snapshot.snapshotVersion = 0 ∧ !snapshot.state.isInitialized then defaultActive
  else snapshot.startupBudgetActive

def slotPlanHasOnlyStepKind (slotPlan : SlotPlan) (kind : StepKind) : Bool :=
  slotPlan.steps ≠ [] ∧ slotPlan.steps.all (·.kind = kind)

def nextHAActivePeerRefreshFromPlan (current : Std.ExtTreeMap Nat ActivePeerRefreshState)
    (plan : Option ReconfigurationPlan) : Std.ExtTreeMap Nat ActivePeerRefreshState :=
  plan.elim current fun plan => plan.changedSlots.foldl (fun next slotPlan =>
    next.insert slotPlan.slot <|
      if slotPlanHasOnlyStepKind slotPlan .appendTail then
        { assignmentChain := slotPlan.after, allowWhilePending := true }
      else {}) current

end Craq.Coordserver
