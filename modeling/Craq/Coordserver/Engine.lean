import Craq.Coordserver.Snapshot

/-! # The operations of a coordinator with high availability

Each operation computes the snapshot it saves from the one it loaded, or saves nothing.  An
operation that builds its command from an earlier load takes that load as `observed`.
-/

namespace Craq.Coordserver

open Coordinator (Chain EventKind Node ReconfigurationPolicy ReplicaState quoted)
open Craq.Runtime (Command CompletedProgressKind CompletedProgressRecord EvaluatedCommand
  NodeLivenessState PendingWork State evaluateCommand)
open Storage (NodeRecoveryReport NodeStatus RecoveredReplica ReplicaAssignment)

structure ServerConfig where
  startupMaxChangedChains : Int
  flapWindowNanos : Int

/-! ## Progress reports -/

structure SlotProgressView where
  version : Nat
  replicationFactor : Int
  chain : Chain
  slotVersion : Nat
  pending : Option PendingWork
  completed : List CompletedProgressRecord

def slotProgressViewFromState (state : State) (slot : Nat) : SlotProgressView :=
  { version := state.version
    replicationFactor := state.cluster.replicationFactor
    chain := state.cluster.chains[slot]?.getD ⟨0, []⟩
    slotVersion := slotVersionOf state slot
    pending := state.pendingBySlot[slot]?
    completed := state.completedProgressBySlot[slot]?.getD [] }

/-- A record of this version matches, and so does the only record of another version. -/
def matchesCompletedSlice (records : List CompletedProgressRecord) (nodeID : String)
    (kind : CompletedProgressKind) (slotVersion : Nat) : Bool :=
  let candidates := records.filter fun record => record.nodeID = nodeID ∧ record.kind = kind
  candidates.any (·.slotVersion = slotVersion) || candidates.length = 1

def chainContainsReplicaInState (chain : Chain) (nodeID : String) (state : ReplicaState) : Bool :=
  chain.replicas.any fun replica => replica.nodeID = nodeID ∧ replica.state = state

def activeReplicaCount (chain : Chain) : Nat := (chain.replicas.filter (·.state = .active)).length

def hasLeavingReplica (chain : Chain) : Bool := chain.replicas.any (·.state = .leaving)

def readyProgressFallbackServingChainForChain (chain : Chain) (replicationFactor : Int) :
    Option Chain :=
  if hasLeavingReplica chain ∨ replicationFactor ≤ activeReplicaCount chain then none
  else if (Runtime.activeServingChain chain).replicas = [] then none
  else some (Runtime.activeServingChain chain)

structure ReplicaProgressReduction where
  duplicateCompleted : Bool := false
  enqueuePeerRefresh : Bool := false
  peerRefreshState : ActivePeerRefreshState := {}
  progressCommandID : String := ""
  slotVersion : Nat

/-- What a ready and a removed report are checked for: the pending work they complete, and the
replica state the chain must still show.  `verb` and `adjective` are the words of the errors. -/
structure ProgressCheck where
  verb : String
  adjective : String
  pendingKind : Runtime.PendingKind
  completedKind : CompletedProgressKind
  replicaState : ReplicaState

def readyCheck : ProgressCheck := ⟨"ready", "joining", .ready, .ready, .joining⟩

def removedCheck : ProgressCheck := ⟨"removed", "leaving", .removed, .removed, .leaving⟩

/-- The checks of a report on its pending work: `true` when the report may proceed, `false` when
it repeats a completed one. -/
def ProgressCheck.accept (check : ProgressCheck) (current : SlotProgressView)
    (nodeID commandID : String) : Except Error Bool :=
  match current.pending.filter fun pending =>
      pending.kind = check.pendingKind ∧ pending.nodeID = nodeID with
  | none =>
    if matchesCompletedSlice current.completed nodeID check.completedKind current.slotVersion then
      .ok false
    else .error (.sentinel .unexpectedProgress
      s!"unexpected {check.verb} report for node {quoted nodeID} slot {current.chain.slot}")
  | some pending =>
    if commandID ≠ "" ∧ pending.commandID ≠ "" ∧ pending.commandID ≠ commandID then
      .error (.sentinel .unexpectedProgress
        s!"{check.verb} report command {quoted commandID} does not match pending {quoted pending.commandID}")
    else if pending.slotVersion ≠ current.slotVersion then
      .error (.sentinel .unexpectedProgress
        s!"{check.verb} report slot version {current.slotVersion} does not match pending version {pending.slotVersion}")
    else if !chainContainsReplicaInState current.chain nodeID check.replicaState then
      .error (.sentinel .stateMismatch
        s!"node {quoted nodeID} slot {current.chain.slot} is not {check.adjective} in current coordinator state")
    else .ok true

def ProgressCheck.commandID (check : ProgressCheck) (current : SlotProgressView)
    (nodeID commandID : String) (attempt : Nat) : String :=
  if commandID ≠ "" then commandID
  else s!"server-progress-{check.verb}-{nodeID}-{current.chain.slot}-r{attempt}-v{current.version}"

def reduceReplicaReadyProgress (current : SlotProgressView) (nodeID commandID : String)
    (attempt : Nat) : Except Error ReplicaProgressReduction := do
  let proceeds ← readyCheck.accept current nodeID commandID
  if proceeds then
    return {
      enqueuePeerRefresh := 0 < activeReplicaCount current.chain || hasLeavingReplica current.chain
      peerRefreshState :=
        match readyProgressFallbackServingChainForChain current.chain current.replicationFactor with
        | some fallback => { fallbackServingChain := fallback, useFallbackRoute := true }
        | none => {}
      progressCommandID := readyCheck.commandID current nodeID commandID attempt
      slotVersion := current.slotVersion }
  else return { duplicateCompleted := true, slotVersion := current.slotVersion }

def reduceReplicaRemovedProgress (current : SlotProgressView) (nodeID commandID : String)
    (attempt : Nat) : Except Error ReplicaProgressReduction := do
  let proceeds ← removedCheck.accept current nodeID commandID
  if proceeds then
    return {
      enqueuePeerRefresh := true
      progressCommandID := removedCheck.commandID current nodeID commandID attempt
      slotVersion := current.slotVersion }
  else
    return { duplicateCompleted := true, enqueuePeerRefresh := true, slotVersion := current.slotVersion }

/-! ## Applying a runtime command -/

/-- What the caller of `applyHARuntimeCommand` does to the snapshot beyond its runtime state. -/
inductive Mutation where
  | bootstrap
  | membership
  | ready (slot : Nat) (refresh : Option ActivePeerRefreshState)
  | removed (slot : Nat)
  | liveness
  | reconcile

def Mutation.activePeerRefresh (mutation : Mutation) (snapshot : HASnapshot)
    (evaluated : EvaluatedCommand) : Std.ExtTreeMap Nat ActivePeerRefreshState :=
  match mutation with
  | .bootstrap => ∅
  | .membership => nextHAActivePeerRefreshFromPlan snapshot.activePeerRefresh evaluated.plan
  | .ready slot refresh => refresh.elim snapshot.activePeerRefresh (snapshot.activePeerRefresh.insert slot)
  | .removed slot => snapshot.activePeerRefresh.insert slot {}
  | .liveness | .reconcile => snapshot.activePeerRefresh

/-- The mutation of the snapshot; it already holds the evaluated state when it gets here. -/
def Mutation.apply (mutation : Mutation) (cfg : ServerConfig) (epoch : Nat) (cmd : Command)
    (evaluated : EvaluatedCommand) (snapshot : HASnapshot) : HASnapshot :=
  let cloned := cloneHASnapshot snapshot
  let base : HASnapshot :=
    match mutation with
    | .bootstrap =>
      { cloned with heartbeats := ∅, unavailableReplicas := ∅, lastRecoveryReports := ∅ }
    | _ =>
      { cloned with
        heartbeats := nextHAHeartbeats snapshot.heartbeats cmd evaluated.nextState.nodeLivenessByID }
  refreshDerived snapshot
    { base with
      state := evaluated.nextState
      activePeerRefresh := mutation.activePeerRefresh snapshot evaluated
      startupBudgetActive := nextHAStartupBudgetActive snapshot (0 < cfg.startupMaxChangedChains)
        evaluated.nextState } epoch

def applyHARuntimeCommand (cfg : ServerConfig) (epoch : Nat) (snapshot : HASnapshot) (cmd : Command)
    (mutation : Mutation) : Except Error HASnapshot := do
  let evaluated ← (evaluateCommand snapshot.state cmd).mapError .runtime
  let next : HASnapshot :=
    { cloneHASnapshot snapshot with
      state := evaluated.nextState
      heartbeats := nextHAHeartbeats snapshot.heartbeats cmd evaluated.nextState.nodeLivenessByID
      startupBudgetActive := nextHAStartupBudgetActive snapshot (0 < cfg.startupMaxChangedChains)
        evaluated.nextState }
  return refreshDerived snapshot (mutation.apply cfg epoch cmd evaluated next) epoch

/-! ## Membership and progress -/

def applyHAMembershipMutation (cfg : ServerConfig) (epoch : Nat) (snapshot : HASnapshot)
    (cmd : Command) (expectedEvent : EventKind) : Except Error HASnapshot :=
  match cmd.kind, cmd.reconfigure with
  | .reconfigure, some reconfigure =>
    if reconfigure.events.map (·.kind) = [expectedEvent] then
      applyHARuntimeCommand cfg epoch snapshot cmd .membership
    else .error (.sentinel .invalidServerCommand
      s!"expected exactly one {quoted expectedEvent.text} event")
  | _, _ => .error (.sentinel .invalidServerCommand "mutation requires reconfigure command payload")

def progressCommand (observed : HASnapshot) (id : String) (kind : EventKind) (nodeID : String)
    (slot : Nat) : Command :=
  { id, expectedVersion := observed.state.version, kind := .progress,
    progress := some ⟨{ kind, node := Runtime.zeroNode, nodeID, slot }⟩ }

/-- The refresh a ready report queues; with nothing better it keeps the active chain as the route. -/
def readyRefreshState (current : SlotProgressView) (reduction : ReplicaProgressReduction) :
    Option ActivePeerRefreshState :=
  if !reduction.enqueuePeerRefresh then none
  else if !reduction.peerRefreshState.useFallbackRoute ∧
      reduction.peerRefreshState.assignmentChain.replicas = [] ∧
      (Runtime.activeServingChain current.chain).replicas ≠ [] then
    some { fallbackServingChain := Runtime.activeServingChain current.chain,
           useFallbackRoute := true }
  else some reduction.peerRefreshState

def applyHAReplicaReady (cfg : ServerConfig) (epoch : Nat) (observed snapshot : HASnapshot)
    (nodeID : String) (slot : Nat) (commandID : String) (attempt : Nat) :
    Except Error (Option HASnapshot) := do
  let current := slotProgressViewFromState observed.state slot
  let reduction ← reduceReplicaReadyProgress current nodeID commandID attempt
  if reduction.duplicateCompleted then .ok none
  else (applyHARuntimeCommand cfg epoch snapshot
    (progressCommand observed reduction.progressCommandID .replicaBecameActive nodeID slot)
    (.ready slot (readyRefreshState current reduction))).map some

def applyHAReplicaRemoved (cfg : ServerConfig) (epoch : Nat) (observed snapshot : HASnapshot)
    (nodeID : String) (slot : Nat) (commandID : String) (attempt : Nat) :
    Except Error (Option HASnapshot) := do
  let reduction ← reduceReplicaRemovedProgress (slotProgressViewFromState observed.state slot)
    nodeID commandID attempt
  if reduction.duplicateCompleted then .ok none
  else (applyHARuntimeCommand cfg epoch snapshot
    (progressCommand observed reduction.progressCommandID .replicaRemoved nodeID slot)
    (.removed slot)).map some

structure NodeRegistration where
  nodeID : String
  rpcAddress : String
  failureDomains : Std.ExtTreeMap String String

def NodeRegistration.node (reg : NodeRegistration) : Node :=
  { id := reg.nodeID, rpcAddress := reg.rpcAddress, failureDomains := reg.failureDomains }

def NodeRegistration.known (reg : NodeRegistration) (state : State) : Bool :=
  match state.cluster.nodesByID[reg.nodeID]? with
  | none => false
  | some existing =>
    !state.cluster.isDead reg.nodeID && existing.rpcAddress = reg.rpcAddress &&
      existing.failureDomains = reg.failureDomains

def registerCommand (observed : HASnapshot) (reg : NodeRegistration)
    (policy : ReconfigurationPolicy) (attempt : Nat) : Command :=
  { id := s!"server-register-{reg.nodeID}-r{attempt}-v{observed.state.version}"
    expectedVersion := observed.state.version, kind := .reconfigure
    reconfigure := some { policy, events := [⟨.registerNode, reg.node, "", 0⟩] } }

def applyHARegisterNode (cfg : ServerConfig) (epoch : Nat) (observed snapshot : HASnapshot)
    (reg : NodeRegistration) (policy : ReconfigurationPolicy) (attempt : Nat) :
    Except Error (Option HASnapshot) :=
  if reg.known observed.state then .ok none
  else (applyHAMembershipMutation cfg epoch snapshot
    (registerCommand observed reg policy attempt) .registerNode).map some

def reconcileCommand (observed : HASnapshot) (policy : ReconfigurationPolicy) : Command :=
  { id := s!"server-reconcile-v{observed.state.version}"
    expectedVersion := observed.state.version, kind := .reconfigure
    reconfigure := some { policy, events := [] } }

def applyHAReconcile (cfg : ServerConfig) (epoch : Nat) (observed snapshot : HASnapshot)
    (policy : ReconfigurationPolicy) : Except Error HASnapshot :=
  applyHARuntimeCommand cfg epoch snapshot (reconcileCommand observed policy) .reconcile

def livenessCommand (cfg : ServerConfig) (observed : HASnapshot) (nodeID : String)
    (state : NodeLivenessState) (evaluatedAtUnixNano : Int) (deadActionFired : Bool) : Command :=
  { id := s!"server-liveness-{nodeID}-{state.text}-{evaluatedAtUnixNano}-{deadActionFired}-v{observed.state.version}"
    expectedVersion := observed.state.version, kind := .liveness
    liveness := some { nodeID, state, evaluatedAtUnixNano, deadActionFired,
                       flapWindowNanos := cfg.flapWindowNanos } }

def applyHALivenessTransition (cfg : ServerConfig) (epoch : Nat) (observed snapshot : HASnapshot)
    (nodeID : String) (state : NodeLivenessState) (evaluatedAtUnixNano : Int)
    (deadActionFired : Bool) : Except Error HASnapshot :=
  applyHARuntimeCommand cfg epoch snapshot
    (livenessCommand cfg observed nodeID state evaluatedAtUnixNano deadActionFired) .liveness

/-! ## Heartbeats and recovery reports

A heartbeat writes the liveness record and the ready mark without a runtime command, so the
runtime version stays what it was. -/

def heartbeatState (cfg : ServerConfig) (state : State) (status : NodeStatus)
    (observedAtUnixNano : Int) : State :=
  { state with
    nodeLivenessByID := Runtime.observeStatus state.nodeLivenessByID
      { status, observedAtUnixNano, flapWindowNanos := cfg.flapWindowNanos }
    cluster := { state.cluster with
      readyNodeIDs := if state.cluster.isReady status.nodeID then state.cluster.readyNodeIDs
        else state.cluster.readyNodeIDs.insert status.nodeID true } }

def applyHAHeartbeat (cfg : ServerConfig) (epoch : Nat) (snapshot : HASnapshot)
    (status : NodeStatus) (observedAtUnixNano : Int) : Except Error HASnapshot :=
  if status.nodeID ∉ snapshot.state.cluster.nodesByID ∨ snapshot.state.cluster.isDead status.nodeID then
    .error (.sentinel .unknownNode (quoted status.nodeID))
  else
    let next := cloneHASnapshot snapshot
    let state := heartbeatState cfg next.state status observedAtUnixNano
    .ok (refreshDerived snapshot
      { next with
        heartbeats := next.heartbeats.insert status.nodeID status
        state
        startupBudgetActive := nextHAStartupBudgetActive snapshot
          (0 < cfg.startupMaxChangedChains) state } epoch)

def replicaRoleCanResumeRecovered : Storage.ReplicaRole → Bool
  | .single | .tail => true
  | _ => false

def assignmentsEquivalentForRecovery (left right : ReplicaAssignment) : Bool :=
  left.slot = right.slot && left.chainVersion = right.chainVersion && left.role = right.role &&
    left.peers.predecessorNodeID = right.peers.predecessorNodeID &&
    left.peers.successorNodeID = right.peers.successorNodeID &&
    (left.peers.tailNodeID = right.peers.tailNodeID || left.peers.tailNodeID = "" ||
      right.peers.tailNodeID = "")

def canResumeRecoveredReplica (recovered : RecoveredReplica) (current : ReplicaAssignment) : Bool :=
  replicaRoleCanResumeRecovered current.role && recovered.hasCommittedData &&
    recovered.lastKnownState = .active &&
    assignmentsEquivalentForRecovery recovered.assignment current

def recoverySourceNodeID (chain : Chain) (recoveringNodeID : String) : Option String :=
  match chain.replicas.findIdx? (·.nodeID = recoveringNodeID) with
  | none => none
  | some 0 => chain.replicas[1]?.map (·.nodeID)
  | some (i + 1) => chain.replicas[i]?.map (·.nodeID)

def recoveryOutboxID (kind : OutboxCommandKind) (nodeID : String) (slot : Nat) : String :=
  s!"ha-recovery-{kind.text}-{nodeID}-{slot}"

def recoveryEntry (kind : OutboxCommandKind) (nodeID : String) (slot epoch : Nat)
    (assignment : Option ReplicaAssignment) (sourceNodeID : String) : OutboxEntry :=
  { id := recoveryOutboxID kind nodeID slot, epoch, nodeID, slot,
    slotVersion := (assignment.map (·.chainVersion)).getD 0,
    commandID := commandIDForOutbox kind nodeID slot epoch, kind, assignment, sourceNodeID }

def recoveryEntryForReplica (state : State) (nodeID : String) (epoch : Nat)
    (recovered : RecoveredReplica) : Except Error OutboxEntry :=
  let slot := recovered.assignment.slot
  match currentAssignmentForNode state nodeID slot with
  | none => .ok (recoveryEntry .dropRecovered nodeID slot epoch none "")
  | some current =>
    if canResumeRecoveredReplica recovered current then
      .ok (recoveryEntry .resumeRecovered nodeID slot epoch (some current) "")
    else
      match recoverySourceNodeID (state.cluster.chainAt slot) nodeID with
      | none => .error (.sentinel .recoveryFailed
          s!"slot {slot} node {quoted nodeID} has no valid recovery source")
      | some source => .ok (recoveryEntry .recoverReplica nodeID slot epoch (some current) source)

def recoveryOutboxEntriesForReport (state : State) (report : NodeRecoveryReport) (epoch : Nat) :
    Except Error (List OutboxEntry) :=
  report.replicas.mapM (recoveryEntryForReplica state report.nodeID epoch)

def haRecoveryOutboxReplaceKey (entry : OutboxEntry) : String := s!"{entry.nodeID}-{entry.slot}"

def replaceHARecoveryOutboxEntries (base added : List OutboxEntry) : List OutboxEntry :=
  let replaced := added.map haRecoveryOutboxReplaceKey
  base.filter (fun entry => isRecoveryOutboxKind entry.kind ∧
    haRecoveryOutboxReplaceKey entry ∉ replaced) ++ added

def unavailableSlots (snapshot : HASnapshot) (nodeID : String) : Std.ExtTreeMap Nat Bool :=
  snapshot.unavailableReplicas[nodeID]?.getD ∅

def markUnavailableReplicas (snapshot : HASnapshot) (report : NodeRecoveryReport) :
    Std.ExtTreeMap String (Std.ExtTreeMap Nat Bool) :=
  snapshot.unavailableReplicas.insert report.nodeID <|
    report.replicas.foldl (fun slots replica => slots.insert replica.assignment.slot true)
      (unavailableSlots snapshot report.nodeID)

/-- `knownClient` says whether the coordinator has a client for a node its state does not know. -/
def applyHARecoveryReport (epoch : Nat) (snapshot : HASnapshot) (report : NodeRecoveryReport)
    (knownClient : Bool) : Except Error (Option HASnapshot) :=
  if report.nodeID ∉ snapshot.state.cluster.nodesByID ∧ !knownClient then
    .error (.sentinel .unknownNode (quoted report.nodeID))
  else if snapshot.lastRecoveryReports[report.nodeID]? = some report ∧
      (unavailableSlots snapshot report.nodeID).isEmpty then .ok none
  else do
    let added ← recoveryOutboxEntriesForReport snapshot.state report epoch
    let next := cloneHASnapshot snapshot
    return some (refreshDerived snapshot
      { next with
        lastRecoveryReports := next.lastRecoveryReports.insert report.nodeID report
        unavailableReplicas := markUnavailableReplicas next report
        outbox := replaceHARecoveryOutboxEntries snapshot.outbox added } epoch)

end Craq.Coordserver
