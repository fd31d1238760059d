import Craq.Runtime.State

/-! # Evaluating a runtime command

`evaluateCommand` validates a command against the state, runs the planner and builds the next
state.  A command already recorded under its ID is a duplicate: it is answered with the state its
record holds, not with the current one.
-/

namespace Craq.Runtime

open Coordinator (Chain ClusterState Node ReconfigurationPlan ReconfigurationPolicy
  ReconfigurationStep SlotPlan StepKind quoted)
open Storage (ChainPeers NodeStatus ReplicaAssignment ReplicaRole)

/-! ## Validation -/

def outboxAckEntryIDs (cmd : AcknowledgeOutboxCommand) : List String :=
  if cmd.entryIDs ≠ [] then cmd.entryIDs
  else if cmd.entryID = "" then []
  else [cmd.entryID]

def requireOnly (own : Bool) (others : List Bool) (detail : String) : Except Error Unit :=
  if !own || others.any id then .error (.sentinel .invalidCommand detail) else .ok ()

def requireNonEmpty (text detail : String) : Except Error Unit :=
  if text = "" then .error (.sentinel .invalidCommand detail) else .ok ()

-- The bootstrap, reconfigure, liveness and acknowledge cases do not look at the node-ready payload.
def validateCommandPayload (cmd : Command) : Except Error Unit :=
  match cmd.kind with
  | .bootstrap =>
    requireOnly cmd.bootstrap.isSome
      [cmd.reconfigure.isSome, cmd.progress.isSome, cmd.heartbeat.isSome, cmd.liveness.isSome,
        cmd.acknowledgeOutbox.isSome]
      "bootstrap command must set only bootstrap payload"
  | .reconfigure =>
    requireOnly cmd.reconfigure.isSome
      [cmd.bootstrap.isSome, cmd.progress.isSome, cmd.heartbeat.isSome, cmd.liveness.isSome,
        cmd.acknowledgeOutbox.isSome]
      "reconfigure command must set only reconfigure payload"
  | .progress =>
    requireOnly cmd.progress.isSome
      [cmd.bootstrap.isSome, cmd.reconfigure.isSome, cmd.nodeReady.isSome, cmd.heartbeat.isSome,
        cmd.liveness.isSome, cmd.acknowledgeOutbox.isSome]
      "progress command must set only progress payload"
  | .nodeReady => do
    requireOnly cmd.nodeReady.isSome
      [cmd.bootstrap.isSome, cmd.reconfigure.isSome, cmd.progress.isSome, cmd.heartbeat.isSome,
        cmd.liveness.isSome, cmd.acknowledgeOutbox.isSome]
      "node ready command must set only ready payload"
    requireNonEmpty (cmd.nodeReady.elim "" (·.status.nodeID)) "ready node ID must not be empty"
  | .heartbeat => do
    requireOnly cmd.heartbeat.isSome
      [cmd.bootstrap.isSome, cmd.reconfigure.isSome, cmd.progress.isSome, cmd.nodeReady.isSome,
        cmd.liveness.isSome, cmd.acknowledgeOutbox.isSome]
      "heartbeat command must set only heartbeat payload"
    requireNonEmpty (cmd.heartbeat.elim "" (·.status.nodeID)) "heartbeat node ID must not be empty"
  | .liveness => do
    requireOnly cmd.liveness.isSome
      [cmd.bootstrap.isSome, cmd.reconfigure.isSome, cmd.progress.isSome, cmd.heartbeat.isSome,
        cmd.acknowledgeOutbox.isSome]
      "liveness command must set only liveness payload"
    requireNonEmpty (cmd.liveness.elim "" (·.nodeID)) "liveness node ID must not be empty"
  | .acknowledgeOutbox => do
    requireOnly cmd.acknowledgeOutbox.isSome
      [cmd.bootstrap.isSome, cmd.reconfigure.isSome, cmd.progress.isSome, cmd.heartbeat.isSome,
        cmd.liveness.isSome]
      "acknowledge outbox command must set only outbox payload"
    if cmd.acknowledgeOutbox.elim [] outboxAckEntryIDs = [] then
      .error (.sentinel .invalidCommand "outbox entry ids must not be empty")
    else .ok ()
  | .other name =>
    .error (.sentinel .invalidCommand s!"unsupported command kind {quoted name}")

/-- The record of an earlier application of the very same command, if there is one. -/
def validateCommand (state : State) (cmd : Command) : Except Error (Option AppliedCommand) := do
  requireNonEmpty cmd.id "command ID must not be empty"
  (validateCommandPayload cmd).mapError (.wrapped "validateCommandPayload")
  match state.appliedCommands[cmd.id]? with
  | some applied =>
    if applied.command = cmd then .ok (some (cloneAppliedCommand applied))
    else .error (.sentinel .commandConflict
      s!"command {quoted cmd.id} was already applied with different payload")
  | none =>
    if cmd.expectedVersion = state.version then .ok none
    else .error (.sentinel .versionMismatch
      s!"expected version {cmd.expectedVersion} does not match current version {state.version}")

/-! ## Execution -/

inductive Execution where
  | duplicate (applied : AppliedCommand)
  | fresh (cluster : ClusterState) (plan : Option ReconfigurationPlan)

/-- Reading a payload; `validateCommandPayload` has already refused a command without it. -/
def payload {α : Type} : Option α → Except Error α
  | some value => .ok value
  | none => .error (.bare .invalidCommand)

def requireInitialized (state : State) : Except Error Unit :=
  if state.isInitialized then .ok () else .error (.bare .notInitialized)

def executeFresh (state : State) (cmd : Command) :
    Except Error (ClusterState × Option ReconfigurationPlan) :=
  match cmd.kind with
  | .bootstrap =>
    if state.isInitialized then .error (.bare .alreadyInitialized)
    else do
      let bootstrap ← payload cmd.bootstrap
      let cluster ← (Coordinator.buildInitialPlacement bootstrap.config bootstrap.nodes).mapError
        fun e => .wrapped "coordinator.BuildInitialPlacement" (.planner e)
      return (cloneClusterState cluster, none)
  | .reconfigure => do
    requireInitialized state
    let reconfigure ← payload cmd.reconfigure
    let plan ← (Coordinator.planReconfiguration (cloneClusterState state.cluster)
      reconfigure.events reconfigure.policy).mapError
        fun e => .wrapped "coordinator.PlanReconfiguration" (.planner e)
    return (cloneClusterState plan.updatedState, some (clonePlan plan))
  | .progress => do
    requireInitialized state
    let progress ← payload cmd.progress
    let cluster ← (Coordinator.applyProgress (cloneClusterState state.cluster)
      progress.event).mapError fun e => .wrapped "coordinator.ApplyProgress" (.planner e)
    return (cloneClusterState cluster, none)
  | .nodeReady => do
    requireInitialized state
    let ready ← payload cmd.nodeReady
    requireNonEmpty ready.status.nodeID "ready node ID must not be empty"
    return (cloneClusterState state.cluster, none)
  | .heartbeat => .ok (cloneClusterState state.cluster, none)
  | .liveness => do
    let liveness ← payload cmd.liveness
    requireNonEmpty liveness.nodeID "liveness node ID must not be empty"
    return (cloneClusterState state.cluster, none)
  | .acknowledgeOutbox => do
    -- The source also asks whether an entry exists, and answers the same either way.
    requireInitialized state
    return (cloneClusterState state.cluster, none)
  | .other name =>
    .error (.sentinel .invalidCommand s!"unsupported command kind {quoted name}")

def executeCommand (state : State) (cmd : Command) : Except Error Execution := do
  match ← (validateCommand state cmd).mapError (.wrapped "r.validateCommand") with
  | some applied => .ok (.duplicate applied)
  | none =>
    let (cluster, plan) ← executeFresh state cmd
    .ok (.fresh cluster plan)

/-! ## Assignments and plans -/

def zeroNode : Node := { id := "", rpcAddress := "", failureDomains := ∅ }

def rpcAddressOf (nodesByID : Std.ExtTreeMap String Node) (nodeID : String) : String :=
  (nodesByID[nodeID]?.getD zeroNode).rpcAddress

def roleAt (length position : Nat) : ReplicaRole :=
  if length = 1 then .single
  else if position = 0 then .head
  else if position + 1 = length then .tail
  else .middle

def assignmentForNode (chain : Chain) (nodesByID : Std.ExtTreeMap String Node) (nodeID : String)
    (chainVersion : Nat) : Except String ReplicaAssignment :=
  match chain.replicas.findIdx? (·.nodeID = nodeID) with
  | none => .error s!"node {quoted nodeID} not found in chain {chain.slot}"
  | some position =>
    let neighbour (index : Nat) := (chain.replicas[index]?.map (·.nodeID)).getD ""
    let predecessor : ChainPeers :=
      if 0 < position then
        { predecessorNodeID := neighbour (position - 1),
          predecessorTarget := rpcAddressOf nodesByID (neighbour (position - 1)) }
      else {}
    let peers : ChainPeers :=
      if position + 1 < chain.replicas.length then
        { predecessor with
          successorNodeID := neighbour (position + 1),
          successorTarget := rpcAddressOf nodesByID (neighbour (position + 1)) }
      else predecessor
    .ok { slot := chain.slot, chainVersion, role := roleAt chain.replicas.length position, peers }

def activeServingChain (chain : Chain) : Chain :=
  { chain with replicas := chain.replicas.filter (·.state = .active) }

def activeAfterNodeIDs (chain : Chain) (skipped : List String) : List String :=
  (chain.replicas.filter fun replica => replica.state = .active ∧ replica.nodeID ∉ skipped).map
    (·.nodeID)

def distinctStepKinds (steps : List ReconfigurationStep) : List StepKind :=
  (steps.map (·.kind)).eraseDups

def firstStepNodeID (steps : List ReconfigurationStep) (kind : StepKind) : String :=
  ((steps.find? (·.kind = kind)).map (·.nodeID)).getD ""

def outboxEntryID (version slot : Nat) (nodeID : String) (kind : OutboxCommandKind) : String :=
  s!"outbox-v{version}-slot{slot}-{nodeID}-{kind.text}"

def outboxCommandID (version slot : Nat) (nodeID suffix : String) : String :=
  s!"server-v{version}-slot{slot}-{nodeID}-{suffix}"

/-! ## The next state, field by field -/

def markReady (cluster : ClusterState) (nodeID : String) : ClusterState :=
  if cluster.isDead nodeID then cluster
  else { cluster with readyNodeIDs := cluster.readyNodeIDs.insert nodeID true }

def nextClusterState (cluster : ClusterState) (cmd : Command) : ClusterState :=
  match cmd.kind with
  | .nodeReady => cmd.nodeReady.elim cluster fun ready => markReady cluster ready.status.nodeID
  | .heartbeat => cmd.heartbeat.elim cluster fun beat => markReady cluster beat.status.nodeID
  | _ => cluster

def nextSlotVersions (current : Std.ExtTreeMap Nat Nat) (kind : CommandKind)
    (cluster : ClusterState) (plan : Option ReconfigurationPlan) : Std.ExtTreeMap Nat Nat :=
  let bumped (next : Std.ExtTreeMap Nat Nat) (slot : Nat) :=
    next.insert slot (current[slot]?.getD 0 + 1)
  match kind with
  | .bootstrap => (cluster.chains.map (·.slot)).foldl bumped ∅
  | .reconfigure =>
    plan.elim current fun plan => (plan.changedSlots.map (·.slot)).foldl bumped current
  | _ => current

def completedProgressHistoryLimit : Nat := 8

def completedKind? : Coordinator.EventKind → Option CompletedProgressKind
  | .replicaBecameActive => some .ready
  | .replicaRemoved => some .removed
  | _ => none

-- A progress event that the planner has accepted names a slot of the cluster, so no sign is lost.
def nextCompletedProgress (current : Std.ExtTreeMap Nat (List CompletedProgressRecord))
    (slotVersions : Std.ExtTreeMap Nat Nat) (cmd : Command) :
    Std.ExtTreeMap Nat (List CompletedProgressRecord) :=
  match cmd.kind, cmd.progress with
  | .progress, some progress =>
    match completedKind? progress.event.kind with
    | none => current
    | some kind =>
      let slot := progress.event.slot.toNat
      let records := current[slot]?.getD [] ++
        [{ nodeID := progress.event.nodeID, kind, slotVersion := slotVersions[slot]?.getD 0 }]
      current.insert slot (records.drop (records.length - completedProgressHistoryLimit))
  | _, _ => current

def pruneSuspectTransitions (current : List Int) (observedAtUnixNano flapWindowNanos : Int) :
    List Int :=
  if observedAtUnixNano = 0 ∨ flapWindowNanos ≤ 0 then current
  else current.filter (observedAtUnixNano - flapWindowNanos ≤ ·)

/-- The record of a node after one of its status reports has been observed. -/
def observeStatus (current : Std.ExtTreeMap String NodeLivenessRecord) (cmd : StatusCommand) :
    Std.ExtTreeMap String NodeLivenessRecord :=
  let record := current[cmd.status.nodeID]?.getD {}
  let observed : NodeLivenessRecord :=
    { record with
      lastHeartbeatUnixNano := cmd.observedAtUnixNano
      updatedAtUnixNano := cmd.observedAtUnixNano
      lastStatus := cmd.status
      suspectTransitionsUnixNano := pruneSuspectTransitions record.suspectTransitionsUnixNano
        cmd.observedAtUnixNano cmd.flapWindowNanos }
  current.insert cmd.status.nodeID <|
    if observed.state = .dead then observed
    else { observed with state := .healthy, deadActionFired := false }

def evaluateLiveness (current : Std.ExtTreeMap String NodeLivenessRecord) (cmd : LivenessCommand) :
    Std.ExtTreeMap String NodeLivenessRecord :=
  let record := current[cmd.nodeID]?.getD {}
  let evaluated := cmd.evaluatedAtUnixNano ≠ 0
  let kept := pruneSuspectTransitions record.suspectTransitionsUnixNano cmd.evaluatedAtUnixNano
    cmd.flapWindowNanos
  current.insert cmd.nodeID
    { record with
      updatedAtUnixNano := if evaluated then cmd.evaluatedAtUnixNano else record.updatedAtUnixNano
      suspectTransitionsUnixNano :=
        if cmd.state = .suspect ∧ record.state ≠ .suspect ∧ evaluated then
          kept ++ [cmd.evaluatedAtUnixNano]
        else kept
      state := cmd.state
      deadActionFired := cmd.deadActionFired
      lastHeartbeatUnixNano :=
        if evaluated ∧ record.lastHeartbeatUnixNano = 0 then cmd.evaluatedAtUnixNano
        else record.lastHeartbeatUnixNano }

def nextNodeLiveness (current : Std.ExtTreeMap String NodeLivenessRecord) (cmd : Command) :
    Std.ExtTreeMap String NodeLivenessRecord :=
  match cmd.kind with
  | .nodeReady => cmd.nodeReady.elim current (observeStatus current)
  | .heartbeat => cmd.heartbeat.elim current (observeStatus current)
  | .liveness => cmd.liveness.elim current (evaluateLiveness current)
  | _ => current

/-- The pending work a changed slot leaves: none unless its plan only appends or only retires. -/
def pendingOfSlotPlan (slotVersions : Std.ExtTreeMap Nat Nat) (slotPlan : SlotPlan) :
    Option PendingWork :=
  let work (stepKind : StepKind) (kind : PendingKind) : Option PendingWork :=
    let nodeID := firstStepNodeID slotPlan.steps stepKind
    if nodeID = "" then none
    else some { slot := slotPlan.slot, nodeID, kind,
                slotVersion := slotVersions[slotPlan.slot]?.getD 0 }
  if distinctStepKinds slotPlan.steps = [.appendTail] then work .appendTail .ready
  else if distinctStepKinds slotPlan.steps = [.markLeaving] then work .markLeaving .removed
  else none

def pendingFromPlan (current : Std.ExtTreeMap Nat PendingWork)
    (slotVersions : Std.ExtTreeMap Nat Nat) (plan : ReconfigurationPlan) :
    Std.ExtTreeMap Nat PendingWork :=
  plan.changedSlots.foldl (fun next slotPlan =>
    let cleared := next.erase slotPlan.slot
    (pendingOfSlotPlan slotVersions slotPlan).elim cleared (cleared.insert slotPlan.slot)) current

def nextPending (current : Std.ExtTreeMap Nat PendingWork) (slotVersions : Std.ExtTreeMap Nat Nat)
    (cmd : Command) (plan : Option ReconfigurationPlan) : Std.ExtTreeMap Nat PendingWork :=
  match cmd.kind with
  | .bootstrap => ∅
  | .reconfigure => plan.elim current (pendingFromPlan current slotVersions)
  | .progress => cmd.progress.elim current fun progress => current.erase progress.event.slot.toNat
  | _ => current

def updateEntry (version slot chainVersion : Nat) (serving : Chain)
    (nodesByID : Std.ExtTreeMap String Node) (nodeID : String) : Option OutboxEntry :=
  (assignmentForNode serving nodesByID nodeID chainVersion).toOption.map fun assignment =>
    { id := outboxEntryID version slot nodeID .updateChainPeers
      slot, nodeID, kind := .updateChainPeers
      commandID := outboxCommandID version slot nodeID "update", assignment }

/-- The commands a changed slot sends: the new tail's assignment, or the new assignments of the
replicas that stay together with the order to leave. -/
def outboxOfSlotPlan (version : Nat) (slotVersions : Std.ExtTreeMap Nat Nat)
    (nodesByID : Std.ExtTreeMap String Node) (slotPlan : SlotPlan) : List OutboxEntry :=
  let slot := slotPlan.slot
  let chainVersion := slotVersions[slot]?.getD 0
  if distinctStepKinds slotPlan.steps = [.appendTail] then
    let added := firstStepNodeID slotPlan.steps .appendTail
    if added = "" then []
    else
      match assignmentForNode slotPlan.after nodesByID added chainVersion with
      | .error _ => []
      | .ok assignment =>
        [{ id := outboxEntryID version slot added .addReplicaAsTail
           slot, nodeID := added, kind := .addReplicaAsTail
           commandID := outboxCommandID version slot added "ready", assignment }]
  else if distinctStepKinds slotPlan.steps = [.markLeaving] then
    let leaving := firstStepNodeID slotPlan.steps .markLeaving
    if leaving = "" then []
    else
      let serving := activeServingChain slotPlan.after
      (activeAfterNodeIDs serving [leaving]).filterMap
          (updateEntry version slot chainVersion serving nodesByID) ++
        [{ id := outboxEntryID version slot leaving .markReplicaLeaving
           slot, nodeID := leaving, kind := .markReplicaLeaving
           commandID := outboxCommandID version slot leaving "removed" }]
  else []

def outboxFromPlan (current : List OutboxEntry) (version : Nat)
    (slotVersions : Std.ExtTreeMap Nat Nat) (cluster : ClusterState) (plan : ReconfigurationPlan) :
    List OutboxEntry :=
  let changedSlots := plan.changedSlots.map (·.slot)
  current.filter (·.slot ∉ changedSlots) ++
    plan.changedSlots.flatMap (outboxOfSlotPlan version slotVersions cluster.nodesByID)

def nextOutbox (current : List OutboxEntry) (version : Nat) (slotVersions : Std.ExtTreeMap Nat Nat)
    (cluster : ClusterState) (cmd : Command) (plan : Option ReconfigurationPlan) :
    List OutboxEntry :=
  match cmd.kind with
  | .bootstrap => []
  | .reconfigure => plan.elim current (outboxFromPlan current version slotVersions cluster)
  | .progress =>
    cmd.progress.elim current fun progress => current.filter (·.slot ≠ progress.event.slot.toNat)
  | .acknowledgeOutbox =>
    cmd.acknowledgeOutbox.elim current fun acknowledged =>
      current.filter (·.id ∉ outboxAckEntryIDs acknowledged)
  | _ => current

def nextLastPolicy (current : ReconfigurationPolicy) (cmd : Command) : ReconfigurationPolicy :=
  match cmd.kind with
  | .bootstrap => cmd.bootstrap.elim current (·.policy)
  | .reconfigure => cmd.reconfigure.elim current (·.policy)
  | _ => current

/-- The view that a freshly executed command produces. -/
def nextView (view : View) (logIndex : Nat) (cmd : Command) (cluster : ClusterState)
    (plan : Option ReconfigurationPlan) : View :=
  let version := view.version + 1
  let slotVersions := nextSlotVersions view.slotVersions cmd.kind cluster plan
  { version
    lastLogIndex := logIndex
    cluster := nextClusterState (cloneClusterState cluster) cmd
    slotVersions
    completedProgressBySlot := nextCompletedProgress view.completedProgressBySlot slotVersions cmd
    nodeLivenessByID := nextNodeLiveness view.nodeLivenessByID cmd
    pendingBySlot := nextPending view.pendingBySlot slotVersions cmd plan
    outbox := nextOutbox view.outbox version slotVersions cluster cmd plan
    lastPolicy := nextLastPolicy view.lastPolicy cmd }

def nextStateForApplied (state : State) (logIndex : Nat) (cmd : Command) (cluster : ClusterState)
    (plan : Option ReconfigurationPlan) : State :=
  let next := nextView state.toView logIndex cmd cluster plan
  { toView := next
    appliedCommands := state.appliedCommands.insert cmd.id
      { toView := next.clone, command := cmd, plan := plan.map clonePlan } }

/-- The state right after a recorded command, as a duplicate of it is answered. -/
def snapshotForApplied (state : State) (applied : AppliedCommand) : State :=
  { toView := applied.toView.clone
    appliedCommands := (state.appliedCommands.filter fun _ existing =>
      existing.version ≤ applied.version).map fun _ existing => cloneAppliedCommand existing }

structure EvaluatedCommand where
  plan : Option ReconfigurationPlan
  nextState : State
  duplicate : Option AppliedCommand

def evaluateCommand (state : State) (cmd : Command) : Except Error EvaluatedCommand := do
  let opened := cloneState state
  match ← executeCommand opened cmd with
  | .duplicate applied =>
    let cloned := cloneAppliedCommand applied
    return { plan := cloned.plan.map clonePlan, nextState := snapshotForApplied opened cloned,
             duplicate := some cloned }
  | .fresh cluster plan =>
    return { plan := plan.map clonePlan,
             nextState := nextStateForApplied opened (state.lastLogIndex + 1) cmd cluster plan,
             duplicate := none }

end Craq.Runtime
