import Craq.Storage.Replication

/-! # The events a slot owner takes

Client calls, messages from the neighbours and the commands of the coordinator.
-/

namespace Craq.Storage

open Coordinator (quoted)

def ReplicaState.name : ReplicaState → String
  | .unset => ""
  | .pending => "pending"
  | .catchingUp => "catching_up"
  | .active => "active"
  | .leaving => "leaving"
  | .removed => "removed"
  | .recovered => "recovered"

def ReplicaRole.name : ReplicaRole → String
  | .unset => ""
  | .single => "single"
  | .head => "head"
  | .middle => "middle"
  | .tail => "tail"

structure SubmitRequest where
  call : Nat
  kind : OperationKind
  key : String
  value : String := ""
  conditions : WriteConditions := {}
  now : Int := 0
deriving DecidableEq, Repr

inductive SubmitResponse where
  | rejected (err : Error)
  | unchanged (result : CommitResult)
  | waiting (result : CommitResult)
deriving DecidableEq, Repr

namespace NodeSlot

variable (n : NodeSlot)

/-! ## Which requests are served -/

def unknownSlot : Error :=
  .sentinel .unknownReplica s!"slot {n.slot}"

def notServing (state : ReplicaState) : Error :=
  .sentinel .writeRejected s!"slot {n.slot} is {quoted state.name}"

def activeRecord : Except Error ReplicaRecord :=
  if !n.runtime.present then .error n.unknownSlot
  else if n.runtime.progressionGap then
    .error (.sentinel .stateMismatch
      s!"slot {n.slot} commit progression gap at sequence {n.runtime.progressionGapSequence}")
  else if n.record.state ≠ .active then .error (n.notServing n.record.state)
  else .ok n.record

def replicationRecord : Except Error ReplicaRecord :=
  if !n.runtime.present then .error n.unknownSlot
  else if n.record.state ≠ .active ∧ n.record.state ≠ .catchingUp then
    .error (n.notServing n.record.state)
  else .ok n.record

def routingMismatch (expectedChainVersion : Nat) (reason : RoutingMismatchReason) : Error :=
  let record := if n.runtime.present then n.record else {}
  .routingMismatch
    { slot := n.slot
      expectedChainVersion
      currentChainVersion := record.assignment.chainVersion
      currentRole := record.assignment.role
      currentState := record.state
      reason }

/-- The check of a client write before it reaches the owner. -/
def validateClientWrite (expectedChainVersion : Nat) : Except Error Unit :=
  let mismatch := n.routingMismatch expectedChainVersion
  if !n.runtime.present then .error (mismatch .unknownSlot)
  else if n.record.state ≠ .active then .error (mismatch .inactiveReplica)
  else if n.record.assignment.chainVersion ≠ expectedChainVersion then
    .error (mismatch .wrongVersion)
  else if n.record.assignment.role ≠ .head ∧ n.record.assignment.role ≠ .single then
    .error (mismatch .wrongRole)
  else .ok ()

/-! ## Client writes -/

def tryAdmitNodeClientWrite (slotCurrent : Nat) : Except Error Unit :=
  let perNode := n.config.maxInFlightClientWritesPerNode
  let perSlot := n.config.maxInFlightClientWritesPerSlot
  if perNode > 0 ∧ n.load.inFlightClientWrites ≥ perNode then
    .error (.backpressure .clientWrite n.slot n.load.inFlightClientWrites perNode)
  else if perSlot > 0 ∧ slotCurrent ≥ perSlot then
    .error (.backpressure .clientWrite n.slot slotCurrent perSlot)
  else .ok ()

def sequenceWrite (record : ReplicaRecord) (operation : WriteOperation) (call : Nat) :
    ReplicaRecord :=
  let record := { record with inFlightClientWrites := record.inFlightClientWrites + 1 }
  let submitted := reduceSubmitWrite record operation
  { submitted with
    pendingWrites := submitted.pendingWrites.modify operation.sequence fun pending =>
      { pending with waiter := some call } }

def startWrite (record : ReplicaRecord) (operation : WriteOperation) (call : Nat) : NodeSlot :=
  match record.assignment.role with
  | .single => n.startPrepareEffect record operation (.single call)
  | .head =>
    if record.assignment.peers.successorNodeID = "" then
      n.completeWaiter call
        (some (.sentinel .stateMismatch s!"slot {n.slot} head has no successor"))
    else n.startPreparedForwardPipeline record operation (.client call)
  | _ => n

def submittedOperation (record : ReplicaRecord) (req : SubmitRequest)
    (current : Option ObjectMetadata) : WriteOperation where
  slot := n.slot
  sequence := record.nextSequence
  kind := req.kind
  key := req.key
  value := req.value
  metadata := nextObjectMetadata req.now current

def acceptWrite (record : ReplicaRecord) (req : SubmitRequest) (operation : WriteOperation) :
    NodeSlot :=
  let sequenced := sequenceWrite record operation req.call
  let n : NodeSlot :=
    { n with
      load := { n.load with inFlightClientWrites := n.load.inFlightClientWrites + 1 }
      waiters := n.waiters.insert req.call
        { conditions := req.conditions
          operation := some operation
          result := submittedResult operation } }
  (n.setRecord sequenced).startWrite sequenced operation req.call

def rememberLookup (key : String) (metadata : Option ObjectMetadata) : NodeSlot :=
  { n with
    runtime :=
      { n.runtime with
        committedMetadata :=
          rememberCommittedMetadata n.runtime.committedMetadata key metadata } }

def cannotAcceptWrites (role : ReplicaRole) : Error :=
  .sentinel .writeRejected s!"slot {n.slot} role {quoted role.name} cannot accept writes"

def handleSubmitWrite (req : SubmitRequest) : NodeSlot × SubmitResponse :=
  match n.activeRecord with
  | .error err => (n, .rejected err)
  | .ok record =>
    if record.assignment.role ≠ .head ∧ record.assignment.role ≠ .single then
      (n, .rejected (n.cannotAcceptWrites record.assignment.role))
    else
      match n.committedMetadataState req.key with
      | .error err => (n, .rejected err)
      | .ok current =>
        let n := n.rememberLookup req.key current
        match evaluateWriteConditions req.conditions current with
        | .error err => (n, .rejected err)
        | .ok () =>
          if req.kind = .delete ∧ current = none then (n, .unchanged { slot := n.slot })
          else
            match n.tryAdmitNodeClientWrite record.inFlightClientWrites with
            | .error err => (n, .rejected err)
            | .ok () =>
              let operation := n.submittedOperation record req current
              (n.acceptWrite record req operation, .waiting (submittedResult operation))

/-- The answer of the owner as the client sees it. -/
def submitWrite (req : SubmitRequest) : NodeSlot :=
  match n.handleSubmitWrite req with
  | (n, .rejected err) =>
    { n with
      waiters := n.waiters.insert req.call
        { conditions := req.conditions, outcome := some (some err) } }
  | (n, .unchanged result) =>
    { n with
      waiters := n.waiters.insert req.call
        { conditions := req.conditions, result, outcome := some none } }
  | (n, .waiting _) => n

def releaseClientWrite : NodeSlot :=
  let n : NodeSlot :=
    { n with load := { n.load with inFlightClientWrites := n.load.inFlightClientWrites - 1 } }
  if !n.runtime.present then n
  else n.setRecord { n.record with inFlightClientWrites := n.record.inFlightClientWrites - 1 }

/-! ## Reads -/

def answerRead (call : Nat) (result : Except Error ReadResult) : NodeSlot :=
  { n with reads := n.reads.insert call result }

/-- The newest dirty operation the tail has committed, or else the committed object. -/
def resolveDirty (read : PendingRead) (tailCommitted : Nat) : Option CommittedObject :=
  match read.dirtyEntries.reverse.find? (fun entry => decide (entry.sequence ≤ tailCommitted)) with
  | some entry => entry.operation.object?
  | none => read.object

def finishRead (read : PendingRead) : Option Nat → NodeSlot
  | some tailCommitted =>
    n.answerRead read.call
      (.ok ⟨read.assignment.chainVersion, resolveDirty read tailCommitted⟩)
  | none =>
    n.answerRead read.call (.error (.readDependency n.slot read.req.expectedChainVersion
      read.assignment.peers.tailNodeID (.fault "fetch committed sequence")))

def handleClientGet (call : Nat) (req : ClientGetRequest) : NodeSlot :=
  let mismatch := n.routingMismatch req.expectedChainVersion
  let assignment := n.record.assignment
  let tailTarget := peerTransportTarget assignment.peers.tailTarget assignment.peers.tailNodeID
  if !n.runtime.present then n.answerRead call (.error (mismatch .unknownSlot))
  else if n.record.state ≠ .active then n.answerRead call (.error (mismatch .inactiveReplica))
  else if assignment.chainVersion ≠ req.expectedChainVersion then
    n.answerRead call (.error (mismatch .wrongVersion))
  else
    match n.committedObject req.key with
    | .error err => n.answerRead call (.error err)
    | .ok object =>
      let dirtyEntries := n.record.dirtyByKey.getD req.key []
      if req.consistency = .localCommitted ∨ assignment.role = .tail ∨
          assignment.role = .single ∨ dirtyEntries = [] then
        n.answerRead call (.ok ⟨assignment.chainVersion, object⟩)
      else if tailTarget = "" then
        n.answerRead call (.error (.readDependency n.slot req.expectedChainVersion
          assignment.peers.tailNodeID (.sentinel .stateMismatch "")))
      else
        n.andThen [.awaitTail (.read { call, req, assignment, object, dirtyEntries }) tailTarget
          none]

/-! ## Messages from the neighbours -/

def handleForwardWrite (req : ForwardWriteRequest) : NodeSlot :=
  n.reconcileThen [.forwardWrite req]

def forwardWriteReconciled (req : ForwardWriteRequest) : NodeSlot :=
  match n.replicationRecord with
  | .error _ => n
  | .ok record =>
    if record.assignment.peers.successorNodeID = "" ∧ n.runtime.commitEffectInFlight ∧
        req.operation.sequence = record.nextSequence then
      match reduceBufferFutureForward record req n.bufferLimits with
      | .ok buffered => n.setRecord buffered
      | .error _ => n
    else
      match reduceForwardWrite record req n.bufferLimits with
      | .error _ => n
      | .ok ⟨_, .ignore⟩ => n
      | .ok ⟨reduced, .buffer⟩ => (n.setRecord reduced).ensureGapCatchup
      | .ok ⟨reduced, .apply⟩ => (n.setRecord reduced).applyForward req

def handleCommitAdvance (req : CommitAdvanceRequest) : NodeSlot :=
  n.reconcileThen [.commitAdvance req]

def commitAdvanceReconciled (req : CommitAdvanceRequest) : NodeSlot :=
  match n.replicationRecord with
  | .error _ => n
  | .ok record =>
    match validateCommitAdvanceSource record req with
    | .error _ => n
    | .ok () =>
      let advanced :=
        { record with
          highestCommitTokenReceived := max record.highestCommitTokenReceived req.committedThrough }
      let n := n.setRecord advanced
      if req.committedThrough ≤ advanced.highestCommittedSequence then n
      else n.andThen [.submitCommitWatermarkReady advanced]

def markMaterialized (highest : Nat) : NodeSlot :=
  if !n.runtime.present then n else n.setRecord (recordPruneMaterializedOverlay n.record highest)

/-! ## Joining a chain -/

def joiningRecord (assignment : ReplicaAssignment) : ReplicaRecord :=
  { assignment
    state := .pending
    nextSequence := 1
    localDataPresent := true
    lastKnownState := .pending }

def joinedRecord (assignment : ReplicaAssignment) (highest : Nat) : ReplicaRecord :=
  { assignment
    state := .catchingUp
    nextSequence := highest + 1
    highestPreparedDurable := highest
    highestCommitTokenReceived := highest
    highestCommittedSequence := highest
    materializedCommittedSequence := highest
    highestUpstreamConfirmedSequence := highest
    localDataPresent := true
    lastKnownState := .catchingUp }

/-- A replica that cannot be persisted is taken back. -/
def finishJoin (assignment : ReplicaAssignment) (highest : Nat) : NodeSlot :=
  let n := n.setRecord (joinedRecord assignment highest)
  if n.load.localWriteFails then { n.removeRecord with backend := none }
  else n.persistReplica (joinedRecord assignment highest)

def catchupsExhausted : Bool :=
  decide (n.config.maxConcurrentCatchups > 0) &&
    decide (n.load.inFlightCatchups ≥ n.config.maxConcurrentCatchups)

-- A replica or a backend of the slot that already exists leaves everything as it is, whether the
-- source reports a replay or an error.
def addReplicaAsTail (assignment : ReplicaAssignment) : NodeSlot :=
  let peers := assignment.peers
  if n.runtime.present then n
  else if decide (peers.predecessorNodeID ≠ "") && n.catchupsExhausted then n
  else if n.backend.isSome then n
  else
    let n := { n with backend := some {} }.setRecord (joiningRecord assignment)
    if peers.predecessorNodeID = "" then n.finishJoin assignment 0
    else
      n.andThen [.awaitSnapshot (.join assignment)
        (peerTransportTarget peers.predecessorTarget peers.predecessorNodeID) none]

def joinFetched (assignment : ReplicaAssignment) : Option (Snapshot × Nat) → NodeSlot
  | none => { n.removeRecord with backend := none }
  | some (snapshot, highest) =>
    let n : NodeSlot :=
      { n with
        backend := n.backend.map fun data =>
          (data.installSnapshot snapshot).setHighestCommittedSequence highest
        runtime := { n.runtime with committedMetadata := ∅ } }
    n.finishJoin assignment highest

/-- The first half of an activation: one more sync from the predecessor. -/
def prepareActivation : NodeSlot :=
  let peers := n.record.assignment.peers
  if !n.runtime.present || decide (n.record.state ≠ .catchingUp) ||
      decide (n.activation ≠ .idle) then n
  else if peers.predecessorNodeID = "" then { n with activation := .synced }
  else
    { n with activation := .preparing }.andThen
      [.awaitSnapshot (.activation (buildPredecessorSyncPlan n.record))
        (peerTransportTarget peers.predecessorTarget peers.predecessorNodeID) none]

def activationFetched (plan : PredecessorSyncPlan) : Option (Snapshot × Nat) → NodeSlot
  | none => { n with activation := .idle }
  | some (snapshot, highest) =>
    let applied :=
      if highest > plan.currentHighest then n.applyFetchedPredecessorSnapshot plan snapshot highest
      else (n, true)
    { applied.1 with activation := if applied.2 then .synced else .idle }

def readyReported (accepted : Bool) : NodeSlot :=
  if n.activation = .synced then
    { n with activation := if accepted then .reported else .idle }
  else n

/-- The second half of an activation, once the ready report was accepted. -/
def activateReplicaReady : NodeSlot :=
  if n.activation ≠ .reported then n
  else
    let n := { n with activation := .idle }
    if !n.runtime.present || decide (n.record.state ≠ .catchingUp) then n
    else
      let active := { n.record with state := .active, lastKnownState := .active }
      (n.setRecord active).persistThen active [.drainReadyBuffered]

/-! ## Leaving a chain -/

def markReplicaLeaving : NodeSlot :=
  if !n.runtime.present || decide (n.record.state ≠ .active) then n
  else
    let leaving := { n.record with state := .leaving, lastKnownState := .leaving }
    (n.setRecord leaving).persistThen leaving []

/-- The owner ends; what it still waits for is not delivered to the next one. -/
def evictSlotOwner : NodeSlot :=
  { n with
    runtime := {}
    tasks := []
    closing := false
    pipelines := []
    calls := []
    completions := []
    prepares := n.prepares.map fun intent => { intent with after := none }
    watermarks := n.watermarks.map fun intent => { intent with live := false } }

/-- The coordinator has accepted the report of the removal. -/
def removeReplica : NodeSlot :=
  if !n.runtime.present then n
  else if n.record.state = .removed then { n.removeRecord with closing := true }
  else if n.record.state ≠ .leaving then n
  else if n.backend.isNone then n.dropSlot
  else
    { n.dropSlot.removeRecord with backend := none, localState := none, closing := true }

def dropRecoveredReplica : NodeSlot :=
  if !n.runtime.present || decide (n.record.state ≠ .recovered) then n
  else
    { n.dropSlot.removeRecord with backend := none, localState := none, closing := true }

/-! ## A new place in the chain -/

def retargetForwards (record : ReplicaRecord) (forwards : SequenceMap ForwardWriteRequest) :
    SequenceMap ForwardWriteRequest :=
  let peers := record.assignment.peers
  (forwards.filter fun sequence _ => !decide (sequence ≤ record.highestCommittedSequence)).map
    fun _ req =>
      if peers.predecessorNodeID = "" ∨ req.fromNodeID ≠ peers.predecessorNodeID then req
      else { req with chainVersion := record.assignment.chainVersion }

def retargetUncommittedForwardSources (record : ReplicaRecord) : ReplicaRecord :=
  { record with
    stagedForwards := retargetForwards record record.stagedForwards
    bufferedForwards := retargetForwards record record.bufferedForwards }

def retargetUncommittedCommitSources (record : ReplicaRecord) : ReplicaRecord :=
  { record with
    expectedCommitSources :=
      (record.expectedCommitSources.filter fun sequence _ =>
        !decide (sequence ≤ record.highestCommittedSequence) &&
          decide (record.assignment.peers.successorNodeID ≠ "")).map
        fun _ _ => expectedSuccessor record }

def predecessorPeerChanged (old new : ReplicaAssignment) : Bool :=
  decide (old.peers.predecessorNodeID ≠ new.peers.predecessorNodeID) ||
    decide (old.peers.predecessorTarget ≠ new.peers.predecessorTarget)

def successorChanged (old new : ReplicaAssignment) : Bool :=
  decide (old.chainVersion ≠ new.chainVersion) ||
    decide (old.peers.successorNodeID ≠ new.peers.successorNodeID) ||
    decide (old.peers.successorTarget ≠ new.peers.successorTarget)

def withAssignment (record : ReplicaRecord) (assignment : ReplicaAssignment) : ReplicaRecord :=
  { record with
    assignment
    highestUpstreamConfirmedSequence :=
      if predecessorPeerChanged record.assignment assignment then record.highestCommittedSequence
      else record.highestUpstreamConfirmedSequence
    lastKnownState := if record.state = .recovered then record.lastKnownState else record.state }

def followPredecessor (old : ReplicaAssignment) (record : ReplicaRecord) : ReplicaRecord :=
  if decide (old.chainVersion ≠ record.assignment.chainVersion) ||
      predecessorPeerChanged old record.assignment then
    retargetUncommittedForwardSources record
  else record

/-- A replica that has lost its successor needs no commit token for what it has prepared. -/
def followSuccessor (old : ReplicaAssignment) (record : ReplicaRecord) : ReplicaRecord :=
  if !successorChanged old record.assignment then record
  else
    let retargeted := retargetUncommittedCommitSources record
    if record.assignment.peers.successorNodeID ≠ "" then retargeted
    else
      { retargeted with
        highestCommitTokenReceived :=
          max record.highestCommitTokenReceived record.highestPreparedDurable }

def reassigned (record : ReplicaRecord) (assignment : ReplicaAssignment) : ReplicaRecord :=
  followSuccessor record.assignment
    (followPredecessor record.assignment (withAssignment record assignment))

def afterUpdate (old : ReplicaAssignment) (record : ReplicaRecord) : List Task :=
  if record.state ≠ .active then []
  else if successorChanged old record.assignment then
    [.submitCommitWatermarkReady record, .replayPreparedForwards, .ensureUpstreamCommitReplay]
  else [.submitCommitWatermarkReady record, .ensureUpstreamCommitReplay]

def updateChainPeers (assignment : ReplicaAssignment) : NodeSlot :=
  let old := n.record.assignment
  if !n.runtime.present || decide (old = assignment) then n
  else
    let record := reassigned n.record assignment
    (n.setRecord record).persistThen record (afterUpdate old record)

/-! ## Coming back after a crash -/

/-- A resumed replica forgets every sequence after the committed one. -/
def resumedRecord (record : ReplicaRecord) (assignment : ReplicaAssignment) (committed : Nat) :
    ReplicaRecord :=
  let record : ReplicaRecord :=
    { record with
      assignment
      state := .active
      lastKnownState := .active
      highestCommittedSequence := committed
      highestPreparedDurable := committed
      highestCommitTokenReceived := committed
      nextSequence := committed + 1 }
  { record with highestUpstreamConfirmedSequence := normalizeUpstreamConfirmedSequence record }

def finishResume (assignment : ReplicaAssignment) (committed : Nat) : NodeSlot :=
  let record := resumedRecord n.record assignment committed
  (n.setRecord record).persistThen record [.ensureUpstreamCommitReplay]

def resumeRecoveredReplica (assignment : ReplicaAssignment) : NodeSlot :=
  let record := n.record
  let peers := assignment.peers
  let tailTarget := peerTransportTarget peers.tailTarget peers.tailNodeID
  if !n.runtime.present || decide (record.state ≠ .recovered) || !record.localDataPresent then n
  else if peers.successorNodeID = "" then
    n.finishResume assignment
      (max record.highestCommittedSequence record.highestPreparedDurable)
  else if peers.tailNodeID ≠ "" ∧ peers.tailNodeID ≠ n.config.nodeID ∧ tailTarget ≠ "" then
    n.andThen [.awaitTail (.resume assignment) tailTarget none]
  else n.finishResume assignment record.highestCommittedSequence

def resumeFetched (assignment : ReplicaAssignment) : Option Nat → NodeSlot
  | none => n.finishResume assignment n.record.highestCommittedSequence
  | some tailCommitted =>
    n.finishResume assignment (max n.record.highestCommittedSequence
      (min tailCommitted n.record.highestPreparedDurable))

def recoverReplica (assignment : ReplicaAssignment) (sourceNodeID : String) : NodeSlot :=
  if n.runtime.present && decide (n.record.state ≠ .recovered) then n
  else if n.catchupsExhausted then n
  else
    { n with backend := some (n.backend.getD {}) }.andThen
      [.awaitSnapshot (.recover assignment)
        (peerTransportTarget assignment.peers.predecessorTarget sourceNodeID) none]

def rebuiltRecord (assignment : ReplicaAssignment) (highest : Nat) : ReplicaRecord :=
  { joinedRecord assignment highest with state := .active, lastKnownState := .active }

def recoverFetched (assignment : ReplicaAssignment) : Option (Snapshot × Nat) → NodeSlot
  | none => n
  | some (snapshot, highest) =>
    let record := rebuiltRecord assignment highest
    (((n.installSnapshot snapshot highest).setRecord record).allowSlot).persistThen record []

/-- A crash: only the backend, the local state and the journal are left, and `OpenNode` rebuilds
the replica from them.  The clients still know what they were told. -/
def restart : NodeSlot :=
  let fresh : NodeSlot :=
    { config := n.config
      backend := n.backend
      localState := n.localState
      journal := n.journal
      waiters := n.waiters
      reads := n.reads }
  match n.localState with
  | none => fresh
  | some persisted =>
    let opened := openReplica persisted n.backend n.journal
    { fresh with
      runtime := { present := true, record := opened.record }
      materializing := opened.backlog
      highWater := opened.highWater }

end NodeSlot

end Craq.Storage
