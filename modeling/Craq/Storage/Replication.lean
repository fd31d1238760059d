import Craq.Storage.Owner

/-! # How a slot owner replicates writes

The functions of the slot owner, each up to the next call that may see the journal move.  What the
source does after such a call is left as tasks.
-/

namespace Craq.Storage

namespace NodeSlot

variable (n : NodeSlot)

/-! ## Progression gaps -/

def enterProgressionGap (sequence : Nat) : NodeSlot :=
  if sequence = 0 then n
  else
    { n with
      runtime := { n.runtime with progressionGap := true, progressionGapSequence := sequence } }

def clearProgressionGap : NodeSlot :=
  if n.runtime.progressionGap then
    { n with runtime := { n.runtime with progressionGap := false, progressionGapSequence := 0 } }
  else n

/-! ## Reporting commits to the predecessor -/

def ensureUpstreamCommitReplay : NodeSlot :=
  let record := n.record
  let peers := record.assignment.peers
  if !n.runtime.present then n
  else if peers.predecessorNodeID = "" then
    if record.highestUpstreamConfirmedSequence ≠ record.highestCommittedSequence then
      n.setRecord { record with highestUpstreamConfirmedSequence := record.highestCommittedSequence }
    else n
  else if n.runtime.upstreamCommitInFlight then n
  else if record.highestCommittedSequence ≤ record.highestUpstreamConfirmedSequence then n
  else
    let req : CommitAdvanceRequest :=
      { slot := n.slot
        committedThrough := record.highestCommittedSequence
        fromNodeID := n.config.nodeID
        chainVersion := record.assignment.chainVersion }
    let n : NodeSlot :=
      { n with
        runtime := { n.runtime with upstreamCommitInFlight := true }
        calls := n.calls ++ [.commitAdvance req peers.predecessorNodeID peers.predecessorTarget] }
    n.send (.commitAdvance (peerTransportTarget peers.predecessorTarget peers.predecessorNodeID) req)

def assignmentMatchesReplayTarget (record : ReplicaRecord)
    (predecessorNodeID predecessorTarget : String) (chainVersion : Nat) : Bool :=
  record.assignment.chainVersion = chainVersion ∧
    record.assignment.peers.predecessorNodeID = predecessorNodeID ∧
    record.assignment.peers.predecessorTarget = predecessorTarget

def commitAdvanceReturned (req : CommitAdvanceRequest)
    (predecessorNodeID predecessorTarget : String) (err : Option Error) : NodeSlot :=
  let n := { n with runtime := { n.runtime with upstreamCommitInFlight := false } }
  let current := n.record
  if err.isSome || !n.runtime.present then n
  else if !assignmentMatchesReplayTarget current predecessorNodeID predecessorTarget
      req.chainVersion then
    n.andThen [.ensureUpstreamCommitReplay]
  else if req.committedThrough > current.highestUpstreamConfirmedSequence then
    let n := n.setRecord { current with highestUpstreamConfirmedSequence := req.committedThrough }
    let n : NodeSlot :=
      { n with
        confirms := n.confirms ++
          [{ assignment := current.assignment, sequence := req.committedThrough }] }
    n.andThen [.ensureUpstreamCommitReplay]
  else n.andThen [.ensureUpstreamCommitReplay]

/-! ## Applying a commit watermark -/

def syntheticCommitRequest (record : ReplicaRecord) (sequence : Nat) : Option CommitWriteRequest :=
  record.expectedCommitSources[sequence]?.map fun expected =>
    { slot := record.assignment.slot
      sequence
      fromNodeID := expected.fromNodeID
      chainVersion := expected.chainVersion }

/-- What the commit loop carries from one sequence to the next. -/
structure CommitProgress where
  record : ReplicaRecord
  committedMetadata : Std.ExtTreeMap String (Option ObjectMetadata)
  released : List Nat := []

/-- Commit the sequence after the committed one, unless it has no prepared operation. -/
def commitNext (retentionLimit : Nat) (progress : CommitProgress) : Option CommitProgress :=
  let record := progress.record
  let sequence := record.highestCommittedSequence + 1
  let waiter := record.pendingWrites[sequence]?.bind (·.waiter)
  let commitReq := syntheticCommitRequest record sequence
  match reduceCommittableOperation record sequence with
  | .error _ => none
  | .ok operation =>
    let applied := reduceApplyCommittedSequence record operation sequence retentionLimit
    let recorded :=
      match commitReq with
      | some req => reduceRecordCommitApplied applied req retentionLimit
      | none => applied
    some
      { record := recordWithCommittedOverlay recorded operation
        committedMetadata := rememberCommittedOperation progress.committedMetadata operation
        released := progress.released ++ waiter.toList }

/-- Commit `count` sequences; the flag says whether none of them was missing. -/
def commitSequences (retentionLimit : Nat) : Nat → CommitProgress → CommitProgress × Bool
  | 0, progress => (progress, true)
  | count + 1, progress =>
    match commitNext retentionLimit progress with
    | none => (progress, false)
    | some progress => commitSequences retentionLimit count progress

/-- The maps of a Go record are shared by its copies, its counters are not: a commit loop that
stops early leaves the maps it changed. -/
def withMapsOf (record changed : ReplicaRecord) : ReplicaRecord :=
  { record with
    pendingWrites := changed.pendingWrites
    expectedCommitSources := changed.expectedCommitSources
    stagedForwards := changed.stagedForwards
    bufferedCommits := changed.bufferedCommits
    recentCommittedForwards := changed.recentCommittedForwards
    recentCommittedCommits := changed.recentCommittedCommits
    dirtyByKey := changed.dirtyByKey
    committedOverlay := changed.committedOverlay }

def releaseWaiters (waiters : List Nat) : NodeSlot :=
  waiters.foldl (fun n waiter => n.completeWaiter waiter none) n

def enqueueMaterializationUpTo (sequence : Nat) : NodeSlot :=
  let operations := preparedOperations n.record n.record.materializedCommittedSequence sequence
  { n with
    submitted := n.submitted ++ operations.map fun operation =>
      { operation, persisted := persistedReplica n.record } }

def clearCommitEffect : NodeSlot :=
  { n with runtime := { n.runtime with commitEffectInFlight := false, commitEffectSequence := 0 } }

/-- The loop has told the clients and the metadata cache what it committed. -/
def noteProgress (progress : CommitProgress) : NodeSlot :=
  { n with
    runtime :=
      { n.runtime with committedMetadata := progress.committedMetadata } }.releaseWaiters
    progress.released

def commitInterrupted (progress : CommitProgress) : NodeSlot :=
  let noted := n.noteProgress progress
  { noted with
    runtime :=
      { noted.runtime with record := withMapsOf n.record progress.record } }.enterProgressionGap
    (progress.record.highestCommittedSequence + 1)

def settleCommitEffect (sequence : Nat) : NodeSlot :=
  if n.runtime.commitEffectInFlight && n.runtime.commitEffectSequence != 0 &&
      decide (n.runtime.commitEffectSequence ≤ sequence) then n.clearCommitEffect
  else n

def confirmedAtHead (record : ReplicaRecord) (sequence : Nat) : ReplicaRecord :=
  if record.assignment.peers.predecessorNodeID = "" then
    { record with highestUpstreamConfirmedSequence := sequence }
  else record

def commitApplied (progress : CommitProgress) (sequence : Nat) : NodeSlot :=
  ((((n.noteProgress progress).settleCommitEffect sequence).setRecord
      (confirmedAtHead progress.record sequence)).enqueueMaterializationUpTo sequence).andThen
    [.ensureUpstreamCommitReplay, .drainReadyBuffered]

def commitLoop (sequence : Nat) : CommitProgress × Bool :=
  commitSequences n.config.maxBufferedReplicaMessagesPerSlot
    (sequence - n.record.highestCommittedSequence)
    { record := n.record, committedMetadata := n.runtime.committedMetadata }

/-- No sequence is committed without a commit token and a durable prepare. -/
def clampWatermark (sequence : Nat) : Nat :=
  min (min sequence n.record.highestCommitTokenReceived) n.record.highestPreparedDurable

def applyCommitWatermark (sequence : Nat) : NodeSlot :=
  let sequence := n.clampWatermark sequence
  if !n.runtime.present then n
  else if sequence ≤ n.record.highestCommittedSequence then n
  else if (n.commitLoop sequence).2 then n.commitApplied (n.commitLoop sequence).1 sequence
  else n.commitInterrupted (n.commitLoop sequence).1

/-! ## Committing what is ready -/

/-- A head asks the journal for what is ready, any other replica commits it at once. -/
def commitReady (record : ReplicaRecord) : NodeSlot :=
  let ready := min record.highestCommitTokenReceived record.highestPreparedDurable
  if record.assignment.role ≠ .head ∧ record.assignment.role ≠ .single then
    if ready > record.highestCommittedSequence then n.andThen [.applyCommitWatermark ready]
    else n.andThen [.ensureUpstreamCommitReplay]
  else if ready ≤ record.highestCommittedSequence ∨ ready ≤ n.runtime.highestWatermarkSent then n
  else
    { n with
      runtime :=
        { n.runtime with
          commitEffectInFlight := true
          commitEffectSequence := max n.runtime.commitEffectSequence ready
          highestWatermarkSent := ready }
      watermarks := n.watermarks ++ [{ assignment := record.assignment, sequence := ready }] }

def submitCommitWatermarkReady (record : ReplicaRecord) : NodeSlot :=
  if record.assignment.peers.successorNodeID = "" ∧
      record.highestPreparedDurable > record.highestCommitTokenReceived then
    let raised := { record with highestCommitTokenReceived := record.highestPreparedDurable }
    (n.setRecord raised).commitReady raised
  else n.commitReady record

def headCommitRangeReturned (ready : Nat) : Option Error → NodeSlot
  | none => n.andThen [.applyCommitWatermark ready]
  | some _ =>
    let n :=
      if n.runtime.highestWatermarkSent = ready then
        { n with
          runtime := { n.runtime with highestWatermarkSent := n.record.highestCommittedSequence } }
      else n
    if n.runtime.commitEffectSequence ≤ ready then n.clearCommitEffect else n

/-- The tasks that apply what the journal already holds, when it holds the commit in flight. -/
def reconcileDurableCommitProgress : Option (NodeSlot × List Task) :=
  if !n.runtime.present || !n.runtime.commitEffectInFlight ||
      decide (n.runtime.commitEffectSequence = 0) ||
      decide (n.highWater < n.runtime.commitEffectSequence) then none
  else
    let durable := n.clampWatermark n.highWater
    if durable ≤ n.record.highestCommittedSequence then some (n.clearCommitEffect, [])
    else some (n, [.applyCommitWatermark durable])

/-- Reconcile, then go on with `rest`. -/
def reconcileThen (rest : List Task) : NodeSlot :=
  match n.reconcileDurableCommitProgress with
  | some (n, tasks) => n.andThen (tasks ++ rest)
  | none => n.andThen rest

/-- `detectAcceptedCommitGap` and what the caller does with its answer.  No commit is ever
accepted one by one, so only the journal can be ahead of the committed cursor. -/
def advanceAcceptedCommitProgress : NodeSlot :=
  let record := n.record
  let nextSequence := record.highestCommittedSequence + 1
  if !n.runtime.present then n
  else if !n.runtime.commitEffectInFlight || decide (n.highWater < nextSequence) then
    n.clearProgressionGap.andThen [.advanceAfterGapCheck record]
  else
    match n.reconcileDurableCommitProgress with
    | some (n, tasks) => n.andThen (tasks ++ [.gapRepaired record])
    | none => n.enterProgressionGap nextSequence

def gapRepaired (record : ReplicaRecord) : NodeSlot :=
  n.clearProgressionGap.andThen [.advanceAfterGapCheck record]

def advanceAfterGapCheck (record : ReplicaRecord) : NodeSlot :=
  let ready := min record.highestCommitTokenReceived record.highestPreparedDurable
  let reconciled :=
    if n.runtime.commitEffectInFlight then n.reconcileDurableCommitProgress else none
  match reconciled with
  | some (n, tasks) => n.andThen (tasks ++ [.advanceAcceptedCommitProgress])
  | none =>
    if ready > record.highestCommittedSequence ∧ ready > n.runtime.highestWatermarkSent then
      n.andThen [.submitCommitWatermarkReady record]
    else n

/-! ## Preparing and forwarding -/

def scheduleDrainReadyBuffered : NodeSlot :=
  if n.runtime.drainScheduled then n
  else
    { n with
      runtime := { n.runtime with drainScheduled := true }
      completions := n.completions ++ [.drain] }

def startPrepareEffect (record : ReplicaRecord) (operation : WriteOperation)
    (after : AfterPrepare) : NodeSlot :=
  { n with
    prepares := n.prepares ++
      [{ prepare := { operation, persisted := persistedReplica record }, after := some after }] }

def prepareReturned (operation : WriteOperation) (after : AfterPrepare) (err : Option Error) :
    NodeSlot :=
  if err.isSome || !n.runtime.present then n.andThen [.afterPrepare after err]
  else
    let current := n.record
    let prepared :=
      { current with
        highestPreparedDurable := max current.highestPreparedDurable operation.sequence
        highestCommitTokenReceived :=
          if current.assignment.peers.successorNodeID = "" then
            max current.highestCommitTokenReceived operation.sequence
          else current.highestCommitTokenReceived }
    (n.setRecord prepared).andThen
      [.submitCommitWatermarkReady prepared, .afterPrepare after err]

def pipelineComplete (onComplete : PipelineEnd) (err : Option Error) : NodeSlot :=
  let gone := Error.sentinel .unknownReplica s!"slot {n.slot}"
  match onComplete, err with
  | .client waiter, some err =>
    n.completeWaiter waiter (some (.wrapped "err in n.repl.ForwardWrite" err))
  | .client waiter, none => if n.runtime.present then n else n.completeWaiter waiter (some gone)
  | .forward, some _ => n
  | .forward, none =>
    if !n.runtime.present then n
    else if n.record.assignment.peers.successorNodeID = "" then
      n.andThen [.submitCommitWatermarkReady n.record, .scheduleDrainReadyBuffered]
    else n.scheduleDrainReadyBuffered

def resolvePipeline (index : Nat) (prepareDone : Bool) (err : Option Error) : NodeSlot :=
  match n.pipelines[index]? with
  | none => n
  | some pipeline =>
    if pipeline.finished then n
    else
      let advanced : PrepareForwardPipeline :=
        if err.isSome then { pipeline with finished := true }
        else if prepareDone then
          { pipeline with prepareDone := true, finished := pipeline.forwardDone }
        else { pipeline with forwardDone := true, finished := pipeline.prepareDone }
      let n := { n with pipelines := n.pipelines.set index advanced }
      if advanced.finished then n.pipelineComplete pipeline.onComplete err else n

def dispatchForward (index : Nat) (operation : WriteOperation) (current : ReplicaRecord) :
    NodeSlot :=
  let peers := current.assignment.peers
  if peers.successorNodeID = "" then n.resolvePipeline index false none
  else
    let n : NodeSlot := { n with calls := n.calls ++ [.forward index current.assignment] }
    n.send (.forward (peerTransportTarget peers.successorTarget peers.successorNodeID)
      { operation, fromNodeID := n.config.nodeID, chainVersion := current.assignment.chainVersion })

def forwardReturned (index : Nat) (assignment : ReplicaAssignment) (err : Option Error) :
    NodeSlot :=
  let latest := n.record
  let gone := Error.sentinel .unknownReplica s!"slot {n.slot}"
  match err with
  | some err => n.resolvePipeline index false (some err)
  | none =>
    if !n.runtime.present then n.resolvePipeline index false (some gone)
    else if latest.assignment.peers.successorNodeID = "" then n.resolvePipeline index false none
    else if latest.assignment.chainVersion ≠ assignment.chainVersion ∨
        latest.assignment.peers.successorNodeID ≠ assignment.peers.successorNodeID ∨
        latest.assignment.peers.successorTarget ≠ assignment.peers.successorTarget then
      match n.pipelines[index]? with
      | some pipeline => n.dispatchForward index pipeline.operation latest
      | none => n
    else n.resolvePipeline index false none

/-- The caller has checked that the replica has a successor. -/
def startPreparedForwardPipeline (record : ReplicaRecord) (operation : WriteOperation)
    (onComplete : PipelineEnd) : NodeSlot :=
  let index := n.pipelines.length
  let n : NodeSlot := { n with pipelines := n.pipelines ++ [{ operation, onComplete }] }
  (n.startPrepareEffect record operation (.pipeline index)).dispatchForward index operation record

def afterPrepare (after : AfterPrepare) (err : Option Error) : NodeSlot :=
  match after, err with
  | .single waiter, some err => n.completeWaiter waiter (some err)
  | .single _, none => n
  | .tail, some _ => n
  | .tail, none => n.andThen [.submitCommitWatermarkReady n.record, .scheduleDrainReadyBuffered]
  | .pipeline index, err => n.resolvePipeline index true err

def applyForward (req : ForwardWriteRequest) : NodeSlot :=
  if !n.runtime.present then n
  else if n.record.assignment.peers.successorNodeID = "" then
    n.startPrepareEffect n.record req.operation .tail
  else n.startPreparedForwardPipeline n.record req.operation .forward

/-! ## Catching up from the predecessor -/

def buildPredecessorSyncPlan (record : ReplicaRecord) : PredecessorSyncPlan where
  sourceNodeID := record.assignment.peers.predecessorNodeID
  sourceTarget := record.assignment.peers.predecessorTarget
  chainVersion := record.assignment.chainVersion
  currentHighest := record.highestCommittedSequence

def hasBufferedGap : Bool :=
  n.runtime.present && n.record.assignment.peers.predecessorNodeID != "" &&
    (n.record.bufferedForwards.toList.any (fun item =>
        decide (item.1 > n.record.highestCommittedSequence + 1)) ||
      n.record.bufferedCommits.toList.any (fun item =>
        decide (item.1 > n.record.highestCommittedSequence + 1)))

def ensureGapCatchup : NodeSlot :=
  if !n.hasBufferedGap || n.runtime.catchupSyncInFlight then n
  else
    { n with
      runtime := { n.runtime with catchupSyncInFlight := true }
      calls := n.calls ++ [.catchup (buildPredecessorSyncPlan n.record) none] }

def rebuildDirtyEntries (record : ReplicaRecord) : ReplicaRecord :=
  let pending := record.pendingWrites.toList.filterMap (·.2.operation)
  let staged := record.stagedForwards.toList.map (·.2.operation)
  (pending ++ staged).foldl reduceAddDirtyEntry { record with dirtyByKey := ∅ }

def reduceSyncedPredecessorState (record : ReplicaRecord) (highestCommittedSequence : Nat) :
    ReplicaRecord :=
  rebuildDirtyEntries
    { record with
      highestCommittedSequence
      highestPreparedDurable := highestCommittedSequence
      highestCommitTokenReceived := highestCommittedSequence
      materializedCommittedSequence := highestCommittedSequence
      highestUpstreamConfirmedSequence := highestCommittedSequence
      nextSequence := max record.nextSequence (highestCommittedSequence + 1)
      pendingWrites := record.pendingWrites.filter fun sequence _ =>
        !decide (sequence ≤ highestCommittedSequence)
      stagedForwards := record.stagedForwards.filter fun sequence _ =>
        !decide (sequence ≤ highestCommittedSequence)
      bufferedForwards := record.bufferedForwards.filter fun sequence _ =>
        !decide (sequence ≤ highestCommittedSequence)
      bufferedCommits := record.bufferedCommits.filter fun sequence _ =>
        !decide (sequence ≤ highestCommittedSequence)
      committedOverlay := ∅ }

def installSnapshot (snapshot : Snapshot) (highest : Nat) : NodeSlot :=
  let n := n.dropSlot
  { n with
    backend := n.backend.map fun data =>
      (data.installSnapshot snapshot).setHighestCommittedSequence highest
    runtime := { n.runtime with committedMetadata := ∅ } }

/-- The flag says whether the snapshot was not needed, or taken and persisted.  A backend without the
slot fails the installation after the slot was dropped. -/
def applyFetchedPredecessorSnapshot (plan : PredecessorSyncPlan) (snapshot : Snapshot)
    (highest : Nat) : NodeSlot × Bool :=
  let record := n.record
  if !n.runtime.present then (n, true)
  else if record.assignment.chainVersion ≠ plan.chainVersion ∨
      record.assignment.peers.predecessorNodeID ≠ plan.sourceNodeID ∨
      record.assignment.peers.predecessorTarget ≠ plan.sourceTarget then (n, true)
  else if highest ≤ record.highestCommittedSequence then (n, true)
  else if n.backend.isNone then (n.dropSlot, false)
  else
    let synced := reduceSyncedPredecessorState record highest
    ((((n.installSnapshot snapshot highest).setRecord synced).allowSlot).persistThen synced [],
      !n.load.localWriteFails)

def catchupReturned (plan : PredecessorSyncPlan) (reply : Option (Snapshot × Nat)) : NodeSlot :=
  let n := { n with runtime := { n.runtime with catchupSyncInFlight := false } }
  match reply with
  | none => n
  | some (snapshot, highest) =>
    let applied :=
      if highest > plan.currentHighest then n.applyFetchedPredecessorSnapshot plan snapshot highest
      else (n, true)
    if applied.2 then applied.1.andThen [.drainReadyBuffered] else applied.1

/-! ## Draining what was buffered -/

def drainReadyBuffered : NodeSlot :=
  if !n.runtime.present then n else n.reconcileThen [.drainAfterReconcile]

def drainAfterReconcile : NodeSlot :=
  if !n.runtime.present then n
  else n.andThen [.advanceAcceptedCommitProgress, .drainAfterAdvance]

def drainAfterAdvance : NodeSlot :=
  let record := n.record
  if n.runtime.commitEffectInFlight then n
  else
    match record.bufferedForwards[record.nextSequence]? with
    | some req =>
      match reduceForwardWrite record req n.bufferLimits with
      | .ok ⟨reduced, .apply⟩ => (n.setRecord reduced).applyForward req
      | _ => n
    | none => n.ensureGapCatchup

/-! ## Replaying prepared operations to a new successor -/

def schedulePreparedForwardReplayRetry : NodeSlot :=
  if !n.runtime.present || n.runtime.preparedReplayRetryScheduled then n
  else if n.record.assignment.peers.successorNodeID = "" then n
  else if n.record.highestPreparedDurable ≤ n.record.highestCommittedSequence then n
  else
    { n with
      runtime := { n.runtime with preparedReplayRetryScheduled := true }
      completions := n.completions ++ [.replayRetry] }

/-- The prepared operations after the committed one, up to the first that is missing. -/
def replayableOperations (record : ReplicaRecord) : List WriteOperation :=
  ((List.range' (record.highestCommittedSequence + 1)
      (record.highestPreparedDurable - record.highestCommittedSequence)).map
    (record.preparedEntries[·]?)).takeWhile (·.isSome) |>.filterMap id

def replayPreparedForwards : NodeSlot :=
  let record := n.record
  let peers := record.assignment.peers
  if !n.runtime.present then n
  else if peers.successorNodeID = "" then n
  else if record.highestPreparedDurable ≤ record.highestCommittedSequence then n
  else
    let operations := replayableOperations record
    { n with
      runtime := { n.runtime with preparedReplayRetryScheduled := false }
      calls := n.calls ++ operations.map fun operation =>
        .replay operation.sequence record.assignment
      outbox := n.outbox ++ operations.map fun operation =>
        .forward (peerTransportTarget peers.successorTarget peers.successorNodeID)
          { operation
            fromNodeID := n.config.nodeID
            chainVersion := record.assignment.chainVersion } }

def replayReturned (sequence : Nat) (assignment : ReplicaAssignment) (err : Option Error) :
    NodeSlot :=
  let current := n.record
  if err.isNone then n.andThen [.drainReadyBuffered]
  else if n.runtime.present && decide (current.assignment.chainVersion = assignment.chainVersion) &&
      decide (current.assignment.peers.successorNodeID = assignment.peers.successorNodeID) &&
      decide (current.assignment.peers.successorTarget = assignment.peers.successorTarget) &&
      decide (sequence > current.highestCommittedSequence) then
    n.schedulePreparedForwardReplayRetry
  else n

end NodeSlot

end Craq.Storage
