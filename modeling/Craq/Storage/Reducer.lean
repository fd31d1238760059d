import Craq.Coordinator.Types
import Craq.Storage.Record

/-! # The slot reducer

The protocol transitions of a replica record: sequencing a client write, staging or buffering a
forwarded write, accepting a commit, and applying a committed sequence.
-/

namespace Craq.Storage

open Coordinator (quoted)

structure BufferLimits where
  perSlotLimit : Nat
  perNodeLimit : Nat
  nodeBufferedNow : Nat
deriving DecidableEq, Repr

inductive ReducerAction where
  | apply
  | buffer
  | ignore
deriving DecidableEq, Repr

structure Reduction where
  record : ReplicaRecord
  action : ReducerAction
deriving DecidableEq

/-! ## The dirty index -/

def reduceAddDirtyEntry (record : ReplicaRecord) (operation : WriteOperation) : ReplicaRecord :=
  let entries : List DirtyReadEntry := record.dirtyByKey.getD operation.key []
  let index := entries.findIdx (·.sequence == operation.sequence)
  let added : DirtyReadEntry := { sequence := operation.sequence, operation }
  let updated :=
    if index < entries.length then entries.modify index fun entry => { entry with operation }
    else (entries ++ [added]).insertionSort
      fun left right => left.sequence ≤ right.sequence
  { record with dirtyByKey := record.dirtyByKey.insert operation.key updated }

def reduceRemoveDirtyEntry (record : ReplicaRecord) (key : String) (sequence : Nat) :
    ReplicaRecord :=
  match record.dirtyByKey[key]? with
  | none => record
  | some entries =>
    let filtered := entries.filter (·.sequence != sequence)
    if filtered = [] then { record with dirtyByKey := record.dirtyByKey.erase key }
    else { record with dirtyByKey := record.dirtyByKey.insert key filtered }

/-! ## Who may send what -/

def sameForwardRequest (left right : ForwardWriteRequest) : Bool :=
  left.fromNodeID = right.fromNodeID ∧ left.chainVersion = right.chainVersion ∧
    left.operation = right.operation

def sameForwardRequestIgnoringChain (left right : ForwardWriteRequest) : Bool :=
  left.fromNodeID = right.fromNodeID ∧ left.operation = right.operation

def peerMismatch (slot : Nat) (peer expected got : String) : Error :=
  .sentinel .peerMismatch s!"slot {slot} expected {peer} {quoted expected}, got {quoted got}"

def chainVersionMismatch (slot expected got : Nat) : Error :=
  .sentinel .peerMismatch s!"slot {slot} expected chain version {expected}, got {got}"

/-- The peer and the chain version a forward at the sequence is expected to carry. -/
def expectedForwardSource (record : ReplicaRecord) (sequence : Nat) : String × Nat :=
  match record.stagedForwards[sequence]? with
  | some existing => (existing.fromNodeID, existing.chainVersion)
  | none =>
    match record.bufferedForwards[sequence]? with
    | some existing => (existing.fromNodeID, existing.chainVersion)
    | none =>
      match record.recentCommittedForwards[sequence]? with
      | some existing => (existing.fromNodeID, existing.chainVersion)
      | none => (record.assignment.peers.predecessorNodeID, record.assignment.chainVersion)

def validateForwardSource (record : ReplicaRecord) (req : ForwardWriteRequest) :
    Except Error Unit :=
  let expected := expectedForwardSource record req.operation.sequence
  if expected.1 = "" ∨ expected.1 ≠ req.fromNodeID then
    .error (peerMismatch req.operation.slot "predecessor" expected.1 req.fromNodeID)
  else if expected.2 ≠ req.chainVersion then
    if record.assignment.peers.predecessorNodeID = req.fromNodeID ∧
        record.assignment.chainVersion = req.chainVersion then .ok ()
    else .error (chainVersionMismatch req.operation.slot expected.2 req.chainVersion)
  else .ok ()

def validateCommitAdvanceSource (record : ReplicaRecord) (req : CommitAdvanceRequest) :
    Except Error Unit :=
  let peers := record.assignment.peers
  if peers.successorNodeID = "" ∨ peers.successorNodeID ≠ req.fromNodeID then
    .error (peerMismatch req.slot "successor" peers.successorNodeID req.fromNodeID)
  else if record.assignment.chainVersion ≠ req.chainVersion then
    .error (chainVersionMismatch req.slot record.assignment.chainVersion req.chainVersion)
  else .ok ()

/-! ## Client writes -/

def expectedSuccessor (record : ReplicaRecord) : ExpectedCommitSource where
  fromNodeID := record.assignment.peers.successorNodeID
  chainVersion := record.assignment.chainVersion

def submittedResult (operation : WriteOperation) : CommitResult where
  slot := operation.slot
  sequence := operation.sequence
  applied := true
  metadata := some operation.metadata

def reduceSubmitWrite (record : ReplicaRecord) (operation : WriteOperation) : ReplicaRecord :=
  let staged := reduceAddDirtyEntry
    { record with
      pendingWrites := record.pendingWrites.insert operation.sequence
        { result := submittedResult operation, operation := some operation }
      preparedEntries := record.preparedEntries.insert operation.sequence operation
      expectedCommitSources :=
        record.expectedCommitSources.insert operation.sequence (expectedSuccessor record) }
    operation
  { staged with nextSequence := staged.nextSequence + 1 }

/-! ## Forwarded writes -/

def reduceTotalBufferedMessages (record : ReplicaRecord) : Nat :=
  record.bufferedForwards.size + record.bufferedCommits.size

/-- Whether a repeated forward is the one already held: the same request, or the same operation
resent by the current predecessor under the current chain version. -/
def acceptsRepeatedForward (record : ReplicaRecord) (held req : ForwardWriteRequest) : Bool :=
  sameForwardRequest held req ||
    (sameForwardRequestIgnoringChain held req &&
      decide (record.assignment.peers.predecessorNodeID = req.fromNodeID) &&
      decide (record.assignment.chainVersion = req.chainVersion))

def reduceHandlePastForward (record : ReplicaRecord) (req : ForwardWriteRequest) :
    Except Error Unit :=
  let place := s!"slot {req.operation.slot} sequence {req.operation.sequence}"
  match record.stagedForwards[req.operation.sequence]? with
  | some staged =>
    if acceptsRepeatedForward record staged req then .ok ()
    else .error (.sentinel .protocolConflict s!"{place} forward payload conflict")
  | none =>
    match record.recentCommittedForwards[req.operation.sequence]? with
    | some committed =>
      if acceptsRepeatedForward record committed req then .ok ()
      else .error (.sentinel .protocolConflict s!"{place} committed forward conflict")
    | none => .error (.sentinel .sequenceMismatch s!"{place} is outside retained forward history")

def checkBufferLimits (record : ReplicaRecord) (slot : Nat) (limits : BufferLimits) :
    Except Error Unit :=
  if reduceTotalBufferedMessages record ≥ limits.perSlotLimit then
    .error (.backpressure .replicaBuffer slot (reduceTotalBufferedMessages record)
      limits.perSlotLimit)
  else if limits.perNodeLimit > 0 ∧ limits.nodeBufferedNow ≥ limits.perNodeLimit then
    .error (.backpressure .replicaBuffer slot limits.nodeBufferedNow limits.perNodeLimit)
  else .ok ()

def reduceBufferFutureForward (record : ReplicaRecord) (req : ForwardWriteRequest)
    (limits : BufferLimits) : Except Error ReplicaRecord :=
  match record.bufferedForwards[req.operation.sequence]? with
  | some existing =>
    if sameForwardRequest existing req then .ok record
    else .error (.sentinel .protocolConflict
      s!"slot {req.operation.slot} sequence {req.operation.sequence} buffered forward conflict")
  | none => do
    checkBufferLimits record req.operation.slot limits
    return { record with
      bufferedForwards := record.bufferedForwards.insert req.operation.sequence req }

def reduceStageForward (record : ReplicaRecord) (req : ForwardWriteRequest) : ReplicaRecord :=
  let sequence := req.operation.sequence
  let record := { record with bufferedForwards := record.bufferedForwards.erase sequence }
  if record.stagedForwards.contains sequence then record
  else
    let staged := reduceAddDirtyEntry
      { record with
        stagedForwards := record.stagedForwards.insert sequence req
        preparedEntries := record.preparedEntries.insert sequence req.operation
        expectedCommitSources :=
          record.expectedCommitSources.insert sequence (expectedSuccessor record) }
      req.operation
    { staged with nextSequence := staged.nextSequence + 1 }

def reduceForwardWrite (record : ReplicaRecord) (req : ForwardWriteRequest)
    (limits : BufferLimits) : Except Error Reduction := do
  validateForwardSource record req
  if req.operation.sequence < record.nextSequence then
    reduceHandlePastForward record req
    return { record, action := .ignore }
  else if req.operation.sequence > record.nextSequence then
    let next ← reduceBufferFutureForward record req limits
    return { record := next, action := .buffer }
  else
    return { record := reduceStageForward record req, action := .apply }

/-! ## Commits -/

def reduceCommittableOperation (record : ReplicaRecord) (sequence : Nat) :
    Except Error WriteOperation :=
  if sequence > record.highestPreparedDurable then
    .error (.sentinel .sequenceMismatch
      s!"slot {record.assignment.slot} sequence {sequence} is not durably prepared")
  else
    match record.preparedEntries[sequence]? with
    | some operation => .ok operation
    | none => .error (.sentinel .sequenceMismatch
        s!"slot {record.assignment.slot} sequence {sequence} is not committable")

/-- Drop the oldest entries until no more than `limit` are left. -/
def evictOldest {α : Type} (limit : Nat) :
    List Nat → SequenceMap α → List Nat × SequenceMap α
  | [], entries => ([], entries)
  | oldest :: order, entries =>
    if (oldest :: order).length > limit then evictOldest limit order (entries.erase oldest)
    else (oldest :: order, entries)

def reduceRecordCommittedForward (record : ReplicaRecord) (req : ForwardWriteRequest)
    (retentionLimit : Nat) : ReplicaRecord :=
  let sequence := req.operation.sequence
  let retained := evictOldest retentionLimit (record.recentForwardOrder ++ [sequence])
    (record.recentCommittedForwards.insert sequence req)
  { record with
    recentForwardOrder := retained.1
    recentCommittedForwards := retained.2 }

def reduceRecordCommittedCommit (record : ReplicaRecord) (req : CommitWriteRequest)
    (retentionLimit : Nat) : ReplicaRecord :=
  let retained := evictOldest retentionLimit (record.recentCommitOrder ++ [req.sequence])
    (record.recentCommittedCommits.insert req.sequence req)
  { record with
    recentCommitOrder := retained.1
    recentCommittedCommits := retained.2 }

def reduceApplyCommittedSequence (record : ReplicaRecord) (operation : WriteOperation)
    (sequence retentionLimit : Nat) : ReplicaRecord :=
  let record : ReplicaRecord :=
    { record with
      highestCommittedSequence := sequence
      localDataPresent := true
      lastKnownState := if record.state = .recovered then record.lastKnownState else record.state }
  let record :=
    match record.stagedForwards[sequence]? with
    | some staged =>
      reduceRecordCommittedForward
        { record with stagedForwards := record.stagedForwards.erase sequence } staged retentionLimit
    | none => record
  reduceRemoveDirtyEntry
    { record with
      expectedCommitSources := record.expectedCommitSources.erase sequence
      pendingWrites := record.pendingWrites.erase sequence }
    operation.key sequence

def reduceRecordCommitApplied (record : ReplicaRecord) (req : CommitWriteRequest)
    (retentionLimit : Nat) : ReplicaRecord :=
  let record := reduceRecordCommittedCommit
    { record with bufferedCommits := record.bufferedCommits.erase req.sequence } req retentionLimit
  { record with
    pendingWrites := record.pendingWrites.modify req.sequence fun pending =>
      { pending with completed := true } }

end Craq.Storage
