import Craq.Storage.Assignment

/-! # The state of one replica of a slot

Operations, the messages that carry them, and the record a slot owner keeps of its replica.  A
missing map entry reads as the zero value of its type, as in the source.
-/

namespace Craq.Storage

/-! ## Errors -/

inductive Sentinel where
  | invalidConfig
  | replicaExists
  | unknownReplica
  | invalidTransition
  | writeRejected
  | sequenceMismatch
  | peerMismatch
  | stateMismatch
  | protocolConflict
  | writeTimeout
  | conditionFailed
  | canceled
  | deadlineExceeded
deriving DecidableEq, Repr

inductive BackpressureResource where
  | clientWrite
  | replicaBuffer
  | catchup
deriving DecidableEq, Repr

inductive RoutingMismatchReason where
  | unknownSlot
  | wrongVersion
  | wrongRole
  | inactiveReplica
deriving DecidableEq, Repr

structure RoutingMismatchError where
  slot : Nat
  expectedChainVersion : Nat
  currentChainVersion : Nat
  currentRole : ReplicaRole
  currentState : ReplicaState
  reason : RoutingMismatchReason
deriving DecidableEq, Repr

-- `fault` is an error of the transport or of the disk that wraps none of the sentinels.
inductive Error where
  | sentinel (cause : Sentinel) (detail : String)
  | backpressure (resource : BackpressureResource) (slot : Int) (current limit : Nat)
  | routingMismatch (mismatch : RoutingMismatchError)
  | readDependency (slot expectedChainVersion : Nat) (tailNodeID : String) (cause : Error)
  | wrapped (context : String) (cause : Error)
  | fault (text : String)
deriving DecidableEq, Repr

def Error.is : Error → Sentinel → Bool
  | .sentinel cause _, target => cause = target
  | .readDependency _ _ _ cause, target => cause.is target
  | .wrapped _ cause, target => cause.is target
  | .backpressure .., _ => false
  | .routingMismatch _, _ => false
  | .fault _, _ => false

def isAmbiguousWriteCause (err : Error) : Bool :=
  err.is .writeTimeout || err.is .deadlineExceeded || err.is .canceled

/-! ## Operations and messages -/

structure ObjectMetadata where
  version : Nat := 0
  createdAt : Int := 0
  updatedAt : Int := 0
deriving DecidableEq, Repr

structure CommittedObject where
  value : String := ""
  metadata : ObjectMetadata := {}
deriving DecidableEq, Repr

abbrev Snapshot := Std.ExtTreeMap String CommittedObject

inductive OperationKind where
  | put
  | delete
deriving DecidableEq, Repr

structure WriteOperation where
  slot : Nat
  sequence : Nat
  kind : OperationKind
  key : String
  value : String
  metadata : ObjectMetadata
deriving DecidableEq, Repr

structure ForwardWriteRequest where
  operation : WriteOperation
  fromNodeID : String
  chainVersion : Nat
deriving DecidableEq, Repr

structure CommitWriteRequest where
  slot : Nat
  sequence : Nat
  fromNodeID : String
  chainVersion : Nat
deriving DecidableEq, Repr

structure CommitAdvanceRequest where
  slot : Nat
  committedThrough : Nat
  fromNodeID : String
  chainVersion : Nat
deriving DecidableEq, Repr

structure CommitResult where
  slot : Nat := 0
  sequence : Nat := 0
  applied : Bool := false
  metadata : Option ObjectMetadata := none
deriving DecidableEq, Repr

/-! ## Write conditions -/

inductive ComparisonOperator where
  | equal
  | lessThan
  | lessThanOrEqual
  | greaterThan
  | greaterThanOrEqual
deriving DecidableEq, Repr

structure VersionComparison where
  operator : ComparisonOperator
  value : Nat
deriving DecidableEq, Repr

structure TimeComparison where
  operator : ComparisonOperator
  value : Int
deriving DecidableEq, Repr

structure WriteConditions where
  mustExist : Option Bool := none
  version : Option VersionComparison := none
  updatedAt : Option TimeComparison := none
deriving DecidableEq, Repr

def compareUint64 (current : Nat) (comparison : VersionComparison) : Bool :=
  match comparison.operator with
  | .equal => current = comparison.value
  | .lessThan => current < comparison.value
  | .lessThanOrEqual => current ≤ comparison.value
  | .greaterThan => current > comparison.value
  | .greaterThanOrEqual => current ≥ comparison.value

def compareTime (current : Int) (comparison : TimeComparison) : Bool :=
  match comparison.operator with
  | .equal => current = comparison.value
  | .lessThan => current < comparison.value
  | .lessThanOrEqual => current ≤ comparison.value
  | .greaterThan => current > comparison.value
  | .greaterThanOrEqual => current ≥ comparison.value

def conditionsHold (conditions : WriteConditions) (current : Option ObjectMetadata) : Bool :=
  conditions.mustExist.all (· == current.isSome) &&
    conditions.version.all (fun comparison =>
      current.any fun metadata => compareUint64 metadata.version comparison) &&
    conditions.updatedAt.all (fun comparison =>
      current.any fun metadata => compareTime metadata.updatedAt comparison)

def evaluateWriteConditions (conditions : WriteConditions) (current : Option ObjectMetadata) :
    Except Error Unit :=
  if conditionsHold conditions current then .ok ()
  else .error (.sentinel .conditionFailed "")

def nextObjectMetadata (now : Int) : Option ObjectMetadata → ObjectMetadata
  | none => { version := 1, createdAt := now, updatedAt := now }
  | some current =>
    { version := current.version + 1, createdAt := current.createdAt, updatedAt := now }

/-! ## The replica record -/

structure PersistedReplica where
  assignment : ReplicaAssignment
  lastKnownState : ReplicaState
  highestCommittedSequence : Nat
  highestUpstreamConfirmedSequence : Nat
  hasCommittedData : Bool
deriving DecidableEq, Repr

structure ExpectedCommitSource where
  fromNodeID : String
  chainVersion : Nat
deriving DecidableEq, Repr

structure DirtyReadEntry where
  sequence : Nat
  operation : WriteOperation
deriving DecidableEq, Repr

-- A waiter is known by the number of the client call that waits on it.
structure PendingWrite where
  completed : Bool := false
  result : CommitResult
  operation : Option WriteOperation
  waiter : Option Nat := none
deriving DecidableEq, Repr

abbrev SequenceMap (α : Type) := Std.ExtTreeMap Nat α

structure ReplicaRecord where
  assignment : ReplicaAssignment := {}
  state : ReplicaState := .unset
  nextSequence : Nat := 0
  highestPreparedDurable : Nat := 0
  highestCommitTokenReceived : Nat := 0
  highestCommittedSequence : Nat := 0
  materializedCommittedSequence : Nat := 0
  highestUpstreamConfirmedSequence : Nat := 0
  localDataPresent : Bool := false
  lastKnownState : ReplicaState := .unset
  pendingWrites : SequenceMap PendingWrite := ∅
  preparedEntries : SequenceMap WriteOperation := ∅
  expectedCommitSources : SequenceMap ExpectedCommitSource := ∅
  stagedForwards : SequenceMap ForwardWriteRequest := ∅
  bufferedForwards : SequenceMap ForwardWriteRequest := ∅
  bufferedCommits : SequenceMap CommitWriteRequest := ∅
  recentCommittedForwards : SequenceMap ForwardWriteRequest := ∅
  recentCommittedCommits : SequenceMap CommitWriteRequest := ∅
  recentForwardOrder : List Nat := []
  recentCommitOrder : List Nat := []
  dirtyByKey : Std.ExtTreeMap String (List DirtyReadEntry) := ∅
  committedOverlay : Std.ExtTreeMap String DirtyReadEntry := ∅
  inFlightClientWrites : Nat := 0
deriving DecidableEq

def normalizeUpstreamConfirmedSequence (record : ReplicaRecord) : Nat :=
  if record.assignment.role = .head ∨ record.assignment.role = .single ∨
      record.assignment.peers.predecessorNodeID = "" then
    record.highestCommittedSequence
  else if record.highestUpstreamConfirmedSequence > record.highestCommittedSequence then
    record.highestCommittedSequence
  else record.highestUpstreamConfirmedSequence

def persistedReplica (record : ReplicaRecord) : PersistedReplica where
  assignment := record.assignment
  lastKnownState := record.lastKnownState
  highestCommittedSequence := record.highestCommittedSequence
  highestUpstreamConfirmedSequence := normalizeUpstreamConfirmedSequence record
  hasCommittedData := record.localDataPresent

def peerTransportTarget (target fallbackNodeID : String) : String :=
  if target ≠ "" then target else fallbackNodeID

/-! ## The overlay of committed operations the backend does not hold yet -/

def recordWithCommittedOverlay (record : ReplicaRecord) (operation : WriteOperation) :
    ReplicaRecord :=
  { record with
    committedOverlay := record.committedOverlay.insert operation.key
      { sequence := operation.sequence, operation } }

def recordPruneMaterializedOverlay (record : ReplicaRecord) (highestMaterialized : Nat) :
    ReplicaRecord :=
  { record with
    materializedCommittedSequence :=
      min (max record.materializedCommittedSequence highestMaterialized)
        record.highestCommittedSequence
    preparedEntries := record.preparedEntries.filter fun sequence _ =>
      !decide (sequence ≤ highestMaterialized)
    committedOverlay := record.committedOverlay.filter fun _ entry =>
      !decide (entry.sequence ≤ highestMaterialized) }

def WriteOperation.object? (operation : WriteOperation) : Option CommittedObject :=
  match operation.kind with
  | .put => some { value := operation.value, metadata := operation.metadata }
  | .delete => none

-- The outer option says whether the overlay has the key, the inner one whether it was found.
def recordCommittedOverlayObject (record : ReplicaRecord) (key : String) :
    Option (Option CommittedObject) :=
  record.committedOverlay[key]?.map fun entry => entry.operation.object?

def Snapshot.applyOperation (snapshot : Snapshot) (operation : WriteOperation) : Snapshot :=
  match operation.kind with
  | .put =>
    snapshot.insert operation.key { value := operation.value, metadata := operation.metadata }
  | .delete => snapshot.erase operation.key

def recordMergedCommittedSnapshot (record : ReplicaRecord) (base : Snapshot) : Snapshot :=
  record.committedOverlay.toList.foldl
    (fun merged item => match item.2.operation.kind with
      | .put => merged.insert item.1
          { value := item.2.operation.value, metadata := item.2.operation.metadata }
      | .delete => merged.erase item.1)
    base

end Craq.Storage
