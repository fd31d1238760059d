import Craq.Lib.Map
import Craq.Storage.Record

/-! # The backend in memory

A backend keeps, for each slot, the committed objects, the staged operations and the highest
sequences.  This one keeps them in maps.  Sequence numbers are unsigned 64-bit and wrap around.
-/

namespace Craq.Backend

open Storage (CommittedObject ObjectMetadata OperationKind Snapshot Error)

/-! ## Calls -/

structure StagedOperation where
  kind : OperationKind
  key : String
  value : String := ""
  metadata : ObjectMetadata
deriving DecidableEq, Repr

structure WriteOperation where
  slot : Int64
  sequence : UInt64
  kind : OperationKind
  key : String
  value : String
  metadata : ObjectMetadata
deriving DecidableEq

structure DurableCommit where
  operation : WriteOperation
  upstreamConfirmedSequence : UInt64
deriving DecidableEq

inductive Call where
  | createReplica (slot : Int64)
  | deleteReplica (slot : Int64)
  | snapshot (slot : Int64)
  | installSnapshot (slot : Int64) (snap : Snapshot)
  | setHighestCommittedSequence (slot : Int64) (sequence : UInt64)
  | applyCommitted (operation : WriteOperation) (persistedUpstream : Option UInt64)
  | applyCommittedBatch (commits : List DurableCommit)
  | stagePut (slot : Int64) (sequence : UInt64) (key value : String) (metadata : ObjectMetadata)
  | stageDelete (slot : Int64) (sequence : UInt64) (key : String) (metadata : ObjectMetadata)
  | commitSequence (slot : Int64) (sequence : UInt64)
  | getCommitted (slot : Int64) (key : String)
  | highestCommittedSequence (slot : Int64)
  | stagedSequences (slot : Int64)
  | highestUpstreamConfirmedSequence (slot : Int64)
  | setHighestUpstreamConfirmedSequence (slot : Int64) (sequence : UInt64)

inductive Reply where
  | done
  | snapshot (snap : Snapshot)
  | object (object : Option CommittedObject)
  | sequence (sequence : UInt64)
  | sequences (sequences : List UInt64)
deriving DecidableEq

def replies {S : Type} (step : S → Call → S × Except Error Reply) :
    S → List Call → List (Except Error Reply)
  | _, [] => []
  | state, call :: calls => (step state call).2 :: replies step (step state call).1 calls

/-- A call that changes everything it is asked to or fails and changes nothing. -/
def settle {S : Type} (state : S) : Except Error S → S × Except Error Reply
  | .ok next => (next, .ok .done)
  | .error err => (state, .error err)

def replicaExists (slot : Int64) : Error :=
  .sentinel .replicaExists s!"slot {slot}"

def unknownReplica (slot : Int64) : Error :=
  .sentinel .unknownReplica s!"slot {slot}"

def unexpectedSequence (slot : Int64) (expected got : UInt64) : Error :=
  .sentinel .sequenceMismatch s!"slot {slot} expected commit sequence {expected}, got {got}"

def alreadyStaged (slot : Int64) (sequence : UInt64) : Error :=
  .sentinel .sequenceMismatch s!"slot {slot} sequence {sequence} already staged"

def notStaged (slot : Int64) (sequence : UInt64) : Error :=
  .sentinel .sequenceMismatch s!"slot {slot} sequence {sequence} is not staged"

/-! ## Replicas -/

structure ReplicaData where
  committed : Snapshot := ∅
  staged : Std.ExtTreeMap UInt64 StagedOperation := ∅
  highestCommitted : UInt64 := 0
  highestUpstreamConfirmed : UInt64 := 0

namespace ReplicaData

variable (replica : ReplicaData)

def commit (sequence upstream : UInt64) (operation : StagedOperation) : ReplicaData where
  committed :=
    match operation.kind with
    | .put => replica.committed.insert operation.key ⟨operation.value, operation.metadata⟩
    | .delete => replica.committed.erase operation.key
  staged := replica.staged.erase sequence
  highestCommitted := sequence
  highestUpstreamConfirmed := upstream

end ReplicaData

def WriteOperation.staged (operation : WriteOperation) : StagedOperation where
  kind := operation.kind
  key := operation.key
  value := operation.value
  metadata := operation.metadata

abbrev InMemoryBackend := Std.ExtTreeMap Int64 ReplicaData

namespace InMemoryBackend

variable (backend : InMemoryBackend)

def replica (slot : Int64) : Except Error ReplicaData :=
  match backend[slot]? with
  | some replica => .ok replica
  | none => .error (unknownReplica slot)

def highest (slot : Int64) : Option UInt64 :=
  backend[slot]?.map (·.highestCommitted)

def createReplica (slot : Int64) : Except Error InMemoryBackend :=
  match backend[slot]? with
  | some _ => .error (replicaExists slot)
  | none => .ok (backend.insert slot {})

def deleteReplica (slot : Int64) : Except Error InMemoryBackend := do
  let _ ← backend.replica slot
  return backend.erase slot

def installSnapshot (slot : Int64) (snap : Snapshot) : Except Error InMemoryBackend := do
  let replica ← backend.replica slot
  return backend.insert slot { replica with committed := snap, staged := ∅ }

def setHighestCommittedSequence (slot : Int64) (sequence : UInt64) :
    Except Error InMemoryBackend := do
  let replica ← backend.replica slot
  return backend.insert slot
    { replica with
      highestCommitted := sequence
      highestUpstreamConfirmed := sequence
      staged := ∅ }

def setHighestUpstreamConfirmedSequence (slot : Int64) (sequence : UInt64) :
    Except Error InMemoryBackend := do
  let replica ← backend.replica slot
  return backend.insert slot { replica with highestUpstreamConfirmed := sequence }

def applyCommit (commit : DurableCommit) : Except Error InMemoryBackend := do
  let operation := commit.operation
  let replica ← backend.replica operation.slot
  if operation.sequence ≠ replica.highestCommitted + 1 then
    .error (unexpectedSequence operation.slot (replica.highestCommitted + 1) operation.sequence)
  else
    .ok (backend.insert operation.slot
      (replica.commit operation.sequence commit.upstreamConfirmedSequence operation.staged))

/-- The commits before the one that fails stay applied. -/
def applyCommittedBatch : InMemoryBackend → List DurableCommit →
    InMemoryBackend × Except Error Reply
  | backend, [] => (backend, .ok .done)
  | backend, commit :: commits =>
    match backend.applyCommit commit with
    | .error err => (backend, .error err)
    | .ok next => next.applyCommittedBatch commits

def stageOperation (slot : Int64) (sequence : UInt64) (operation : StagedOperation) :
    Except Error InMemoryBackend := do
  let replica ← backend.replica slot
  match replica.staged[sequence]? with
  | some _ => .error (alreadyStaged slot sequence)
  | none =>
    .ok (backend.insert slot
      { replica with staged := replica.staged.insert sequence operation })

def commitSequence (slot : Int64) (sequence : UInt64) : Except Error InMemoryBackend := do
  let replica ← backend.replica slot
  if sequence ≠ replica.highestCommitted + 1 then
    .error (unexpectedSequence slot (replica.highestCommitted + 1) sequence)
  else
    match replica.staged[sequence]? with
    | none => .error (notStaged slot sequence)
    | some operation => .ok (backend.insert slot (replica.commit sequence sequence operation))

def sortedSequences (sequences : List UInt64) : List UInt64 :=
  sequences.mergeSort fun first second => decide (first ≤ second)

def read (slot : Int64) (reply : ReplicaData → Reply) : InMemoryBackend × Except Error Reply :=
  (backend, (backend.replica slot).map reply)

def step (backend : InMemoryBackend) : Call → InMemoryBackend × Except Error Reply
  | .createReplica slot => settle backend (backend.createReplica slot)
  | .deleteReplica slot => settle backend (backend.deleteReplica slot)
  | .snapshot slot => backend.read slot fun replica => .snapshot replica.committed
  | .installSnapshot slot snap => settle backend (backend.installSnapshot slot snap)
  | .setHighestCommittedSequence slot sequence =>
    settle backend (backend.setHighestCommittedSequence slot sequence)
  | .applyCommitted operation persistedUpstream =>
    backend.applyCommittedBatch [⟨operation, persistedUpstream.getD operation.sequence⟩]
  | .applyCommittedBatch commits => backend.applyCommittedBatch commits
  | .stagePut slot sequence key value metadata =>
    settle backend (backend.stageOperation slot sequence ⟨.put, key, value, metadata⟩)
  | .stageDelete slot sequence key metadata =>
    settle backend (backend.stageOperation slot sequence ⟨.delete, key, "", metadata⟩)
  | .commitSequence slot sequence => settle backend (backend.commitSequence slot sequence)
  | .getCommitted slot key => backend.read slot fun replica => .object replica.committed[key]?
  | .highestCommittedSequence slot =>
    backend.read slot fun replica => .sequence replica.highestCommitted
  | .stagedSequences slot =>
    backend.read slot fun replica => .sequences (sortedSequences replica.staged.keys)
  | .highestUpstreamConfirmedSequence slot =>
    backend.read slot fun replica => .sequence replica.highestUpstreamConfirmed
  | .setHighestUpstreamConfirmedSequence slot sequence =>
    settle backend (backend.setHighestUpstreamConfirmedSequence slot sequence)

end InMemoryBackend

end Craq.Backend
