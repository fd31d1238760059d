import Craq.Storage.Journal

/-! # The owner of a slot on a node

One goroutine owns the replica of a slot.  It takes one event at a time; journal writes, calls to
other nodes and the materializer run beside it and come back as completions.  The calls the owner
makes within one event are kept as a stack of tasks, so that the journal may move between any two
of them.
-/

namespace Craq.Storage

/-! ## State -/

structure NodeConfig where
  nodeID : String
  slot : Nat
  maxBufferedReplicaMessagesPerSlot : Nat := 64
  maxBufferedReplicaMessagesPerNode : Nat := 0
  maxInFlightClientWritesPerNode : Nat := 0
  maxInFlightClientWritesPerSlot : Nat := 0
  maxConcurrentCatchups : Nat := 0
deriving DecidableEq, Repr

/-- What a node shares between its slots: the counters that the others move as well, and whether its
local state store takes a write. -/
structure NodeLoad where
  bufferedReplicaMessages : Nat := 0
  inFlightClientWrites : Nat := 0
  inFlightCatchups : Nat := 0
  localWriteFails : Bool := false
deriving DecidableEq, Repr

structure SlotRuntime where
  present : Bool := false
  record : ReplicaRecord := {}
  committedMetadata : Std.ExtTreeMap String (Option ObjectMetadata) := ∅
  commitEffectInFlight : Bool := false
  commitEffectSequence : Nat := 0
  highestWatermarkSent : Nat := 0
  upstreamCommitInFlight : Bool := false
  preparedReplayRetryScheduled : Bool := false
  catchupSyncInFlight : Bool := false
  drainScheduled : Bool := false
  progressionGap : Bool := false
  progressionGapSequence : Nat := 0
deriving DecidableEq

/-- What a prepare-and-forward pipeline reports to when it ends. -/
inductive PipelineEnd where
  | client (waiter : Nat)
  | forward
deriving DecidableEq, Repr

structure PrepareForwardPipeline where
  operation : WriteOperation
  onComplete : PipelineEnd
  prepareDone : Bool := false
  forwardDone : Bool := false
  finished : Bool := false
deriving DecidableEq, Repr

/-- What follows once a prepare is durable or has failed. -/
inductive AfterPrepare where
  | single (waiter : Nat)
  | tail
  | pipeline (index : Nat)
deriving DecidableEq, Repr

-- `after` is `none` once the owner that submitted the intent is gone.
structure PrepareIntent where
  prepare : DurableCommit
  after : Option AfterPrepare
deriving DecidableEq, Repr

structure SequenceIntent where
  assignment : ReplicaAssignment
  sequence : Nat
  live : Bool := true
deriving DecidableEq, Repr

inductive Completion where
  | prepared (operation : WriteOperation) (after : AfterPrepare) (err : Option Error)
  | headCommitRange (sequence : Nat) (err : Option Error)
  | drain
  | replayRetry
  | materialized (highest : Nat)
deriving DecidableEq, Repr

structure PredecessorSyncPlan where
  sourceNodeID : String
  sourceTarget : String
  chainVersion : Nat
  currentHighest : Nat
deriving DecidableEq, Repr

inductive RemoteCall where
  | forward (pipeline : Nat) (assignment : ReplicaAssignment)
  | replay (sequence : Nat) (assignment : ReplicaAssignment)
  | commitAdvance (req : CommitAdvanceRequest) (predecessorNodeID predecessorTarget : String)
  | catchup (plan : PredecessorSyncPlan) (reply : Option (Snapshot × Nat))
deriving DecidableEq

inductive Message where
  | forward (target : String) (req : ForwardWriteRequest)
  | commitAdvance (target : String) (req : CommitAdvanceRequest)
deriving DecidableEq, Repr

inductive ReadConsistency where
  | linearizable
  | localCommitted
deriving DecidableEq, Repr

structure ClientGetRequest where
  key : String
  expectedChainVersion : Nat
  consistency : ReadConsistency := .linearizable
deriving DecidableEq, Repr

structure ReadResult where
  chainVersion : Nat
  object : Option CommittedObject
deriving DecidableEq, Repr

/-- A read that waits for the committed sequence of the tail. -/
structure PendingRead where
  call : Nat
  req : ClientGetRequest
  assignment : ReplicaAssignment
  object : Option CommittedObject
  dirtyEntries : List DirtyReadEntry
deriving DecidableEq, Repr

inductive SnapshotUse where
  | join (assignment : ReplicaAssignment)
  | activation (plan : PredecessorSyncPlan)
  | recover (assignment : ReplicaAssignment)
deriving DecidableEq, Repr

inductive TailUse where
  | read (read : PendingRead)
  | resume (assignment : ReplicaAssignment)
deriving DecidableEq, Repr

inductive Task where
  | submitCommitWatermarkReady (record : ReplicaRecord)
  | applyCommitWatermark (sequence : Nat)
  | ensureUpstreamCommitReplay
  | drainReadyBuffered
  | drainAfterReconcile
  | drainAfterAdvance
  | advanceAcceptedCommitProgress
  | gapRepaired (record : ReplicaRecord)
  | advanceAfterGapCheck (record : ReplicaRecord)
  | afterPrepare (after : AfterPrepare) (err : Option Error)
  | scheduleDrainReadyBuffered
  | forwardWrite (req : ForwardWriteRequest)
  | commitAdvance (req : CommitAdvanceRequest)
  | replayPreparedForwards
  | awaitSnapshot (use : SnapshotUse) (target : String) (reply : Option (Snapshot × Nat))
  | awaitTail (use : TailUse) (target : String) (reply : Option Nat)
deriving DecidableEq

/-- A client write and its conditions.  `operation` is what was sequenced for it; `outcome` is set
once, by the commit of the operation or by an error. -/
structure Waiter where
  conditions : WriteConditions := {}
  operation : Option WriteOperation := none
  result : CommitResult := {}
  outcome : Option (Option Error) := none
deriving DecidableEq, Repr

inductive Activation where
  | idle
  | preparing
  | synced
  | reported
deriving DecidableEq, Repr

structure NodeSlot where
  config : NodeConfig
  load : NodeLoad := {}
  runtime : SlotRuntime := {}
  tasks : List Task := []
  -- The replica is gone; the owner ends once it has taken what was already completed.
  closing : Bool := false
  pipelines : List PrepareForwardPipeline := []
  activation : Activation := .idle
  -- What survives a crash.
  backend : Option ReplicaData := none
  localState : Option PersistedReplica := none
  journal : List JournalRecord := []
  -- The journal engine.
  highWater : Nat := 0
  prepares : List PrepareIntent := []
  watermarks : List SequenceIntent := []
  confirms : List SequenceIntent := []
  completions : List Completion := []
  -- The materializer.
  submitted : List DurableCommit := []
  materializing : List DurableCommit := []
  suppressed : Bool := false
  calls : List RemoteCall := []
  outbox : List Message := []
  -- What the clients have been told.
  waiters : SequenceMap Waiter := ∅
  reads : SequenceMap (Except Error ReadResult) := ∅

namespace NodeSlot

variable (n : NodeSlot)

def slot : Nat :=
  n.config.slot

def record : ReplicaRecord :=
  n.runtime.record

def bufferLimits : BufferLimits where
  perSlotLimit := n.config.maxBufferedReplicaMessagesPerSlot
  perNodeLimit := n.config.maxBufferedReplicaMessagesPerNode
  nodeBufferedNow := n.load.bufferedReplicaMessages

def andThen (tasks : List Task) : NodeSlot :=
  { n with tasks := tasks ++ n.tasks }

def send (message : Message) : NodeSlot :=
  { n with outbox := n.outbox ++ [message] }

/-- The commit of a write and its errors race: the first one counts. -/
def completeWaiter (waiter : Nat) (err : Option Error) : NodeSlot :=
  { n with
    waiters := n.waiters.modify waiter fun state =>
      { state with outcome := some (state.outcome.getD err) } }

def setRecord (record : ReplicaRecord) : NodeSlot :=
  { n with
    runtime := { n.runtime with present := true, record }
    suppressed := n.suppressed && n.runtime.present }

def removeRecord : NodeSlot :=
  { n with
    runtime :=
      { n.runtime with
        present := false
        record := {}
        committedMetadata := ∅
        preparedReplayRetryScheduled := false
        progressionGap := false
        progressionGapSequence := 0 } }

def persistReplica (record : ReplicaRecord) : NodeSlot :=
  { n with localState := some (persistedReplica record) }

-- How a handler ends that has published the record.  A write that fails leaves it published and the
-- rest undone; a crash before the write is one that fails, and a restart.
def persistThen (record : ReplicaRecord) (rest : List Task) : NodeSlot :=
  if n.load.localWriteFails then n else (n.persistReplica record).andThen rest

def allowSlot : NodeSlot :=
  { n with suppressed := false }

def dropSlot : NodeSlot :=
  { n with highWater := 0, materializing := [], suppressed := true }

/-! ## Committed metadata -/

def rememberCommittedMetadata (cache : Std.ExtTreeMap String (Option ObjectMetadata))
    (key : String) (metadata : Option ObjectMetadata) :
    Std.ExtTreeMap String (Option ObjectMetadata) :=
  if key = "" then cache else cache.insert key metadata

def rememberCommittedOperation (cache : Std.ExtTreeMap String (Option ObjectMetadata))
    (operation : WriteOperation) : Std.ExtTreeMap String (Option ObjectMetadata) :=
  rememberCommittedMetadata cache operation.key (operation.object?.map (·.metadata))

def backendUnknown : Error :=
  .wrapped "err in n.backend.GetCommitted" (.sentinel .unknownReplica s!"slot {n.slot}")

def getCommitted (key : String) : Except Error (Option CommittedObject) :=
  match n.backend with
  | some data => .ok data.committed[key]?
  | none => .error n.backendUnknown

def committedObject (key : String) : Except Error (Option CommittedObject) :=
  match recordCommittedOverlayObject n.record key with
  | some object => .ok object
  | none => n.getCommitted key

def committedMetadataState (key : String) : Except Error (Option ObjectMetadata) :=
  match recordCommittedOverlayObject n.record key with
  | some object => .ok (object.map (·.metadata))
  | none =>
    match n.runtime.committedMetadata[key]? with
    | some metadata => .ok metadata
    | none => (n.getCommitted key).map (Option.map (·.metadata))

end NodeSlot

end Craq.Storage
