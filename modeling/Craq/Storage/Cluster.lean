import Craq.Storage.Events

/-! # A slot across its nodes

Every node runs one owner of the slot beside its journal and its materializer.  Messages between
nodes may be lost, repeated and reordered; a call to another node may fail at any time.
-/

namespace Craq.Storage

/-! ## One node -/

inductive Command where
  | addReplicaAsTail (assignment : ReplicaAssignment)
  | prepareActivation
  | activateReplicaReady
  | markReplicaLeaving
  | removeReplica
  | updateChainPeers (assignment : ReplicaAssignment)
  | resumeRecoveredReplica (assignment : ReplicaAssignment)
  | recoverReplica (assignment : ReplicaAssignment) (sourceNodeID : String)
  | dropRecoveredReplica
deriving DecidableEq, Repr

inductive NodeEvent where
  -- An idle owner takes an event.
  | submitWrite (req : SubmitRequest)
  | clientGet (call : Nat) (req : ClientGetRequest)
  | releaseClientWrite
  | drain
  | completion (index : Nat)
  | callReturned (index : Nat) (err : Option Error)
  | command (command : Command)
  | evict
  -- A busy owner goes on.
  | task
  | replied (succeeded : Bool)
  -- The journal, the materializer, the other slots and the coordinator.
  | flushPrepare (err : Option Error)
  | flushCommitRange (chainVersion count : Nat) (err : Option Error)
  | flushConfirm (chainVersion count : Nat) (err : Option Error)
  | acceptSubmitted (count : Nat)
  | materialize
  | setLoad (load : NodeLoad)
  | readyReported (accepted : Bool)
deriving DecidableEq

namespace NodeSlot

variable (n : NodeSlot)

def runCommand : Command → NodeSlot
  | .addReplicaAsTail assignment => n.addReplicaAsTail assignment
  | .prepareActivation => n.prepareActivation
  | .activateReplicaReady => n.activateReplicaReady
  | .markReplicaLeaving => n.markReplicaLeaving
  | .removeReplica => n.removeReplica
  | .updateChainPeers assignment => n.updateChainPeers assignment
  | .resumeRecoveredReplica assignment => n.resumeRecoveredReplica assignment
  | .recoverReplica assignment sourceNodeID => n.recoverReplica assignment sourceNodeID
  | .dropRecoveredReplica => n.dropRecoveredReplica

def runCompletion : Completion → NodeSlot
  | .prepared operation after err => n.prepareReturned operation after err
  | .headCommitRange sequence err => n.headCommitRangeReturned sequence err
  | .drain =>
    { n with runtime := { n.runtime with drainScheduled := false } }.andThen [.drainReadyBuffered]
  | .replayRetry =>
    { n with runtime := { n.runtime with preparedReplayRetryScheduled := false } }.andThen
      [.replayPreparedForwards]
  | .materialized highest => n.markMaterialized highest

def callReturned (err : Option Error) : RemoteCall → NodeSlot
  | .forward pipeline assignment => n.forwardReturned pipeline assignment err
  | .replay sequence assignment => n.replayReturned sequence assignment err
  | .commitAdvance req predecessorNodeID predecessorTarget =>
    n.commitAdvanceReturned req predecessorNodeID predecessorTarget err
  | .catchup plan reply => n.catchupReturned plan (if err.isSome then none else reply)

/-- A task of the owner; the tasks that wait for another node are left to `runReply`. -/
def runTask : Task → Option NodeSlot
  | .submitCommitWatermarkReady record => some (n.submitCommitWatermarkReady record)
  | .applyCommitWatermark sequence => some (n.applyCommitWatermark sequence)
  | .ensureUpstreamCommitReplay => some n.ensureUpstreamCommitReplay
  | .drainReadyBuffered => some n.drainReadyBuffered
  | .drainAfterReconcile => some n.drainAfterReconcile
  | .drainAfterAdvance => some n.drainAfterAdvance
  | .advanceAcceptedCommitProgress => some n.advanceAcceptedCommitProgress
  | .gapRepaired record => some (n.gapRepaired record)
  | .advanceAfterGapCheck record => some (n.advanceAfterGapCheck record)
  | .afterPrepare after err => some (n.afterPrepare after err)
  | .scheduleDrainReadyBuffered => some n.scheduleDrainReadyBuffered
  | .forwardWrite req => some (n.forwardWriteReconciled req)
  | .commitAdvance req => some (n.commitAdvanceReconciled req)
  | .replayPreparedForwards => some n.replayPreparedForwards
  | .awaitSnapshot .. => none
  | .awaitTail .. => none

def snapshotReplied (use : SnapshotUse) (reply : Option (Snapshot × Nat)) : NodeSlot :=
  match use with
  | .join assignment => n.joinFetched assignment reply
  | .activation plan => n.activationFetched plan reply
  | .recover assignment => n.recoverFetched assignment reply

def tailReplied (use : TailUse) (reply : Option Nat) : NodeSlot :=
  match use with
  | .read read => n.finishRead read reply
  | .resume assignment => n.resumeFetched assignment reply

/-- A task that waited goes on with the reply, or with the error of the call. -/
def runReply (succeeded : Bool) : Task → Option NodeSlot
  | .awaitSnapshot use _ reply =>
    if succeeded then reply.map fun reply => n.snapshotReplied use (some reply)
    else some (n.snapshotReplied use none)
  | .awaitTail use _ reply =>
    if succeeded then reply.map fun reply => n.tailReplied use (some reply)
    else some (n.tailReplied use none)
  | _ => none

/-! ### The journal -/

def flushPrepare (err : Option Error) : Option NodeSlot :=
  match n.prepares with
  | [] => none
  | intent :: rest =>
    let completion := intent.after.toList.map fun after =>
      Completion.prepared intent.prepare.operation after err
    some
      { n with
        prepares := rest
        journal :=
          if err.isSome then n.journal else n.journal ++ [journalRecordFromPrepare intent.prepare]
        completions := n.completions ++ completion }

def takeIntents (chainVersion : Nat) : Nat → List SequenceIntent →
    List SequenceIntent × List SequenceIntent
  | 0, intents => ([], intents)
  | _, [] => ([], [])
  | count + 1, intent :: intents =>
    if intent.assignment.chainVersion = chainVersion then
      let taken := takeIntents chainVersion count intents
      (intent :: taken.1, taken.2)
    else
      let taken := takeIntents chainVersion (count + 1) intents
      (taken.1, intent :: taken.2)

/-- The intent the journal keeps of those it coalesces: the first of the highest sequence. -/
def highestIntent (first : SequenceIntent) (rest : List SequenceIntent) : SequenceIntent :=
  rest.foldl (fun best intent => if intent.sequence > best.sequence then intent else best) first

def flushCommitRange (chainVersion count : Nat) (err : Option Error) : Option NodeSlot :=
  match takeIntents chainVersion count n.watermarks with
  | ([], _) => none
  | (first :: taken, rest) =>
    let highest := highestIntent first taken
    let completions := ((first :: taken).filter (·.live)).map fun intent =>
      Completion.headCommitRange intent.sequence err
    if err.isSome then
      some { n with watermarks := rest, completions := n.completions ++ completions }
    else
      some
        { n with
          watermarks := rest
          journal := n.journal ++
            [journalRecordFromHeadCommitRange highest.assignment highest.sequence]
          highWater := max n.highWater highest.sequence
          completions := n.completions ++ completions }

def flushConfirm (chainVersion count : Nat) (err : Option Error) : Option NodeSlot :=
  match takeIntents chainVersion count n.confirms with
  | ([], _) => none
  | (first :: taken, rest) =>
    let highest := highestIntent first taken
    some
      { n with
        confirms := rest
        journal :=
          if err.isSome then n.journal
          else n.journal ++ [journalRecordFromUpstreamConfirm highest.assignment highest.sequence] }

/-! ### The materializer -/

def acceptSubmitted (count : Nat) : NodeSlot :=
  { n with
    submitted := n.submitted.drop count
    materializing :=
      if n.suppressed then n.materializing else n.materializing ++ n.submitted.take count }

def shouldMaterializeCommit (commit : DurableCommit) : Bool :=
  n.runtime.present &&
    decide (n.record.assignment.chainVersion = commit.persisted.assignment.chainVersion)

def highestOperation (commits : List DurableCommit) : Nat :=
  commits.foldl (fun highest commit => max highest commit.operation.sequence) 0

/-- One flush of the materializer.  A batch the backend refuses stays pending. -/
def materialize : NodeSlot :=
  let filtered := n.materializing.filter fun commit =>
    !n.suppressed && n.shouldMaterializeCommit commit
  if filtered = [] then { n with materializing := [] }
  else
    match n.backend with
    | none => n
    | some data =>
      match applyMaterializedBatch data filtered with
      | (data, some _) => { n with backend := some data }
      | (data, none) =>
        { n with
          backend := some data
          materializing := []
          completions := n.completions ++ [.materialized (highestOperation filtered)] }

/-! ### Steps -/

/-- A completion, which an owner takes when it has finished the event before. -/
def whenIdle (next : NodeSlot) : Option NodeSlot :=
  if n.tasks = [] then some next else none

/-- Any other event; none is taken once the replica is gone. -/
def whenOpen (next : NodeSlot) : Option NodeSlot :=
  if n.closing then none else n.whenIdle next

-- No two client calls have the same number.
def step : NodeEvent → Option NodeSlot
  | .submitWrite req => if n.waiters.contains req.call then none else n.whenOpen (n.submitWrite req)
  | .clientGet call req =>
    if n.reads.contains call then none else n.whenOpen (n.handleClientGet call req)
  | .releaseClientWrite => n.whenOpen n.releaseClientWrite
  | .drain => n.whenOpen (n.andThen [.drainReadyBuffered])
  | .completion index => do
    let completion ← n.completions[index]?
    n.whenIdle ({ n with completions := n.completions.eraseIdx index }.runCompletion completion)
  | .callReturned index err => do
    let call ← n.calls[index]?
    n.whenIdle ({ n with calls := n.calls.eraseIdx index }.callReturned err call)
  | .command command => n.whenOpen (n.runCommand command)
  | .evict => if n.closing then n.whenIdle n.evictSlotOwner else none
  | .task =>
    match n.tasks with
    | [] => none
    | task :: rest => { n with tasks := rest }.runTask task
  | .replied succeeded =>
    match n.tasks with
    | [] => none
    | task :: rest => { n with tasks := rest }.runReply succeeded task
  | .flushPrepare err => n.flushPrepare err
  | .flushCommitRange chainVersion count err => n.flushCommitRange chainVersion count err
  | .flushConfirm chainVersion count err => n.flushConfirm chainVersion count err
  | .acceptSubmitted count => some (n.acceptSubmitted count)
  | .materialize => some n.materialize
  | .setLoad load => some { n with load }
  | .readyReported accepted => some (n.readyReported accepted)

/-- The operations the replica has committed and the backend does not hold yet. -/
def unmaterialized : List WriteOperation :=
  preparedOperations n.record n.record.materializedCommittedSequence
    n.record.highestCommittedSequence

/-! ### What a node tells the others -/

def handleCommittedSnapshotWithSequence : Option (Snapshot × Nat) :=
  n.backend.map fun data =>
    if n.runtime.present then
      (recordMergedCommittedSnapshot n.record data.committed, n.record.highestCommittedSequence)
    else (data.committed, 0)

def publishedCommittedSequence : Option Nat :=
  if n.runtime.present then some n.record.highestCommittedSequence else none

end NodeSlot

/-! ## All nodes -/

structure Cluster where
  nodes : String → NodeSlot
  network : List Message := []
  -- Every operation a replica has committed, in the order of the commits.
  commits : List (String × WriteOperation) := []

inductive Action where
  | node (id : String) (event : NodeEvent)
  | deliver (index : Nat)
  | lose (index : Nat)
  | serveSnapshot (id : String)
  | serveCatchup (id : String) (index : Nat)
  | serveTail (id : String)
  | restart (id : String)
deriving DecidableEq

namespace Cluster

variable (resolve : String → String) (cluster : Cluster)

/-- The node has moved: its messages are on their way and its commits are on record. -/
def move (id : String) (n : NodeSlot) : Cluster where
  nodes := Function.update cluster.nodes id { n with outbox := [] }
  network := cluster.network ++ n.outbox
  commits := cluster.commits ++
    (n.unmaterialized.filter fun operation =>
      operation ∉ (cluster.nodes id).unmaterialized).map fun operation => (id, operation)

def target : Message → String
  | .forward target _ => resolve target
  | .commitAdvance target _ => resolve target

def handle (n : NodeSlot) : Message → NodeSlot
  | .forward _ req => n.handleForwardWrite req
  | .commitAdvance _ req => n.handleCommitAdvance req

/-- A snapshot is taken by the owner of the source, between two of its events. -/
def fetchSnapshot (source : String) : Option (Snapshot × Nat) :=
  let n := cluster.nodes (resolve source)
  if n.tasks = [] then n.handleCommittedSnapshotWithSequence else none

def step : Action → Option Cluster
  | .node id event => ((cluster.nodes id).step event).map (cluster.move id)
  | .deliver index => do
    let message ← cluster.network[index]?
    let id := target resolve message
    let next ← (cluster.nodes id).whenOpen (handle (cluster.nodes id) message)
    return cluster.move id next
  | .lose index => some { cluster with network := cluster.network.eraseIdx index }
  | .serveSnapshot id =>
    match (cluster.nodes id).tasks with
    | .awaitSnapshot use source none :: rest => do
      let reply ← cluster.fetchSnapshot resolve source
      return cluster.move id
        { cluster.nodes id with tasks := .awaitSnapshot use source (some reply) :: rest }
    | _ => none
  | .serveCatchup id index =>
    match (cluster.nodes id).calls[index]? with
    | some (.catchup plan none) => do
      let reply ← cluster.fetchSnapshot resolve
        (peerTransportTarget plan.sourceTarget plan.sourceNodeID)
      return cluster.move id
        { cluster.nodes id with
          calls := (cluster.nodes id).calls.set index (.catchup plan (some reply)) }
    | _ => none
  | .serveTail id =>
    match (cluster.nodes id).tasks with
    | .awaitTail use source none :: rest => do
      let reply ← (cluster.nodes (resolve source)).publishedCommittedSequence
      return cluster.move id
        { cluster.nodes id with tasks := .awaitTail use source (some reply) :: rest }
    | _ => none
  | .restart id => some (cluster.move id (cluster.nodes id).restart)

end Cluster

end Craq.Storage
