import Craq.Storage.Flow

/-! # What one step does to the data of a replica

`Core` is the part of a node that holds the data of its replica: the record, the cache, the backend,
the journal, and what is on its way between them.  `Effect` lists the moves that are ever made on it,
with what has been checked before each; `take_effects` says that whatever happens to a node is a
sequence of such moves.  Invariants of the data are proved move by move.
-/

namespace Craq.Storage

open Relation (ReflTransGen)

/-! ## One node among others -/

/-- Everything that may happen to a node whose neighbours may send and answer anything. -/
inductive NodeInput where
  | event (event : NodeEvent)
  | message (message : Message)
  | snapshot (reply : Snapshot × Nat)
  | catchup (index : Nat) (reply : Snapshot × Nat)
  | tail (committed : Nat)
  | restart
deriving DecidableEq

def NodeSlot.take (n : NodeSlot) : NodeInput → Option NodeSlot
  | .event event => n.step event
  | .message message => n.whenOpen (Cluster.handle n message)
  | .snapshot reply =>
    match n.tasks with
    | .awaitSnapshot use source none :: rest =>
      some { n with tasks := .awaitSnapshot use source (some reply) :: rest }
    | _ => none
  | .catchup index reply =>
    match n.calls[index]? with
    | some (.catchup plan none) =>
      some { n with calls := n.calls.set index (.catchup plan (some reply)) }
    | _ => none
  | .tail committed =>
    match n.tasks with
    | .awaitTail use source none :: rest =>
      some { n with tasks := .awaitTail use source (some committed) :: rest }
    | _ => none
  | .restart => some n.restart

/-- The node that an action of the cluster is about, and the input it gives the node. -/
inductive Cluster.Hands (resolve : String → String) (cluster : Cluster) :
    Action → String → NodeInput → Prop where
  | event {id event} : Hands resolve cluster (.node id event) id (.event event)
  | message {index message} (sent : cluster.network[index]? = some message) :
      Hands resolve cluster (.deliver index) (Cluster.target resolve message) (.message message)
  | snapshot {id use source rest reply}
      (awaited : (cluster.nodes id).tasks = .awaitSnapshot use source none :: rest)
      (fetched : cluster.fetchSnapshot resolve source = some reply) :
      Hands resolve cluster (.serveSnapshot id) id (.snapshot reply)
  | catchup {id index plan reply}
      (awaited : (cluster.nodes id).calls[index]? = some (.catchup plan none))
      (fetched : cluster.fetchSnapshot resolve
        (peerTransportTarget plan.sourceTarget plan.sourceNodeID) = some reply) :
      Hands resolve cluster (.serveCatchup id index) id (.catchup index reply)
  | tail {id use source rest committed}
      (awaited : (cluster.nodes id).tasks = .awaitTail use source none :: rest)
      (fetched : (cluster.nodes (resolve source)).publishedCommittedSequence = some committed) :
      Hands resolve cluster (.serveTail id) id (.tail committed)
  | restart {id} : Hands resolve cluster (.restart id) id .restart

/-- Every step of a cluster is one node taking an input, or the loss of a message. -/
theorem Cluster.step_takes {resolve : String → String} {cluster next : Cluster} {action : Action}
    (hstep : cluster.step resolve action = some next) :
    (∃ index, action = .lose index) ∧ next.nodes = cluster.nodes ∨
      ∃ id input taken, cluster.Hands resolve action id input ∧
      (cluster.nodes id).take input = some taken ∧ next = cluster.move id taken := by
  cases action with
  | node id event =>
    obtain ⟨taken, htaken, rfl⟩ := Option.map_eq_some_iff.mp hstep
    exact .inr ⟨id, .event event, taken, .event, htaken, rfl⟩
  | deliver index =>
    obtain ⟨message, hsent, hstep⟩ := Option.bind_eq_some_iff.mp hstep
    obtain ⟨taken, htaken, hstep⟩ := Option.bind_eq_some_iff.mp hstep
    cases hstep
    exact .inr ⟨_, .message message, taken, .message hsent, htaken, rfl⟩
  | lose index =>
    cases hstep
    exact .inl ⟨⟨index, rfl⟩, rfl⟩
  | serveSnapshot id =>
    simp only [Cluster.step] at hstep
    split at hstep
    · rename_i use source rest htasks
      obtain ⟨reply, hreply, hstep⟩ := Option.bind_eq_some_iff.mp hstep
      cases hstep
      refine .inr ⟨id, .snapshot reply, _, .snapshot htasks hreply, ?_, rfl⟩
      simp only [NodeSlot.take, htasks]
    · cases hstep
  | serveCatchup id index =>
    simp only [Cluster.step] at hstep
    split at hstep
    · rename_i plan hcall
      obtain ⟨reply, hreply, hstep⟩ := Option.bind_eq_some_iff.mp hstep
      cases hstep
      refine .inr ⟨id, .catchup index reply, _, .catchup hcall hreply, ?_, rfl⟩
      simp only [NodeSlot.take, hcall]
    · cases hstep
  | serveTail id =>
    simp only [Cluster.step] at hstep
    split at hstep
    · rename_i use source rest htasks
      obtain ⟨committed, hreply, hstep⟩ := Option.bind_eq_some_iff.mp hstep
      cases hstep
      refine .inr ⟨id, .tail committed, _, .tail htasks hreply, ?_, rfl⟩
      simp only [NodeSlot.take, htasks]
    · cases hstep
  | restart id =>
    cases hstep
    exact .inr ⟨id, .restart, _, .restart, rfl, rfl⟩

/-! ## The data -/

/-- What passes between a node and the others: the operations it was sent, has in its pipelines and has
sent, the errors that are on their way to clients, and what the clients were told. -/
structure Traffic where
  forwards : List WriteOperation
  piped : List WriteOperation
  sent : List WriteOperation
  failures : List Error
  waiters : SequenceMap Waiter

structure Core where
  present : Bool
  record : ReplicaRecord
  cache : Std.ExtTreeMap String (Option ObjectMetadata)
  backend : Option ReplicaData
  journal : List JournalRecord
  -- What the journal has been asked to hold, and what it has reported.
  prepares : List DurableCommit
  prepared : List WriteOperation
  -- The materializer, and what it has reported.
  submitted : List DurableCommit
  materializing : List DurableCommit
  suppressed : Bool
  materialized : List Nat
  -- Whether the owner is about to end.
  closing : Bool
  -- The copies of the record in tasks, those apart that are about to be committed.
  copies : List ReplicaRecord
  ready : List ReplicaRecord
  -- Whether any prepare is under way.
  working : Bool
  -- The snapshots that are awaited and that have arrived.
  awaits : List (SnapshotUse × String)
  answers : List (SnapshotUse × Snapshot × Nat)
  -- The assignments that a recovered replica is to resume with.
  resumes : List ReplicaAssignment
  -- What the predecessor has been told to be committed, and the calls that have not returned.
  acks : List Nat
  asked : List Nat
  traffic : Traffic

def Task.copies : Task → List ReplicaRecord
  | .gapRepaired record => [record]
  | .advanceAfterGapCheck record => [record]
  | _ => []

def Task.ready : Task → List ReplicaRecord
  | .submitCommitWatermarkReady record => [record]
  | _ => []

def Task.finishesPrepare : Task → Bool
  | .afterPrepare _ _ => true
  | _ => false

def Task.awaits : Task → List (SnapshotUse × String)
  | .awaitSnapshot use source _ => [(use, source)]
  | _ => []

def Task.answers : Task → List (SnapshotUse × Snapshot × Nat)
  | .awaitSnapshot use _ (some reply) => [(use, reply)]
  | _ => []

def Task.resumes : Task → List ReplicaAssignment
  | .awaitTail (.resume assignment) _ _ => [assignment]
  | _ => []

def Task.forwards : Task → List WriteOperation
  | .forwardWrite req => [req.operation]
  | _ => []

def Task.failures : Task → List Error
  | .afterPrepare _ err => err.toList
  | _ => []

def RemoteCall.answers : RemoteCall → List (SnapshotUse × Snapshot × Nat)
  | .catchup plan (some reply) => [(.activation plan, reply)]
  | _ => []

def RemoteCall.asked : RemoteCall → List Nat
  | .commitAdvance req _ _ => [req.committedThrough]
  | _ => []

def Message.acks : Message → List Nat
  | .commitAdvance _ req => [req.committedThrough]
  | .forward _ _ => []

def Message.forwards : Message → List WriteOperation
  | .forward _ req => [req.operation]
  | .commitAdvance _ _ => []

def Completion.failures : Completion → List Error
  | .prepared _ _ err => err.toList
  | _ => []

def Completion.durable : Completion → List WriteOperation
  | .prepared operation _ none => [operation]
  | _ => []

def Completion.reportsPrepare : Completion → Bool
  | .prepared _ _ _ => true
  | _ => false

def Completion.heights : Completion → List Nat
  | .materialized highest => [highest]
  | _ => []

/-- What the owner has taken up and not finished with. -/
structure Held where
  tasks : List Task := []
  completions : List Completion := []
  calls : List RemoteCall := []

def NodeSlot.coreWith (held : Held) (n : NodeSlot) : Core where
  present := n.runtime.present
  record := n.runtime.record
  cache := n.runtime.committedMetadata
  backend := n.backend
  journal := n.journal
  prepares := n.prepares.map (·.prepare)
  prepared := (held.completions ++ n.completions).flatMap Completion.durable
  submitted := n.submitted
  materializing := n.materializing
  suppressed := n.suppressed
  materialized := (held.completions ++ n.completions).flatMap Completion.heights
  closing := n.closing
  copies := (held.tasks ++ n.tasks).flatMap Task.copies
  ready := (held.tasks ++ n.tasks).flatMap Task.ready
  working := n.prepares.any (·.after.isSome) || !n.pipelines.isEmpty ||
    (held.completions ++ n.completions).any Completion.reportsPrepare ||
    (held.tasks ++ n.tasks).any Task.finishesPrepare
  awaits := (held.tasks ++ n.tasks).flatMap Task.awaits
  answers := (held.tasks ++ n.tasks).flatMap Task.answers ++
    (held.calls ++ n.calls).flatMap RemoteCall.answers
  resumes := (held.tasks ++ n.tasks).flatMap Task.resumes
  acks := n.outbox.flatMap Message.acks
  asked := (held.calls ++ n.calls).flatMap RemoteCall.asked
  traffic :=
    { forwards := (held.tasks ++ n.tasks).flatMap Task.forwards
      piped := n.pipelines.map (·.operation)
      sent := n.outbox.flatMap Message.forwards
      failures := (held.tasks ++ n.tasks).flatMap Task.failures ++
        (held.completions ++ n.completions).flatMap Completion.failures
      waiters := n.waiters }

def NodeSlot.core (n : NodeSlot) : Core :=
  n.coreWith {}

/-! ## Moves -/

/-- The replica takes what its neighbours send. -/
def ReplicaRecord.Serving (record : ReplicaRecord) : Prop :=
  record.state = .active ∨ record.state = .catchingUp

namespace NodeSlot

def preparedRecord (record : ReplicaRecord) (operation : WriteOperation) : ReplicaRecord :=
  { record with
    highestPreparedDurable := max record.highestPreparedDurable operation.sequence
    highestCommitTokenReceived :=
      if record.assignment.peers.successorNodeID = "" then
        max record.highestCommitTokenReceived operation.sequence
      else record.highestCommitTokenReceived }

/-- The assignment and the committed sequence that the input resumes the replica with. -/
def resumption (n : NodeSlot) : NodeInput → Option (ReplicaAssignment × Nat)
  | .event (.command (.resumeRecoveredReplica assignment)) =>
    let peers := assignment.peers
    if !n.runtime.present || decide (n.record.state ≠ .recovered) || !n.record.localDataPresent then
      none
    else if peers.successorNodeID = "" then
      some (assignment, max n.record.highestCommittedSequence n.record.highestPreparedDurable)
    else if peers.tailNodeID ≠ "" ∧ peers.tailNodeID ≠ n.config.nodeID ∧
        peerTransportTarget peers.tailTarget peers.tailNodeID ≠ "" then none
    else some (assignment, n.record.highestCommittedSequence)
  | .event (.replied succeeded) =>
    match n.tasks with
    | .awaitTail (.resume assignment) _ reply :: _ =>
      if succeeded then
        reply.map fun committed => (assignment, max n.record.highestCommittedSequence
          (min committed n.record.highestPreparedDurable))
      else some (assignment, n.record.highestCommittedSequence)
    | _ => none
  | _ => none

/-- The replica has no successor and a commit in flight, so it puts the next forward aside. -/
def SetsAside (n : NodeSlot) : Prop :=
  n.record.assignment.peers.successorNodeID = "" ∧ n.runtime.commitEffectInFlight = true

instance (n : NodeSlot) : Decidable n.SetsAside :=
  inferInstanceAs (Decidable (n.record.assignment.peers.successorNodeID = "" ∧
    n.runtime.commitEffectInFlight = true))

/-- The forward that the owner is about to reduce: one it has received, or the next buffered one. -/
inductive Feeds (n : NodeSlot) (req : ForwardWriteRequest) : Prop where
  | received (due : n.tasks.head? = some (.forwardWrite req)) (serving : n.record.Serving)
      (taken : ¬ (n.SetsAside ∧ req.operation.sequence = n.record.nextSequence))
  | drained (due : n.tasks.head? = some .drainAfterAdvance)
      (buffered : n.record.bufferedForwards[n.record.nextSequence]? = some req)

def Asks (n : NodeSlot) (record : ReplicaRecord) : NodeInput → SnapshotUse → String → Prop
  | .event (.command (.addReplicaAsTail assignment)), use, source =>
    n.runtime.present = false ∧ use = .join assignment ∧ assignment.peers.predecessorNodeID ≠ "" ∧
      source = peerTransportTarget assignment.peers.predecessorTarget
        assignment.peers.predecessorNodeID
  | .event (.command .prepareActivation), use, source =>
    use = .activation (buildPredecessorSyncPlan record) ∧
      source = peerTransportTarget record.assignment.peers.predecessorTarget
        record.assignment.peers.predecessorNodeID
  | .event (.command (.recoverReplica assignment sourceNodeID)), use, source =>
    (n.runtime.present = false ∨ n.record.state = .recovered) ∧ use = .recover assignment ∧
      source = peerTransportTarget assignment.peers.predecessorTarget sourceNodeID
  | _, _, _ => False

inductive Fetched (n : NodeSlot) : NodeInput → SnapshotUse → Snapshot × Nat → Prop where
  | snapshot {use source rest reply} (awaited : n.tasks = .awaitSnapshot use source none :: rest) :
      Fetched n (.snapshot reply) use reply
  | catchup {index plan reply} (awaited : n.calls[index]? = some (.catchup plan none)) :
      Fetched n (.catchup index reply) (.activation plan) reply

/-- The snapshot that the input hands to the owner, and what for. -/
def delivered (n : NodeSlot) : NodeInput → Option (SnapshotUse × Snapshot × Nat)
  | .event (.replied true) =>
    match n.tasks with
    | .awaitSnapshot use _ (some reply) :: _ => some (use, reply)
    | _ => none
  | .event (.callReturned index none) =>
    match n.calls[index]? with
    | some (.catchup plan (some reply)) => some (.activation plan, reply)
    | _ => none
  | _ => none

/-- The errors that the client of a write that was sequenced may be told. -/
inductive Hears (n : NodeSlot) (input : NodeInput) : Error → Prop where
  | failed {err} (failure : err ∈ n.core.traffic.failures) : Hears n input err
  | returned {index err pipeline assignment}
      (taken : input = .event (.callReturned index (some err)))
      (call : n.calls[index]? = some (.forward pipeline assignment)) : Hears n input err
  | lost {index err pipeline assignment sentinel detail}
      (taken : input = .event (.callReturned index err))
      (call : n.calls[index]? = some (.forward pipeline assignment))
      (absent : n.runtime.present = false) : Hears n input (.sentinel sentinel detail)
  | gone {after err rest sentinel detail} (taken : input = .event .task)
      (due : n.tasks = .afterPrepare after err :: rest) (absent : n.runtime.present = false) :
      Hears n input (.sentinel sentinel detail)
  | alone {req current sentinel detail} (taken : input = .event (.submitWrite req))
      (accepts : n.Accepts req current) (role : n.record.assignment.role = .head)
      (last : n.record.assignment.peers.successorNodeID = "") :
      Hears n input (.sentinel sentinel detail)
  | wrapped {context err} (cause : Hears n input err) : Hears n input (.wrapped context err)

/-- A client may be told that the replica is gone. -/
def HearsLoss (n : NodeSlot) (input : NodeInput) : Prop :=
  ∀ sentinel detail, n.Hears input (.sentinel sentinel detail)

/-- What may become of the traffic. -/
structure Tells (n : NodeSlot) (input : NodeInput) (c : Core) (traffic : Traffic) : Prop where
  forwards : ∀ operation ∈ traffic.forwards, operation ∈ c.traffic.forwards ∨
    ∃ target req, input = .message (.forward target req) ∧ operation = req.operation
  piped : ∀ operation ∈ traffic.piped, operation ∈ c.traffic.piped ∨
    ∃ commit ∈ c.prepares, operation = commit.operation
  sent : ∀ operation ∈ traffic.sent, operation ∈ c.traffic.sent ∨ operation ∈ c.traffic.piped ∨
    ∃ sequence : Nat, c.record.preparedEntries[sequence]? = some operation
  failures : ∀ err ∈ traffic.failures, err ∈ c.traffic.failures ∨
    input = .event (.flushPrepare (some err))
  waiters : ∀ (call : Nat) (waiter : Waiter), traffic.waiters[call]? = some waiter →
    ∀ err, waiter.outcome = some (some err) → waiter.operation = none ∨ n.Hears input err ∨
      ∃ held, c.traffic.waiters[call]? = some held ∧ held.outcome = some (some err) ∧
        held.operation = waiter.operation

end NodeSlot

namespace Core

variable (c : Core)

def set (record : ReplicaRecord) : Core :=
  { c with present := true, record, suppressed := c.suppressed && c.present }

def ask (operation : WriteOperation) (record : ReplicaRecord) : Core :=
  { c with
    prepares := c.prepares ++ [{ operation, persisted := persistedReplica record }]
    working := true }

def commit (progress : NodeSlot.CommitProgress) (sequence : Nat) : Core :=
  let record := NodeSlot.confirmedAtHead progress.record sequence
  { c.set record with
    cache := progress.committedMetadata
    submitted := c.submitted ++
      (preparedOperations record record.materializedCommittedSequence sequence).map fun operation =>
        { operation, persisted := persistedReplica record } }

def Finds (key : String) (metadata : Option ObjectMetadata) : Prop :=
  match recordCommittedOverlayObject c.record key with
  | some object => metadata = object.map (·.metadata)
  | none =>
    match c.cache[key]? with
    | some held => metadata = held
    | none => ∃ data, c.backend = some data ∧ metadata = data.committed[key]?.map (·.metadata)

def drop : Core :=
  { c with materializing := [], suppressed := true }

/-- The backend takes a snapshot, and the cache starts anew. -/
def install (snapshot : Snapshot) (highest : Nat) : Core :=
  { c with
    backend := c.backend.map fun data =>
      (data.installSnapshot snapshot).setHighestCommittedSequence highest
    cache := ∅ }

def sync (snapshot : Snapshot) (highest : Nat) : Core :=
  let synced := NodeSlot.reduceSyncedPredecessorState c.record highest
  { (c.drop.install snapshot highest).set synced with suppressed := false }

def join (assignment : ReplicaAssignment) (snapshot : Snapshot) (highest : Nat) : Core :=
  (c.install snapshot highest).set (NodeSlot.joinedRecord assignment highest)

def rebuild (assignment : ReplicaAssignment) (snapshot : Snapshot) (highest : Nat) : Core :=
  let rebuilt := NodeSlot.rebuiltRecord assignment highest
  { (c.drop.install snapshot highest).set rebuilt with suppressed := false }

def absent : Core :=
  { c with present := false, record := {}, cache := ∅ }

def evict : Core :=
  { c.absent with
    prepared := []
    materialized := []
    closing := false
    copies := []
    ready := []
    working := false
    awaits := []
    answers := []
    resumes := []
    asked := []
    traffic := { c.traffic with forwards := [], piped := [], failures := [] } }

def shouldMaterializeCommit (commit : DurableCommit) : Bool :=
  c.present && decide (c.record.assignment.chainVersion = commit.persisted.assignment.chainVersion)

def materialize : Core :=
  let filtered := c.materializing.filter fun commit =>
    !c.suppressed && c.shouldMaterializeCommit commit
  if filtered = [] then { c with materializing := [] }
  else
    match c.backend with
    | none => c
    | some data =>
      match applyMaterializedBatch data filtered with
      | (data, some _) => { c with backend := some data }
      | (data, none) =>
        { c with
          backend := some data
          materializing := []
          materialized := c.materialized ++ [NodeSlot.highestOperation filtered] }

end Core

/-- One move on the data of the node `n` while it takes the input. -/
inductive Effect (n : NodeSlot) (input : NodeInput) : Core → Core → Prop where
  -- Tasks, calls and completions come and go.
  | carry {c copies ready working awaits answers resumes asked}
      (copied : ∀ record ∈ copies, record ∈ c.copies ∨ record = c.record)
      (submitted : ∀ record ∈ ready, record ∈ c.ready ∨
        record = c.record ∧ (c.record.state ≠ .recovered ∨ c.working = true) ∨
        record ∈ c.copies ∧ record.highestCommittedSequence <
          min record.highestCommitTokenReceived record.highestPreparedDurable)
      (worked : working = true → c.working = true)
      (awaited : awaits ⊆ c.awaits) (answered : answers ⊆ c.answers)
      (resumed : resumes.Sublist c.resumes) (called : asked ⊆ c.asked) :
      Effect n input c { c with copies, ready, working, awaits, answers, resumes, asked }
  | forget {c prepared materialized working} (reported : prepared ⊆ c.prepared)
      (applied : materialized ⊆ c.materialized) (worked : working = true → c.working = true) :
      Effect n input c { c with prepared, materialized, working }
  | exchange {c traffic} (tells : n.Tells input c traffic) : Effect n input c { c with traffic }
  | await {c use source awaits} (asks : n.Asks c.record input use source)
      (awaited : awaits ⊆ (use, source) :: c.awaits) :
      Effect n input c { c with awaits }
  | answer {c use reply answers} (served : n.Fetched input use reply)
      (answered : answers ⊆ (use, reply) :: c.answers) :
      Effect n input c { c with answers }
  | awaitTail {c assignment}
      (taken : input = .event (.command (.resumeRecoveredReplica assignment)))
      (recovered : c.record.state = .recovered) (idle : c.resumes = []) :
      Effect n input c { c with resumes := [assignment] }
  -- Commits.
  | confirmHead {c} (present : c.present = true)
      (first : c.record.assignment.peers.predecessorNodeID = "") :
      Effect n input c (c.set { c.record with
        highestUpstreamConfirmedSequence := c.record.highestCommittedSequence })
  | acknowledge {c} (present : c.present = true) :
      Effect n input c { c with
        acks := c.acks ++ [c.record.highestCommittedSequence]
        asked := c.asked ++ [c.record.highestCommittedSequence] }
  | commit {c limit count progress} (same : c.record = n.record) (present : c.present = true)
      (positive : 0 < count)
      (token : c.record.highestCommittedSequence + count ≤ c.record.highestCommitTokenReceived)
      (durable : c.record.highestCommittedSequence + count ≤ c.record.highestPreparedDurable)
      (committed : NodeSlot.commitSequences limit count
        { record := c.record, committedMetadata := c.cache } = (progress, true)) :
      Effect n input c (c.commit progress (c.record.highestCommittedSequence + count))
  | interrupt {c limit count progress} (same : c.record = n.record) (present : c.present = true)
      (durable : c.record.highestCommittedSequence + count ≤ c.record.highestPreparedDurable)
      (stopped : NodeSlot.commitSequences limit count
        { record := c.record, committedMetadata := c.cache } = (progress, false)) :
      Effect n input c { c with
        record := NodeSlot.withMapsOf c.record progress.record
        cache := progress.committedMetadata }
  | raise {c record} (submitted : record ∈ c.ready)
      (last : record.assignment.peers.successorNodeID = "")
      (behind : record.highestCommitTokenReceived < record.highestPreparedDurable) :
      Effect n input c (c.set { record with
        highestCommitTokenReceived := record.highestPreparedDurable })
  | prepare {c operation} (present : c.present = true) (reported : operation ∈ c.prepared) :
      Effect n input c (c.set (NodeSlot.preparedRecord c.record operation))
  | advance {c req} (taken : input = .event .task)
      (due : n.tasks.head? = some (.commitAdvance req))
      (serving : c.record.Serving)
      (valid : validateCommitAdvanceSource c.record req = .ok ()) :
      Effect n input c (c.set { c.record with
        highestCommitTokenReceived :=
          max c.record.highestCommitTokenReceived req.committedThrough })
  | prune {c highest} (present : c.present = true) (applied : highest ∈ c.materialized) :
      Effect n input c (c.set (recordPruneMaterializedOverlay c.record highest))
  -- Clients.
  | lookup {c key metadata} (found : c.Finds key metadata) :
      Effect n input c { c with
        cache := NodeSlot.rememberCommittedMetadata c.cache key metadata }
  | submit {c req current} (taken : input = .event (.submitWrite req))
      (accepts : n.Accepts req current) (same : c.record = n.record) :
      Effect n input c (c.set (NodeSlot.sequenceWrite n.record
        (n.submittedOperation n.record req current) req.call))
  | ask {c req current} (taken : input = .event (.submitWrite req))
      (accepts : n.Accepts req current)
      (same : c.record = NodeSlot.sequenceWrite n.record
        (n.submittedOperation n.record req current) req.call) :
      Effect n input c (c.ask (n.submittedOperation n.record req current) c.record)
  | release {c count} (present : c.present = true) :
      Effect n input c (c.set { c.record with inFlightClientWrites := count })
  -- Forwards.
  | putAside {c req buffered} (taken : input = .event .task)
      (due : n.tasks.head? = some (.forwardWrite req)) (same : c.record = n.record)
      (serving : c.record.Serving) (aside : n.SetsAside)
      (sequence : req.operation.sequence = c.record.nextSequence)
      (ok : reduceBufferFutureForward c.record req n.bufferLimits = .ok buffered) :
      Effect n input c (c.set buffered)
  | buffer {c req reduced} (taken : input = .event .task) (feeds : n.Feeds req)
      (same : c.record = n.record)
      (ok : reduceForwardWrite c.record req n.bufferLimits = .ok ⟨reduced, .buffer⟩) :
      Effect n input c (c.set reduced)
  | stage {c req reduced} (taken : input = .event .task) (feeds : n.Feeds req)
      (same : c.record = n.record)
      (ok : reduceForwardWrite c.record req n.bufferLimits = .ok ⟨reduced, .apply⟩) :
      Effect n input c ((c.set reduced).ask req.operation reduced)
  -- Answers of other nodes.
  | confirm {c index req nodeID target} (taken : input = .event (.callReturned index none))
      (returned : n.calls[index]? = some (.commitAdvance req nodeID target))
      (present : c.present = true)
      (same : NodeSlot.assignmentMatchesReplayTarget c.record nodeID target req.chainVersion = true)
      (behind : c.record.highestUpstreamConfirmedSequence < req.committedThrough)
      (before : c.record = n.record) :
      Effect n input c (c.set { c.record with
        highestUpstreamConfirmedSequence := req.committedThrough })
  | sync {c plan snapshot highest}
      (answered : n.delivered input = some (.activation plan, snapshot, highest))
      (same : c.record = n.record) (present : c.present = true)
      (version : c.record.assignment.chainVersion = plan.chainVersion)
      (node : c.record.assignment.peers.predecessorNodeID = plan.sourceNodeID)
      (target : c.record.assignment.peers.predecessorTarget = plan.sourceTarget)
      (ahead : c.record.highestCommittedSequence < highest) (stored : c.backend.isSome = true) :
      Effect n input c (c.sync snapshot highest)
  | drop {c} (missing : c.backend = none) : Effect n input c c.drop
  -- Commands.
  | create {c assignment} (taken : input = .event (.command (.addReplicaAsTail assignment)))
      (absent : c.present = false) (missing : c.backend = none) :
      Effect n input c ({ c with backend := some {} }.set (NodeSlot.joiningRecord assignment))
  | found {c assignment} (taken : input = .event (.command (.addReplicaAsTail assignment)))
      (same : c.record = NodeSlot.joiningRecord assignment) :
      Effect n input c (c.set (NodeSlot.joinedRecord assignment 0))
  | join {c assignment snapshot highest}
      (answered : n.delivered input = some (.join assignment, snapshot, highest)) :
      Effect n input c (c.join assignment snapshot highest)
  | abandon {c assignment}
      (due : (∃ source reply,
          n.tasks.head? = some (.awaitSnapshot (.join assignment) source reply)) ∨
        input = .event (.command (.addReplicaAsTail assignment)) ∧ n.runtime.present = false) :
      Effect n input c { c.absent with backend := none }
  | restate {c state} (present : c.present = true)
      (next : c.record.state = .catchingUp ∧ state = .active ∨
        c.record.state = .active ∧ state = .leaving)
      (taken : input = .event (.command .activateReplicaReady) ∨
        input = .event (.command .markReplicaLeaving)) :
      Effect n input c (c.set { c.record with state, lastKnownState := state })
  | reassign {c assignment} (taken : input = .event (.command (.updateChainPeers assignment)))
      (same : c.record = n.record) (present : c.present = true)
      (other : c.record.assignment ≠ assignment) :
      Effect n input c (c.set (NodeSlot.reassigned c.record assignment))
  | resume {c assignment committed} (resumes : n.resumption input = some (assignment, committed))
      (recovered : c.record.state = .recovered ∧ c.resumes = [] ∨
        n.core.resumes = assignment :: c.resumes)
      (same : c.record = n.record) :
      Effect n input c (c.set (NodeSlot.resumedRecord c.record assignment committed))
  | remove {c} (taken : input = .event (.command .removeReplica) ∨
        input = .event (.command .dropRecoveredReplica)) :
      Effect n input c
        { c.drop.absent with backend := none, closing := true }
  | vanish {c} (taken : input = .event (.command .removeReplica)) :
      Effect n input c { c.absent with closing := true }
  | evict {c} (taken : input = .event .evict) : Effect n input c c.evict
  | startRebuild {c assignment sourceNodeID}
      (taken : input = .event (.command (.recoverReplica assignment sourceNodeID))) :
      Effect n input c { c with backend := some (c.backend.getD {}) }
  | rebuild {c assignment snapshot highest}
      (answered : n.delivered input = some (.recover assignment, snapshot, highest)) :
      Effect n input c (c.rebuild assignment snapshot highest)
  -- The journal, the materializer and crashes.
  | flush {commit rest prepared working} (taken : input = .event (.flushPrepare none))
      (first : n.core.prepares = commit :: rest)
      (reported : prepared ⊆ commit.operation :: n.core.prepared)
      (worked : working = true → n.core.working = true) :
      Effect n input n.core { n.core with
        prepares := rest
        journal := n.core.journal ++ [journalRecordFromPrepare commit]
        prepared
        working }
  | flushFailed {c commit rest working} (first : c.prepares = commit :: rest)
      (worked : working = true → c.working = true) :
      Effect n input c { c with prepares := rest, working }
  | note {c entry} (noted : ∀ P, entry.entry.Carries P) :
      Effect n input c { c with journal := c.journal ++ [entry] }
  | accept {c} (count : Nat) :
      Effect n input c { c with
        submitted := c.submitted.drop count
        materializing :=
          if c.suppressed then c.materializing else c.materializing ++ c.submitted.take count }
  | materialize {c} : Effect n input c c.materialize
  | restart (taken : input = .restart) : Effect n input n.core n.restart.core

theorem ReplicaRecord.Serving.live {record : ReplicaRecord} (h : record.Serving) :
    record.state ≠ .recovered := by
  rintro hrecovered
  rcases h with h | h <;> rw [hrecovered] at h <;> cases h

abbrev Effects (n : NodeSlot) (input : NodeInput) : Core → Core → Prop :=
  ReflTransGen (Effect n input)

theorem Effects.of_eq {n : NodeSlot} {input : NodeInput} {c d : Core} (h : d = c) :
    Effects n input c d :=
  h ▸ .refl

theorem NodeSlot.replicationRecord_serving {n : NodeSlot} {record : ReplicaRecord}
    (h : n.replicationRecord = .ok record) : record.Serving := by
  obtain rfl := NodeSlot.replicationRecord_eq h
  simp only [NodeSlot.replicationRecord, Lib.ite_error_eq_ok] at h
  have served := h.2.1
  rw [ReplicaRecord.Serving]
  tauto

/-! ## Small steps -/

/-- A task that brings nothing new. -/
def Task.bare : Task → Bool
  | .submitCommitWatermarkReady _ | .gapRepaired _ | .advanceAfterGapCheck _ => false
  | .afterPrepare _ _ | .awaitSnapshot _ _ _ | .awaitTail (.resume _) _ _ => false
  | .forwardWrite _ => false
  | _ => true

/-- A task that brings at most copies of the record, and what was already on its way. -/
structure Task.Known (c : Core) (task : Task) : Prop where
  copies : ∀ copy ∈ task.copies, copy ∈ c.copies ∨ copy = c.record
  ready : ∀ copy ∈ task.ready, copy ∈ c.ready ∨
    copy = c.record ∧ (c.record.state ≠ .recovered ∨ c.working = true) ∨
    copy ∈ c.copies ∧ copy.highestCommittedSequence <
      min copy.highestCommitTokenReceived copy.highestPreparedDurable
  worked : task.finishesPrepare = true → c.working = true
  silent : task.awaits = [] ∧ task.answers = [] ∧ task.resumes = []
  forwards : task.forwards ⊆ c.traffic.forwards
  failures : task.failures ⊆ c.traffic.failures

section Known

variable {c : Core}

theorem Task.Known.plain {task : Task} (h : task.bare = true) : task.Known c := by
  have empty : task.copies = [] ∧ task.ready = [] ∧ task.finishesPrepare = false ∧
      (task.awaits = [] ∧ task.answers = [] ∧ task.resumes = []) ∧ task.forwards = [] ∧
      task.failures = [] := by
    cases task with
    | awaitTail use target reply =>
      cases use with
      | read read => exact ⟨rfl, rfl, rfl, ⟨rfl, rfl, rfl⟩, rfl, rfl⟩
      | resume assignment => cases h
    | submitCommitWatermarkReady | gapRepaired | advanceAfterGapCheck
    | afterPrepare | awaitSnapshot | forwardWrite => cases h
    | _ => exact ⟨rfl, rfl, rfl, ⟨rfl, rfl, rfl⟩, rfl, rfl⟩
  obtain ⟨copies, ready, finishes, silent, forwards, failures⟩ := empty
  exact ⟨by simp [copies], by simp [ready], by simp [finishes], silent, by simp [forwards],
    by simp [failures]⟩

theorem Task.Known.submits (h : c.record.state ≠ .recovered ∨ c.working = true) :
    (Task.submitCommitWatermarkReady c.record).Known c where
  copies := List.forall_mem_nil _
  ready := List.forall_mem_singleton.mpr (.inr (.inl ⟨rfl, h⟩))
  worked := Bool.noConfusion
  silent := ⟨rfl, rfl, rfl⟩
  forwards := List.nil_subset _
  failures := List.nil_subset _

theorem Task.Known.submits_copy {copy : ReplicaRecord} (h : copy ∈ c.copies)
    (ahead : copy.highestCommittedSequence <
      min copy.highestCommitTokenReceived copy.highestPreparedDurable) :
    (Task.submitCommitWatermarkReady copy).Known c where
  copies := List.forall_mem_nil _
  ready := List.forall_mem_singleton.mpr (.inr (.inr ⟨h, ahead⟩))
  worked := Bool.noConfusion
  silent := ⟨rfl, rfl, rfl⟩
  forwards := List.nil_subset _
  failures := List.nil_subset _

theorem Task.Known.checks {copy : ReplicaRecord} (h : copy ∈ c.copies ∨ copy = c.record) :
    (Task.advanceAfterGapCheck copy).Known c where
  copies := List.forall_mem_singleton.mpr h
  ready := List.forall_mem_nil _
  worked := Bool.noConfusion
  silent := ⟨rfl, rfl, rfl⟩
  forwards := List.nil_subset _
  failures := List.nil_subset _

theorem Task.Known.repairs : (Task.gapRepaired c.record).Known c where
  copies := List.forall_mem_singleton.mpr (.inr rfl)
  ready := List.forall_mem_nil _
  worked := Bool.noConfusion
  silent := ⟨rfl, rfl, rfl⟩
  forwards := List.nil_subset _
  failures := List.nil_subset _

theorem Task.Known.finishes {after : AfterPrepare} {err : Option Error} (h : c.working = true)
    (failed : err.toList ⊆ c.traffic.failures) : (Task.afterPrepare after err).Known c where
  copies := List.forall_mem_nil _
  ready := List.forall_mem_nil _
  worked := fun _ => h
  silent := ⟨rfl, rfl, rfl⟩
  forwards := List.nil_subset _
  failures := failed

end Known

namespace NodeSlot

variable {n₀ : NodeSlot} {input : NodeInput} (held : Held) (n : NodeSlot)

theorem Tells.same (c : Core) : n₀.Tells input c c.traffic where
  forwards := fun _ hmem => .inl hmem
  piped := fun _ hmem => .inl hmem
  sent := fun _ hmem => .inl hmem
  failures := fun _ hmem => .inl hmem
  waiters := fun _ waiter hwaiter _ told => .inr (.inr ⟨waiter, hwaiter, told, rfl⟩)

/-- What the owner does with something in hand is a sequence of moves. -/
abbrev Does (n₀ : NodeSlot) (input : NodeInput) (held : Held) (n next : NodeSlot) : Prop :=
  Effects n₀ input (n.coreWith held) (next.coreWith held)

theorem andThen_effects {n : NodeSlot} {tasks : List Task}
    (known : ∀ task ∈ tasks, task.Known (n.coreWith held)) :
    Does n₀ input held n (n.andThen tasks) := by
  have flat : ∀ {α : Type} (f : Task → List α), (∀ task ∈ tasks, f task = []) →
      (held.tasks ++ (tasks ++ n.tasks)).flatMap f = (held.tasks ++ n.tasks).flatMap f := by
    intro α f hempty
    have : tasks.flatMap f = [] := List.flatMap_eq_nil_iff.mpr hempty
    simp [List.flatMap_append, this]
  have among : ∀ {α : Type} (f : Task → List α) (item : α),
      item ∈ (held.tasks ++ (tasks ++ n.tasks)).flatMap f →
        item ∈ (held.tasks ++ n.tasks).flatMap f ∨ ∃ task ∈ tasks, item ∈ f task := by
    intro α f item hmem
    obtain ⟨task, htask, hitem⟩ := List.mem_flatMap.mp hmem
    simp only [List.mem_append] at htask
    rcases htask with hheld | hnew | hrest
    · exact .inl (List.mem_flatMap.mpr ⟨task, List.mem_append_left _ hheld, hitem⟩)
    · exact .inr ⟨task, hnew, hitem⟩
    · exact .inl (List.mem_flatMap.mpr ⟨task, List.mem_append_right _ hrest, hitem⟩)
  have tells : n₀.Tells input (n.coreWith held) ((n.andThen tasks).coreWith held).traffic := by
    refine { Tells.same (n.coreWith held) with forwards := ?_, failures := ?_ }
    · intro operation hmem
      rcases among Task.forwards operation hmem with hheld | ⟨task, htask, hforward⟩
      · exact .inl hheld
      · exact .inl ((known task htask).forwards hforward)
    · intro err hmem
      rcases List.mem_append.mp hmem with hmem | hmem
      · rcases among Task.failures err hmem with hheld | ⟨task, htask, hfailure⟩
        · exact .inl (List.mem_append_left _ hheld)
        · exact .inl ((known task htask).failures hfailure)
      · exact .inl (List.mem_append_right _ hmem)
  refine .trans (.single (.exchange tells))
    (.single (Effect.carry ?_ ?_ ?_ ?_ ?_ ?_ (List.Subset.refl _)))
  · intro copy hmem
    rcases among Task.copies copy hmem with hheld | ⟨task, htask, hcopy⟩
    · exact .inl hheld
    · exact (known task htask).copies copy hcopy
  · intro copy hmem
    rcases among Task.ready copy hmem with hheld | ⟨task, htask, hcopy⟩
    · exact .inl hheld
    · exact (known task htask).ready copy hcopy
  · intro hworking
    by_cases hnew : tasks.any Task.finishesPrepare = true
    · obtain ⟨task, htask, hfinishes⟩ := List.any_eq_true.mp hnew
      exact (known task htask).worked hfinishes
    · simp only [coreWith, andThen, List.any_append, Bool.not_eq_true] at hworking hnew ⊢
      simpa [hnew] using hworking
  · have same := flat Task.awaits fun task htask => (known task htask).silent.1
    exact same ▸ List.Subset.refl _
  · have same := flat Task.answers fun task htask => (known task htask).silent.2.1
    have all := congrArg (· ++ (held.calls ++ n.calls).flatMap RemoteCall.answers) same
    exact all ▸ List.Subset.refl _
  · have same := flat Task.resumes fun task htask => (known task htask).silent.2.2
    exact same ▸ List.Sublist.refl _

variable (sequence : Nat) {record : ReplicaRecord} {rest : List Task} {task : Task}
  {source : String} {assignment : ReplicaAssignment} {err : Option Error}

theorem persistThen_effects {n : NodeSlot} (known : ∀ task ∈ rest, task.Known (n.coreWith held)) :
    Does n₀ input held n (n.persistThen record rest) := by
  rw [persistThen]
  split
  · exact .refl
  · exact andThen_effects held (n := n.persistReplica record) known

theorem push_effects {n : NodeSlot} (known : task.Known (n.coreWith held)) :
    Does n₀ input held n (n.andThen [task]) :=
  andThen_effects held (List.forall_mem_singleton.mpr known)

theorem push_two_effects {n : NodeSlot} {first second : Task}
    (hfirst : first.Known (n.coreWith held)) (hsecond : second.Known (n.coreWith held)) :
    Does n₀ input held n (n.andThen [first, second]) :=
  andThen_effects held
    (List.forall_mem_cons.mpr ⟨hfirst, List.forall_mem_singleton.mpr hsecond⟩)

theorem await_effects {n : NodeSlot} {use : SnapshotUse} (asks : n₀.Asks n.record input use source) :
    Does n₀ input held n (n.andThen [.awaitSnapshot use source none]) := by
  have awaiting : (n.andThen [.awaitSnapshot use source none]).coreWith held =
      { n.coreWith held with
        awaits := held.tasks.flatMap Task.awaits ++ (use, source) :: n.tasks.flatMap Task.awaits } := by
    simp [coreWith, andThen, List.flatMap_append, Task.copies, Task.ready, Task.finishesPrepare,
      Task.awaits, Task.answers, Task.resumes, Task.forwards, Task.failures]
  rw [Does, awaiting]
  refine .single (.await asks ?_)
  intro awaited hmem
  simp only [coreWith, List.flatMap_append, List.mem_append, List.mem_cons] at hmem ⊢
  tauto

theorem awaitTail_effects {n : NodeSlot} {target : String}
    (taken : input = .event (.command (.resumeRecoveredReplica assignment)))
    (recovered : n.record.state = .recovered) (idle : n.tasks = []) :
    Effects n₀ input n.core ((n.andThen [.awaitTail (.resume assignment) target none]).core) := by
  have awaiting : (n.andThen [.awaitTail (.resume assignment) target none]).core =
      { n.core with resumes := [assignment] } := by
    simp [core, coreWith, andThen, idle, Task.copies, Task.ready, Task.finishesPrepare, Task.awaits,
      Task.answers, Task.resumes, Task.forwards, Task.failures]
  rw [awaiting]
  refine .single (.awaitTail taken recovered ?_)
  simp [core, coreWith, idle]

/-- A completion that reports neither a prepare nor a materialized batch. -/
theorem complete_effects (completion : Completion) (durable : completion.durable = [])
    (heights : completion.heights = []) (reports : completion.reportsPrepare = false)
    (failures : completion.failures = []) :
    Effects n₀ input (n.coreWith held)
      ({ n with completions := n.completions ++ [completion] }.coreWith held) := by
  apply Effects.of_eq
  simp [coreWith, List.flatMap_append, durable, heights, reports, failures]

@[simp]
theorem enterProgressionGap_coreWith :
    (n.enterProgressionGap sequence).coreWith held = n.coreWith held := by
  rw [enterProgressionGap]
  split <;> rfl

@[simp]
theorem clearProgressionGap_coreWith : n.clearProgressionGap.coreWith held = n.coreWith held := by
  rw [clearProgressionGap]
  split <;> rfl

theorem completeWaiter_effects (waiter : Nat) (heard : ∀ cause ∈ err, n₀.Hears input cause) :
    Does n₀ input held n (n.completeWaiter waiter err) := by
  have same : n₀.Tells input (n.coreWith held) _ := .same _
  refine .single (.exchange (c := n.coreWith held) { same with waiters := ?_ })
  intro call state hstate cause hcause
  change (n.waiters.modify waiter _)[call]? = _ at hstate
  rw [Lib.getElem?_modify_ite] at hstate
  split at hstate
  · rename_i hcall
    obtain ⟨before, hbefore, rfl⟩ := Option.map_eq_some_iff.mp hstate
    -- An outcome that is already there stays.
    cases hset : before.outcome with
    | none =>
      simp only [hset, Option.getD_none, Option.some.injEq] at hcause
      exact .inr (.inl (heard cause hcause))
    | some outcome =>
      simp only [hset, Option.getD_some, Option.some.injEq] at hcause
      exact .inr (.inr ⟨before, hcall ▸ hbefore, hcause ▸ hset, rfl⟩)
  · exact .inr (.inr ⟨state, hstate, hcause, rfl⟩)

/-- A write is registered with no error, or with one because it was not sequenced. -/
theorem register_effects (call : Nat) {waiter : Waiter}
    (told : ∀ err, waiter.outcome = some (some err) → waiter.operation = none) :
    Effects n₀ input (n.coreWith held)
      ({ n with waiters := n.waiters.insert call waiter }.coreWith held) := by
  have same : n₀.Tells input (n.coreWith held) _ := .same _
  refine .single (.exchange (c := n.coreWith held) { same with waiters := ?_ })
  intro other state hstate err herr
  rw [Lib.getElem?_insert_ite] at hstate
  split at hstate
  · cases hstate
    exact .inl (told err herr)
  · exact .inr (.inr ⟨state, hstate, herr, rfl⟩)

theorem releaseWaiters_effects (waiters : List Nat) :
    Does n₀ input held n (n.releaseWaiters waiters) := by
  rw [releaseWaiters]
  induction waiters generalizing n with
  | nil => exact .refl
  | cons waiter waiters ih => exact .trans (completeWaiter_effects held n waiter (by simp)) (ih _)

theorem releaseWaiters_eq (waiters : List Nat) : n.releaseWaiters waiters =
    { n with
      waiters := waiters.foldl (fun told waiter => told.modify waiter fun state =>
        { state with outcome := some (state.outcome.getD none) }) n.waiters } := by
  rw [releaseWaiters]
  induction waiters generalizing n with
  | nil => rfl
  | cons waiter waiters ih => exact ih (n.completeWaiter waiter none)

@[simp]
theorem settleCommitEffect_coreWith :
    (n.settleCommitEffect sequence).coreWith held = n.coreWith held := by
  rw [settleCommitEffect]
  split <;> rfl

/-! ## Commits -/

theorem ensureUpstreamCommitReplay_effects : Does n₀ input held n n.ensureUpstreamCommitReplay := by
  rw [ensureUpstreamCommitReplay]
  dsimp only
  split
  · exact .refl
  rename_i hpresent
  have present : n.runtime.present = true := by simpa using hpresent
  split
  · rename_i hfirst
    split
    · exact .single (.confirmHead present hfirst)
    · exact .refl
  split
  · exact .refl
  split
  · exact .refl
  · refine .trans (.single (.acknowledge present)) (Effects.of_eq ?_)
    simp [coreWith, send, List.flatMap_append, RemoteCall.answers, RemoteCall.asked, Message.acks,
      Message.forwards, record]

theorem noteProgress_coreWith (progress : CommitProgress) :
    (n.noteProgress progress).coreWith held =
      { (n.releaseWaiters progress.released).coreWith held with
        cache := progress.committedMetadata } := by
  rw [noteProgress, releaseWaiters_eq, releaseWaiters_eq]
  rfl

theorem commitApplied_effects {progress : CommitProgress} {sequence : Nat} (limit count : Nat)
    (same : n.record = n₀.record) (present : n.runtime.present = true) (positive : 0 < count)
    (hsequence : sequence = n.record.highestCommittedSequence + count)
    (token : sequence ≤ n.record.highestCommitTokenReceived)
    (durable : sequence ≤ n.record.highestPreparedDurable)
    (committed : commitSequences limit count
      { record := n.record, committedMetadata := n.runtime.committedMetadata } = (progress, true)) :
    Does n₀ input held n (n.commitApplied progress sequence) := by
  obtain rfl := hsequence
  let released := n.releaseWaiters progress.released
  have core : released = { n with waiters := released.waiters } := by
    simp only [released, releaseWaiters_eq]
  have commits : Effect n₀ input (released.coreWith held)
      ((released.coreWith held).commit progress (n.record.highestCommittedSequence + count)) := by
    rw [core]
    exact .commit same present positive token durable committed
  refine .trans (releaseWaiters_effects held n progress.released) (.trans (.single commits) ?_)
  refine .trans (Effects.of_eq ?_)
    (push_two_effects held (.plain rfl) (.plain rfl))
  have noted : ((n.noteProgress progress).settleCommitEffect
      (n.record.highestCommittedSequence + count)).coreWith held =
        { released.coreWith held with cache := progress.committedMetadata } := by
    rw [settleCommitEffect_coreWith, noteProgress_coreWith]
  have queued : ∀ (m : NodeSlot) (record : ReplicaRecord) (sequence : Nat),
      ((m.setRecord record).enqueueMaterializationUpTo sequence).coreWith held =
        { (m.coreWith held).set record with
          submitted := (m.coreWith held).submitted ++
            (preparedOperations record record.materializedCommittedSequence sequence).map
              fun operation => { operation, persisted := persistedReplica record } } :=
    fun _ _ _ => rfl
  rw [queued, noted]
  rfl

theorem commitInterrupted_effects {progress : CommitProgress} (limit count : Nat)
    (same : n.record = n₀.record) (present : n.runtime.present = true)
    (durable : n.record.highestCommittedSequence + count ≤ n.record.highestPreparedDurable)
    (stopped : commitSequences limit count
      { record := n.record, committedMetadata := n.runtime.committedMetadata } = (progress, false)) :
    Does n₀ input held n (n.commitInterrupted progress) := by
  refine .trans (.single (.interrupt same present durable stopped)) ?_
  rw [commitInterrupted]
  dsimp only
  rw [enterProgressionGap_coreWith, noteProgress, releaseWaiters_eq]
  have released := @releaseWaiters_effects n₀ input held
    { n with runtime := { n.runtime with
      record := withMapsOf n.record progress.record
      committedMetadata := progress.committedMetadata } } progress.released
  rwa [releaseWaiters_eq] at released

theorem applyCommitWatermark_effects (same : n.record = n₀.record) :
    Does n₀ input held n (n.applyCommitWatermark sequence) := by
  rw [applyCommitWatermark]
  have clamped : n.clampWatermark sequence ≤ n.record.highestCommitTokenReceived ∧
      n.clampWatermark sequence ≤ n.record.highestPreparedDurable := by
    rw [clampWatermark]
    omega
  generalize n.clampWatermark sequence = clamp at clamped ⊢
  split
  · exact .refl
  rename_i hpresent
  have present : n.runtime.present = true := by simpa using hpresent
  split
  · exact .refl
  rename_i hnew
  split
  · rename_i hall
    refine commitApplied_effects held n n.config.maxBufferedReplicaMessagesPerSlot
      (clamp - n.record.highestCommittedSequence) same present (by omega) (by omega) clamped.1 clamped.2 ?_
    exact Prod.ext rfl hall
  · rename_i hsome
    refine commitInterrupted_effects held n n.config.maxBufferedReplicaMessagesPerSlot
      (clamp - n.record.highestCommittedSequence) same present (by omega) ?_
    exact Prod.ext rfl (Bool.eq_false_iff.mpr hsome)

theorem reconcileThen_effects {n : NodeSlot} (known : ∀ task ∈ rest, task.Known (n.coreWith held)) :
    Does n₀ input held n (n.reconcileThen rest) := by
  rcases n.reconcileThen_cases rest with heq | heq | ⟨sequence, heq⟩ <;> rw [heq]
  · exact andThen_effects held known
  · exact andThen_effects held (n := n.clearCommitEffect) known
  · exact andThen_effects held (List.forall_mem_cons.mpr ⟨.plain rfl, known⟩)

theorem commitReady_effects (record : ReplicaRecord) :
    Does n₀ input held n (n.commitReady record) := by
  rw [commitReady]
  dsimp only
  split
  · split
    · exact push_effects held (.plain rfl)
    · exact push_effects held (.plain rfl)
  split
  · exact .refl
  · exact .refl

theorem submitCommitWatermarkReady_effects (copied : record ∈ (n.coreWith held).ready) :
    Does n₀ input held n (n.submitCommitWatermarkReady record) := by
  rw [submitCommitWatermarkReady]
  split
  · rename_i hraise
    exact .trans (.single (.raise copied hraise.1 hraise.2))
      (commitReady_effects held (n.setRecord _) _)
  · exact commitReady_effects held n record

theorem headCommitRangeReturned_effects (ready : Nat) (err : Option Error) :
    Does n₀ input held n (n.headCommitRangeReturned ready err) := by
  cases err with
  | none => exact push_effects held (.plain rfl)
  | some err =>
    simp only [headCommitRangeReturned]
    repeat' split
    all_goals exact .refl

theorem advanceAcceptedCommitProgress_effects :
    Does n₀ input held n n.advanceAcceptedCommitProgress := by
  rw [advanceAcceptedCommitProgress]
  split
  · exact .refl
  split
  · refine .trans (Effects.of_eq (clearProgressionGap_coreWith held n)) (push_effects held ?_)
    rw [clearProgressionGap_coreWith]
    exact .checks (.inr rfl)
  rcases n.reconcileDurableCommitProgress_cases with heq | heq | ⟨sequence, heq⟩ <;> rw [heq]
  · exact .of_eq (enterProgressionGap_coreWith held n _)
  · exact push_effects held (n := n.clearCommitEffect) .repairs
  · exact push_two_effects held (.plain rfl) .repairs

theorem gapRepaired_effects (copied : record ∈ (n.coreWith held).copies) :
    Does n₀ input held n (n.gapRepaired record) := by
  refine .trans (Effects.of_eq (clearProgressionGap_coreWith held n)) (push_effects held ?_)
  rw [clearProgressionGap_coreWith]
  exact .checks (.inl copied)

theorem advanceAfterGapCheck_effects (copied : record ∈ (n.coreWith held).copies) :
    Does n₀ input held n (n.advanceAfterGapCheck record) := by
  have submit : Does n₀ input held n
      (if min record.highestCommitTokenReceived record.highestPreparedDurable >
          record.highestCommittedSequence ∧
          min record.highestCommitTokenReceived record.highestPreparedDurable >
            n.runtime.highestWatermarkSent then
        n.andThen [.submitCommitWatermarkReady record] else n) := by
    split
    · rename_i hready
      exact push_effects held (.submits_copy copied hready.1)
    · exact .refl
  rw [advanceAfterGapCheck]
  by_cases inFlight : n.runtime.commitEffectInFlight = true
  · rw [if_pos inFlight]
    rcases n.reconcileDurableCommitProgress_cases with heq | heq | ⟨sequence, heq⟩ <;> rw [heq]
    · exact submit
    · exact push_effects held (n := n.clearCommitEffect) (.plain rfl)
    · exact push_two_effects held (.plain rfl) (.plain rfl)
  · rw [if_neg inFlight]
    exact submit

/-! ## Prepares and forwards -/

theorem scheduleDrainReadyBuffered_effects : Does n₀ input held n n.scheduleDrainReadyBuffered := by
  rw [scheduleDrainReadyBuffered]
  split
  · exact .refl
  · exact complete_effects held n .drain rfl rfl rfl rfl

theorem startPrepareEffect_coreWith (record : ReplicaRecord) (operation : WriteOperation)
    (after : AfterPrepare) :
    (n.startPrepareEffect record operation after).coreWith held =
      (n.coreWith held).ask operation record := by
  simp [startPrepareEffect, coreWith, Core.ask]

variable {operation : WriteOperation} {after : AfterPrepare}

theorem working_of_completion (taken : .prepared operation after err ∈ held.completions) :
    (n.coreWith held).working = true := by
  have reports : (held.completions ++ n.completions).any Completion.reportsPrepare = true :=
    List.any_eq_true.mpr ⟨_, List.mem_append_left _ taken, rfl⟩
  simp [coreWith, reports]

theorem working_of_task (due : .afterPrepare after err ∈ held.tasks) :
    (n.coreWith held).working = true := by
  have finishes : (held.tasks ++ n.tasks).any Task.finishesPrepare = true :=
    List.any_eq_true.mpr ⟨_, List.mem_append_left _ due, rfl⟩
  simp [coreWith, finishes]

theorem working_of_pipeline (piped : n.pipelines ≠ []) : (n.coreWith held).working = true := by
  have busy : n.pipelines.isEmpty = false := by simpa using piped
  simp [coreWith, busy]

theorem prepareReturned_effects (taken : .prepared operation after err ∈ held.completions) :
    Does n₀ input held n (n.prepareReturned operation after err) := by
  have working : (n.coreWith held).working = true := working_of_completion held n taken
  have failed : err.toList ⊆ (n.coreWith held).traffic.failures := fun cause hmem =>
    List.mem_append_right _ (List.mem_flatMap.mpr ⟨_, List.mem_append_left _ taken, hmem⟩)
  rw [prepareReturned]
  split
  · exact push_effects held (.finishes working failed)
  · rename_i hfailed
    have hnone : err = none := by
      cases err with
      | none => rfl
      | some err => simp at hfailed
    have present : n.runtime.present = true := by simpa [hnone] using hfailed
    have reported : operation ∈ (n.coreWith held).prepared := by
      refine List.mem_flatMap.mpr ⟨_, List.mem_append_left _ taken, ?_⟩
      rw [hnone]
      exact List.mem_singleton_self _
    refine .trans (.single (.prepare present reported)) ?_
    exact push_two_effects held (n := n.setRecord (preparedRecord n.record operation))
      (.submits (.inr working)) (.finishes working failed)

/-- What a pipeline ends with is heard by the client, and so is that the replica is gone. -/
theorem pipelineComplete_effects (onComplete : PipelineEnd) (piped : n.pipelines ≠ [])
    (heard : ∀ cause ∈ err, n₀.Hears input cause)
    (gone : n.runtime.present = false → n₀.HearsLoss input) :
    Does n₀ input held n (n.pipelineComplete onComplete err) := by
  rw [pipelineComplete.eq_def]
  dsimp only
  split
  · rename_i cause
    exact completeWaiter_effects held n _ (by simpa using .wrapped (heard cause rfl))
  · split
    · exact .refl
    · rename_i habsent
      refine completeWaiter_effects held n _ ?_
      rintro _ ⟨⟩
      exact gone (Bool.eq_false_iff.mpr habsent) _ _
  · exact .refl
  · split
    · exact .refl
    split
    · exact push_two_effects held (.submits (.inr (working_of_pipeline held n piped))) (.plain rfl)
    · exact scheduleDrainReadyBuffered_effects held n

theorem resolvePipeline_effects (index : Nat) (prepareDone : Bool)
    (heard : ∀ cause ∈ err, n₀.Hears input cause)
    (gone : n.runtime.present = false → n₀.HearsLoss input) :
    Does n₀ input held n (n.resolvePipeline index prepareDone err) := by
  rw [resolvePipeline]
  split
  · exact .refl
  rename_i pipeline hpipeline
  split
  · exact .refl
  dsimp only
  generalize hadvanced : (if err.isSome = true then _ else _ : PrepareForwardPipeline) = advanced
  have operation : advanced.operation = pipeline.operation := by
    rw [← hadvanced]
    repeat' split
    all_goals rfl
  have piped : n.pipelines ≠ [] := List.ne_nil_of_mem (List.mem_of_getElem? hpipeline)
  have kept : (n.pipelines.set index advanced).isEmpty = n.pipelines.isEmpty := by
    cases n.pipelines with
    | nil => rfl
    | cons first rest => cases index <;> rfl
  have same : { n with pipelines := n.pipelines.set index advanced }.coreWith held =
      n.coreWith held := by
    have looked : (n.pipelines.map (·.operation))[index]? = some pipeline.operation := by
      simp [hpipeline]
    obtain ⟨hindex, heq⟩ := List.getElem?_eq_some_iff.mp looked
    have operations : (n.pipelines.set index advanced).map (·.operation) =
        n.pipelines.map (·.operation) := by
      rw [List.map_set, operation, ← heq, List.set_getElem_self]
    simp only [coreWith, kept, operations]
  split
  · refine .trans (Effects.of_eq same) ?_
    refine pipelineComplete_effects held { n with pipelines := n.pipelines.set index advanced } _ ?_
      heard gone
    simpa using piped
  · exact Effects.of_eq same

theorem dispatchForward_effects (index : Nat) (current : ReplicaRecord)
    (piped : operation ∈ (n.coreWith held).traffic.piped)
    (gone : n.runtime.present = false → n₀.HearsLoss input) :
    Does n₀ input held n (n.dispatchForward index operation current) := by
  rw [dispatchForward]
  dsimp only
  split
  · exact resolvePipeline_effects held n _ _ (by simp) gone
  · have same : n₀.Tells input (n.coreWith held) _ := .same _
    have sends : n₀.Tells input (n.coreWith held) { (n.coreWith held).traffic with
        sent := (n.coreWith held).traffic.sent ++ [operation] } := by
      refine { same with sent := ?_ }
      intro sent hmem
      rcases List.mem_append.mp hmem with hheld | hnew
      · exact .inl hheld
      · exact .inr (.inl (List.mem_singleton.mp hnew ▸ piped))
    refine .trans (.single (.exchange sends)) (Effects.of_eq ?_)
    simp [coreWith, send, List.flatMap_append, RemoteCall.answers, RemoteCall.asked, Message.acks,
      Message.forwards]

theorem forwardReturned_effects (index : Nat) (assignment : ReplicaAssignment)
    (heard : ∀ cause ∈ err, n₀.Hears input cause)
    (gone : n.runtime.present = false → n₀.HearsLoss input) :
    Does n₀ input held n (n.forwardReturned index assignment err) := by
  rw [forwardReturned.eq_def]
  dsimp only
  split
  · exact resolvePipeline_effects held n _ _ heard gone
  split
  · rename_i habsent
    refine resolvePipeline_effects held n _ _ ?_ gone
    rintro _ ⟨⟩
    exact gone (by simpa using habsent) _ _
  split
  · exact resolvePipeline_effects held n _ _ (by simp) gone
  split
  · split
    · rename_i pipeline hpipeline
      have piped := List.mem_map_of_mem (f := (·.operation)) (List.mem_of_getElem? hpipeline)
      exact dispatchForward_effects held n _ _ piped gone
    · exact .refl
  · exact resolvePipeline_effects held n _ _ (by simp) gone

/-- A pipeline is the prepare and what it does besides. -/
theorem startPreparedForwardPipeline_effects (record : ReplicaRecord) (operation : WriteOperation)
    (onComplete : PipelineEnd) (present : n.runtime.present = true) :
    Effects n₀ input ((n.coreWith held).ask operation record)
      ((n.startPreparedForwardPipeline record operation onComplete).coreWith held) := by
  let started : NodeSlot := { n with pipelines := n.pipelines ++ [{ operation, onComplete }] }
  let asks := started.startPrepareEffect record operation (.pipeline n.pipelines.length)
  let asked := (n.coreWith held).ask operation record
  have same : n₀.Tells input asked _ := .same _
  have pipes : n₀.Tells input asked { asked.traffic with
      piped := asked.traffic.piped ++ [operation] } := by
    refine { same with piped := ?_ }
    intro piped hmem
    rcases List.mem_append.mp hmem with hheld | hnew
    · exact .inl hheld
    · exact .inr ⟨_, List.mem_append_right _ List.mem_cons_self, List.mem_singleton.mp hnew⟩
  have asking : asks.coreWith held =
      { asked with traffic := { asked.traffic with piped := asked.traffic.piped ++ [operation] } } := by
    simp [asks, asked, started, startPrepareEffect, coreWith, Core.ask]
  refine .trans (.trans (.single (.exchange pipes)) (Effects.of_eq asking))
    (dispatchForward_effects held asks _ record ?_ ?_)
  · exact asking ▸ List.mem_append_right _ (List.mem_singleton_self _)
  · exact fun absent => absurd (present.symm.trans absent) (by decide)

theorem afterPrepare_effects (due : .afterPrepare after err ∈ held.tasks)
    (heard : ∀ cause ∈ err, n₀.Hears input cause)
    (gone : n.runtime.present = false → n₀.HearsLoss input) :
    Does n₀ input held n (n.afterPrepare after err) := by
  have working : (n.coreWith held).working = true := working_of_task held n due
  rw [afterPrepare.eq_def]
  split
  · exact completeWaiter_effects held n _ heard
  · exact .refl
  · exact .refl
  · exact push_two_effects held (.submits (.inr working)) (.plain rfl)
  · exact resolvePipeline_effects held n _ _ heard gone

theorem applyForward_effects (req : ForwardWriteRequest) (present : n.runtime.present = true) :
    Effects n₀ input ((n.coreWith held).ask req.operation n.record)
      ((n.applyForward req).coreWith held) := by
  rw [applyForward]
  split
  · rename_i habsent
    simp [present] at habsent
  split
  · exact .of_eq (startPrepareEffect_coreWith held n _ _ _)
  · exact startPreparedForwardPipeline_effects held n _ _ _ present

theorem ensureGapCatchup_effects : Does n₀ input held n n.ensureGapCatchup := by
  rw [ensureGapCatchup]
  split
  · exact .refl
  · exact .of_eq (by simp [coreWith, List.flatMap_append, RemoteCall.answers, RemoteCall.asked])

theorem forwardWriteReconciled_effects {req : ForwardWriteRequest} (taken : input = .event .task)
    (due : n.tasks.head? = some (.forwardWrite req)) :
    Effects n input ({ n with tasks := rest }.coreWith held)
      (({ n with tasks := rest }.forwardWriteReconciled req).coreWith held) := by
  rw [forwardWriteReconciled]
  split
  · exact .refl
  rename_i record hrecord
  have serving := replicationRecord_serving hrecord
  obtain rfl := replicationRecord_eq hrecord
  split
  · rename_i haside
    split
    · rename_i buffered hbuffered
      exact .single
        (.putAside taken due rfl serving ⟨haside.1, haside.2.1⟩ haside.2.2 hbuffered)
    · exact .refl
  · rename_i htaken
    have feeds : n.Feeds req := .received due serving fun h => htaken ⟨h.1.1, h.1.2, h.2⟩
    split
    · exact .refl
    · exact .refl
    · rename_i reduced hreduced
      refine .trans ?_ (ensureGapCatchup_effects held _)
      exact .single (.buffer taken feeds rfl hreduced)
    · rename_i reduced hreduced
      refine .trans ?_ (applyForward_effects held _ req rfl)
      exact .single (.stage taken feeds rfl hreduced)

theorem commitAdvanceReconciled_effects {req : CommitAdvanceRequest} (taken : input = .event .task)
    (due : n₀.tasks.head? = some (.commitAdvance req)) :
    Does n₀ input held n (n.commitAdvanceReconciled req) := by
  rw [commitAdvanceReconciled]
  split
  · exact .refl
  rename_i record hrecord
  have serving := replicationRecord_serving hrecord
  obtain rfl := replicationRecord_eq hrecord
  split
  · exact .refl
  rename_i hvalid
  have advanced := Effect.advance (c := n.coreWith held) taken due serving hvalid
  dsimp only
  split
  · exact .single advanced
  · have live : n.record.state ≠ .recovered := serving.live
    refine .trans ?_ (push_effects held (n := n.setRecord _) (.submits (.inl live)))
    exact .single advanced

/-! ## Draining, replaying and catching up -/

theorem drainReadyBuffered_effects : Does n₀ input held n n.drainReadyBuffered := by
  rw [drainReadyBuffered]
  split
  · exact .refl
  · exact reconcileThen_effects held (List.forall_mem_singleton.mpr (.plain rfl))

theorem drainAfterReconcile_effects : Does n₀ input held n n.drainAfterReconcile := by
  rw [drainAfterReconcile]
  split
  · exact .refl
  · exact push_two_effects held (.plain rfl) (.plain rfl)

theorem drainAfterAdvance_effects (taken : input = .event .task)
    (due : n.tasks.head? = some .drainAfterAdvance) :
    Effects n input ({ n with tasks := rest }.coreWith held)
      ({ n with tasks := rest }.drainAfterAdvance.coreWith held) := by
  rw [drainAfterAdvance]
  split
  · exact .refl
  split
  · rename_i req hreq
    split
    · rename_i reduced hreduced
      refine .trans ?_ (applyForward_effects held _ req rfl)
      exact .single (.stage taken (.drained due hreq) rfl hreduced)
    · exact .refl
  · exact ensureGapCatchup_effects held _

theorem schedulePreparedForwardReplayRetry_effects :
    Does n₀ input held n n.schedulePreparedForwardReplayRetry := by
  rw [schedulePreparedForwardReplayRetry]
  repeat' split
  · exact .refl
  · exact .refl
  · exact .refl
  · exact complete_effects held n .replayRetry rfl rfl rfl rfl

theorem replayPreparedForwards_effects : Does n₀ input held n n.replayPreparedForwards := by
  rw [replayPreparedForwards]
  dsimp only
  repeat' split
  · exact .refl
  · exact .refl
  · exact .refl
  have same : n₀.Tells input (n.coreWith held) _ := .same _
  have sends : n₀.Tells input (n.coreWith held) { (n.coreWith held).traffic with
      sent := (n.coreWith held).traffic.sent ++ replayableOperations n.record } := by
    refine { same with sent := ?_ }
    intro operation hmem
    rcases List.mem_append.mp hmem with hheld | hnew
    · exact .inl hheld
    · obtain ⟨entry, hentry, rfl⟩ := List.mem_filterMap.mp hnew
      obtain ⟨sequence, -, hprepared⟩ := List.mem_map.mp ((List.takeWhile_sublist _).subset hentry)
      exact .inr (.inr ⟨sequence, hprepared⟩)
  refine .trans (.single (.exchange sends)) (Effects.of_eq ?_)
  simp [coreWith, List.flatMap_append, List.flatMap_map, RemoteCall.answers, RemoteCall.asked,
    Message.acks, Message.forwards]

theorem replayReturned_effects (assignment : ReplicaAssignment) (err : Option Error) :
    Does n₀ input held n (n.replayReturned sequence assignment err) := by
  rw [replayReturned]
  split
  · exact push_effects held (.plain rfl)
  split
  · exact schedulePreparedForwardReplayRetry_effects held n
  · exact .refl

theorem commitAdvanceReturned_effects {index : Nat} {req : CommitAdvanceRequest}
    {nodeID target : String} (taken : input = .event (.callReturned index err))
    (returned : n₀.calls[index]? = some (.commitAdvance req nodeID target))
    (before : n.record = n₀.record) :
    Does n₀ input held n (n.commitAdvanceReturned req nodeID target err) := by
  rw [commitAdvanceReturned]
  dsimp only
  split
  · exact .refl
  rename_i hanswered
  have hnone : err = none := by
    cases err with
    | none => rfl
    | some err => simp at hanswered
  have present : n.runtime.present = true := by simpa [hnone] using hanswered
  split
  · exact push_effects held (.plain rfl)
  rename_i hmatches
  split
  · rename_i hbehind
    subst hnone
    rw [Bool.not_eq_true, Bool.not_eq_false'] at hmatches
    refine .trans ?_ (push_effects held (.plain rfl))
    exact .single (.confirm taken returned present hmatches hbehind before)
  · exact push_effects held (.plain rfl)

variable {plan : PredecessorSyncPlan} {highest : Nat} {reply : Option (Snapshot × Nat)}

theorem applyFetchedPredecessorSnapshot_effects {snapshot : Snapshot}
    (answered : n₀.delivered input = some (.activation plan, snapshot, highest))
    (same : n.record = n₀.record) :
    Does n₀ input held n (n.applyFetchedPredecessorSnapshot plan snapshot highest).1 := by
  rw [applyFetchedPredecessorSnapshot]
  dsimp only
  split
  · exact .refl
  rename_i hpresent
  have present : n.runtime.present = true := by simpa using hpresent
  split
  · exact .refl
  rename_i hsame
  simp only [not_or, not_not] at hsame
  split
  · exact .refl
  rename_i hahead
  split
  · rename_i hmissing
    exact .single (.drop (Option.isNone_iff_eq_none.mp hmissing))
  · rename_i hstored
    have stored : n.backend.isSome = true := by simpa [Option.isSome_iff_ne_none] using hstored
    refine .trans ?_ (persistThen_effects held (n := (n.installSnapshot snapshot highest).setRecord
      (reduceSyncedPredecessorState n.record highest) |>.allowSlot) (List.forall_mem_nil _))
    exact .single (.sync answered same present hsame.1 hsame.2.1 hsame.2.2
      (Nat.lt_of_not_le hahead) stored)

theorem catchupReturned_effects
    (answered : ∀ fetched ∈ reply, n₀.delivered input = some (.activation plan, fetched))
    (same : n.record = n₀.record) : Does n₀ input held n (n.catchupReturned plan reply) := by
  rw [catchupReturned.eq_def]
  dsimp only
  split
  · exact .refl
  · rename_i snapshot highest
    have applied : Does n₀ input held n
        ({ n with runtime := { n.runtime with catchupSyncInFlight := false } }
          |>.applyFetchedPredecessorSnapshot plan snapshot highest).1 :=
      applyFetchedPredecessorSnapshot_effects held
        { n with runtime := { n.runtime with catchupSyncInFlight := false } }
        (answered (snapshot, highest) rfl) same
    split
    · split
      · exact .trans applied (push_effects held (.plain rfl))
      · exact applied
    · exact push_effects held (.plain rfl)

/-! ## Clients and the materializer -/

theorem rememberLookup_effects {key : String} {metadata : Option ObjectMetadata}
    (lookup : n.committedMetadataState key = .ok metadata) :
    Does n₀ input held n (n.rememberLookup key metadata) := by
  refine .single (.lookup (c := n.coreWith held) ?_)
  have overlay : (n.coreWith held).record = n.record := rfl
  have cache : (n.coreWith held).cache = n.runtime.committedMetadata := rfl
  rw [Core.Finds, overlay, cache]
  rw [committedMetadataState] at lookup
  cases hoverlay : recordCommittedOverlayObject n.record key with
  | some object =>
    rw [hoverlay] at lookup
    exact (Except.ok.inj lookup).symm
  | none =>
    rw [hoverlay] at lookup
    cases hcache : n.runtime.committedMetadata[key]? with
    | some metadata =>
      rw [hcache] at lookup
      exact (Except.ok.inj lookup).symm
    | none =>
      rw [hcache] at lookup
      obtain ⟨object, hobject, rfl⟩ := Lib.map_eq_ok.mp lookup
      rw [getCommitted] at hobject
      split at hobject
      · rename_i data hdata
        exact ⟨data, hdata, by rw [Except.ok.inj hobject]⟩
      · cases hobject

variable {req : SubmitRequest}

theorem startWrite_effects {current : Option ObjectMetadata}
    (taken : input = .event (.submitWrite req)) (accepts : n₀.Accepts req current)
    (present : n.runtime.present = true)
    (same : n.record =
      sequenceWrite n₀.record (n₀.submittedOperation n₀.record req current) req.call) :
    Does n₀ input held n (n.startWrite n.record
      (n₀.submittedOperation n₀.record req current) req.call) := by
  have asked := Effect.ask (c := n.coreWith held) taken accepts same
  have place : n.record.assignment = n₀.record.assignment := by
    rw [same]
    rfl
  rw [startWrite.eq_def]
  split
  · exact .trans (.single asked) (Effects.of_eq (startPrepareEffect_coreWith held n _ _ _))
  · rename_i hrole
    split
    · rename_i hlast
      refine completeWaiter_effects held n _ ?_
      rintro _ ⟨⟩
      exact .alone taken accepts (place ▸ hrole) (place ▸ hlast)
    · exact .trans (.single asked) (startPreparedForwardPipeline_effects held n _ _ _ present)
  · exact .refl

theorem acceptWrite_effects {current : Option ObjectMetadata}
    (taken : input = .event (.submitWrite req)) (accepts : n₀.Accepts req current)
    (same : n.record = n₀.record) :
    Does n₀ input held n (n.acceptWrite n₀.record req
      (n₀.submittedOperation n₀.record req current)) := by
  rw [acceptWrite]
  refine .trans ?_ (startWrite_effects held (NodeSlot.setRecord _ _) taken accepts rfl rfl)
  refine .trans (.single (.submit (c := n.coreWith held) taken accepts same)) ?_
  exact register_effects held (n.setRecord _) req.call nofun

theorem submitWrite_effects (taken : input = .event (.submitWrite req)) :
    Effects n input (n.coreWith held) ((n.submitWrite req).coreWith held) := by
  rcases n.submitWrite_cases req with
    ⟨next, waiter, looked, refused, heq⟩ | ⟨current, accepts, heq⟩ <;> rw [heq]
  · refine .trans ?_ (register_effects held next req.call fun _ _ => refused)
    rcases looked with rfl | ⟨current, lookup, rfl⟩
    · exact .refl
    · exact rememberLookup_effects held n lookup
  · exact .trans (rememberLookup_effects held n accepts.lookup)
      (acceptWrite_effects held _ taken accepts rfl)

theorem releaseClientWrite_effects : Does n₀ input held n n.releaseClientWrite := by
  rw [releaseClientWrite]
  dsimp only
  split
  · exact .refl
  · rename_i hpresent
    have present : n.runtime.present = true := by simpa using hpresent
    exact .single (.release present)

theorem handleClientGet_effects (call : Nat) (req : ClientGetRequest) :
    Does n₀ input held n (n.handleClientGet call req) := by
  rw [handleClientGet]
  dsimp only
  repeat' split
  all_goals first
    | exact .refl
    | exact push_effects held (.plain rfl)

theorem markMaterialized_effects (applied : highest ∈ (n.coreWith held).materialized) :
    Does n₀ input held n (n.markMaterialized highest) := by
  rw [markMaterialized]
  split
  · exact .refl
  · rename_i hpresent
    have present : n.runtime.present = true := by simpa using hpresent
    exact .single (.prune present applied)

theorem materialize_core : n.materialize.core = n.core.materialize := by
  have backend : n.core.backend = n.backend := rfl
  have wanted : (n.core.materializing.filter fun commit =>
      !n.core.suppressed && n.core.shouldMaterializeCommit commit) =
        n.materializing.filter fun commit =>
          !n.suppressed && n.shouldMaterializeCommit commit := rfl
  rw [materialize, Core.materialize, wanted, backend]
  generalize (n.materializing.filter fun commit =>
    !n.suppressed && n.shouldMaterializeCommit commit) = commits
  by_cases hempty : commits = []
  · rw [if_pos hempty, if_pos hempty]
    rfl
  rw [if_neg hempty, if_neg hempty]
  cases hdata : n.backend with
  | none => rfl
  | some data =>
    rcases happlied : applyMaterializedBatch data commits with ⟨applied, _ | err⟩
    · simp only [happlied, core, coreWith, List.nil_append, List.flatMap_append, Completion.durable,
        Completion.heights, Completion.failures, List.flatMap_cons, List.flatMap_nil, List.append_nil,
        List.any_append, List.any_cons, List.any_nil, Completion.reportsPrepare, Bool.or_false]
    · simp only [happlied]
      rfl

/-! ## Commands -/

theorem finishJoin_effects {c : Core}
    (joined : Effect n₀ input c ((n.setRecord (joinedRecord assignment highest)).coreWith held))
    (due : (∃ source reply,
        n₀.tasks.head? = some (.awaitSnapshot (.join assignment) source reply)) ∨
      input = .event (.command (.addReplicaAsTail assignment)) ∧ n₀.runtime.present = false) :
    Effects n₀ input c ((n.finishJoin assignment highest).coreWith held) := by
  refine .trans (.single joined) ?_
  rw [finishJoin]
  split
  · exact .single (.abandon due)
  · exact .refl

theorem addReplicaAsTail_effects (taken : input = .event (.command (.addReplicaAsTail assignment))) :
    Effects n input (n.coreWith held) ((n.addReplicaAsTail assignment).coreWith held) := by
  rw [addReplicaAsTail]
  dsimp only
  split
  · exact .refl
  rename_i hpresent
  split
  · exact .refl
  split
  · exact .refl
  rename_i hbackend
  have absent : n.runtime.present = false := Bool.eq_false_iff.mpr hpresent
  have created := Effect.create (n := n) (c := n.coreWith held) taken absent
    (Option.not_isSome_iff_eq_none.mp hbackend)
  refine .trans (.single created) ?_
  split
  · exact finishJoin_effects held _ (.found taken rfl) (.inr ⟨taken, absent⟩)
  · rename_i hpredecessor
    refine await_effects held (n := { n with backend := some {} }.setRecord
      (joiningRecord assignment)) ?_
    rw [taken]
    exact ⟨absent, rfl, hpredecessor, rfl⟩

theorem joinFetched_effects {awaited : Option (Snapshot × Nat)}
    (due : n₀.tasks.head? = some (.awaitSnapshot (.join assignment) source awaited))
    (answered : ∀ fetched ∈ reply, n₀.delivered input = some (.join assignment, fetched)) :
    Does n₀ input held n (n.joinFetched assignment reply) := by
  cases reply with
  | none => exact .single (.abandon (.inl ⟨_, _, due⟩))
  | some fetched =>
    exact finishJoin_effects held _ (.join (answered fetched rfl)) (.inl ⟨_, _, due⟩)

theorem prepareActivation_effects (taken : input = .event (.command .prepareActivation)) :
    Does n₀ input held n n.prepareActivation := by
  rw [prepareActivation]
  repeat' split
  · exact .refl
  · exact .refl
  · refine await_effects held (n := { n with activation := .preparing }) ?_
    rw [taken]
    exact ⟨rfl, rfl⟩

theorem activationFetched_effects
    (answered : ∀ fetched ∈ reply, n₀.delivered input = some (.activation plan, fetched))
    (same : n.record = n₀.record) : Does n₀ input held n (n.activationFetched plan reply) := by
  cases reply with
  | none => exact .refl
  | some fetched =>
    rw [activationFetched]
    split
    · exact applyFetchedPredecessorSnapshot_effects held n (answered fetched rfl) same
    · exact .refl

theorem activateReplicaReady_effects
    (taken : input = .event (.command .activateReplicaReady)) :
    Does n₀ input held n n.activateReplicaReady := by
  rw [activateReplicaReady]
  dsimp only
  split
  · exact .refl
  split
  · exact .refl
  rename_i hstate
  simp only [Bool.or_eq_true, decide_eq_true_eq, not_or, not_not] at hstate
  have present : n.runtime.present = true := by simpa using hstate.1
  refine .trans ?_ (persistThen_effects held (List.forall_mem_singleton.mpr (.plain rfl)))
  exact .single (.restate (c := n.coreWith held) present (.inl ⟨hstate.2, rfl⟩) (.inl taken))

theorem markReplicaLeaving_effects (taken : input = .event (.command .markReplicaLeaving)) :
    Does n₀ input held n n.markReplicaLeaving := by
  rw [markReplicaLeaving]
  dsimp only
  split
  · exact .refl
  rename_i hstate
  simp only [Bool.or_eq_true, decide_eq_true_eq, not_or, not_not] at hstate
  have present : n.runtime.present = true := by simpa using hstate.1
  refine .trans ?_ (persistThen_effects held (List.forall_mem_nil _))
  exact .single (.restate (c := n.coreWith held) present (.inr ⟨hstate.2, rfl⟩) (.inr taken))

theorem removeReplica_effects (taken : input = .event (.command .removeReplica)) :
    Does n₀ input held n n.removeReplica := by
  rw [removeReplica]
  split
  · exact .refl
  split
  · exact .single (.vanish taken)
  split
  · exact .refl
  split
  · rename_i hmissing
    exact .single (.drop (Option.isNone_iff_eq_none.mp hmissing))
  · exact .single (.remove (.inl taken))

theorem dropRecoveredReplica_effects (taken : input = .event (.command .dropRecoveredReplica)) :
    Does n₀ input held n n.dropRecoveredReplica := by
  rw [dropRecoveredReplica]
  split
  · exact .refl
  · exact .single (.remove (.inr taken))

theorem updateChainPeers_effects (taken : input = .event (.command (.updateChainPeers assignment)))
    (same : n.record = n₀.record) : Does n₀ input held n (n.updateChainPeers assignment) := by
  rw [updateChainPeers]
  dsimp only
  split
  · exact .refl
  rename_i hstate
  simp only [Bool.or_eq_true, decide_eq_true_eq, not_or] at hstate
  have present : n.runtime.present = true := by simpa using hstate.1
  have reassigns := Effect.reassign (n := n₀) (c := n.coreWith held) taken same present hstate.2
  refine .trans (.single reassigns) (persistThen_effects held
    (n := n.setRecord (reassigned n.record assignment)) ?_)
  rw [afterUpdate]
  split
  · exact List.forall_mem_nil _
  rename_i hactive
  have submits : (Task.submitCommitWatermarkReady (reassigned n.record assignment)).Known
      ((n.setRecord (reassigned n.record assignment)).coreWith held) := by
    refine .submits (.inl fun hrecovered => hactive fun active => ?_)
    exact absurd (active.symm.trans hrecovered) (by decide)
  have replays : Task.ensureUpstreamCommitReplay.Known
      ((n.setRecord (reassigned n.record assignment)).coreWith held) := .plain rfl
  split
  · exact List.forall_mem_cons.mpr ⟨submits, List.forall_mem_cons.mpr
      ⟨.plain rfl, List.forall_mem_singleton.mpr replays⟩⟩
  · exact List.forall_mem_cons.mpr ⟨submits, List.forall_mem_singleton.mpr replays⟩

theorem finishResume_effects {committed : Nat}
    (resumes : n₀.resumption input = some (assignment, committed))
    (recovered : n.record.state = .recovered ∧ n.core.resumes = [] ∨
      n₀.core.resumes = assignment :: n.core.resumes) (same : n.record = n₀.record) :
    Effects n₀ input n.core (n.finishResume assignment committed).core := by
  refine .trans ?_ (persistThen_effects {} (List.forall_mem_singleton.mpr (.plain rfl)))
  exact .single (.resume (c := n.core) resumes recovered same)

theorem resumeRecoveredReplica_effects
    (taken : input = .event (.command (.resumeRecoveredReplica assignment))) (idle : n.tasks = []) :
    Effects n input n.core (n.resumeRecoveredReplica assignment).core := by
  have resumption : n.resumption input =
      n.resumption (.event (.command (.resumeRecoveredReplica assignment))) := by rw [taken]
  simp only [NodeSlot.resumption] at resumption
  have none : n.core.resumes = [] := by simp [core, coreWith, idle]
  rw [resumeRecoveredReplica]
  split
  · exact .refl
  rename_i hstate
  rw [if_neg hstate] at resumption
  have recovered : n.record.state = .recovered := by
    by_contra hnot
    simp [hnot] at hstate
  split
  · rename_i hlast
    rw [if_pos hlast] at resumption
    exact finishResume_effects n resumption (.inl ⟨recovered, none⟩) rfl
  rename_i hsuccessor
  rw [if_neg hsuccessor] at resumption
  split
  · exact awaitTail_effects taken recovered idle
  · rename_i htail
    rw [if_neg htail] at resumption
    exact finishResume_effects n resumption (.inl ⟨recovered, none⟩) rfl

theorem recoverReplica_effects
    (taken : input = .event (.command (.recoverReplica assignment source))) :
    Effects n input (n.coreWith held) ((n.recoverReplica assignment source).coreWith held) := by
  rw [recoverReplica]
  split
  · exact .refl
  rename_i hstate
  have allowed : n.runtime.present = false ∨ n.record.state = .recovered := by
    by_cases hpresent : n.runtime.present = true
    · exact .inr (by simpa [hpresent] using hstate)
    · exact .inl (Bool.eq_false_iff.mpr hpresent)
  split
  · exact .refl
  · refine .trans (.single (.startRebuild taken)) ?_
    refine await_effects held (n := { n with backend := some (n.backend.getD {}) }) ?_
    rw [taken]
    exact ⟨allowed, rfl, rfl⟩

theorem recoverFetched_effects
    (answered : ∀ fetched ∈ reply, n₀.delivered input = some (.recover assignment, fetched)) :
    Does n₀ input held n (n.recoverFetched assignment reply) := by
  cases reply with
  | none => exact .refl
  | some fetched =>
    refine .trans ?_ (persistThen_effects held (List.forall_mem_nil _))
    exact .single (.rebuild (answered fetched rfl))

theorem runCommand_effects {command : Command} (taken : input = .event (.command command))
    (idle : n.tasks = []) : Effects n input n.core (n.runCommand command).core := by
  cases command with
  | addReplicaAsTail assignment => exact addReplicaAsTail_effects {} n taken
  | prepareActivation => exact prepareActivation_effects {} n taken
  | activateReplicaReady => exact activateReplicaReady_effects {} n taken
  | markReplicaLeaving => exact markReplicaLeaving_effects {} n taken
  | removeReplica => exact removeReplica_effects {} n taken
  | updateChainPeers assignment => exact updateChainPeers_effects {} n taken rfl
  | resumeRecoveredReplica assignment => exact resumeRecoveredReplica_effects n taken idle
  | recoverReplica assignment source => exact recoverReplica_effects {} n taken
  | dropRecoveredReplica => exact dropRecoveredReplica_effects {} n taken

/-! ## Steps -/

theorem runCompletion_effects {completion : Completion} (taken : completion ∈ held.completions) :
    Does n₀ input held n (n.runCompletion completion) := by
  cases completion with
  | prepared operation after err => exact prepareReturned_effects held n taken
  | headCommitRange sequence err => exact headCommitRangeReturned_effects held n sequence err
  | drain | replayRetry => exact push_effects held (n := { n with runtime := _ }) (.plain rfl)
  | materialized highest =>
    refine markMaterialized_effects held n ?_
    exact List.mem_flatMap.mpr ⟨_, List.mem_append_left _ taken, List.mem_singleton_self _⟩

theorem callReturned_effects {index : Nat} {call : RemoteCall}
    (taken : input = .event (.callReturned index err)) (returned : n₀.calls[index]? = some call)
    (before : n.runtime = n₀.runtime) : Does n₀ input held n (n.callReturned err call) := by
  have same : n.record = n₀.record := congrArg SlotRuntime.record before
  cases call with
  | forward pipeline assignment =>
    refine forwardReturned_effects held n pipeline assignment ?_ fun absent _ _ =>
      .lost taken returned (before ▸ absent)
    rintro cause rfl
    exact .returned taken returned
  | replay sequence assignment => exact replayReturned_effects held n sequence assignment err
  | commitAdvance req nodeID target =>
    exact commitAdvanceReturned_effects held n taken returned same
  | catchup plan reply =>
    refine catchupReturned_effects held n ?_ same
    intro fetched hfetched
    cases err with
    | none =>
      obtain rfl : reply = some fetched := hfetched
      rw [taken, delivered, returned]
    | some err => simp at hfetched

variable {next started : NodeSlot}

theorem runTask_effects (taken : input = .event .task) (due : n.tasks = task :: rest)
    (hrun : { n with tasks := rest }.runTask task = some next) :
    Effects n input ({ n with tasks := rest }.coreWith { tasks := [task] })
      (next.coreWith { tasks := [task] }) := by
  have first : n.tasks.head? = some task := by rw [due, List.head?_cons]
  cases task <;> cases hrun
  case submitCommitWatermarkReady record =>
    exact submitCommitWatermarkReady_effects _ _ List.mem_cons_self
  case applyCommitWatermark sequence =>
    exact applyCommitWatermark_effects _ { n with tasks := rest } sequence rfl
  case ensureUpstreamCommitReplay => exact ensureUpstreamCommitReplay_effects _ _
  case drainReadyBuffered => exact drainReadyBuffered_effects _ _
  case drainAfterReconcile => exact drainAfterReconcile_effects _ _
  case drainAfterAdvance => exact drainAfterAdvance_effects _ n taken first
  case advanceAcceptedCommitProgress => exact advanceAcceptedCommitProgress_effects _ _
  case gapRepaired record => exact gapRepaired_effects _ _ List.mem_cons_self
  case advanceAfterGapCheck record => exact advanceAfterGapCheck_effects _ _ List.mem_cons_self
  case afterPrepare after err =>
    refine afterPrepare_effects _ _ (List.mem_singleton_self _) ?_ fun absent _ _ =>
      .gone taken due absent
    intro cause hmem
    have told : cause ∈ (Task.afterPrepare after err).failures := Option.mem_toList.mpr hmem
    exact .failed (List.mem_append_left _ (List.mem_flatMap.mpr ⟨_, due ▸ List.mem_cons_self, told⟩))
  case scheduleDrainReadyBuffered => exact scheduleDrainReadyBuffered_effects _ _
  case forwardWrite req => exact forwardWriteReconciled_effects _ n taken first
  case commitAdvance req => exact commitAdvanceReconciled_effects _ _ taken first
  case replayPreparedForwards => exact replayPreparedForwards_effects _ _

theorem release_effects : Effects n₀ input (n.coreWith held) n.core := by
  have within : ∀ {α β : Type} (f : α → List β) (before after : List α),
      after.flatMap f ⊆ (before ++ after).flatMap f := by
    intro α β f before after item hmem
    rw [List.flatMap_append]
    exact List.mem_append_right _ hmem
  have working : n.core.working = true → (n.coreWith held).working = true := by
    intro hworking
    simp only [core, coreWith, List.nil_append, List.any_append, Bool.or_eq_true] at hworking ⊢
    rcases hworking with (hmade | hreported) | hdue
    · exact .inl (.inl hmade)
    · exact .inl (.inr (.inr hreported))
    · exact .inr (.inr hdue)
  have carried : Effect n₀ input { n.coreWith held with traffic := n.core.traffic }
      { n.coreWith held with
        copies := n.core.copies
        ready := n.core.ready
        working := n.core.working
        awaits := n.core.awaits
        answers := n.core.answers
        resumes := n.core.resumes
        asked := n.core.asked
        traffic := n.core.traffic } := by
    refine .carry ?_ ?_ working (within _ _ _) ?_ ?_ (within _ _ _)
    · exact fun copy hmem => .inl (within _ _ _ hmem)
    · exact fun copy hmem => .inl (within _ _ _ hmem)
    · intro answer hmem
      rcases List.mem_append.mp hmem with hmem | hmem
      · exact List.mem_append_left _ (within _ _ _ hmem)
      · exact List.mem_append_right _ (within _ _ _ hmem)
    · simp only [core, coreWith, List.nil_append, List.flatMap_append]
      exact List.sublist_append_right _ _
  have same : n₀.Tells input (n.coreWith held) _ := .same _
  have dropped : n₀.Tells input (n.coreWith held) n.core.traffic := by
    refine { same with
      forwards := fun operation hmem => .inl (within _ _ _ hmem)
      failures := ?_ }
    intro err hmem
    rcases List.mem_append.mp hmem with hmem | hmem
    · exact .inl (List.mem_append_left _ (within _ _ _ hmem))
    · exact .inl (List.mem_append_right _ (within _ _ _ hmem))
  exact .trans (.trans (.single (.exchange dropped)) (.single carried))
    (.single (.forget (within _ _ _) (within _ _ _) id))

theorem snapshotReplied_effects {use : SnapshotUse} {awaited : Option (Snapshot × Nat)}
    (due : n₀.tasks.head? = some (.awaitSnapshot use source awaited))
    (answered : ∀ fetched ∈ reply, n₀.delivered input = some (use, fetched))
    (same : n.record = n₀.record) : Does n₀ input held n (n.snapshotReplied use reply) := by
  cases use with
  | join assignment => exact joinFetched_effects held n due answered
  | activation plan => exact activationFetched_effects held n answered same
  | recover assignment => exact recoverFetched_effects held n answered

theorem runReply_effects {succeeded : Bool} (taken : input = .event (.replied succeeded))
    (due : n.tasks = task :: rest)
    (hrun : { n with tasks := rest }.runReply succeeded task = some next) :
    Effects n input n.core next.core := by
  have first : n.tasks.head? = some task := by rw [due, List.head?_cons]
  have popped : Effects n input n.core { n with tasks := rest }.core := by
    refine .trans (Effects.of_eq ?_) (release_effects { tasks := [task] } { n with tasks := rest })
    simp [core, coreWith, due]
  refine .trans popped ?_
  rw [runReply.eq_def] at hrun
  split at hrun
  · rename_i use source reply
    split at hrun
    · rename_i hsucceeded
      obtain ⟨fetched, rfl, rfl⟩ := Option.map_eq_some_iff.mp hrun
      refine snapshotReplied_effects {} _ first ?_ rfl
      rintro _ ⟨⟩
      rw [taken, hsucceeded, delivered, due]
    · cases hrun
      exact snapshotReplied_effects {} _ first (by simp) rfl
  · rename_i use source reply
    cases use with
    | read read =>
      split at hrun
      · obtain ⟨committed, -, rfl⟩ := Option.map_eq_some_iff.mp hrun
        exact .refl
      · cases hrun
        exact .refl
    | resume assignment =>
      have resumption : n.resumption input =
          if succeeded then
            reply.map fun committed => (assignment, max n.record.highestCommittedSequence
              (min committed n.record.highestPreparedDurable))
          else some (assignment, n.record.highestCommittedSequence) := by
        rw [taken, NodeSlot.resumption]
        simp only [due]
      have resumes : n.core.resumes = assignment :: { n with tasks := rest }.core.resumes := by
        simp [core, coreWith, due, Task.resumes]
      split at hrun
      · rename_i hsucceeded
        rw [if_pos hsucceeded] at resumption
        obtain ⟨committed, rfl, rfl⟩ := Option.map_eq_some_iff.mp hrun
        exact finishResume_effects { n with tasks := rest } resumption (.inr resumes) rfl
      · rename_i hfailed
        rw [if_neg hfailed] at resumption
        cases hrun
        exact finishResume_effects { n with tasks := rest } resumption (.inr resumes) rfl
  · cases hrun

theorem flushPrepare_effects (taken : input = .event (.flushPrepare err))
    (hflush : n.flushPrepare err = some next) : Effects n input n.core next.core := by
  rw [flushPrepare] at hflush
  split at hflush
  · cases hflush
  rename_i intent rest hprepares
  have first : n.core.prepares = intent.prepare :: rest.map (·.prepare) := by
    simp [core, coreWith, hprepares]
  let reports := intent.after.toList.map fun after =>
    Completion.prepared intent.prepare.operation after err
  have heights : reports.flatMap Completion.heights = [] := by
    simp only [reports]
    cases intent.after <;> rfl
  have reporting : reports.any Completion.reportsPrepare = intent.after.isSome := by
    simp only [reports]
    cases intent.after <;> rfl
  have working : (rest.any (·.after.isSome) || !n.pipelines.isEmpty ||
      (n.completions ++ reports).any Completion.reportsPrepare ||
      n.tasks.any Task.finishesPrepare) = n.core.working := by
    simp only [core, coreWith, hprepares, List.nil_append, List.any_append, List.any_cons, reporting]
    cases intent.after.isSome <;> simp
  let flushed (journal : List JournalRecord) : Core :=
    { n.core with
      prepares := rest.map (·.prepare)
      journal
      prepared := n.core.prepared ++ reports.flatMap Completion.durable }
  have reported : ∀ journal, { n with
      prepares := rest, journal, completions := n.completions ++ reports }.core =
        { flushed journal with
          traffic := { n.core.traffic with
            failures := n.core.traffic.failures ++ reports.flatMap Completion.failures } } := by
    intro journal
    dsimp only [flushed]
    rw [← working]
    simp only [core, coreWith, List.nil_append, List.flatMap_append, heights, List.append_nil,
      List.append_assoc]
  have passes : ∀ journal, n.Tells input (flushed journal) { n.core.traffic with
      failures := n.core.traffic.failures ++ reports.flatMap Completion.failures } := by
    intro journal
    have same : n.Tells input (flushed journal) _ := .same _
    refine { same with failures := ?_ }
    intro cause hmem
    rcases List.mem_append.mp hmem with hheld | hnew
    · exact .inl hheld
    · obtain ⟨report, hreport, hcause⟩ := List.mem_flatMap.mp hnew
      obtain ⟨after, -, rfl⟩ := List.mem_map.mp hreport
      exact .inr (taken.trans (by rw [Option.mem_toList.mp hcause]))
  cases hflush
  refine .trans (.trans ?_ (.single (.exchange (passes _)))) (Effects.of_eq (reported _))
  cases err with
  | none =>
    refine .single (.flush taken first ?_ id)
    have durable : reports.flatMap Completion.durable ⊆ [intent.prepare.operation] := by
      simp only [reports]
      cases intent.after <;> simp [Completion.durable]
    intro operation hmem
    rcases List.mem_append.mp hmem with hmem | hmem
    · exact List.mem_cons_of_mem _ hmem
    · exact List.mem_cons.mpr (.inl (List.mem_singleton.mp (durable hmem)))
  | some err =>
    have durable : reports.flatMap Completion.durable = [] := by
      simp only [reports]
      cases intent.after <;> rfl
    simp only [flushed, durable, List.append_nil]
    exact .single (.flushFailed (c := n.core) first id)

theorem flushCommitRange_effects {chainVersion count : Nat}
    (hflush : n.flushCommitRange chainVersion count err = some next) :
    Effects n₀ input n.core next.core := by
  have silent : ∀ intents : List SequenceIntent,
      ((intents.filter (·.live)).map fun intent =>
        Completion.headCommitRange intent.sequence err).flatMap Completion.durable = [] ∧
      ((intents.filter (·.live)).map fun intent =>
        Completion.headCommitRange intent.sequence err).flatMap Completion.heights = [] ∧
      ((intents.filter (·.live)).map fun intent =>
        Completion.headCommitRange intent.sequence err).any Completion.reportsPrepare = false ∧
      ((intents.filter (·.live)).map fun intent =>
        Completion.headCommitRange intent.sequence err).flatMap Completion.failures = [] := by
    intro intents
    simp [List.flatMap_map, Completion.durable, Completion.heights, Completion.reportsPrepare,
      Completion.failures]
  rw [flushCommitRange] at hflush
  dsimp only at hflush
  split at hflush
  · cases hflush
  split at hflush
  · cases hflush
    exact Effects.of_eq (by simp [core, coreWith, List.flatMap_append, silent])
  · rename_i first intents rest htaken hanswered
    cases hflush
    let highest := highestIntent first intents
    have noted : Effect n₀ input n.core { n.core with
        journal := n.core.journal ++
          [journalRecordFromHeadCommitRange highest.assignment highest.sequence] } :=
      .note fun _ => trivial
    exact .trans (.single noted)
      (Effects.of_eq (by simp [core, coreWith, List.flatMap_append, silent, highest]))

theorem flushConfirm_effects {chainVersion count : Nat}
    (hflush : n.flushConfirm chainVersion count err = some next) :
    Effects n₀ input n.core next.core := by
  rw [flushConfirm] at hflush
  dsimp only at hflush
  split at hflush
  · cases hflush
  cases hflush
  split
  · exact .refl
  · exact .single (.note (c := n.core) fun _ => trivial)

theorem whenIdle_effects (h : Effects n₀ input n₀.core (started.coreWith held))
    (hidle : n.whenIdle started = some next) : Effects n₀ input n₀.core next.core := by
  simp only [whenIdle, Option.ite_none_right_eq_some, Option.some.injEq] at hidle
  exact hidle.2 ▸ .trans h (release_effects held started)

theorem whenOpen_effects (h : Effects n₀ input n₀.core started.core)
    (hopen : n.whenOpen started = some next) : Effects n₀ input n₀.core next.core := by
  simp only [whenOpen, Option.ite_none_left_eq_some] at hopen
  exact whenIdle_effects {} n h hopen.2

theorem idle_of_whenOpen (hopen : n.whenOpen started = some next) : n.tasks = [] := by
  simp only [whenOpen, whenIdle, Option.ite_none_left_eq_some, Option.ite_none_right_eq_some] at hopen
  exact hopen.2.1

theorem evictSlotOwner_core : n.evictSlotOwner.core = n.core.evict := by
  simp [evictSlotOwner, core, coreWith, Core.evict, Core.absent]

theorem taken_subset {α : Type} {items : List α} {index : Nat} {item : α}
    (h : items[index]? = some item) : item :: items.eraseIdx index ⊆ items :=
  List.cons_subset.mpr ⟨List.mem_of_getElem? h, List.eraseIdx_subset⟩

theorem flatMap_taken_subset {α β : Type} {items : List α} {index : Nat} {item : α}
    (h : items[index]? = some item) (f : α → List β) :
    (item :: items.eraseIdx index).flatMap f ⊆ items.flatMap f := by
  intro made hmem
  obtain ⟨other, hother, hmade⟩ := List.mem_flatMap.mp hmem
  exact List.mem_flatMap.mpr ⟨other, taken_subset h hother, hmade⟩

theorem step_effects {event : NodeEvent} (hstep : n.step event = some next) :
    Effects n (.event event) n.core next.core := by
  cases event with
  | submitWrite req =>
    simp only [step, Option.ite_none_left_eq_some] at hstep
    exact whenOpen_effects n (submitWrite_effects {} n rfl) hstep.2
  | clientGet call req =>
    simp only [step, Option.ite_none_left_eq_some] at hstep
    exact whenOpen_effects n (handleClientGet_effects {} n call req) hstep.2
  | releaseClientWrite => exact whenOpen_effects n (releaseClientWrite_effects {} n) hstep
  | drain => exact whenOpen_effects n (push_effects {} (.plain rfl)) hstep
  | completion index =>
    obtain ⟨completion, hcompletion, hstep⟩ := Option.bind_eq_some_iff.mp hstep
    have within {β : Type} (f : Completion → List β) := flatMap_taken_subset hcompletion f
    refine whenIdle_effects { completions := [completion] } n (.trans ?_
      (runCompletion_effects _ _ (List.mem_singleton_self _))) hstep
    let taken := { n with completions := n.completions.eraseIdx index }.coreWith
      { completions := [completion] }
    have same : n.Tells (.event (.completion index)) n.core _ := .same _
    have kept : n.Tells (.event (.completion index)) n.core taken.traffic := by
      refine { same with failures := ?_ }
      intro err hmem
      rcases List.mem_append.mp hmem with hmem | hmem
      · exact .inl (List.mem_append_left _ hmem)
      · exact .inl (List.mem_append_right _ (within _ hmem))
    refine .trans (.single (.exchange kept)) (.single (.forget
      (c := { n.core with traffic := taken.traffic }) (within _) (within _) ?_))
    intro hworking
    simp only [core, coreWith, List.nil_append, Bool.or_eq_true, List.any_eq_true] at hworking ⊢
    rcases hworking with (hmade | ⟨other, hother, hreports⟩) | hdue
    · exact .inl (.inl hmade)
    · exact .inl (.inr ⟨other, taken_subset hcompletion hother, hreports⟩)
    · exact .inr hdue
  | callReturned index err =>
    obtain ⟨call, hcall, hstep⟩ := Option.bind_eq_some_iff.mp hstep
    refine whenIdle_effects { calls := [call] } n (.trans ?_
      (callReturned_effects _ { n with calls := n.calls.eraseIdx index } rfl hcall rfl)) hstep
    have within {β : Type} (f : RemoteCall → List β) := flatMap_taken_subset hcall f
    refine .single (.carry (c := n.core) (fun copy hmem => .inl hmem) (fun copy hmem => .inl hmem)
      id (List.Subset.refl _) ?_ (List.Sublist.refl _) (within _))
    intro answer hmem
    rcases List.mem_append.mp hmem with hmem | hmem
    · exact List.mem_append_left _ hmem
    · exact List.mem_append_right _ (within _ hmem)
  | command command =>
    exact whenOpen_effects n (runCommand_effects n rfl (n.idle_of_whenOpen hstep)) hstep
  | evict =>
    simp only [step, Option.ite_none_right_eq_some] at hstep
    refine whenIdle_effects {} n (.trans (.single (.evict rfl)) (Effects.of_eq ?_)) hstep.2
    exact evictSlotOwner_core n
  | task =>
    simp only [step] at hstep
    split at hstep
    · cases hstep
    rename_i task rest htasks
    refine .trans (.trans (Effects.of_eq ?_) (runTask_effects n rfl htasks hstep))
      (release_effects _ next)
    simp [core, coreWith, htasks]
  | replied succeeded =>
    simp only [step] at hstep
    split at hstep
    · cases hstep
    rename_i task rest htasks
    exact runReply_effects n rfl htasks hstep
  | flushPrepare err => exact flushPrepare_effects n rfl hstep
  | flushCommitRange chainVersion count err => exact flushCommitRange_effects n hstep
  | flushConfirm chainVersion count err => exact flushConfirm_effects n hstep
  | acceptSubmitted count =>
    cases hstep
    exact .single (.accept (c := n.core) count)
  | materialize =>
    cases hstep
    exact .trans (.single .materialize) (Effects.of_eq (materialize_core n))
  | setLoad load =>
    cases hstep
    exact .refl
  | readyReported accepted =>
    cases hstep
    rw [readyReported]
    split <;> exact .refl

/-- Whatever happens to a node is a sequence of moves on its data. -/
theorem take_effects {input : NodeInput} (htake : n.take input = some next) :
    Effects n input n.core next.core := by
  cases input with
  | event event => exact step_effects n htake
  | message message =>
    refine whenOpen_effects n ?_ htake
    cases message with
    | forward target req =>
      let held : Held := { tasks := [.forwardWrite req] }
      have same : n.Tells (.message (.forward target req)) n.core _ := .same _
      have received : Effect n (.message (.forward target req)) n.core (n.coreWith held) := by
        refine .exchange { same with forwards := ?_ }
        intro operation hmem
        rcases List.mem_cons.mp hmem with rfl | hheld
        · exact .inr ⟨target, req, rfl, rfl⟩
        · exact .inl hheld
      refine .trans (.trans (.single received) (reconcileThen_effects held ?_)) (release_effects held _)
      refine List.forall_mem_singleton.mpr ⟨List.forall_mem_nil _, List.forall_mem_nil _,
        Bool.noConfusion, ⟨rfl, rfl, rfl⟩, ?_, List.nil_subset _⟩
      exact List.cons_subset_cons _ (List.nil_subset _)
    | commitAdvance target req =>
      exact reconcileThen_effects {} (List.forall_mem_singleton.mpr (.plain rfl))
  | snapshot reply =>
    simp only [take] at htake
    split at htake
    · rename_i use source rest htasks
      cases htake
      have answered : Effect n (.snapshot reply) n.core
          { n.core with answers := (use, reply) :: n.core.answers } :=
        .answer (.snapshot htasks) (List.Subset.refl _)
      refine .trans (.single answered) (Effects.of_eq ?_)
      simp [core, coreWith, htasks, Task.copies, Task.ready, Task.finishesPrepare, Task.awaits,
        Task.answers, Task.resumes, Task.forwards, Task.failures]
    · cases htake
  | catchup index reply =>
    simp only [take] at htake
    split at htake
    · rename_i plan hcall
      cases htake
      have called : (n.calls.set index (.catchup plan (some reply))).flatMap RemoteCall.asked ⊆
          n.calls.flatMap RemoteCall.asked := by
        intro sequence hmem
        obtain ⟨other, hother, hasked⟩ := List.mem_flatMap.mp hmem
        rcases List.mem_or_eq_of_mem_set hother with hother | rfl
        · exact List.mem_flatMap.mpr ⟨other, hother, hasked⟩
        · cases hasked
      have answered : n.tasks.flatMap Task.answers ++
          (n.calls.set index (.catchup plan (some reply))).flatMap RemoteCall.answers ⊆
          (.activation plan, reply) :: n.core.answers := by
        intro answer hmem
        rcases List.mem_append.mp hmem with hmem | hmem
        · exact List.mem_cons_of_mem _ (List.mem_append_left _ hmem)
        obtain ⟨other, hother, hanswer⟩ := List.mem_flatMap.mp hmem
        rcases List.mem_or_eq_of_mem_set hother with hother | rfl
        · refine List.mem_cons_of_mem _ (List.mem_append_right _ ?_)
          exact List.mem_flatMap.mpr ⟨other, hother, hanswer⟩
        · exact List.mem_cons.mpr (.inl (List.mem_singleton.mp hanswer))
      refine .trans (.single (.answer (c := n.core) (.catchup hcall) answered)) (.single ?_)
      exact .carry (fun copy hmem => .inl hmem) (fun copy hmem => .inl hmem) id
        (List.Subset.refl _) (List.Subset.refl _) (List.Sublist.refl _) called
    · cases htake
  | tail committed =>
    simp only [take] at htake
    split at htake
    · rename_i use source rest htasks
      cases htake
      refine Effects.of_eq ?_
      cases use <;> simp [core, coreWith, htasks, Task.copies, Task.ready, Task.finishesPrepare,
        Task.awaits, Task.answers, Task.resumes, Task.forwards, Task.failures]
    · cases htake
  | restart =>
    cases htake
    exact .single (.restart rfl)

theorem take_keeps {P : Core → Prop} {input : NodeInput} (htake : n.take input = some next)
    (start : P n.core) (keeps : ∀ {c d : Core}, P c → Effect n input c d → P d) : P next.core := by
  have moves := n.take_effects htake
  generalize next.core = reached at moves ⊢
  induction moves with
  | refl => exact start
  | tail _ hmove ih => exact keeps ih hmove

end NodeSlot

end Craq.Storage
